import Mathlib.Tactic.Tauto
import Playground.Number.Format

/-!
# The characters of numbers

A number without an exponent is written with decimal digits, a point, a sign and the letters of the
names `inf` and `NaN`.
-/

namespace Playground

/-- The digits of a number are decimal digits. -/
theorem Number.isDigit_of_mem_shortestDigits (choice : DigitChoice) (units : Nat)
    {character : Char} (member : character ∈ (shortestDigits choice units).digits) :
    character.isDigit = true := by
  unfold shortestDigits at member
  generalize searchDigits choice (roundingInterval units) (leadingPosition units) 0 17 = found
    at member
  dsimp only at member
  rw [List.mem_reverse] at member
  have inside := (List.dropWhile_suffix (· == '0')).subset member
  exact Nat.isDigit_of_mem_toDigits (by decide) (by decide) (List.mem_reverse.mp inside)

theorem DigitText.mem_positional {text : DigitText} {character : Char}
    (member : character ∈ text.positional) :
    character ∈ text.digits ∨ character = '0' ∨ character = '.' := by
  unfold DigitText.positional at member
  dsimp only at member
  split at member
  · simp at member
    tauto
  · split at member
    · simp at member
      tauto
    · rcases List.mem_append.mp member with before | after
      · exact .inl (List.mem_of_mem_take before)
      · rcases List.mem_cons.mp after with point | rest
        · exact .inr (.inr point)
        · exact .inl (List.mem_of_mem_drop rest)

theorem DigitText.format_plain (text : DigitText) : text.format .plain = text.positional := rfl

/-- No other character stands in a number. -/
theorem Number.not_mem_format (number : Number) {character : Char}
    (noDigit : character.isDigit = false) (foreign : character ∉ ".-infNa".toList) :
    character ∉ (number.format .plain).toList := by
  have apart : ∀ {text : List Char}, text ⊆ ".-infNa".toList → character ∉ text :=
    fun inside member => foreign (inside member)
  have sign : ∀ negative : Prop, [Decidable negative] →
      character ∉ (if negative then "-" else "").toList := by
    intro negative _
    split
    · exact apart (by decide)
    · exact apart (by decide)
  cases number with
  | nan => exact apart (by decide)
  | infinite negative =>
    rw [Number.format, String.toList_append, List.mem_append, not_or]
    exact ⟨sign _, apart (by decide)⟩
  | finite units =>
    rw [Number.format]
    split
    · rintro zero
      obtain rfl := List.mem_singleton.mp zero
      exact absurd noDigit (by decide)
    · rw [String.toList_append, List.mem_append, not_or, String.toList_ofList,
        DigitText.format_plain]
      refine ⟨sign _, fun member => ?_⟩
      obtain digit | rfl | rfl := DigitText.mem_positional member
      · exact Bool.false_ne_true (noDigit.symm.trans (isDigit_of_mem_shortestDigits _ _ digit))
      · exact absurd noDigit (by decide)
      · exact foreign (by decide)

end Playground
