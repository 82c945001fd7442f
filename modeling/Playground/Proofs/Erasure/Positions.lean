import Playground.Erasure.Fault

/-!
# Places of offsets

A place in a text is a line and a column. Going over the lines before it, each ended by a line feed,
and then over the characters before it in its line leads back to its offset (`offset?_ofOffset`).
So no two offsets share a place, and places are ordered as their offsets are
(`before_ofOffset_iff`).
-/

namespace Playground

/-- The number of characters in so many lines, each ended by a line feed, at the front of a text. -/
def linesLength? : Nat → List Char → Option Nat
  | 0, _ => some 0
  | _ + 1, [] => none
  | lines + 1, character :: rest =>
    (linesLength? (if character = '\n' then lines else lines + 1) rest).map (· + 1)

namespace SourcePosition

/-- The offset behind the lines before a place and the characters before it in its line. -/
def offset? (source : List Char) (position : SourcePosition) : Option Nat :=
  (linesLength? (position.line - 1) source).map (· + (position.column - 1))

/-- A place comes before another: in an earlier line, or in the same line at an earlier column. -/
def Before (first second : SourcePosition) : Prop :=
  first.line < second.line ∨ first.line = second.line ∧ first.column < second.column

instance (first second : SourcePosition) : Decidable (first.Before second) :=
  inferInstanceAs (Decidable (_ ∨ _))

variable {position first second third : SourcePosition} {source : List Char} {offset other : Nat}

theorem Before.trans (one : first.Before second) (two : second.Before third) :
    first.Before third := by
  simp only [Before] at *
  omega

theorem Before.asymm (one : first.Before second) : ¬second.Before first := by
  simp only [Before] at *
  omega

theorem advance_append (position : SourcePosition) (earlier later : List Char) :
    position.advance (earlier ++ later) = (position.advance earlier).advance later := by
  induction earlier generalizing position with
  | nil => rfl
  | cons character earlier inductionHypothesis =>
    simp only [List.cons_append, advance]
    split <;> exact inductionHypothesis _

/-! ## The way back -/

theorem one_le_column_advance (positive : 1 ≤ position.column) (passed : List Char) :
    1 ≤ (position.advance passed).column := by
  induction passed generalizing position with
  | nil => exact positive
  | cons character passed inductionHypothesis =>
    unfold advance
    split
    · exact inductionHypothesis (Nat.le_refl 1)
    · exact inductionHypothesis (Nat.le_succ_of_le positive)

theorem line_le_advance (position : SourcePosition) (passed : List Char) :
    position.line ≤ (position.advance passed).line := by
  induction passed generalizing position with
  | nil => exact Nat.le_refl _
  | cons character passed inductionHypothesis =>
    unfold advance
    split
    · exact Nat.le_of_succ_le (inductionHypothesis ⟨position.line + 1, 1⟩)
    · exact inductionHypothesis ⟨position.line, position.column + 1⟩

/-- The lines and the column that are reached account for all that was passed: in the line of the
start the columns go on from the start, in a later line they count from one. -/
theorem exists_linesLength_advance (position : SourcePosition) (passed rest : List Char) :
    ∃ length, linesLength? ((position.advance passed).line - position.line) (passed ++ rest) =
        some length ∧
      length + (position.advance passed).column = passed.length +
        if (position.advance passed).line = position.line then position.column else 1 := by
  induction passed generalizing position with
  | nil => exact ⟨0, by simp [advance, linesLength?]⟩
  | cons character passed inductionHypothesis =>
    by_cases newline : character = '\n'
    · obtain ⟨length, found, account⟩ := inductionHypothesis ⟨position.line + 1, 1⟩
      have below := line_le_advance ⟨position.line + 1, 1⟩ passed
      simp only [advance, if_pos newline] at below ⊢
      simp only [ite_self] at account
      obtain ⟨lines, reached⟩ := Nat.exists_eq_add_of_le below
      rw [reached] at found ⊢
      have more : position.line + 1 + lines - position.line = lines + 1 := by omega
      have less : position.line + 1 + lines - (position.line + 1) = lines := by omega
      rw [less] at found
      refine ⟨length + 1, ?_, ?_⟩
      · rw [more, List.cons_append, linesLength?, if_pos newline, found]
        rfl
      · rw [if_neg (by omega), List.length_cons]
        omega
    · obtain ⟨length, found, account⟩ := inductionHypothesis ⟨position.line, position.column + 1⟩
      have below := line_le_advance ⟨position.line, position.column + 1⟩ passed
      simp only [advance, if_neg newline] at below ⊢
      obtain ⟨lines, reached⟩ := Nat.exists_eq_add_of_le below
      have difference : position.line + lines - position.line = lines := by omega
      simp only [reached, difference] at found account ⊢
      cases lines with
      | zero =>
        simp only [linesLength?, Option.some.injEq] at found
        refine ⟨0, rfl, ?_⟩
        simp only [Nat.add_zero, if_true, List.length_cons] at account ⊢
        omega
      | succ lines =>
        rw [if_neg (by omega)] at account ⊢
        refine ⟨length + 1, ?_, ?_⟩
        · rw [List.cons_append, linesLength?, if_neg newline, found]
          rfl
        · rw [List.length_cons]
          omega

/-- The way back leads to the offset that the place is of. -/
theorem offset?_ofOffset (inside : offset ≤ source.length) :
    (ofOffset source offset).offset? source = some offset := by
  obtain ⟨length, found, account⟩ :=
    exists_linesLength_advance ⟨1, 1⟩ (source.take offset) (source.drop offset)
  rw [List.take_append_drop] at found
  simp only [ite_self, List.length_take, Nat.min_eq_left inside] at account
  have positive := @one_le_column_advance ⟨1, 1⟩ (Nat.le_refl 1) (source.take offset)
  rw [offset?, ofOffset, found, Option.map_some]
  congr 1
  omega

/-- Distinct offsets have distinct places. -/
theorem ofOffset_inj (inside : offset ≤ source.length) (otherInside : other ≤ source.length)
    (same : ofOffset source offset = ofOffset source other) : offset = other := by
  have back := offset?_ofOffset inside
  rw [same, offset?_ofOffset otherInside] at back
  exact (Option.some.inj back).symm

/-! ## The order of places -/

theorem before_advance (position : SourcePosition) {passed : List Char} (some_ : passed ≠ []) :
    position.Before (position.advance passed) := by
  induction passed generalizing position with
  | nil => contradiction
  | cons character passed inductionHypothesis =>
    have one : position.Before (position.advance [character]) := by
      simp only [advance, Before]
      split
      · exact .inl (Nat.lt_succ_self _)
      · exact .inr ⟨rfl, Nat.lt_succ_self _⟩
    by_cases last : passed = []
    · subst last
      exact one
    · rw [← List.singleton_append, advance_append]
      exact one.trans (inductionHypothesis _ last)

theorem before_ofOffset (later : offset < other) (inside : other ≤ source.length) :
    (ofOffset source offset).Before (ofOffset source other) := by
  obtain ⟨count, rfl⟩ := Nat.exists_eq_add_of_le (Nat.le_of_lt later)
  rw [ofOffset, ofOffset, List.take_add, advance_append]
  refine before_advance _ fun none => ?_
  have length := congrArg List.length none
  rw [List.length_take, List.length_drop, List.length_nil] at length
  omega

/-- Places are ordered as their offsets are. -/
theorem before_ofOffset_iff (inside : offset ≤ source.length)
    (otherInside : other ≤ source.length) :
    (ofOffset source offset).Before (ofOffset source other) ↔ offset < other := by
  refine ⟨fun before => ?_, fun later => before_ofOffset later otherInside⟩
  rcases Nat.lt_trichotomy offset other with later | same | earlier
  · exact later
  · subst same
    exact absurd before before.asymm
  · exact absurd (before_ofOffset earlier inside) before.asymm

end SourcePosition

end Playground
