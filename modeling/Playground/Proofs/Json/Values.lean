import Playground.Json.Basic
import Playground.Json.Reader

/-!
# Reading what was written

`Yields` says what a reader takes from the front of a text and what it leaves. A string that was
written is read up to its closing quote, one escape at a time (`yields_stringRest_escape`), and a
number is read up to the first character that cannot continue it (`yields_natural`).
-/

namespace Playground.JsonReader

variable {α : Type} {reader : JsonReader α} {input rest : List Char} {value : α}

/-- A reader takes a value from the front of a text and leaves the rest. -/
def Yields (reader : JsonReader α) (input : List Char) (value : α) (rest : List Char) : Prop :=
  ∃ shorter : rest.length < input.length, reader input = .ok ⟨value, rest, shorter⟩

/-! ## Blanks and marks -/

theorem skipBlanks_cons {first : Char} (solid : isBlank first = false) :
    skipBlanks (first :: rest) = first :: rest := by
  simp [skipBlanks, solid]

theorem Yields.afterBlanks (yields : Yields reader (skipBlanks input) value rest) :
    Yields (afterBlanks reader) input value rest := by
  obtain ⟨shorter, read⟩ := yields
  refine ⟨Nat.lt_of_lt_of_le shorter (length_skipBlanks_le input), ?_⟩
  simp only [JsonReader.afterBlanks, read]
  rfl

theorem yields_nextMark {first : Char} (solid : isBlank first = false) (rest : List Char) :
    Yields nextMark (first :: rest) first rest := by
  apply Yields.afterBlanks
  rw [skipBlanks_cons solid]
  exact ⟨Nat.lt_succ_self _, rfl⟩

theorem yields_mark {expected : Char} (solid : isBlank expected = false) (rest : List Char) :
    Yields (mark expected) (expected :: rest) () rest := by
  obtain ⟨shorter, read⟩ := yields_nextMark solid rest
  refine ⟨shorter, ?_⟩
  simp only [mark, read, if_pos]
  rfl

/-! ## Strings -/

/-- The characters of a text as they are written in a JSON string. -/
def escaped (characters : List Char) : List Char :=
  characters.flatMap Json.escape

theorem toList_quoted (text : String) :
    (Json.quoted text).toList = '"' :: escaped text.toList ++ ['"'] := by
  simp [Json.quoted, escaped]

/-- The ways in which a character is written in a JSON string. -/
inductive Spells (character : Char) : List Char → Prop where
  | short {mark : Char} (means : shortEscape? mark = some character) :
      Spells character ['\\', mark]
  | numeric {a b c d : Char} (means : hexValue? a b c d = some character.toNat) :
      Spells character ['\\', 'u', a, b, c, d]
  /-- Both halves of a surrogate pair. -/
  | pair {a b c d e f g h : Char} {high low : Nat} (first : hexValue? a b c d = some high)
      (second : hexValue? e f g h = some low) (isHigh : 0xd800 ≤ high ∧ high ≤ 0xdbff)
      (isLow : 0xdc00 ≤ low ∧ low ≤ 0xdfff)
      (means : character.toNat = 0x10000 + (high - 0xd800) * 0x400 + (low - 0xdc00)) :
      Spells character ['\\', 'u', a, b, c, d, '\\', 'u', e, f, g, h]
  | plain (notQuote : character ≠ '"') (notEscape : character ≠ '\\')
      (printable : ¬character.toNat < 32) : Spells character [character]

theorem hexDigit?_digitChar : ∀ digit < 16, hexDigit? digit.digitChar = some digit := by
  decide

theorem hexValue?_control (high low : Nat) (isHigh : high < 16) (isLow : low < 16) :
    hexValue? '0' '0' high.digitChar low.digitChar = some (high * 16 + low) := by
  have zero : hexDigit? '0' = some 0 := rfl
  simp [hexValue?, zero, hexDigit?_digitChar high isHigh, hexDigit?_digitChar low isLow]

theorem spells_escape (character : Char) : Spells character (Json.escape character) := by
  unfold Json.escape
  split
  case h_8 =>
    split
    · rename_i small
      rw [Nat.toDigits_of_lt_base small]
      refine .numeric ?_
      have value := hexValue?_control 0 character.toNat (by decide) small
      rwa [Nat.zero_mul, Nat.zero_add] at value
    · split
      · rename_i large control
        rw [Nat.toDigits_of_base_le (by decide) (by omega),
          Nat.toDigits_of_lt_base (by omega)]
        refine .numeric ?_
        have value := hexValue?_control (character.toNat / 16) (character.toNat % 16) (by omega)
          (by omega)
        rwa [Nat.div_add_mod'] at value
      · exact .plain ‹_› ‹_› ‹_›
  all_goals exact .short rfl

theorem Spells.yields {character : Char} {spelt letters : List Char}
    (spells : Spells character spelt) (yields : Yields stringRest input letters rest) :
    Yields stringRest (spelt ++ input) (character :: letters) rest := by
  obtain ⟨shorter, read⟩ := yields
  cases spells with
  | @short mark means =>
    refine ⟨by simp; omega, ?_⟩
    change stringRest ('\\' :: mark :: input) = _
    have other : mark ≠ 'u' := by
      rintro rfl
      cases means
    have escaped : escape unicodeEscape id (mark :: input) = .ok (.single character) := by
      simp [escape, means]
    rw [stringRest]
    simp only [escaped, Taken.single, read]
    rfl
  | @numeric a b c d means =>
    refine ⟨by simp; omega, ?_⟩
    change stringRest ('\\' :: 'u' :: a :: b :: c :: d :: input) = _
    have valid : character.toNat < 0xd800 ∨
        0xdfff < character.toNat ∧ character.toNat < 0x110000 := character.valid
    have notLow : ¬(0xdc00 ≤ character.toNat ∧ character.toNat ≤ 0xdfff) := by omega
    have notHigh : ¬(0xd800 ≤ character.toNat ∧ character.toNat ≤ 0xdbff) := by omega
    have escaped : ∃ shorter, escape unicodeEscape id ('u' :: a :: b :: c :: d :: input) =
        .ok ⟨character, input, shorter⟩ := by
      refine ⟨by simp; omega, ?_⟩
      simp [escape, unicodeEscape, hexEscape, means, Taken.single, Taken.behind, Taken.widen,
        Taken.map, notLow, notHigh]
    obtain ⟨_, escaped⟩ := escaped
    rw [stringRest]
    simp only [escaped, read]
    rfl
  | @pair a b c d e f g h high low first second isHigh isLow means =>
    refine ⟨by simp; omega, ?_⟩
    change stringRest
      ('\\' :: 'u' :: a :: b :: c :: d :: '\\' :: 'u' :: e :: f :: g :: h :: input) = _
    have notLow : ¬(0xdc00 ≤ high ∧ high ≤ 0xdfff) := by omega
    have joined : joinSurrogates high low = character := by
      rw [joinSurrogates, ← means, Char.ofNat_toNat]
    have escaped : ∃ shorter, escape unicodeEscape id
        ('u' :: a :: b :: c :: d :: '\\' :: 'u' :: e :: f :: g :: h :: input) =
          .ok ⟨character, input, shorter⟩ := by
      refine ⟨by simp; omega, ?_⟩
      simp [escape, unicodeEscape, lowSurrogate, hexEscape, first, second, Taken.single,
        Taken.behind, Taken.widen, Taken.map, Taken.andThen, notLow, isHigh, isLow, joined]
    obtain ⟨_, escaped⟩ := escaped
    rw [stringRest]
    simp only [escaped, read]
    rfl
  | plain notQuote notEscape printable =>
    refine ⟨by simp; omega, ?_⟩
    change stringRest (character :: input) = _
    rw [stringRest]
    · simp only [printable, if_false, read]
      rfl
    · simpa using notQuote
    · simpa using notEscape

/-- A written string is read up to its closing quote. -/
theorem yields_stringRest (letters rest : List Char) :
    Yields stringRest (escaped letters ++ '"' :: rest) letters rest := by
  induction letters with
  | nil =>
    refine ⟨Nat.lt_succ_self _, ?_⟩
    change stringRest ('"' :: rest) = _
    rw [stringRest]
    rfl
  | cons character letters inductionHypothesis =>
    simp only [escaped, List.flatMap_cons, List.append_assoc] at inductionHypothesis ⊢
    exact (spells_escape character).yields inductionHypothesis

theorem yields_string (text : String) (rest : List Char) :
    Yields string ((Json.quoted text).toList ++ rest) text rest := by
  obtain ⟨shorter, read⟩ := yields_stringRest text.toList rest
  rw [toList_quoted, List.append_assoc, List.cons_append]
  apply Yields.afterBlanks
  rw [skipBlanks_cons (by decide)]
  refine ⟨Nat.lt_succ_of_lt shorter, ?_⟩
  simp only [List.singleton_append, read, Taken.map, Taken.behind, Taken.widen,
    String.ofList_toList]

/-! ## Numbers -/

/-- A text does not continue the number in front of it. -/
structure EndsNumber (rest : List Char) : Prop where
  digit : ∀ first ∈ rest.head?, first.isDigit = false
  point : ∀ first ∈ rest.head?, first ≠ '.'
  exponent : ∀ first ∈ rest.head?, first ≠ 'e' ∧ first ≠ 'E'

theorem endsNumber_nil : EndsNumber [] := by
  constructor <;> simp

/-- Punctuation ends a number. -/
theorem endsNumber_cons {mark : Char} (punctuation : mark ∈ [',', ']', '}']) (rest : List Char) :
    EndsNumber (mark :: rest) := by
  constructor <;> simp at punctuation ⊢ <;> rcases punctuation with rfl | rfl | rfl <;> decide

theorem digitRun_append {digits : List Char} (all : ∀ digit ∈ digits, digit.isDigit)
    (stops : ∀ first ∈ rest.head?, first.isDigit = false) :
    digitRun (digits ++ rest) = digits := by
  have noMore : rest.takeWhile Char.isDigit = [] := by
    cases rest with
    | nil => rfl
    | cons first rest => simp [stops first rfl]
  rw [digitRun, List.takeWhile_append_of_pos all, noMore, List.append_nil]

theorem afterDigits_append {digits : List Char} (all : ∀ digit ∈ digits, digit.isDigit)
    (stops : ∀ first ∈ rest.head?, first.isDigit = false) :
    afterDigits (digits ++ rest) = rest := by
  have noMore : rest.dropWhile Char.isDigit = rest := by
    cases rest with
    | nil => rfl
    | cons first rest => simp [stops first rfl]
  rw [afterDigits, List.dropWhile_append_of_pos all, noMore]

/-- The digits of a number do not start with a zero, unless it is the only one. -/
theorem head?_toDigits {number : Nat} (positive : 0 < number) :
    (Nat.toDigits 10 number).head? ≠ some '0' := by
  induction number using Nat.strongRecOn with
  | ind number inductionHypothesis =>
    by_cases small : number < 10
    · rw [Nat.toDigits_of_lt_base small]
      have : ∀ digit < 10, 0 < digit → [digit.digitChar].head? ≠ some '0' := by decide
      exact this number small positive
    · have leading := inductionHypothesis (number / 10) (by omega) (by omega)
      obtain ⟨first, more, split⟩ :=
        List.exists_cons_of_ne_nil (Nat.toDigits_ne_nil (n := number / 10) (b := 10))
      rw [Nat.toDigits_of_base_le (by decide) (by omega), split, List.cons_append, List.head?_cons]
      rwa [split, List.head?_cons] at leading

variable {missing : List Char → JsonFault}

/-- A run of digits without a needless zero in front. -/
theorem yields_wholePart_run {run : List Char} (nonempty : run ≠ [])
    (digits : ∀ digit ∈ run, digit.isDigit) (leading : run.head? = some '0' → run = ['0'])
    (stops : ∀ first ∈ rest.head?, first.isDigit = false) :
    Yields (wholePart missing) (run ++ rest) run rest := by
  refine ⟨by simpa using List.length_pos_iff.mpr nonempty, ?_⟩
  cases run with
  | nil => exact absurd rfl nonempty
  | cons digit more =>
    by_cases zero : digit = '0'
    · subst zero
      obtain ⟨rfl⟩ := List.cons.inj (leading rfl) |>.2
      change wholePart missing ('0' :: rest) = _
      have noMore : rest.head?.any Char.isDigit = false := by
        cases rest with
        | nil => rfl
        | cons first rest => exact stops first rfl
      simp only [wholePart, noMore]
      rfl
    · rw [List.forall_mem_cons] at digits
      change wholePart missing (digit :: (more ++ rest)) = _
      rw [wholePart]
      · simp [digits.1, digitRun_append digits.2 stops, afterDigits_append digits.2 stops]
      · simpa using zero

theorem yields_wholePart (number : Nat) (ends : EndsNumber rest) :
    Yields (wholePart missing) (Nat.toDigits 10 number ++ rest) (Nat.toDigits 10 number) rest := by
  refine yields_wholePart_run Nat.toDigits_ne_nil
    (fun digit member => Nat.isDigit_of_mem_toDigits (by decide) (by decide) member) ?_ ends.digit
  intro leading
  rcases Nat.eq_zero_or_pos number with rfl | positive
  · rfl
  · exact absurd leading (head?_toDigits positive)

theorem fractionPart_of_ends (ends : EndsNumber rest) :
    fractionPart missing rest = .ok ([], ⟨rest, Nat.le_refl _⟩) := by
  unfold fractionPart
  split
  · exact absurd rfl (ends.point _ rfl)
  · rfl

theorem exponentPart_of_ends (ends : EndsNumber rest) :
    exponentPart missing rest = .ok (0, ⟨rest, Nat.le_refl _⟩) := by
  unfold exponentPart
  cases rest with
  | nil => rfl
  | cons first rest =>
    have other := ends.exponent first rfl
    simp [other.1, other.2]

theorem le_ofDigitChars (digits : List Char) (number : Nat) :
    number ≤ Nat.ofDigitChars 10 digits number := by
  rw [Nat.ofDigitChars_eq_ofDigitChars_zero]
  exact Nat.le_add_right_of_le (Nat.le_mul_of_pos_left number (Nat.pow_pos (by decide)))

/-- Digits that fit make up their number. -/
theorem foldl_pushWhole {digits : List Char} {significand : Nat}
    (fits : Nat.ofDigitChars 10 digits significand ≤ largestNatural) :
    digits.foldl Scaled.pushWhole ⟨significand, 0⟩ =
      ⟨Nat.ofDigitChars 10 digits significand, 0⟩ := by
  induction digits generalizing significand with
  | nil => simp
  | cons digit digits inductionHypothesis =>
    rw [Nat.ofDigitChars_cons] at fits ⊢
    have extended := Nat.le_trans (le_ofDigitChars ..) fits
    have pushed : Scaled.pushWhole ⟨significand, 0⟩ digit =
        ⟨10 * significand + (digit.toNat - '0'.toNat), 0⟩ := by
      rw [Scaled.pushWhole]
      simp only [Nat.mul_comm significand, extended, and_self, if_true]
    rw [List.foldl_cons, pushed]
    exact inductionHypothesis fits

theorem yields_number {number : Nat} (fits : number ≤ largestNatural) (ends : EndsNumber rest) :
    Yields (JsonReader.number false) (Nat.toDigits 10 number ++ rest) (.natural number) rest := by
  obtain ⟨shorter, whole⟩ := @yields_wholePart rest missingDigit number ends
  have pushed := @foldl_pushWhole (Nat.toDigits 10 number) 0
    (by rwa [Nat.ofDigitChars_ten_toDigits])
  rw [Nat.ofDigitChars_ten_toDigits] at pushed
  refine ⟨shorter, ?_⟩
  simp [JsonReader.number, numberParts, whole, fractionPart_of_ends ends,
    exponentPart_of_ends ends, NumberParts.scaled, pushed, Taken.map]

theorem isBlank_of_isDigit {character : Char} (digit : character.isDigit) :
    isBlank character = false := by
  cases blank : isBlank character with
  | false => rfl
  | true =>
    simp only [isBlank, Bool.or_eq_true, beq_iff_eq] at blank
    rcases blank with ((rfl | rfl) | rfl) | rfl <;> simp at digit

/-- A written number is read up to the first character that cannot continue it. -/
theorem yields_natural {number largest : Nat} (allowed : number ≤ largest)
    (bounded : largest ≤ largestNatural) (ends : EndsNumber rest) :
    Yields (natural largest) (Nat.toDigits 10 number ++ rest) number rest := by
  have yields := yields_number (Nat.le_trans allowed bounded) ends
  obtain ⟨first, more, split⟩ :=
    List.exists_cons_of_ne_nil (Nat.toDigits_ne_nil (n := number) (b := 10))
  have digit : first.isDigit :=
    Nat.isDigit_of_mem_toDigits (b := 10) (n := number) (by decide) (by decide) (by simp [split])
  rw [split, List.cons_append] at yields ⊢
  obtain ⟨shorter, read⟩ := yields
  apply Yields.afterBlanks
  rw [skipBlanks_cons (isBlank_of_isDigit digit)]
  refine ⟨shorter, ?_⟩
  simp only [digit, if_true, read, allowed]
  rfl

end Playground.JsonReader
