import Playground.Proofs.Json.Values

/-!
# JSON text

The grammar of JSON text, with blanks wherever they may stand: numbers, strings, lists and objects
of any depth. A reader accepts a text if it takes it behind blanks and in front of whatever ends a
value (`Accepts`). A string that is read gives the characters that it spells, however it spells
them (`accepts_string`).
-/

namespace Playground.JsonReader

/-! ## Grammar -/

/-- A text of nothing but blanks. -/
def Blanks (text : List Char) : Prop :=
  ∀ character ∈ text, isBlank character

/-- A run of digits. -/
def IsRun (text : List Char) : Prop :=
  text ≠ [] ∧ ∀ digit ∈ text, digit.isDigit

/-- The fraction of a number, if it has one. -/
inductive FractionText : List Char → Prop where
  | absent : FractionText []
  | present {run : List Char} (digits : IsRun run) : FractionText ('.' :: run)

/-- The exponent of a number, if it has one. -/
inductive ExponentText : List Char → Prop where
  | absent : ExponentText []
  | present {mark : Char} {sign run : List Char} (marked : mark = 'e' ∨ mark = 'E')
      (signed : sign ∈ [[], ['+'], ['-']]) (digits : IsRun run) :
      ExponentText (mark :: (sign ++ run))

/-- A number: a sign, digits without a needless zero in front, a fraction and an exponent. -/
inductive NumberText : List Char → Prop where
  | mk {sign whole fraction exponent : List Char} (signed : sign ∈ [[], ['-']])
      (digits : IsRun whole) (leading : whole.head? = some '0' → whole = ['0'])
      (fractional : FractionText fraction) (scaled : ExponentText exponent) :
      NumberText (sign ++ (whole ++ (fraction ++ exponent)))

/-- What stands between the quotes of a string. Numeric escapes may be halves of surrogate pairs,
which stand for no character. -/
inductive StringBody : List Char → Prop where
  | done : StringBody []
  | plain {character : Char} {body : List Char} (notQuote : character ≠ '"')
      (notEscape : character ≠ '\\') (printable : ¬character.toNat < 32) (more : StringBody body) :
      StringBody (character :: body)
  | short {mark : Char} {body : List Char} (means : shortEscape? mark ≠ none)
      (more : StringBody body) : StringBody ('\\' :: mark :: body)
  | numeric {a b c d : Char} {body : List Char} (means : hexValue? a b c d ≠ none)
      (more : StringBody body) : StringBody ('\\' :: 'u' :: a :: b :: c :: d :: body)

/-- What the readers of values, of the items of a list and of the members of an object read. -/
inductive Part where
  | value
  | items
  | members

/-- Well-formed text: of a value without blanks around it, and of what stands between the brackets
of a list or an object that is not empty. -/
inductive WellFormed : Part → List Char → Prop where
  | name {letters : String} (known : letters ∈ ["null", "true", "false"]) :
      WellFormed .value letters.toList
  | number {text : List Char} (number : NumberText text) : WellFormed .value text
  | string {body : List Char} (formed : StringBody body) :
      WellFormed .value ('"' :: (body ++ ['"']))
  | emptyList {blanks : List Char} (blank : Blanks blanks) :
      WellFormed .value ('[' :: (blanks ++ [']']))
  | list {items : List Char} (formed : WellFormed .items items) :
      WellFormed .value ('[' :: (items ++ [']']))
  | emptyObject {blanks : List Char} (blank : Blanks blanks) :
      WellFormed .value ('{' :: (blanks ++ ['}']))
  | object {members : List Char} (formed : WellFormed .members members) :
      WellFormed .value ('{' :: (members ++ ['}']))
  | lastItem {before value after : List Char} (blank : Blanks before)
      (formed : WellFormed .value value) (alsoBlank : Blanks after) :
      WellFormed .items (before ++ (value ++ after))
  | item {before value after items : List Char} (blank : Blanks before)
      (formed : WellFormed .value value) (alsoBlank : Blanks after)
      (more : WellFormed .items items) :
      WellFormed .items (before ++ (value ++ (after ++ ',' :: items)))
  | lastMember {before name between inner value after : List Char} (blank : Blanks before)
      (named : StringBody name) (blankBetween : Blanks between) (blankInside : Blanks inner)
      (formed : WellFormed .value value) (blankAfter : Blanks after) :
      WellFormed .members (before ++ '"' :: (name ++ '"' :: (between ++ ':' ::
        (inner ++ (value ++ after)))))
  | member {before name between inner value after members : List Char} (blank : Blanks before)
      (named : StringBody name) (blankBetween : Blanks between) (blankInside : Blanks inner)
      (formed : WellFormed .value value) (blankAfter : Blanks after)
      (more : WellFormed .members members) :
      WellFormed .members (before ++ '"' :: (name ++ '"' :: (between ++ ':' ::
        (inner ++ (value ++ (after ++ ',' :: members))))))

variable {α β : Type} {reader : JsonReader α} {value : α} {first : Char}
  {input rest text written blanks : List Char}

/-! ## Blanks -/

theorem skipBlanks_append (blank : Blanks blanks) :
    skipBlanks (blanks ++ input) = skipBlanks input := by
  rw [skipBlanks, List.dropWhile_append_of_pos blank, ← skipBlanks]

theorem yields_nextMark_behind (blank : Blanks blanks) (solid : isBlank first = false)
    (rest : List Char) : Yields nextMark (blanks ++ first :: rest) first rest := by
  apply Yields.afterBlanks
  rw [skipBlanks_append blank, skipBlanks_cons solid]
  exact ⟨Nat.lt_succ_self _, rfl⟩

theorem yields_mark_behind (blank : Blanks blanks) {expected : Char}
    (solid : isBlank expected = false) (rest : List Char) :
    Yields (mark expected) (blanks ++ expected :: rest) () rest := by
  obtain ⟨shorter, read⟩ := yields_nextMark_behind blank solid rest
  refine ⟨shorter, ?_⟩
  simp only [mark, read, if_pos]
  rfl

/-- Blanks end a number as punctuation does. -/
theorem endsNumber_append (blank : Blanks blanks) (ends : EndsNumber rest) :
    EndsNumber (blanks ++ rest) := by
  cases blanks with
  | nil => exact ends
  | cons first blanks =>
    have isBlank := blank first List.mem_cons_self
    simp only [JsonReader.isBlank, Bool.or_eq_true, beq_iff_eq] at isBlank
    constructor <;> simp only [List.cons_append, List.head?_cons, Option.mem_some_iff,
      forall_eq'] <;> rcases isBlank with ((rfl | rfl) | rfl) | rfl <;> decide

/-- A reader takes a text for a value, behind blanks and in front of whatever ends it. -/
def Accepts (reader : JsonReader α) (text : List Char) (value : α) : Prop :=
  ∀ blanks rest, Blanks blanks → EndsNumber rest →
    Yields reader (blanks ++ (text ++ rest)) value rest

theorem Yields.behind (blank : Blanks blanks)
    (yields : Yields (JsonReader.afterBlanks reader) input value rest) :
    Yields (JsonReader.afterBlanks reader) (blanks ++ input) value rest := by
  obtain ⟨shorter, read⟩ := yields
  apply Yields.afterBlanks
  rw [skipBlanks_append blank]
  rw [JsonReader.afterBlanks] at read
  cases result : reader (skipBlanks input) with
  | error fault => simp [result] at read
  | ok taken =>
    rw [result] at read
    cases read
    exact ⟨taken.shorter, result⟩

theorem accepts_of_yields
    (yields : ∀ rest, EndsNumber rest → Yields (afterBlanks reader) (text ++ rest) value rest) :
    Accepts (afterBlanks reader) text value :=
  fun _ rest blank ends => (yields rest ends).behind blank

theorem Accepts.map {mapped : JsonReader β} {transform : α → β}
    (maps : ∀ {input taken}, reader input = .ok taken → mapped input = .ok (taken.map transform))
    (accepts : Accepts reader text value) : Accepts mapped text (transform value) := by
  intro blanks rest blank ends
  obtain ⟨shorter, read⟩ := accepts blanks rest blank ends
  exact ⟨shorter, maps read⟩

/-! ## Values that are read -/

/-- The characters that the body of a string spells. -/
inductive Letters : List Char → List Char → Prop where
  | nil : Letters [] []
  | cons {character : Char} {spelt letters body : List Char} (spells : Spells character spelt)
      (more : Letters letters body) : Letters (character :: letters) (spelt ++ body)

/-- The written forms of a string. -/
def StringText (text : String) (written : List Char) : Prop :=
  ∃ body, Letters text.toList body ∧ written = '"' :: (body ++ ['"'])

theorem letters_escaped (letters : List Char) : Letters letters (escaped letters) := by
  induction letters with
  | nil => exact .nil
  | cons character letters inductionHypothesis =>
    rw [escaped, List.flatMap_cons]
    exact .cons (spells_escape character) inductionHypothesis

/-- A string that is written down is a written form of it. -/
theorem stringText_quoted (text : String) : StringText text (Json.quoted text).toList :=
  ⟨escaped text.toList, letters_escaped text.toList, toList_quoted text⟩

theorem Letters.yields {letters body : List Char} (spelt : Letters letters body)
    (rest : List Char) : Yields stringRest (body ++ '"' :: rest) letters rest := by
  induction spelt with
  | nil =>
    refine ⟨Nat.lt_succ_self _, ?_⟩
    change stringRest ('"' :: rest) = _
    rw [stringRest]
    rfl
  | cons spells _ inductionHypothesis =>
    rw [List.append_assoc]
    exact spells.yields inductionHypothesis

theorem accepts_string {text : String} (spelt : StringText text written) :
    Accepts string written text := by
  obtain ⟨body, letters, rfl⟩ := spelt
  refine accepts_of_yields fun rest _ => ?_
  obtain ⟨shorter, read⟩ := letters.yields rest
  apply Yields.afterBlanks
  rw [List.cons_append, List.append_assoc, skipBlanks_cons (by decide)]
  refine ⟨Nat.lt_succ_of_lt shorter, ?_⟩
  simp only [List.singleton_append, read, Taken.map, Taken.behind, Taken.widen,
    String.ofList_toList]

theorem accepts_natural {number largest : Nat} (allowed : number ≤ largest)
    (bounded : largest ≤ largestNatural) :
    Accepts (natural largest) (Nat.toDigits 10 number) number :=
  accepts_of_yields fun _ ends => yields_natural allowed bounded ends

end Playground.JsonReader
