import Playground.Json.Skip
import Playground.Proofs.Json.Grammar

/-!
# Passing over well-formed text

A value that nobody asked for is passed over from its first character to its last, whatever
well-formed text it has (`skips_of_wellFormed`). There is one lemma to each form of the grammar, and
the result is by induction on the form.
-/

namespace Playground.JsonReader

variable {input rest text blanks : List Char} {first : Char}

/-! ## Strings and numbers -/

theorem StringBody.yields {body : List Char} (formed : StringBody body) (rest : List Char) :
    Yields skipStringRest (body ++ '"' :: rest) () rest := by
  induction formed with
  | done =>
    refine ⟨Nat.lt_succ_self _, ?_⟩
    change skipStringRest ('"' :: rest) = _
    rw [skipStringRest]
    rfl
  | @plain character body notQuote notEscape printable _ inductionHypothesis =>
    obtain ⟨shorter, read⟩ := inductionHypothesis
    refine ⟨Nat.lt_succ_of_lt shorter, ?_⟩
    change skipStringRest (character :: (body ++ '"' :: rest)) = _
    rw [skipStringRest]
    · simp only [printable, if_false, read]
      rfl
    · simpa using notQuote
    · simpa using notEscape
  | @short mark body means _ inductionHypothesis =>
    obtain ⟨shorter, read⟩ := inductionHypothesis
    refine ⟨by simp at shorter ⊢; omega, ?_⟩
    obtain ⟨character, means⟩ := Option.ne_none_iff_exists'.mp means
    have other : mark ≠ 'u' := by
      rintro rfl
      cases means
    change skipStringRest ('\\' :: mark :: (body ++ '"' :: rest)) = _
    rw [skipStringRest]
    simp only [escape, means, Taken.single, read]
    rfl
  | @numeric a b c d body means _ inductionHypothesis =>
    obtain ⟨shorter, read⟩ := inductionHypothesis
    refine ⟨by simp at shorter ⊢; omega, ?_⟩
    obtain ⟨number, means⟩ := Option.ne_none_iff_exists'.mp means
    change skipStringRest ('\\' :: 'u' :: a :: b :: c :: d :: (body ++ '"' :: rest)) = _
    rw [skipStringRest]
    simp only [escape, hexEscape, means, Except.map, Taken.map, Taken.single, Taken.behind,
      Taken.widen, read]
    rfl

/-- Digits behind the mark of a fraction or an exponent. -/
theorem IsRun.exists_run {run : List Char} (digits : IsRun run)
    (stops : ∀ first ∈ rest.head?, first.isDigit = false) :
    ∃ digit more, run = digit :: more ∧ digitRun (run ++ rest) = digit :: more ∧
      afterDigits (run ++ rest) = rest := by
  obtain ⟨digit, more, rfl⟩ := List.exists_cons_of_ne_nil digits.1
  exact ⟨digit, more, rfl, digitRun_append digits.2 stops, afterDigits_append digits.2 stops⟩

theorem FractionText.part {fraction : List Char} (fractional : FractionText fraction)
    (missing : List Char → JsonFault) (stops : ∀ first ∈ rest.head?, first.isDigit = false)
    (noPoint : ∀ first ∈ rest.head?, first ≠ '.') :
    ∃ digits order, fractionPart missing (fraction ++ rest) = .ok (digits, ⟨rest, order⟩) := by
  cases fractional with
  | absent =>
    rw [List.nil_append]
    refine ⟨[], Nat.le_refl _, ?_⟩
    unfold fractionPart
    split
    · exact absurd rfl (noPoint _ rfl)
    · rfl
  | @present run digits =>
    obtain ⟨digit, more, rfl, found, behind⟩ := digits.exists_run stops
    refine ⟨digit :: more, by simp; omega, ?_⟩
    change fractionPart missing ('.' :: (digit :: more ++ rest)) = _
    simp only [fractionPart, found, behind]

theorem ExponentText.part {exponent : List Char} (scaled : ExponentText exponent)
    (missing : List Char → JsonFault) (ends : EndsNumber rest) :
    ∃ value order, exponentPart missing (exponent ++ rest) = .ok (value, ⟨rest, order⟩) := by
  cases scaled with
  | absent => exact ⟨0, Nat.le_refl _, exponentPart_of_ends ends⟩
  | @present mark sign run marked signed digits =>
    obtain ⟨digit, more, rfl, found, behind⟩ := digits.exists_run ends.digit
    have solid : digit.isDigit := digits.2 digit List.mem_cons_self
    have unsigned : ∃ negative order,
        afterSign (sign ++ (digit :: more ++ rest)) =
          (negative, ⟨digit :: more ++ rest, order⟩) := by
      simp only [List.mem_cons, List.not_mem_nil, or_false] at signed
      rcases signed with rfl | rfl | rfl
      · refine ⟨false, Nat.le_refl _, ?_⟩
        have noMinus : digit ≠ '-' := by
          rintro rfl
          cases solid
        have noPlus : digit ≠ '+' := by
          rintro rfl
          cases solid
        simp [afterSign, noMinus, noPlus]
      · exact ⟨false, by simp, rfl⟩
      · exact ⟨true, by simp, rfl⟩
    obtain ⟨negative, order, unsigned⟩ := unsigned
    have shorter : rest.length ≤ (mark :: (sign ++ (digit :: more ++ rest))).length := by
      simp
      omega
    rw [List.cons_append, List.append_assoc]
    simp only [exponentPart, marked, if_true, unsigned, found, behind]
    exact ⟨_, shorter, rfl⟩

/-- An exponent continues neither the digits nor the fraction in front of it. -/
theorem ExponentText.stops {exponent : List Char} (scaled : ExponentText exponent)
    (ends : EndsNumber rest) :
    ∀ first ∈ (exponent ++ rest).head?, first.isDigit = false ∧ first ≠ '.' := by
  cases scaled with
  | absent => exact fun first member => ⟨ends.digit first member, ends.point first member⟩
  | present marked signed digits =>
    rintro _ ⟨⟩
    rcases marked with rfl | rfl <;> decide

theorem FractionText.stops {fraction : List Char} (fractional : FractionText fraction)
    (stops : ∀ first ∈ rest.head?, first.isDigit = false) :
    ∀ first ∈ (fraction ++ rest).head?, first.isDigit = false := by
  cases fractional with
  | absent => exact stops
  | present digits =>
    rintro _ ⟨⟩
    decide

/-- A number without its sign. -/
theorem yields_numberParts (missing : List Char → JsonFault)
    {whole fraction exponent : List Char} (digits : IsRun whole)
    (leading : whole.head? = some '0' → whole = ['0']) (fractional : FractionText fraction)
    (scaled : ExponentText exponent) (ends : EndsNumber rest) :
    ∃ parts,
      Yields (numberParts missing) (whole ++ (fraction ++ (exponent ++ rest))) parts rest := by
  have behindFraction := scaled.stops ends
  have behindWhole := fractional.stops fun first member => (behindFraction first member).1
  obtain ⟨wholeShorter, wholeRead⟩ :
      Yields (wholePart missing) (whole ++ (fraction ++ (exponent ++ rest))) whole
        (fraction ++ (exponent ++ rest)) :=
    yields_wholePart_run digits.1 digits.2 leading behindWhole
  obtain ⟨_, fractionOrder, fractionRead⟩ := fractional.part missing
    (fun first member => (behindFraction first member).1)
    fun first member => (behindFraction first member).2
  obtain ⟨_, exponentOrder, exponentRead⟩ := scaled.part missing ends
  have shorter : rest.length < (whole ++ (fraction ++ (exponent ++ rest))).length := by omega
  simp only [Yields, numberParts, wholeRead, fractionRead, exponentRead]
  exact ⟨_, shorter, rfl⟩

theorem yields_skipNumber {whole fraction exponent : List Char} (digits : IsRun whole)
    (leading : whole.head? = some '0' → whole = ['0']) (fractional : FractionText fraction)
    (scaled : ExponentText exponent) (ends : EndsNumber rest) :
    Yields skipNumber (whole ++ (fraction ++ (exponent ++ rest))) () rest := by
  obtain ⟨parts, shorter, read⟩ :=
    yields_numberParts (fun _ => .malformed) digits leading fractional scaled ends
  refine ⟨shorter, ?_⟩
  simp only [skipNumber, read]
  rfl

/-! ## Values -/

/-- The marks behind which a value goes on, and what passes over the rest of it. -/
inductive PassedBy : Char → JsonReader Unit → Prop where
  | number : PassedBy '-' skipNumber
  | string : PassedBy '"' skipStringRest
  | list : PassedBy '[' skipList
  | object : PassedBy '{' skipObject

section SkipValue

variable {middle : List Char}

theorem PassedBy.yields {reader : JsonReader Unit} (passes : PassedBy first reader)
    (found : Yields nextMark input first middle) (skips : Yields reader middle () rest) :
    Yields skipValue input () rest := by
  obtain ⟨near, found⟩ := found
  obtain ⟨shorter, read⟩ := skips
  refine ⟨Nat.lt_trans shorter near, ?_⟩
  rw [skipValue]
  cases passes <;> simp [found, read, Except.map, Taken.andThen, Taken.widen]

theorem yields_skipValue_digit (digit : first.isDigit)
    (found : Yields nextMark input first middle)
    (skips : Yields skipNumber (first :: middle) () rest) : Yields skipValue input () rest := by
  obtain ⟨near, found⟩ := found
  obtain ⟨shorter, read⟩ := skips
  refine ⟨by simp at shorter; omega, ?_⟩
  have other : first ≠ 'n' ∧ first ≠ 't' ∧ first ≠ 'f' ∧ first ≠ '-' := by
    refine ⟨?_, ?_, ?_, ?_⟩ <;> rintro rfl <;> cases digit
  rw [skipValue]
  simp [found, other, digit, read, Except.map, Taken.widen]

theorem yields_skipValue_name {letters : List Char}
    (named : (first, letters) ∈ [('n', ['u', 'l', 'l']), ('t', ['r', 'u', 'e']),
      ('f', ['a', 'l', 's', 'e'])]) (found : Yields nextMark input first (letters ++ rest)) :
    Yields skipValue input () rest := by
  obtain ⟨near, found⟩ := found
  refine ⟨by simp at near; omega, ?_⟩
  simp only [List.mem_cons, Prod.mk.injEq, List.not_mem_nil, or_false] at named
  rw [skipValue]
  rcases named with ⟨rfl, rfl⟩ | ⟨rfl, rfl⟩ | ⟨rfl, rfl⟩ <;>
    simp [found, skipName, literal, Except.map, Taken.widen]

end SkipValue

/-- Passing over a value without blanks around it, behind blanks and in front of what ends it; or
over what stands between the brackets of a list or an object, through the closing bracket. -/
def Part.Skips : Part → List Char → Prop
  | .value, text => Accepts skipValue text ()
  | .items, text => ∀ rest, Yields skipItems (text ++ ']' :: rest) () rest
  | .members, text => ∀ rest, Yields skipFields (text ++ '}' :: rest) () rest

theorem skips_of_number (number : NumberText text) : Part.value.Skips text := by
  intro blanks rest blank ends
  obtain ⟨signed, digits, leading, fractional, scaled⟩ := number
  have skips := yields_skipNumber digits leading fractional scaled ends
  simp only [List.mem_cons, List.not_mem_nil, or_false] at signed
  rcases signed with rfl | rfl
  · obtain ⟨digit, more, rfl⟩ := List.exists_cons_of_ne_nil digits.1
    have solid : digit.isDigit := digits.2 digit List.mem_cons_self
    simp only [List.nil_append, List.append_assoc, List.cons_append] at skips ⊢
    exact yields_skipValue_digit solid
      (yields_nextMark_behind blank (isBlank_of_isDigit solid) _) skips
  · simp only [List.nil_append, List.append_assoc, List.cons_append]
    exact PassedBy.number.yields (yields_nextMark_behind blank (by decide) _) skips

section SkipParts

variable {middle before : List Char}

theorem yields_skipList_empty (closes : Yields nextMark input ']' rest) :
    Yields skipList input () rest := by
  obtain ⟨shorter, closes⟩ := closes
  refine ⟨shorter, ?_⟩
  rw [skipList]
  simp [closes, Taken.map]

theorem yields_skipObject_empty (closes : Yields nextMark input '}' rest) :
    Yields skipObject input () rest := by
  obtain ⟨shorter, closes⟩ := closes
  refine ⟨shorter, ?_⟩
  rw [skipObject]
  simp [closes, Taken.map]

/-- The items of a list that does not end at once. -/
theorem yields_skipList (opens : Yields nextMark input first middle) (goesOn : first ≠ ']')
    (skips : Yields skipItems input () rest) : Yields skipList input () rest := by
  obtain ⟨_, opens⟩ := opens
  obtain ⟨shorter, read⟩ := skips
  refine ⟨shorter, ?_⟩
  rw [skipList]
  simp [opens, goesOn, read]

theorem yields_skipObject (opens : Yields nextMark input first middle) (goesOn : first ≠ '}')
    (skips : Yields skipFields input () rest) : Yields skipObject input () rest := by
  obtain ⟨_, opens⟩ := opens
  obtain ⟨shorter, read⟩ := skips
  refine ⟨shorter, ?_⟩
  rw [skipObject]
  simp [opens, goesOn, read]

theorem Yields.lastItem (item : Yields skipValue input () middle)
    (closes : Yields nextMark middle ']' rest) : Yields skipItems input () rest := by
  obtain ⟨itemShorter, item⟩ := item
  obtain ⟨shorter, closes⟩ := closes
  refine ⟨Nat.lt_trans shorter itemShorter, ?_⟩
  rw [skipItems]
  simp [item, closes, Taken.andThen, Taken.widen, Taken.map]

theorem Yields.itemBefore {items : List Char} (item : Yields skipValue input () middle)
    (comma : Yields nextMark middle ',' items) (skips : Yields skipItems items () rest) :
    Yields skipItems input () rest := by
  obtain ⟨itemShorter, item⟩ := item
  obtain ⟨commaShorter, comma⟩ := comma
  obtain ⟨shorter, read⟩ := skips
  refine ⟨Nat.lt_trans shorter (Nat.lt_trans commaShorter itemShorter), ?_⟩
  rw [skipItems]
  simp [item, comma, read, Taken.andThen, Taken.widen, Except.map]

theorem Yields.lastMember {value : List Char} (name : Yields skipFieldName input () value)
    (skips : Yields skipValue value () middle) (closes : Yields nextMark middle '}' rest) :
    Yields skipFields input () rest := by
  obtain ⟨nameShorter, name⟩ := name
  obtain ⟨valueShorter, skips⟩ := skips
  obtain ⟨shorter, closes⟩ := closes
  refine ⟨Nat.lt_trans shorter (Nat.lt_trans valueShorter nameShorter), ?_⟩
  rw [skipFields]
  simp [name, skips, closes, Taken.andThen, Taken.widen, Taken.map]

theorem Yields.memberBefore {value members : List Char}
    (name : Yields skipFieldName input () value) (skips : Yields skipValue value () middle)
    (comma : Yields nextMark middle ',' members) (more : Yields skipFields members () rest) :
    Yields skipFields input () rest := by
  obtain ⟨nameShorter, name⟩ := name
  obtain ⟨valueShorter, skips⟩ := skips
  obtain ⟨commaShorter, comma⟩ := comma
  obtain ⟨shorter, read⟩ := more
  refine ⟨Nat.lt_trans shorter <| Nat.lt_trans commaShorter <|
    Nat.lt_trans valueShorter nameShorter, ?_⟩
  rw [skipFields]
  simp [name, skips, comma, read, Taken.andThen, Taken.widen, Except.map]

theorem yields_skipFieldName {name between : List Char} (blank : Blanks before)
    (named : StringBody name) (blankBetween : Blanks between) (rest : List Char) :
    Yields skipFieldName (before ++ '"' :: (name ++ '"' :: (between ++ ':' :: rest))) () rest := by
  obtain ⟨colonShorter, colon⟩ :=
    yields_mark_behind blankBetween (by decide : isBlank ':' = false) rest
  obtain ⟨nameShorter, body⟩ := named.yields (between ++ ':' :: rest)
  obtain ⟨quoteShorter, quote⟩ := yields_mark_behind blank (by decide : isBlank '"' = false)
    (name ++ '"' :: (between ++ ':' :: rest))
  refine ⟨Nat.lt_trans colonShorter (Nat.lt_trans nameShorter quoteShorter), ?_⟩
  simp only [skipFieldName, quote, body, colon]
  rfl

end SkipParts

/-- A value starts with a character that neither is blank nor closes a list. -/
theorem WellFormed.exists_first (formed : WellFormed .value text) :
    ∃ first more, text = first :: more ∧ isBlank first = false ∧ first ≠ ']' := by
  cases formed with
  | name known =>
    simp only [List.mem_cons, List.not_mem_nil, or_false] at known
    rcases known with rfl | rfl | rfl
    · exact ⟨'n', "ull".toList, by decide, by decide, by decide⟩
    · exact ⟨'t', "rue".toList, by decide, by decide, by decide⟩
    · exact ⟨'f', "alse".toList, by decide, by decide, by decide⟩
  | number number =>
    obtain ⟨signed, digits, -, -, -⟩ := number
    simp only [List.mem_cons, List.not_mem_nil, or_false] at signed
    rcases signed with rfl | rfl
    · obtain ⟨digit, more, rfl⟩ := List.exists_cons_of_ne_nil digits.1
      have solid : digit.isDigit := digits.2 digit List.mem_cons_self
      refine ⟨digit, _, rfl, isBlank_of_isDigit solid, ?_⟩
      rintro rfl
      cases solid
    · exact ⟨'-', _, rfl, by decide, by decide⟩
  | string | emptyList | list | emptyObject | object =>
    exact ⟨_, _, rfl, by decide, by decide⟩

theorem WellFormed.opens_items {items : List Char} (formed : WellFormed .items items)
    (rest : List Char) :
    ∃ first middle, first ≠ ']' ∧ Yields nextMark (items ++ rest) first middle := by
  cases formed with
  | lastItem blank formed | item blank formed =>
    obtain ⟨first, more, rfl, solid, goesOn⟩ := formed.exists_first
    simp only [List.append_assoc, List.cons_append]
    exact ⟨first, _, goesOn, yields_nextMark_behind blank solid _⟩

theorem WellFormed.opens_members {members : List Char} (formed : WellFormed .members members)
    (rest : List Char) : ∃ middle, Yields nextMark (members ++ rest) '"' middle := by
  cases formed with
  | lastMember blank | member blank =>
    simp only [List.append_assoc, List.cons_append]
    exact ⟨_, yields_nextMark_behind blank (by decide) _⟩

/-- Every well-formed text is passed over exactly. -/
theorem skips_of_wellFormed {part : Part} (formed : WellFormed part text) : part.Skips text := by
  induction formed with
  | @name letters known =>
    intro blanks rest blank _
    simp only [List.mem_cons, List.not_mem_nil, or_false] at known
    rcases known with rfl | rfl | rfl
    · exact yields_skipValue_name (by decide) (yields_nextMark_behind blank (by decide) _)
    · exact yields_skipValue_name (by decide) (yields_nextMark_behind blank (by decide) _)
    · exact yields_skipValue_name (by decide) (yields_nextMark_behind blank (by decide) _)
  | number number => exact skips_of_number number
  | string body =>
    intro blanks rest blank _
    simp only [List.cons_append, List.append_assoc, List.nil_append]
    exact PassedBy.string.yields (yields_nextMark_behind blank (by decide) _) (body.yields rest)
  | emptyList blankInside =>
    intro blanks rest blank _
    simp only [List.cons_append, List.append_assoc, List.nil_append]
    exact PassedBy.list.yields (yields_nextMark_behind blank (by decide) _)
      (yields_skipList_empty (yields_nextMark_behind blankInside (by decide) rest))
  | emptyObject blankInside =>
    intro blanks rest blank _
    simp only [List.cons_append, List.append_assoc, List.nil_append]
    exact PassedBy.object.yields (yields_nextMark_behind blank (by decide) _)
      (yields_skipObject_empty (yields_nextMark_behind blankInside (by decide) rest))
  | list formed inductionHypothesis =>
    intro blanks rest blank _
    obtain ⟨first, middle, goesOn, opens⟩ := formed.opens_items (']' :: rest)
    simp only [List.cons_append, List.append_assoc, List.nil_append]
    exact PassedBy.list.yields (yields_nextMark_behind blank (by decide) _)
      (yields_skipList opens goesOn (inductionHypothesis rest))
  | object formed inductionHypothesis =>
    intro blanks rest blank _
    obtain ⟨middle, opens⟩ := formed.opens_members ('}' :: rest)
    simp only [List.cons_append, List.append_assoc, List.nil_append]
    exact PassedBy.object.yields (yields_nextMark_behind blank (by decide) _)
      (yields_skipObject opens (by decide) (inductionHypothesis rest))
  | lastItem blank _ alsoBlank inductionHypothesis =>
    intro rest
    have ends := endsNumber_append alsoBlank
      (endsNumber_cons (by simp : ']' ∈ [',', ']', '}']) rest)
    simp only [List.append_assoc]
    exact (inductionHypothesis _ _ blank ends).lastItem
      (yields_nextMark_behind alsoBlank (by decide) rest)
  | @item before value after items blank _ alsoBlank _ inductionHypothesis more =>
    intro rest
    have ends := endsNumber_append alsoBlank
      (endsNumber_cons (by simp : ',' ∈ [',', ']', '}']) (items ++ ']' :: rest))
    simp only [List.append_assoc, List.cons_append]
    exact (inductionHypothesis _ _ blank ends).itemBefore
      (yields_nextMark_behind alsoBlank (by decide) _) (more rest)
  | lastMember blank named blankBetween blankInside _ blankAfter inductionHypothesis =>
    intro rest
    have ends := endsNumber_append blankAfter
      (endsNumber_cons (by simp : '}' ∈ [',', ']', '}']) rest)
    simp only [List.append_assoc, List.cons_append]
    exact (yields_skipFieldName blank named blankBetween _).lastMember
      (inductionHypothesis _ _ blankInside ends)
      (yields_nextMark_behind blankAfter (by decide) rest)
  | @member before name between inner value after members blank named blankBetween blankInside _
      blankAfter _ inductionHypothesis more =>
    intro rest
    have ends := endsNumber_append blankAfter
      (endsNumber_cons (by simp : ',' ∈ [',', ']', '}']) (members ++ '}' :: rest))
    simp only [List.append_assoc, List.cons_append]
    exact (yields_skipFieldName blank named blankBetween _).memberBefore
      (inductionHypothesis _ _ blankInside ends)
      (yields_nextMark_behind blankAfter (by decide) _) (more rest)

end Playground.JsonReader
