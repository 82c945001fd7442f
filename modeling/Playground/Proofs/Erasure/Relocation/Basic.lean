import Mathlib.Data.Option.Basic
import Playground.Proofs.Erasure.Relocation.Tokens
import Playground.Proofs.Erasure.Span
import Playground.Proofs.Erasure.Walkers

/-!
# Streams that stand for one another

A `Relocation` says that the tokens of one stream stand, shifted by some number of indices, in
another one: the same program with other line ends, or a program behind or before another one.
Walks of the two run in step. Indices that stand for one another are related by `At`, and by
`Past` where line breaks may be asked for as well: the first token of a shifted stream may be
on a new line in the other. `Alike` relates what two computations answer.

A stream that is not `Whole` stops at a semicolon in the other one, and the walks of the two
run in step up to there, so nothing in it may start a search that passes semicolons.
-/

namespace Playground

/-- Words that start a search which semicolons do not end. -/
def searchingWords : List String :=
  ["class", "import", "export", "declare", "function", "type", "interface", "enum"]

/-- A stream ends with a semicolon, and nothing in it starts a search that passes semicolons. -/
def TokenStream.StopsAtSeam (stream : TokenStream) : Prop :=
  stream.is (stream.size - 1) ";" = true ∧
    ∀ index, ∀ word ∈ searchingWords, stream.is index word = false

/-- A whole stream may end in any way. -/
theorem TokenStream.whole_or_stopsAtSeam (stream : TokenStream) : True ∨ stream.StopsAtSeam :=
  .inl trivial

/-- The tokens of `source` stand in `target`, shifted by a number of indices. -/
structure Relocation (source target : TokenStream) where
  shift : Nat
  /-- The source takes up the rest of the target. -/
  Whole : Prop
  /-- Offsets that correspond. -/
  Offset : Nat → Nat → Prop
  /-- Generated texts that correspond. -/
  Same : String → String → Prop
  placed : source.Placed
  nested : source.Nested
  tokens : ∀ {index token}, source.get? index = some token →
    ∃ other, target.get? (index + shift) = some other ∧ token.StandsFor Offset Same other
  lines : ∀ {index}, index < source.size → 0 < index ∨ shift = 0 →
    target.newlineBefore (index + shift) = source.newlineBefore index
  partners : ∀ {index}, Whole ∨ index < source.size →
    target.partner? (index + shift) = (source.partner? index).map (· + shift)
  size : Whole → target.size = source.size + shift
  finish : Whole → Offset source.source.size target.source.size
  injective : ∀ {first second other another}, Offset first other → Offset second another →
    (first = second ↔ other = another)
  plain : ∀ {text}, '\r' ∉ text.toList → Same text text
  append : ∀ {first second other another}, Same first other → Same second another →
    Same (first ++ second) (other ++ another)
  slices : ∀ {start stop otherStart otherStop}, Whole → Offset start otherStart →
    Offset stop otherStop → Same (String.ofList (slice source.source start stop))
      (String.ofList (slice target.source otherStart otherStop))
  seam : Whole ∨ source.StopsAtSeam
  before : 0 < shift → target.kind? (shift - 1) = some .punctuator ∧
    target.text (shift - 1) = ";"

namespace TokenStream

variable {stream : TokenStream}

/-- The search for a template's tail ends at a tail or at the end of the program. -/
theorem templateTailFrom_cases (stream : TokenStream) (index depth : Nat) :
    stream.templateTailFrom index depth = stream.size ∨
      stream.kind? (stream.templateTailFrom index depth) = some .templateTail := by
  fun_induction stream.templateTailFrom index depth with
  | case1 _ _ _ _ inductionHypothesis | case3 _ _ _ _ _ inductionHypothesis
  | case4 _ _ _ _ _ inductionHypothesis => exact inductionHypothesis
  | case2 index inside kind => exact .inr kind
  | case5 => exact .inl rfl

/-- Every template has its tail. -/
theorem Nested.templateTail (nested : stream.Nested) {head : Nat}
    (opens : stream.kind? head = some .templateHead) :
    stream.kind? (stream.templateTail head) = some .templateTail := by
  refine (stream.templateTailFrom_cases (head + 1) 0).resolve_left fun past => ?_
  have returns := nested.templates opens
  have same : depthAt stream.tokens.toList (stream.size + 1) =
      depthAt stream.tokens.toList stream.size := by
    simp [depthAt, size, List.take_of_length_le]
  have deeper := returns.inside _ returns.after (Nat.le_refl _)
  have level := returns.outside
  rw [TokenStream.templateTail, past] at deeper level
  omega

/-- A closing bracket is in range. -/
theorem Nested.lt_size_of_closer? (nested : stream.Nested) {opening close : Nat}
    (found : stream.closer? opening = some close) : close < stream.size :=
  lt_size_of_kind? (nested.text_bracket found).2.1

/-- The bracket that closes another is no semicolon. -/
theorem Nested.not_semicolon (nested : stream.Nested) {opening close : Nat}
    (found : stream.closer? opening = some close) : stream.is close ";" = false := by
  have listed := (nested.text_bracket found).2.2
  have brackets : ∀ pair ∈ bracketPairs, pair.2 ≠ ";" := by decide
  rw [Bool.eq_false_iff]
  exact fun semicolon => brackets _ listed (is_iff.mp semicolon).2

/-- A token that is no punctuator is no semicolon. -/
theorem Placed.not_semicolon (placed : stream.Placed) {index : Nat} {kind : TokenKind}
    (found : stream.kind? index = some kind) (other : kind ≠ .punctuator) :
    stream.is index ";" = false := by
  rw [Bool.eq_false_iff]
  intro semicolon
  have mark := placed.kind?_of_mark semicolon (by decide)
  exact other (Option.some.inj (found.symm.trans mark))

theorem is_eq_false_of_text {index : Nat} {text : String} (spelled : stream.text index ≠ text) :
    stream.is index text = false :=
  Bool.eq_false_iff.mpr fun found => spelled (is_iff.mp found).2

/-- Another recognised token is no semicolon. -/
theorem not_semicolon_of_is {index : Nat} {text : String} (found : stream.is index text = true)
    (other : text ≠ ";") : stream.is index ";" = false :=
  is_eq_false_of_text fun spelled => other ((is_iff.mp found).2.symm.trans spelled)

theorem not_semicolon_of_textIn {index : Nat} {texts : List String}
    (listed : stream.textIn index texts = true) (other : ";" ∉ texts) :
    stream.is index ";" = false :=
  is_eq_false_of_text fun spelled => other (spelled ▸ List.contains_iff_mem.mp listed)

/-- No expression ends with a semicolon. -/
theorem endsExpression_of_semicolon {index : Nat}
    (mark : stream.kind? index = some .punctuator) (semicolon : stream.text index = ";") :
    stream.endsExpression index = false := by
  unfold kind? at mark
  unfold text at semicolon
  unfold endsExpression
  cases found : stream.get? index with
  | none => rfl
  | some token =>
    rw [found, Option.map_some, Option.some.injEq] at mark
    simp only [found] at semicolon
    simp only [Token.endsExpression, mark, semicolon]
    decide

end TokenStream

namespace Relocation

open TokenStream

variable {source target : TokenStream} (reloc : Relocation source target)

/-- Indices up to which the walks of the two streams run in step. -/
def Seen (index : Nat) : Prop :=
  reloc.Whole ∨ index < source.size

/-- Indices that stand for one another. -/
structure At (index other : Nat) : Prop where
  seen : reloc.Seen index
  shifted : other = index + reloc.shift

/-- Indices that stand for one another, the first token of a shifted stream aside. -/
structure Past (index other : Nat) : Prop extends reloc.At index other where
  later : 0 < index ∨ reloc.shift = 0

/-- Ends of bracket pairs or templates that stand for one another. -/
structure Closes (opening close other : Nat) : Prop where
  later : opening < close
  here : reloc.Past close other
  next : reloc.Past (close + 1) (other + 1)

variable {reloc}

/-! ## Indices -/

namespace At

variable {index other first second : Nat}

theorem lt_iff (one : reloc.At index other) (two : reloc.At first second) :
    index < first ↔ other < second := by
  have := one.shifted
  have := two.shifted
  omega

theorem le_iff (one : reloc.At index other) (two : reloc.At first second) :
    index ≤ first ↔ other ≤ second := by
  have := one.shifted
  have := two.shifted
  omega

theorem eq_iff (one : reloc.At index other) (two : reloc.At first second) :
    index = first ↔ other = second := by
  have := one.shifted
  have := two.shifted
  omega

/-- Indices before indices that stand for one another do so as well. -/
theorem before (at_ : reloc.At index other) {earlier : Nat} (ordered : earlier ≤ index) :
    reloc.At earlier (earlier + reloc.shift) where
  seen := at_.seen.imp_right fun inside => by omega
  shifted := rfl

/-- The walks run in step after every token that is no semicolon. -/
theorem succ (at_ : reloc.At index other) (further : source.is index ";" = false) :
    reloc.Past (index + 1) (other + 1) := by
  refine ⟨⟨?_, by rw [at_.shifted]; omega⟩, .inl (Nat.succ_pos index)⟩
  rcases at_.seen with whole | inside
  · exact .inl whole
  · refine reloc.seam.imp id fun seam => ?_
    by_contra past
    obtain rfl : index = source.size - 1 := by omega
    rw [seam.1] at further
    contradiction

theorem succ_of_is (at_ : reloc.At index other) {text : String}
    (found : source.is index text = true) (plain : text ≠ ";") :
    reloc.Past (index + 1) (other + 1) :=
  at_.succ (not_semicolon_of_is found plain)

theorem succ_of_kind? (at_ : reloc.At index other) {kind : TokenKind}
    (found : source.kind? index = some kind) (plain : kind ≠ .punctuator) :
    reloc.Past (index + 1) (other + 1) :=
  at_.succ (reloc.placed.not_semicolon found plain)

theorem succ_of_isPlainWord (at_ : reloc.At index other)
    (found : source.isPlainWord index = true) : reloc.Past (index + 1) (other + 1) :=
  at_.succ_of_kind? (kind?_of_isPlainWord found) (by decide)

theorem succ_of_textIn (at_ : reloc.At index other) {texts : List String}
    (listed : source.textIn index texts = true) (plain : ";" ∉ texts) :
    reloc.Past (index + 1) (other + 1) :=
  at_.succ (not_semicolon_of_textIn listed plain)

/-- The index after one that comes before an index of both streams. -/
theorem succ_of_lt (at_ : reloc.At index other) (later : reloc.At first second)
    (before : index < first) : reloc.Past (index + 1) (other + 1) where
  seen := later.seen.imp_right fun inside => by omega
  shifted := by
    have := at_.shifted
    omega
  later := .inl (Nat.succ_pos index)

end At

/-- Where the source takes up the rest of the target, the walks run in step throughout. -/
theorem At.succ_of_whole {index other : Nat} (at_ : reloc.At index other)
    (whole : reloc.Whole) : reloc.Past (index + 1) (other + 1) where
  seen := .inl whole
  shifted := by
    have := at_.shifted
    omega
  later := .inl (Nat.succ_pos index)

/-- The inside of a bracket pair starts alike. -/
theorem Closes.inside {opening otherOpening close other : Nat}
    (closes : reloc.Closes opening close other) (at_ : reloc.At opening otherOpening) :
    reloc.Past (opening + 1) (otherOpening + 1) :=
  at_.succ_of_lt closes.here.toAt closes.later

/-- The ends of both streams. -/
theorem at_size (whole : reloc.Whole) : reloc.At source.size target.size :=
  ⟨.inl whole, reloc.size whole⟩

/-- The indices between indices that stand for one another do so pairwise. -/
theorem range {first other stop otherStop : Nat} (starts : reloc.Past first other)
    (stops : reloc.At stop otherStop) :
    List.Forall₂
      (fun index image => reloc.Past index image ∧ reloc.Past (index + 1) (image + 1))
      (List.range' first (stop - first)) (List.range' other (otherStop - other)) := by
  obtain ⟨count, length⟩ : ∃ count, stop - first = count := ⟨_, rfl⟩
  have otherLength : otherStop - other = count := by
    have := starts.shifted
    have := stops.shifted
    omega
  rw [length, otherLength]
  clear otherLength
  induction count generalizing first other with
  | zero => exact .nil
  | succ count inductionHypothesis =>
    have next := starts.succ_of_lt stops (by omega)
    exact .cons ⟨starts, next⟩ (inductionHypothesis next (by omega))

/-- Indices that stand for one another follow tokens that do so as well, or the semicolon that
separates a shifted stream from what stands before it. -/
theorem At.past_or_first {index other : Nat} (at_ : reloc.At index other) :
    reloc.Past index other ∨ index = 0 ∧ 0 < other ∧
      target.kind? (other - 1) = some .punctuator ∧ target.text (other - 1) = ";" := by
  rcases Nat.eq_zero_or_pos index with rfl | positive
  · rcases Nat.eq_zero_or_pos reloc.shift with unshifted | shifted
    · exact .inl ⟨at_, .inr unshifted⟩
    · refine .inr ⟨rfl, ?_, ?_⟩
      all_goals rw [at_.shifted, Nat.zero_add]
      · exact shifted
      · exact reloc.before shifted
  · exact .inl ⟨at_, .inl positive⟩

/-- The tokens before indices that stand for one another do so as well. -/
theorem Past.pred {index other : Nat} (past : reloc.Past index other) :
    reloc.At (index - 1) (other - 1) where
  seen := past.seen.imp_right fun inside => by omega
  shifted := by
    have := past.shifted
    have := past.later
    omega

/-! ## Looking at tokens -/

namespace At

variable {index other : Nat} (at_ : reloc.At index other)

include at_

/-- Tokens that stand for one another, or the ends of both streams. -/
theorem get?_cases : source.get? index = none ∧ target.get? other = none ∧ reloc.Whole ∨
    ∃ token image, source.get? index = some token ∧ target.get? other = some image ∧
      token.StandsFor reloc.Offset reloc.Same image := by
  rw [at_.shifted]
  cases found : source.get? index with
  | some token =>
    obtain ⟨image, foundImage, alike⟩ := reloc.tokens found
    exact .inr ⟨token, image, rfl, foundImage, alike⟩
  | none =>
    have past : source.size ≤ index := by
      simpa [TokenStream.get?, TokenStream.size] using found
    have whole : reloc.Whole := at_.seen.resolve_right (Nat.not_lt_of_ge past)
    have same := reloc.size whole
    refine .inl ⟨rfl, ?_, whole⟩
    rw [TokenStream.get?, Array.getElem?_eq_none_iff]
    change target.size ≤ index + reloc.shift
    omega

theorem kind? : target.kind? other = source.kind? index := by
  unfold TokenStream.kind?
  obtain ⟨here, there, -⟩ | ⟨token, image, here, there, alike⟩ := at_.get?_cases
  · rw [here, there]
  · rw [here, there, Option.map_some, Option.map_some, alike.kind]

theorem lt_size_iff : index < source.size ↔ other < target.size := by
  have inside : ∀ (stream : TokenStream) (index : Nat),
      index < stream.size ↔ (stream.kind? index).isSome = true := by
    intro stream index
    simp [TokenStream.kind?, TokenStream.get?, TokenStream.size]
  rw [inside, inside, at_.kind?]

/-- Words and punctuators are spelled alike. -/
theorem is (text : String) : target.is other text = source.is index text := by
  unfold TokenStream.is
  obtain ⟨here, there, -⟩ | ⟨token, image, here, there, alike⟩ := at_.get?_cases
  · rw [here, there]
  · simp only [here, there, alike.kind]
    obtain same | ⟨template, -⟩ := alike.text
    · rw [same]
    · simp [TokenKind.eq_false_of_isTemplate template]

/-- Texts that differ have line breaks. -/
theorem text_cases : target.text other = source.text index ∨
    '\n' ∈ (source.text index).toList ∧ '\n' ∈ (target.text other).toList := by
  unfold TokenStream.text
  obtain ⟨here, there, -⟩ | ⟨token, image, here, there, alike⟩ := at_.get?_cases
  · rw [here, there]
    exact .inl rfl
  · rw [here, there]
    exact alike.text.imp_right And.right

theorem same_text : reloc.Same (source.text index) (target.text other) := by
  unfold TokenStream.text
  obtain ⟨here, there, -⟩ | ⟨token, image, here, there, alike⟩ := at_.get?_cases
  · rw [here, there]
    exact reloc.plain (by decide)
  · rw [here, there]
    exact alike.same

theorem text_of_kind? {kind : TokenKind} (found : source.kind? index = some kind)
    (plain : kind.isTemplate = false) : target.text other = source.text index := by
  unfold TokenStream.kind? at found
  unfold TokenStream.text
  obtain ⟨here, there, -⟩ | ⟨token, image, here, there, alike⟩ := at_.get?_cases
  · rw [here, there]
  · rw [here, Option.map_some, Option.some.injEq] at found
    rw [here, there]
    refine alike.text.resolve_right fun template => ?_
    rw [found, plain] at template
    exact absurd template.1 (by decide)

theorem text_of_isPlainWord (named : source.isPlainWord index = true) :
    target.text other = source.text index :=
  at_.text_of_kind? (kind?_of_isPlainWord named) rfl

theorem text_eq_iff {text : String} (plain : '\n' ∉ text.toList) :
    target.text other = text ↔ source.text index = text := by
  obtain same | ⟨sourceBreaks, targetBreaks⟩ := at_.text_cases
  · rw [same]
  · constructor
    · rintro rfl
      exact absurd targetBreaks plain
    · rintro rfl
      exact absurd sourceBreaks plain

theorem text_beq {text : String} (plain : '\n' ∉ text.toList) :
    (target.text other == text) = (source.text index == text) := by
  rw [Bool.eq_iff_iff, beq_iff_eq, beq_iff_eq, at_.text_eq_iff plain]

theorem textIn {texts : List String} (plain : ∀ text ∈ texts, '\n' ∉ text.toList) :
    target.textIn other texts = source.textIn index texts := by
  rw [Bool.eq_iff_iff, TokenStream.textIn, TokenStream.textIn, List.contains_iff_mem,
    List.contains_iff_mem]
  constructor
  · intro member
    have same := (at_.text_eq_iff (plain _ member)).mp rfl
    rwa [same]
  · intro member
    have same := (at_.text_eq_iff (plain _ member)).mpr rfl
    rwa [same]

theorem isPlainWord : target.isPlainWord other = source.isPlainWord index := by
  unfold TokenStream.isPlainWord
  obtain ⟨here, there, -⟩ | ⟨token, image, here, there, alike⟩ := at_.get?_cases
  · rw [here, there]
  · simp only [here, there, alike.kind]
    obtain same | ⟨template, -⟩ := alike.text
    · rw [same]
    · simp [TokenKind.eq_false_of_isTemplate template]

theorem endsExpression : target.endsExpression other = source.endsExpression index := by
  unfold TokenStream.endsExpression
  obtain ⟨here, there, -⟩ | ⟨token, image, here, there, alike⟩ := at_.get?_cases
  · rw [here, there]
  · simp only [here, there, alike.endsExpression]

theorem startOf : reloc.Offset (source.startOf index) (target.startOf other) := by
  unfold TokenStream.startOf
  obtain ⟨here, there, whole⟩ | ⟨token, image, here, there, alike⟩ := at_.get?_cases
  · rw [here, there]
    exact reloc.finish whole
  · rw [here, there]
    exact alike.start

theorem stopOf : reloc.Offset (source.stopOf index) (target.stopOf other) := by
  unfold TokenStream.stopOf
  obtain ⟨here, there, whole⟩ | ⟨token, image, here, there, alike⟩ := at_.get?_cases
  · rw [here, there]
    exact reloc.finish whole
  · rw [here, there]
    exact alike.stop

theorem partner? : target.partner? other = (source.partner? index).map (· + reloc.shift) := by
  rw [at_.shifted]
  exact reloc.partners at_.seen

/-- Brackets that stand for one another are closed by such brackets. -/
theorem closer? : Option.Rel (reloc.Closes index) (source.closer? index) (target.closer? other) := by
  cases found : source.closer? index with
  | some close =>
    have partner := (Option.filter_eq_some_iff.mp found).1
    have later := lt_of_closer?_eq_some found
    have foundTarget : target.closer? other = some (close + reloc.shift) := by
      refine Option.filter_eq_some_iff.mpr ⟨by rw [at_.partner?, partner]; rfl, ?_⟩
      have := at_.shifted
      simp only [decide_eq_true_eq]
      omega
    have here : reloc.Past close (close + reloc.shift) :=
      ⟨⟨at_.seen.imp_right fun _ => reloc.nested.lt_size_of_closer? found, rfl⟩,
        .inl (Nat.lt_of_le_of_lt (Nat.zero_le index) later)⟩
    rw [foundTarget]
    exact .some ⟨later, here, here.succ (reloc.nested.not_semicolon found)⟩
  | none =>
    have none : target.closer? other = none := by
      unfold TokenStream.closer? at found ⊢
      rw [at_.partner?]
      cases partner : source.partner? index with
      | none => rfl
      | some earlier =>
        rw [partner] at found
        have := at_.shifted
        simp only [Option.filter_eq_none_iff, Option.map_some, Option.some.injEq,
          decide_eq_true_eq, forall_eq'] at found ⊢
        omega
    rw [none]
    exact .none

end At

theorem Past.newlineBefore {index other : Nat} (past : reloc.Past index other) :
    target.newlineBefore other = source.newlineBefore index := by
  rcases Nat.lt_or_ge index source.size with inside | outside
  · rw [past.shifted]
    exact reloc.lines inside past.later
  · have gone : source.get? index = none := by
      simpa [TokenStream.get?, TokenStream.size] using outside
    have goneTarget : target.get? other = none := by
      obtain ⟨-, there, -⟩ | ⟨token, -, here, -⟩ := past.get?_cases
      · exact there
      · rw [gone] at here
        contradiction
    rw [TokenStream.newlineBefore, TokenStream.newlineBefore, gone, goneTarget]

/-! ## Templates -/

theorem templateTailFrom {index depth : Nat}
    (inside : source.templateTailFrom index depth < source.size) :
    target.templateTailFrom (index + reloc.shift) depth =
      source.templateTailFrom index depth + reloc.shift := by
  have image : ∀ {index : Nat}, index < source.size → reloc.At index (index + reloc.shift) :=
    fun inside => ⟨.inr inside, rfl⟩
  fun_induction source.templateTailFrom index depth with
  | case1 index depth inRange kind inductionHypothesis =>
    rw [TokenStream.templateTailFrom, dif_pos ((image inRange).lt_size_iff.mp inRange),
      (image inRange).kind?, kind, Nat.add_right_comm]
    exact inductionHypothesis inside
  | case2 index inRange kind =>
    rw [TokenStream.templateTailFrom, dif_pos ((image inRange).lt_size_iff.mp inRange),
      (image inRange).kind?, kind]
    rfl
  | case3 index depth inRange kind positive inductionHypothesis =>
    rw [TokenStream.templateTailFrom, dif_pos ((image inRange).lt_size_iff.mp inRange),
      (image inRange).kind?, kind, Nat.add_right_comm]
    simp only [if_neg positive]
    exact inductionHypothesis inside
  | case4 index depth inRange notHead notTail inductionHypothesis =>
    rw [TokenStream.templateTailFrom, dif_pos ((image inRange).lt_size_iff.mp inRange),
      (image inRange).kind?, Nat.add_right_comm]
    split
    · contradiction
    · contradiction
    · exact inductionHypothesis inside
  | case5 => omega

/-- Templates that stand for one another end with such tails. -/
theorem At.templateTail {index other : Nat} (at_ : reloc.At index other)
    (opens : source.kind? index = some .templateHead) :
    reloc.Closes index (source.templateTail index) (target.templateTail other) := by
  have tail := reloc.nested.templateTail opens
  have later : index < source.templateTail index :=
    le_templateTailFrom 0 (lt_size_of_kind? opens)
  have image : target.templateTail other = source.templateTail index + reloc.shift := by
    rw [TokenStream.templateTail, at_.shifted, Nat.add_right_comm]
    exact reloc.templateTailFrom (lt_size_of_kind? tail)
  have here : reloc.Past (source.templateTail index) (target.templateTail other) :=
    ⟨⟨.inr (lt_size_of_kind? tail), image⟩, .inl (Nat.lt_of_le_of_lt (Nat.zero_le index) later)⟩
  exact ⟨later, here, here.succ_of_kind? tail (by decide)⟩

/-! ## Answers -/

/-- Edits that stand for one another. -/
abbrev EditAlike (reloc : Relocation source target) : Edit → Edit → Prop :=
  Edit.StandsFor reloc.Offset reloc.Same

/-- Lists of edits that stand for one another. -/
abbrev EditsAlike (reloc : Relocation source target) : List Edit → List Edit → Prop :=
  List.Forall₂ reloc.EditAlike

theorem EditsAlike.append {first second other another : List Edit}
    (one : reloc.EditsAlike first other) (two : reloc.EditsAlike second another) :
    reloc.EditsAlike (first ++ second) (other ++ another) :=
  List.rel_append one two

theorem EditsAlike.single {edit other : Edit} (alike : reloc.EditAlike edit other) :
    reloc.EditsAlike [edit] [other] :=
  .cons alike .nil

/-- Two computations answer alike, or fail with one fault at places that correspond. -/
abbrev Alike (reloc : Relocation source target) {α β : Type} (Related : α → β → Prop) :
    Except SyntaxError α → Except SyntaxError β → Prop :=
  AnswersAlike reloc.Offset Related

section Answers

variable {α β γ δ : Type} {Related : α → β → Prop} {Result : γ → δ → Prop}

/-- Two lookups that answer alike are used alike. -/
theorem andThen {first : Option α} {other : Option β} {next : α → Option γ}
    {otherNext : β → Option δ} (one : Option.Rel Related first other)
    (rest : ∀ {value image}, Related value image → Option.Rel Result (next value) (otherNext image)) :
    Option.Rel Result (first >>= next) (other >>= otherNext) := by
  cases one with
  | none => exact .none
  | some related => exact rest related

/-- Two lookups find nothing, or what they find is related. -/
theorem lookup_cases {first : Option α} {other : Option β} (one : Option.Rel Related first other) :
    first = none ∧ other = none ∨
      ∃ value image, first = some value ∧ other = some image ∧ Related value image := by
  cases one with
  | none => exact .inl ⟨rfl, rfl⟩
  | some related => exact .inr ⟨_, _, rfl, rfl, related⟩

/-- Two tests of which the second is made only where the first holds. -/
theorem both {first second other another : Bool} (one : other = first)
    (two : first = true → another = second) : (other && another) = (first && second) := by
  subst one
  cases other with
  | false => rfl
  | true => exact two rfl

/-- A choice that both sides make alike. -/
theorem choose {Rel : α → β → Prop} {choice other : Prop} [Decidable choice] [Decidable other]
    {yes no : α} {otherYes otherNo : β} (same : choice ↔ other)
    (whenTrue : choice → Rel yes otherYes) (whenFalse : ¬choice → Rel no otherNo) :
    Rel (if choice then yes else no) (if other then otherYes else otherNo) := by
  by_cases chosen : choice
  · rw [if_pos chosen, if_pos (same.mp chosen)]
    exact whenTrue chosen
  · rw [if_neg chosen, if_neg (mt same.mpr chosen)]
    exact whenFalse chosen

end Answers

/-- Two walks that found alike edits on their ways to indices that stand for one another. -/
structure ProgressAlike (reloc : Relocation source target) (progress other : Progress) : Prop where
  next : reloc.Past progress.next other.next
  edits : reloc.EditsAlike progress.edits other.edits

theorem ProgressAlike.still {index other : Nat} (past : reloc.Past index other) :
    reloc.ProgressAlike (.still index) (.still other) :=
  ⟨past, .nil⟩

theorem ProgressAlike.preceded {progress other : Progress} {edits otherEdits : List Edit}
    (alike : reloc.ProgressAlike progress other) (earlier : reloc.EditsAlike edits otherEdits) :
    reloc.ProgressAlike (progress.preceded edits) (other.preceded otherEdits) :=
  ⟨alike.next, earlier.append alike.edits⟩

/-- Walks end alike: before indices that stand for one another, or at the semicolon at the
latest. -/
structure EndsAlike (reloc : Relocation source target) (ending other : WalkEnd) : Prop where
  stops : other.stops = ending.stops
  plain : ∀ text ∈ ending.stops, '\n' ∉ text.toList
  lineEnd : other.lineEnd = ending.lineEnd
  limit : reloc.At ending.limit other.limit ∨
    ending.limit = source.size ∧ other.limit = target.size ∧ ";" ∈ ending.stops

/-- Walkers that answer alike. -/
def WalksAlike (reloc : Relocation source target) (walk other : Walk) : Prop :=
  ∀ {index otherIndex ending otherEnding}, reloc.Past index otherIndex →
    reloc.EndsAlike ending otherEnding →
      reloc.Alike reloc.ProgressAlike (walk index ending) (other otherIndex otherEnding)

theorem EndsAlike.before {limit other : Nat} (at_ : reloc.At limit other) {stops : List String}
    (plain : ∀ text ∈ stops, '\n' ∉ text.toList) (lineEnd : LineEnd) :
    reloc.EndsAlike ⟨limit, stops, lineEnd⟩ ⟨other, stops, lineEnd⟩ :=
  ⟨rfl, plain, rfl, .inl at_⟩

theorem EndsAlike.upTo {limit other : Nat} (at_ : reloc.At limit other) :
    reloc.EndsAlike (.upTo limit) (.upTo other) :=
  .before at_ (by simp) .never

/-- A token that is passed if it stands there. -/
theorem Past.optional {index other : Nat} (past : reloc.Past index other) (text : String)
    (plain : text ≠ ";") :
    reloc.Past (if source.is index text then index + 1 else index)
      (if target.is other text then other + 1 else other) :=
  choose (by rw [past.is]) (fun found => past.succ_of_is found plain) (fun _ => past)

end Relocation

end Playground
