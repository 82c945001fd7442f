import Playground.Proofs.Erasure.Nesting

/-!
# Balanced spans

A span of tokens is `Balanced` when it holds both brackets of a pair or neither. Recognisers of
syntax pass single tokens, bracket pairs and templates, which is what `Passes` says, and
whatever they pass is balanced; a `Phrase` has no semicolon between its parts besides. A span may
fail to be balanced in two ways: a pair opens in it and closes after it, or it takes the closing
bracket of a pair that opens before it. Where the end of a span is searched for, the first does
not happen (`closes_seek`), and the second may.
-/

namespace Playground.TokenStream

variable {stream : TokenStream} {first middle stop : Nat}

/-- The tokens from `first` up to `stop` hold both brackets of a pair or neither. -/
structure Balanced (stream : TokenStream) (first stop : Nat) : Prop where
  ordered : first ≤ stop
  paired : ∀ {opening close}, stream.closer? opening = some close →
    ((first ≤ opening ∧ opening < stop) ↔ (first ≤ close ∧ close < stop))

/-- A pair that opens between two indices closes between them. -/
def Closes (stream : TokenStream) (first stop : Nat) : Prop :=
  ∀ opening close, stream.closer? opening = some close → first ≤ opening → opening < stop →
    close < stop

/-- The tokens from `first` up to `stop` hold the closing bracket of a pair that opens before
them. -/
def TakesCloser (stream : TokenStream) (first stop : Nat) : Prop :=
  ∃ opening close, stream.closer? opening = some close ∧ opening < first ∧ first ≤ close ∧
    close < stop

namespace Balanced

theorem refl (index : Nat) : stream.Balanced index index :=
  ⟨Nat.le_refl index, fun _ => ⟨fun inside => by omega, fun inside => by omega⟩⟩

theorem trans (one : stream.Balanced first middle) (other : stream.Balanced middle stop) :
    stream.Balanced first stop where
  ordered := Nat.le_trans one.ordered other.ordered
  paired {opening close} found := by
    have before := one.paired found
    have after := other.paired found
    have ordered := one.ordered
    have ordered := other.ordered
    omega

/-- What is left of a balanced span after a balanced part. -/
theorem rest (whole : stream.Balanced first stop) (part : stream.Balanced first middle)
    (within : middle ≤ stop) : stream.Balanced middle stop where
  ordered := within
  paired {opening close} found := by
    have outer := whole.paired found
    have inner := part.paired found
    have ordered := part.ordered
    omega

/-- A balanced span closes no pair that opens before it. -/
theorem le_close {opening close : Nat} (balanced : stream.Balanced first stop)
    (found : stream.closer? opening = some close) (after : opening < first)
    (before : first ≤ close) : stop ≤ close := by
  by_contra past
  have := (balanced.paired found).mpr ⟨before, by omega⟩
  omega

theorem closes (balanced : stream.Balanced first stop) : stream.Closes first stop :=
  fun _ _ found after before => ((balanced.paired found).mp ⟨after, before⟩).2

/-- What brackets, or the ends of a template, enclose together with them. -/
theorem of_returns (nested : stream.Nested) {opening close : Nat}
    (returns : Returns stream.tokens.toList (stream.depth opening) (opening + 1) close) :
    stream.Balanced opening (close + 1) where
  ordered := Nat.le_succ_of_le (Nat.le_of_succ_le returns.after)
  paired {inner outer} found := by
    have pair := (nested.pairs found).returns
    have ordered : inner < outer := pair.after
    have level : stream.depth (close + 1) = stream.depth opening := returns.outside
    have pairLevel : stream.depth (outer + 1) = stream.depth inner := pair.outside
    have inside : ∀ between, opening < between → between ≤ close →
        stream.depth opening < stream.depth between :=
      fun between lower upper => returns.inside between lower upper
    have deeper : ∀ between, inner < between → between ≤ outer →
        stream.depth inner < stream.depth between :=
      fun between lower upper => pair.inside between lower upper
    constructor
    · rintro ⟨after, before⟩
      refine ⟨by omega, ?_⟩
      by_contra past
      have crossing := deeper (close + 1) (by omega) (by omega)
      rcases Nat.eq_or_lt_of_le after with rfl | later
      · omega
      · have := inside inner later (by omega)
        omega
    · rintro ⟨after, before⟩
      refine ⟨?_, by omega⟩
      by_contra past
      have crossing := deeper opening (by omega) after
      rcases Nat.eq_or_lt_of_le (Nat.le_of_lt_succ before) with rfl | earlier
      · omega
      · have := inside (outer + 1) (by omega) earlier
        omega

theorem pair (nested : stream.Nested) {opening close : Nat}
    (found : stream.closer? opening = some close) : stream.Balanced opening (close + 1) :=
  of_returns nested (nested.pairs found).returns

/-- What a bracket pair encloses. -/
theorem inside_pair (nested : stream.Nested) {opening close : Nat}
    (found : stream.closer? opening = some close) : stream.Balanced (opening + 1) close where
  ordered := lt_of_closer?_eq_some found
  paired {inner outer} foundInner := by
    have whole := (pair nested found).paired foundInner
    have ordered := lt_of_closer?_eq_some found
    have orderedInner := lt_of_closer?_eq_some foundInner
    have disjoint : inner = opening ∨ inner = close ∨ outer = opening ∨ outer = close →
        inner = opening ∧ outer = close := fun shared =>
      Prod.mk.inj (@Encloses.disjoint _ (inner, outer) (opening, close) (nested.pairs foundInner)
        (nested.pairs found) shared)
    omega

/-- A token that is no bracket. -/
theorem single {index : Nat}
    (unpaired : ∀ opening close, stream.closer? opening = some close →
      opening ≠ index ∧ close ≠ index) : stream.Balanced index (index + 1) where
  ordered := Nat.le_succ index
  paired {opening close} found := by
    have apart := unpaired opening close found
    omega

end Balanced

/-- A span whose pairs close in it is balanced or takes the closing bracket of another. -/
theorem Closes.balanced_or_takesCloser (closes : stream.Closes first stop)
    (ordered : first ≤ stop) : stream.Balanced first stop ∨ stream.TakesCloser first stop := by
  by_cases takes : stream.TakesCloser first stop
  · exact .inr takes
  refine .inl ⟨ordered, fun {opening close} found => ?_⟩
  have before := lt_of_closer?_eq_some found
  constructor
  · rintro ⟨after, within⟩
    exact ⟨by omega, closes opening close found after within⟩
  · rintro ⟨after, within⟩
    refine ⟨?_, by omega⟩
    by_contra earlier
    exact takes ⟨opening, close, found, by omega, after, within⟩

theorem Closes.trans (one : stream.Closes first middle) (other : stream.Closes middle stop)
    (ordered : middle ≤ stop) : stream.Closes first stop := by
  intro opening close found after before
  rcases Nat.lt_or_ge opening middle with earlier | later
  · exact Nat.lt_of_lt_of_le (one opening close found after earlier) ordered
  · exact other opening close found later before

/-- Whatever opens closes before the end of the program. -/
theorem closes_of_size_le (nested : stream.Nested) (first : Nat) (past : stream.size ≤ stop) :
    stream.Closes first stop := by
  intro opening close found _ _
  obtain ⟨_, closer, _, atClose, _⟩ := (nested.pairs found).matching
  have inside := (List.getElem?_eq_some_iff.mp atClose).1
  simp only [size, Array.length_toList] at past inside
  omega

/-- A span that starts with a balanced one and ends in it is balanced if its pairs close. -/
theorem Balanced.of_closes {limit : Nat} (whole : stream.Balanced first limit)
    (closes : stream.Closes first stop) (ordered : first ≤ stop) (within : stop ≤ limit) :
    stream.Balanced first stop := by
  refine (closes.balanced_or_takesCloser ordered).resolve_right ?_
  rintro ⟨opening, close, found, before, after, inside⟩
  have := (whole.paired found).mpr ⟨after, by omega⟩
  omega

/-! ## Tokens -/

/-- The token at an index neither opens nor closes anything. -/
def IsNeutral (stream : TokenStream) (index : Nat) : Prop :=
  ∃ token, stream.get? index = some token ∧ token.bracketRole = .neutral

/-- The brackets of a pair are single characters and not neutral. -/
theorem Nested.bracket (nested : stream.Nested) {opening close index : Nat}
    (found : stream.closer? opening = some close) (bracket : index = opening ∨ index = close) :
    stream.stopOf index = stream.startOf index + 1 ∧ ¬stream.IsNeutral index := by
  obtain ⟨token, closer, foundToken, foundCloser, kind, closerKind, listed⟩ :=
    (nested.pairs found).matching
  have single : ∀ pair ∈ bracketPairs, pair.1.length = 1 ∧ pair.2.length = 1 := by
    decide
  have roles : ∀ pair ∈ bracketPairs, (["(", "[", "\x7b"].contains pair.1 ||
      [")", "]", "\x7d"].contains pair.1) = true ∧ (["(", "[", "\x7b"].contains pair.2 ||
      [")", "]", "\x7d"].contains pair.2) = true := by
    decide
  obtain ⟨openingSingle, closeSingle⟩ := single _ listed
  obtain ⟨openingRole, closeRole⟩ := roles _ listed
  have character : ∀ {token : Token}, stream.tokens.toList[index]? = some token →
      token.kind = .punctuator → token.text.length = 1 → (["(", "[", "\x7b"].contains token.text ||
        [")", "]", "\x7d"].contains token.text) = true →
      stream.stopOf index = stream.startOf index + 1 ∧ ¬stream.IsNeutral index := by
    intro token atIndex kind length role
    have here : stream.get? index = some token := by
      rwa [get?, ← Array.getElem?_toList]
    refine ⟨by simp [stopOf, startOf, here, Token.stop, length], ?_⟩
    rintro ⟨other, same, neutral⟩
    obtain rfl := Option.some.inj (here.symm.trans same)
    simp only [Token.bracketRole, kind] at neutral
    split at neutral
    · contradiction
    · split at neutral
      · contradiction
      · simp_all
  rcases bracket with rfl | rfl
  · exact character foundToken kind openingSingle openingRole
  · exact character foundCloser closerKind closeSingle closeRole

theorem Balanced.neutral (nested : stream.Nested) {index : Nat} (neutral : stream.IsNeutral index) :
    stream.Balanced index (index + 1) := by
  refine .single fun opening close found => ⟨?_, ?_⟩
  · rintro rfl
    exact (nested.bracket found (.inl rfl)).2 neutral
  · rintro rfl
    exact (nested.bracket found (.inr rfl)).2 neutral

/-- The texts of the brackets of a pair. -/
theorem Nested.text_bracket (nested : stream.Nested) {opening close : Nat}
    (found : stream.closer? opening = some close) :
    stream.kind? opening = some .punctuator ∧ stream.kind? close = some .punctuator ∧
      (stream.text opening, stream.text close) ∈ bracketPairs := by
  obtain ⟨token, closer, atOpening, atClose, kind, closerKind, listed⟩ :=
    (nested.pairs found).matching
  rw [Array.getElem?_toList] at atOpening atClose
  simpa [kind?, text, get?, atOpening, atClose, kind, closerKind] using listed

/-- A token that is no bracket and no part of a template is neutral. -/
theorem isNeutral_of_kind? {index : Nat} {kind : TokenKind} (found : stream.kind? index = some kind)
    (plain : kind = .word ∨ kind = .number ∨ kind = .string ∨ kind = .regex ∨ kind = .template) :
    stream.IsNeutral index := by
  obtain ⟨token, atIndex, rfl⟩ := Option.map_eq_some_iff.mp found
  refine ⟨token, atIndex, ?_⟩
  rcases plain with same | same | same | same | same <;> simp [Token.bracketRole, same]

theorem isNeutral_of_isPlainWord {index : Nat} (word : stream.isPlainWord index = true) :
    stream.IsNeutral index :=
  isNeutral_of_kind? (kind?_of_isPlainWord word) (.inl rfl)

/-- A recognised token that is not written as a bracket is neutral. -/
theorem isNeutral_of_is {index : Nat} {text : String} (found : stream.is index text = true)
    (plain : ["(", "[", "\x7b", ")", "]", "\x7d"].contains text = false) :
    stream.IsNeutral index := by
  obtain ⟨punctuator | word, rfl⟩ := is_iff.mp found
  · obtain ⟨token, atIndex, kind⟩ := Option.map_eq_some_iff.mp punctuator
    simp only [TokenStream.text, atIndex] at plain
    refine ⟨token, atIndex, ?_⟩
    simp_all [Token.bracketRole]
  · exact isNeutral_of_kind? word (.inl rfl)

/-- The token at an index is neutral and ends no statement. -/
def IsOrdinary (stream : TokenStream) (index : Nat) : Prop :=
  ∃ token, stream.get? index = some token ∧ token.bracketRole = .neutral ∧
    token.isMark ";" = false

theorem IsOrdinary.neutral {index : Nat} (ordinary : stream.IsOrdinary index) :
    stream.IsNeutral index := by
  obtain ⟨token, found, neutral, _⟩ := ordinary
  exact ⟨token, found, neutral⟩

theorem isOrdinary_of_kind? {index : Nat} {kind : TokenKind}
    (found : stream.kind? index = some kind)
    (plain : kind = .word ∨ kind = .number ∨ kind = .string ∨ kind = .regex ∨ kind = .template) :
    stream.IsOrdinary index := by
  obtain ⟨token, atIndex, neutral⟩ := isNeutral_of_kind? found plain
  rw [kind?, atIndex] at found
  cases found
  refine ⟨token, atIndex, neutral, ?_⟩
  rcases plain with same | same | same | same | same <;> simp [Token.isMark, same]

theorem isOrdinary_of_isPlainWord {index : Nat} (word : stream.isPlainWord index = true) :
    stream.IsOrdinary index :=
  isOrdinary_of_kind? (kind?_of_isPlainWord word) (.inl rfl)

/-- A recognised token that is written neither as a bracket nor as a semicolon is ordinary. -/
theorem isOrdinary_of_is {index : Nat} {text : String} (found : stream.is index text = true)
    (plain : [";", "(", "[", "\x7b", ")", "]", "\x7d"].contains text = false) :
    stream.IsOrdinary index := by
  rw [List.contains_cons, Bool.or_eq_false_iff] at plain
  obtain ⟨token, atIndex, neutral⟩ := isNeutral_of_is found plain.2
  have spelled := (is_iff.mp found).2
  simp only [TokenStream.text, atIndex] at spelled
  refine ⟨token, atIndex, neutral, ?_⟩
  rw [Token.isMark, spelled, plain.1, Bool.and_false]

theorem skip_eq_of_closer? {opening close : Nat} (found : stream.closer? opening = some close) :
    stream.skip opening = close + 1 := by
  rw [skip, found]

/-- A neutral token is passed alone. -/
theorem skip_eq_of_isNeutral (nested : stream.Nested) {index : Nat}
    (neutral : stream.IsNeutral index) : stream.skip index = index + 1 := by
  cases found : stream.closer? index with
  | none => rw [skip, found]
  | some close => exact absurd neutral (nested.bracket found (.inl rfl)).2

/-- A search goes on behind what it does not look for. -/
theorem seek_eq_seek_skip {found : Nat → Bool} {limit index : Nat} (before : index < limit)
    (other : found index = false) :
    stream.seek found limit index = stream.seek found limit (stream.skip index) := by
  rw [seek, dif_pos before, other, if_neg Bool.false_ne_true]

theorem seek_eq_self {found : Nat → Bool} {limit index : Nat} (here : found index = true) :
    stream.seek found limit index = index := by
  rw [seek, here, if_pos rfl, dite_eq_ite, ite_self]

/-! ## What recognisers pass -/

/-- The tokens from an index up to another are neutral tokens, bracket pairs and templates. -/
inductive Passes (stream : TokenStream) : Nat → Nat → Prop where
  | nothing {index} : Passes stream index index
  | token {index stop} (neutral : stream.IsNeutral index)
      (rest : Passes stream (index + 1) stop) : Passes stream index stop
  | pair {opening close stop} (closes : stream.closer? opening = some close)
      (rest : Passes stream (close + 1) stop) : Passes stream opening stop
  | template {head stop} (opens : stream.kind? head = some .templateHead)
      (rest : Passes stream (stream.templateTail head + 1) stop) : Passes stream head stop

namespace Passes

theorem balanced (nested : stream.Nested) (passes : stream.Passes first stop) :
    stream.Balanced first stop := by
  induction passes with
  | nothing => exact .refl _
  | token neutral _ inductionHypothesis =>
    exact (Balanced.neutral nested neutral).trans inductionHypothesis
  | pair closes _ inductionHypothesis =>
    exact (Balanced.pair nested closes).trans inductionHypothesis
  | template opens _ inductionHypothesis =>
    exact (Balanced.of_returns nested (nested.templates opens)).trans inductionHypothesis

theorem trans (one : stream.Passes first middle) (other : stream.Passes middle stop) :
    stream.Passes first stop := by
  induction one with
  | nothing => exact other
  | token neutral _ inductionHypothesis => exact .token neutral (inductionHypothesis other)
  | pair closes _ inductionHypothesis => exact .pair closes (inductionHypothesis other)
  | template opens _ inductionHypothesis => exact .template opens (inductionHypothesis other)

theorem single {index : Nat} (neutral : stream.IsNeutral index) :
    stream.Passes index (index + 1) :=
  .token neutral .nothing

theorem enclosed {opening close : Nat} (closes : stream.closer? opening = some close) :
    stream.Passes opening (close + 1) :=
  .pair closes .nothing

end Passes

/-- The tokens from an index up to another are part of one statement: ordinary tokens, bracket
pairs and templates. -/
inductive Phrase (stream : TokenStream) : Nat → Nat → Prop where
  | nothing {index} : Phrase stream index index
  | token {index stop} (ordinary : stream.IsOrdinary index)
      (rest : Phrase stream (index + 1) stop) : Phrase stream index stop
  | pair {opening close stop} (closes : stream.closer? opening = some close)
      (rest : Phrase stream (close + 1) stop) : Phrase stream opening stop
  | template {head stop} (opens : stream.kind? head = some .templateHead)
      (rest : Phrase stream (stream.templateTail head + 1) stop) : Phrase stream head stop

namespace Phrase

theorem passes (phrase : stream.Phrase first stop) : stream.Passes first stop := by
  induction phrase with
  | nothing => exact .nothing
  | token ordinary _ inductionHypothesis => exact .token ordinary.neutral inductionHypothesis
  | pair closes _ inductionHypothesis => exact .pair closes inductionHypothesis
  | template opens _ inductionHypothesis => exact .template opens inductionHypothesis

theorem balanced (nested : stream.Nested) (phrase : stream.Phrase first stop) :
    stream.Balanced first stop :=
  phrase.passes.balanced nested

theorem le (nested : stream.Nested) (phrase : stream.Phrase first stop) : first ≤ stop :=
  (phrase.balanced nested).ordered

theorem trans (one : stream.Phrase first middle) (other : stream.Phrase middle stop) :
    stream.Phrase first stop := by
  induction one with
  | nothing => exact other
  | token ordinary _ inductionHypothesis => exact .token ordinary (inductionHypothesis other)
  | pair closes _ inductionHypothesis => exact .pair closes (inductionHypothesis other)
  | template opens _ inductionHypothesis => exact .template opens (inductionHypothesis other)

theorem single {index : Nat} (ordinary : stream.IsOrdinary index) :
    stream.Phrase index (index + 1) :=
  .token ordinary .nothing

theorem enclosed {opening close : Nat} (closes : stream.closer? opening = some close) :
    stream.Phrase opening (close + 1) :=
  .pair closes .nothing

end Phrase

/-! ## Searches -/

/-- A search passes bracket pairs whole. -/
theorem closes_seek (nested : stream.Nested) (found : Nat → Bool) (limit index : Nat) :
    stream.Closes index (stream.seek found limit index) := by
  fun_induction stream.seek found limit index with
  | case1 | case3 =>
    intro opening close _ after before
    omega
  | case2 index _ _ inductionHypothesis =>
    refine Closes.trans ?_ inductionHypothesis (stream.le_seek ..)
    unfold skip
    split
    · exact (Balanced.pair nested ‹_›).closes
    · rename_i unopened
      intro opening close foundPair after before
      obtain rfl : opening = index := by omega
      rw [unopened] at foundPair
      contradiction

/-- A search that ends before its limit has found what it was looking for. -/
theorem found_of_seek_lt {found : Nat → Bool} {limit index : Nat}
    (before : stream.seek found limit index < limit) :
    found (stream.seek found limit index) = true := by
  fun_induction stream.seek found limit index with
  | case1 => assumption
  | case2 _ _ _ inductionHypothesis => exact inductionHypothesis before
  | case3 => omega

end Playground.TokenStream
