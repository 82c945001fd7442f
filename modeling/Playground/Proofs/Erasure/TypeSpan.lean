import Playground.Erasure.TypeSyntax
import Playground.Proofs.Erasure.Span

/-!
# What type syntax passes

Every recogniser of type syntax passes a `Phrase`: ordinary tokens, bracket pairs and templates
only. The recognisers of single constructs are judged under the assumption that `inner` does so,
and `phrase_of_typeEnd?` closes the loop. None of them passes nothing (`lt_of_typeEnd?`).
-/

namespace Playground.TokenStream

variable {stream : TokenStream} {index stop : Nat}

/-- A run passes what it accepts. -/
theorem phrase_runEnd {accepts : Nat → Bool} {limit : Nat}
    (ordinary : ∀ index, accepts index = true → stream.IsOrdinary index) :
    stream.Phrase index (runEnd accepts limit index) := by
  fun_induction runEnd accepts limit index with
  | case1 index _ accepted inductionHypothesis =>
    exact .token (ordinary index accepted) inductionHypothesis
  | case2 | case3 => exact .nothing

theorem phrase_dottedEnd (stop : Nat) : stream.Phrase stop (stream.dottedEnd stop) := by
  fun_induction stream.dottedEnd stop with
  | case1 stop dotted inductionHypothesis =>
    exact .token (isOrdinary_of_is dotted.1 (by decide))
      (.token (isOrdinary_of_isPlainWord dotted.2) inductionHypothesis)
  | case2 => exact .nothing

theorem phrase_of_qualifiedNameEnd? (found : stream.qualifiedNameEnd? index = some stop) :
    stream.Phrase index stop := by
  unfold qualifiedNameEnd? at found
  split at found
  · cases found
    exact .token (isOrdinary_of_isPlainWord ‹_›) (phrase_dottedEnd _)
  · contradiction

theorem phrase_of_subscriptsEnd? (found : stream.subscriptsEnd? index = some stop) :
    stream.Phrase index stop := by
  fun_induction stream.subscriptsEnd? index with
  | case1 index _ close closes inductionHypothesis => exact .pair closes (inductionHypothesis found)
  | case2 => contradiction
  | case3 =>
    cases found
    exact .nothing

/-- A text that begins like a word is ordinary. -/
theorem isOrdinary_of_text (placed : stream.Placed) {text : String}
    (spelled : stream.text index = text) (word : text.toList.head?.any startsWord = true) :
    stream.IsOrdinary index :=
  isOrdinary_of_kind? (placed.kind?_of_start (spelled ▸ word)) (.inl rfl)

theorem isOrdinary_of_textIn (placed : stream.Placed) {texts : List String}
    (listed : stream.textIn index texts = true)
    (words : ∀ text ∈ texts, text.toList.head?.any startsWord = true) :
    stream.IsOrdinary index :=
  isOrdinary_of_text placed rfl (words _ (List.contains_iff_mem.mp listed))

theorem phrase_parameterNameFrom (placed : stream.Placed) (index : Nat) :
    stream.Phrase index (stream.parameterNameFrom index) := by
  refine phrase_runEnd fun index accepted => ?_
  exact isOrdinary_of_textIn placed (Bool.and_eq_true_iff.mp accepted).1 (by decide)

theorem phrase_operandFrom (index : Nat) : stream.Phrase index (stream.operandFrom index) := by
  refine phrase_runEnd fun index accepted => ?_
  simp only [Bool.or_eq_true] at accepted
  rcases accepted with (keyof | readonly) | unique
  · exact isOrdinary_of_is keyof (by decide)
  · exact isOrdinary_of_is readonly (by decide)
  · exact isOrdinary_of_is unique (by decide)

section Constructs

variable {inner : Nat → Option Nat}
  (innerPhrase : ∀ {index stop}, inner index = some stop → stream.Phrase index stop)

include innerPhrase

theorem phrase_of_typeArgumentsTail? (found : stream.typeArgumentsTail? inner index = some stop) :
    stream.Phrase index stop := by
  fun_induction stream.typeArgumentsTail? inner index with
  | case1 => contradiction
  | case2 index type foundType closes =>
    cases found
    exact (innerPhrase foundType).trans (.single (isOrdinary_of_is closes (by decide)))
  | case3 index type foundType _ comma inductionHypothesis =>
    exact (innerPhrase foundType).trans
      (.token (isOrdinary_of_is comma.2 (by decide)) (inductionHypothesis found))
  | case4 => contradiction

theorem phrase_of_typeArgumentsWith? (found : stream.typeArgumentsWith? inner index = some stop) :
    stream.Phrase index stop := by
  unfold typeArgumentsWith? at found
  split at found
  · exact .token (isOrdinary_of_is ‹_› (by decide)) (phrase_of_typeArgumentsTail? innerPhrase found)
  · contradiction

theorem phrase_of_markedType? {mark : String}
    (plain : [";", "(", "[", "\x7b", ")", "]", "\x7d"].contains mark = false)
    (found : stream.markedType? inner mark index = some stop) : stream.Phrase index stop := by
  unfold markedType? at found
  split at found
  · exact .token (isOrdinary_of_is ‹_› plain) (innerPhrase found)
  · cases found
    exact .nothing

theorem phrase_of_typeParameter? (placed : stream.Placed)
    (found : stream.typeParameter? inner index = some stop) : stream.Phrase index stop := by
  unfold typeParameter? at found
  extract_lets name at found
  split at found
  case isTrue named =>
    simp only [Option.bind_eq_bind, Option.bind_eq_some_iff] at found
    obtain ⟨constraint, foundConstraint, foundDefault⟩ := found
    have word := (Bool.and_eq_true_iff.mp named).1
    have marks : stream.Phrase (name + 1) stop :=
      (phrase_of_markedType? innerPhrase (by decide) foundConstraint).trans
        (phrase_of_markedType? innerPhrase (by decide) foundDefault)
    exact (phrase_parameterNameFrom placed index).trans
      (.token (isOrdinary_of_isPlainWord word) marks)
  case isFalse => contradiction

theorem phrase_of_typeParametersTail? (placed : stream.Placed)
    (found : stream.typeParametersTail? inner index = some stop) : stream.Phrase index stop := by
  fun_induction stream.typeParametersTail? inner index with
  | case1 => contradiction
  | case2 index type foundType comma closes =>
    cases found
    exact (phrase_of_typeParameter? innerPhrase placed foundType).trans
      (.token (isOrdinary_of_is comma.2 (by decide))
        (.single (isOrdinary_of_is closes (by decide))))
  | case3 index type foundType comma _ inductionHypothesis =>
    exact (phrase_of_typeParameter? innerPhrase placed foundType).trans
      (.token (isOrdinary_of_is comma.2 (by decide)) (inductionHypothesis found))
  | case4 index type foundType _ closes =>
    cases found
    exact (phrase_of_typeParameter? innerPhrase placed foundType).trans
      (.single (isOrdinary_of_is closes (by decide)))
  | case5 => contradiction

theorem phrase_of_typeParametersWith? (placed : stream.Placed)
    (found : stream.typeParametersWith? inner index = some stop) : stream.Phrase index stop := by
  unfold typeParametersWith? at found
  split at found
  · exact .token (isOrdinary_of_is ‹_› (by decide))
      (phrase_of_typeParametersTail? innerPhrase placed found)
  · contradiction

theorem phrase_of_arrowTypeWith? (found : stream.arrowTypeWith? inner index = some stop) :
    stream.Phrase index stop := by
  unfold arrowTypeWith? at found
  split at found
  · simp only [Option.bind_eq_bind, Option.bind_eq_some_iff] at found
    obtain ⟨close, closes, found⟩ := found
    split at found
    · exact .pair closes (.token (isOrdinary_of_is ‹_› (by decide)) (innerPhrase found))
    · contradiction
  · contradiction

theorem phrase_of_functionTypeWith? (placed : stream.Placed)
    (found : stream.functionTypeWith? inner index = some stop) : stream.Phrase index stop := by
  unfold functionTypeWith? at found
  split at found
  · simp only [Option.bind_eq_bind, Option.bind_eq_some_iff] at found
    obtain ⟨generics, foundGenerics, found⟩ := found
    exact (phrase_of_typeParametersWith? innerPhrase placed foundGenerics).trans
      (phrase_of_arrowTypeWith? innerPhrase found)
  · exact phrase_of_arrowTypeWith? innerPhrase found

theorem phrase_of_appliedNameWith? (found : stream.appliedNameWith? inner index = some stop) :
    stream.Phrase index stop := by
  simp only [appliedNameWith?, Option.bind_eq_bind, Option.bind_eq_some_iff] at found
  obtain ⟨name, foundName, found⟩ := found
  have named := phrase_of_qualifiedNameEnd? foundName
  split at found
  · exact named.trans (phrase_of_typeArgumentsWith? innerPhrase found)
  · cases found
    exact named

theorem phrase_of_punctuatedTypeWith? (placed : stream.Placed)
    (found : stream.punctuatedTypeWith? inner index = some stop) : stream.Phrase index stop := by
  unfold punctuatedTypeWith? at found
  split at found
  · simp only [Option.bind_eq_bind, Option.bind_eq_some_iff] at found
    obtain ⟨close, closes, found⟩ := found
    split at found
    · exact .pair closes (.token (isOrdinary_of_is ‹_› (by decide)) (innerPhrase found))
    split at found
    · contradiction
    · cases found
      exact .enclosed closes
  split at found
  · exact phrase_of_functionTypeWith? innerPhrase placed found
  split at found
  · obtain ⟨close, closes, rfl⟩ := Option.map_eq_some_iff.mp found
    exact .enclosed closes
  split at found
  · rename_i negative
    simp only [Bool.and_eq_true, beq_iff_eq] at negative
    cases found
    exact .token (isOrdinary_of_is negative.1 (by decide))
      (.single (isOrdinary_of_kind? negative.2 (.inr (.inl rfl))))
  · contradiction

theorem phrase_of_wordTypeWith? (placed : stream.Placed)
    (found : stream.wordTypeWith? inner index = some stop) : stream.Phrase index stop := by
  unfold wordTypeWith? at found
  split at found
  · exact .token (isOrdinary_of_is ‹_› (by decide))
      (phrase_of_functionTypeWith? innerPhrase placed found)
  split at found
  · rename_i constructor
    simp only [Bool.and_eq_true] at constructor
    exact .token (isOrdinary_of_is constructor.1 (by decide))
      (.token (isOrdinary_of_is constructor.2 (by decide))
        (phrase_of_functionTypeWith? innerPhrase placed found))
  split at found
  · contradiction
  · exact phrase_of_appliedNameWith? innerPhrase found

theorem phrase_of_primaryTypeWith? (placed : stream.Placed)
    (found : stream.primaryTypeWith? inner index = some stop) : stream.Phrase index stop := by
  unfold primaryTypeWith? at found
  split at found
  case h_1 => contradiction
  case h_2 kind =>
    cases found
    exact .single (isOrdinary_of_kind? kind (.inr (.inr (.inl rfl))))
  case h_3 kind =>
    cases found
    exact .single (isOrdinary_of_kind? kind (.inr (.inl rfl)))
  case h_4 kind =>
    cases found
    exact .single (isOrdinary_of_kind? kind (.inr (.inr (.inr (.inr rfl)))))
  case h_5 kind =>
    extract_lets tail at found
    split at found
    · cases found
      exact .template kind .nothing
    · contradiction
  case h_6 | h_7 | h_8 => contradiction
  case h_9 => exact phrase_of_punctuatedTypeWith? innerPhrase placed found
  case h_10 => exact phrase_of_wordTypeWith? innerPhrase placed found

theorem phrase_of_operandTail? (found : stream.operandTail? inner index = some stop) :
    stream.Phrase index stop := by
  simp only [operandTail?, Option.bind_eq_bind, Option.bind_eq_some_iff] at found
  obtain ⟨final, foundFinal, found⟩ := found
  have subscripts := phrase_of_subscriptsEnd? foundFinal
  split at found
  · rename_i narrows
    simp only [Bool.and_eq_true] at narrows
    exact subscripts.trans (.token (isOrdinary_of_is narrows.1.1 (by decide)) (innerPhrase found))
  · cases found
    exact subscripts

theorem phrase_of_bareOperandWith? (placed : stream.Placed)
    (found : stream.bareOperandWith? inner index = some stop) : stream.Phrase index stop := by
  unfold bareOperandWith? at found
  split at found
  · rename_i inferred
    simp only [Bool.and_eq_true, beq_iff_eq] at inferred
    exact .token (isOrdinary_of_text placed inferred.1 (by decide))
      (.token (isOrdinary_of_isPlainWord inferred.2) (phrase_of_operandTail? innerPhrase found))
  split at found
  · rename_i asserted
    simp only [Bool.and_eq_true, beq_iff_eq] at asserted
    have asserts := isOrdinary_of_text placed asserted.1.1 (by decide)
    have subject := isOrdinary_of_isPlainWord asserted.1.2
    split at found
    · exact .token asserts (.token subject
        (.token (isOrdinary_of_is ‹_› (by decide)) (innerPhrase found)))
    · cases found
      exact .token asserts (.single subject)
  split at found
  · simp only [Option.bind_eq_bind, Option.bind_eq_some_iff] at found
    obtain ⟨queried, foundQueried, found⟩ := found
    exact .token (isOrdinary_of_is ‹_› (by decide))
      ((phrase_of_appliedNameWith? innerPhrase foundQueried).trans
        (phrase_of_operandTail? innerPhrase found))
  · simp only [Option.bind_eq_bind, Option.bind_eq_some_iff] at found
    obtain ⟨primary, foundPrimary, found⟩ := found
    exact (phrase_of_primaryTypeWith? innerPhrase placed foundPrimary).trans
      (phrase_of_operandTail? innerPhrase found)

theorem phrase_of_operandWith? (placed : stream.Placed)
    (found : stream.operandWith? inner index = some stop) : stream.Phrase index stop :=
  (phrase_operandFrom index).trans (phrase_of_bareOperandWith? innerPhrase placed found)

theorem phrase_of_unionTail? (placed : stream.Placed)
    (found : stream.unionTail? inner index = some stop) : stream.Phrase index stop := by
  fun_induction stream.unionTail? inner index with
  | case1 => contradiction
  | case2 index operator next foundNext _ inductionHypothesis =>
    have ordinary : stream.IsOrdinary index := by
      rcases Bool.or_eq_true_iff.mp operator.2.1 with bar | ampersand
      · exact isOrdinary_of_is bar (by decide)
      · exact isOrdinary_of_is ampersand (by decide)
    exact .token ordinary ((phrase_of_operandWith? innerPhrase placed foundNext).trans
      (inductionHypothesis found))
  | case3 => contradiction
  | case4 =>
    cases found
    exact .nothing

theorem phrase_of_unionWith? (placed : stream.Placed)
    (found : stream.unionWith? inner index = some stop) : stream.Phrase index stop := by
  simp only [unionWith?, Option.bind_eq_bind, Option.bind_eq_some_iff] at found
  obtain ⟨operand, foundOperand, found⟩ := found
  have operands := (phrase_of_operandWith? innerPhrase placed foundOperand).trans
    (phrase_of_unionTail? innerPhrase placed found)
  split at operands
  · rename_i operator
    rcases Bool.or_eq_true_iff.mp operator with bar | ampersand
    · exact .token (isOrdinary_of_is bar (by decide)) operands
    · exact .token (isOrdinary_of_is ampersand (by decide)) operands
  · exact operands

theorem phrase_of_branchesWith? (found : stream.branchesWith? inner index = some stop) :
    stream.Phrase index stop := by
  simp only [branchesWith?, Option.bind_eq_bind, Option.bind_eq_some_iff] at found
  obtain ⟨whenTrue, foundTrue, found⟩ := found
  split at found
  · exact (innerPhrase foundTrue).trans
      (.token (isOrdinary_of_is ‹_› (by decide)) (innerPhrase found))
  · contradiction

theorem phrase_of_typeWith? (placed : stream.Placed)
    (found : stream.typeWith? inner index = some stop) : stream.Phrase index stop := by
  simp only [typeWith?, Option.bind_eq_bind, Option.bind_eq_some_iff] at found
  obtain ⟨union, foundUnion, found⟩ := found
  have checked := phrase_of_unionWith? innerPhrase placed foundUnion
  split at found
  case isFalse =>
    cases found
    exact checked
  case isTrue extended =>
    split at found
    case h_1 check foundCheck =>
      split at found
      case isTrue question =>
        have keyword := isOrdinary_of_is (Bool.and_eq_true_iff.mp extended).1 (by decide)
        have branches := phrase_of_branchesWith? innerPhrase found
        exact checked.trans (.token keyword
          ((phrase_of_unionWith? innerPhrase placed foundCheck).trans
            (.token (isOrdinary_of_is question (by decide)) branches)))
      case isFalse =>
        cases found
        exact checked
    case h_2 =>
      cases found
      exact checked

end Constructs

/-- A type is made of ordinary tokens, bracket pairs and templates. -/
theorem phrase_of_typeEnd? {index stop : Nat} (placed : stream.Placed)
    (found : stream.typeEnd? index = some stop) : stream.Phrase index stop := by
  unfold typeEnd? at found
  split at found
  case isFalse => contradiction
  case isTrue inside =>
    refine phrase_of_typeWith? ?_ placed found
    intro next nextStop foundInner
    split at foundInner
    · exact phrase_of_typeEnd? placed foundInner
    · contradiction
termination_by stream.size - index

theorem phrase_of_typeArgumentsEnd? (placed : stream.Placed)
    (found : stream.typeArgumentsEnd? index = some stop) : stream.Phrase index stop :=
  phrase_of_typeArgumentsWith? (phrase_of_typeEnd? placed) found

theorem phrase_of_typeParametersEnd? (placed : stream.Placed)
    (found : stream.typeParametersEnd? index = some stop) : stream.Phrase index stop :=
  phrase_of_typeParametersWith? (phrase_of_typeEnd? placed) placed found

theorem passes_of_typeEnd? (placed : stream.Placed) (found : stream.typeEnd? index = some stop) :
    stream.Passes index stop :=
  (phrase_of_typeEnd? placed found).passes

theorem passes_of_typeArgumentsEnd? (placed : stream.Placed)
    (found : stream.typeArgumentsEnd? index = some stop) : stream.Passes index stop :=
  (phrase_of_typeArgumentsEnd? placed found).passes

theorem passes_of_typeParametersEnd? (placed : stream.Placed)
    (found : stream.typeParametersEnd? index = some stop) : stream.Passes index stop :=
  (phrase_of_typeParametersEnd? placed found).passes

/-! ## No type is empty -/

theorem lt_of_qualifiedNameEnd? (nested : stream.Nested)
    (found : stream.qualifiedNameEnd? index = some stop) : index < stop := by
  unfold qualifiedNameEnd? at found
  split at found
  · cases found
    exact (phrase_dottedEnd (index + 1)).le nested
  · contradiction

section Constructs

variable {inner : Nat → Option Nat} (nested : stream.Nested) (placed : stream.Placed)
  (innerPhrase : ∀ {index stop}, inner index = some stop → stream.Phrase index stop)

include nested innerPhrase

theorem lt_of_appliedNameWith? (found : stream.appliedNameWith? inner index = some stop) :
    index < stop := by
  simp only [appliedNameWith?, Option.bind_eq_bind, Option.bind_eq_some_iff] at found
  obtain ⟨name, foundName, found⟩ := found
  have named := lt_of_qualifiedNameEnd? nested foundName
  split at found
  · exact Nat.lt_of_lt_of_le named
      ((phrase_of_typeArgumentsWith? innerPhrase found).le nested)
  · cases found
    exact named

theorem lt_of_arrowTypeWith? (found : stream.arrowTypeWith? inner index = some stop) :
    index < stop := by
  unfold arrowTypeWith? at found
  split at found
  · simp only [Option.bind_eq_bind, Option.bind_eq_some_iff] at found
    obtain ⟨close, closes, found⟩ := found
    have opens := lt_of_closer?_eq_some closes
    split at found
    · have result := (innerPhrase found).le nested
      omega
    · contradiction
  · contradiction

include placed

theorem lt_of_functionTypeWith? (found : stream.functionTypeWith? inner index = some stop) :
    index < stop := by
  unfold functionTypeWith? at found
  split at found
  · simp only [Option.bind_eq_bind, Option.bind_eq_some_iff] at found
    obtain ⟨generics, foundGenerics, found⟩ := found
    exact Nat.lt_of_le_of_lt
      ((phrase_of_typeParametersWith? innerPhrase placed foundGenerics).le nested)
      (lt_of_arrowTypeWith? nested innerPhrase found)
  · exact lt_of_arrowTypeWith? nested innerPhrase found

theorem lt_of_punctuatedTypeWith? (found : stream.punctuatedTypeWith? inner index = some stop) :
    index < stop := by
  unfold punctuatedTypeWith? at found
  split at found
  · simp only [Option.bind_eq_bind, Option.bind_eq_some_iff] at found
    obtain ⟨close, closes, found⟩ := found
    have opens := lt_of_closer?_eq_some closes
    split at found
    · have result := (innerPhrase found).le nested
      omega
    split at found
    · contradiction
    · cases found
      exact Nat.lt_succ_of_lt opens
  split at found
  · exact lt_of_functionTypeWith? nested placed innerPhrase found
  split at found
  · obtain ⟨close, closes, rfl⟩ := Option.map_eq_some_iff.mp found
    exact Nat.lt_succ_of_lt (lt_of_closer?_eq_some closes)
  split at found
  · cases found
    omega
  · contradiction

theorem lt_of_wordTypeWith? (found : stream.wordTypeWith? inner index = some stop) :
    index < stop := by
  unfold wordTypeWith? at found
  split at found
  · exact Nat.lt_of_succ_lt (lt_of_functionTypeWith? nested placed innerPhrase found)
  split at found
  · have result := lt_of_functionTypeWith? nested placed innerPhrase found
    omega
  split at found
  · contradiction
  · exact lt_of_appliedNameWith? nested innerPhrase found

theorem lt_of_primaryTypeWith? (found : stream.primaryTypeWith? inner index = some stop) :
    index < stop := by
  unfold primaryTypeWith? at found
  split at found
  case h_1 | h_6 | h_7 | h_8 => contradiction
  case h_2 | h_3 | h_4 =>
    cases found
    exact Nat.lt_succ_self index
  case h_5 kind =>
    extract_lets tail at found
    split at found
    · cases found
      exact Nat.lt_succ_of_lt (nested.templates kind).after
    · contradiction
  case h_9 => exact lt_of_punctuatedTypeWith? nested placed innerPhrase found
  case h_10 => exact lt_of_wordTypeWith? nested placed innerPhrase found

theorem lt_of_bareOperandWith? (found : stream.bareOperandWith? inner index = some stop) :
    index < stop := by
  have behind : ∀ {operand}, stream.operandTail? inner operand = some stop → operand ≤ stop :=
    fun tail => (phrase_of_operandTail? innerPhrase tail).le nested
  unfold bareOperandWith? at found
  split at found
  · have := behind found
    omega
  split at found
  · split at found
    · have := (innerPhrase found).le nested
      omega
    · cases found
      omega
  split at found
  · simp only [Option.bind_eq_bind, Option.bind_eq_some_iff] at found
    obtain ⟨queried, foundQueried, found⟩ := found
    have := lt_of_appliedNameWith? nested innerPhrase foundQueried
    have := behind found
    omega
  · simp only [Option.bind_eq_bind, Option.bind_eq_some_iff] at found
    obtain ⟨primary, foundPrimary, found⟩ := found
    exact Nat.lt_of_lt_of_le (lt_of_primaryTypeWith? nested placed innerPhrase foundPrimary)
      (behind found)

theorem lt_of_unionWith? (found : stream.unionWith? inner index = some stop) : index < stop := by
  simp only [unionWith?, Option.bind_eq_bind, Option.bind_eq_some_iff] at found
  obtain ⟨operand, foundOperand, found⟩ := found
  have further := (phrase_of_unionTail? innerPhrase placed found).le nested
  have bare := lt_of_bareOperandWith? nested placed innerPhrase foundOperand
  have skipped := Nat.lt_of_le_of_lt ((phrase_operandFrom _).le nested) bare
  split at skipped <;> omega

theorem lt_of_typeWith? (found : stream.typeWith? inner index = some stop) : index < stop := by
  simp only [typeWith?, Option.bind_eq_bind, Option.bind_eq_some_iff] at found
  obtain ⟨union, foundUnion, found⟩ := found
  have checked := lt_of_unionWith? nested placed innerPhrase foundUnion
  split at found
  case isFalse =>
    cases found
    exact checked
  case isTrue =>
    split at found
    case h_1 check foundCheck =>
      split at found
      case isTrue =>
        have condition := lt_of_unionWith? nested placed innerPhrase foundCheck
        have branches := (phrase_of_branchesWith? innerPhrase found).le nested
        omega
      case isFalse =>
        cases found
        exact checked
    case h_2 =>
      cases found
      exact checked

end Constructs

theorem lt_of_typeEnd? (nested : stream.Nested) (placed : stream.Placed)
    (found : stream.typeEnd? index = some stop) : index < stop := by
  unfold typeEnd? at found
  split at found
  · refine lt_of_typeWith? nested placed ?_ found
    intro next nextStop foundInner
    split at foundInner
    · exact phrase_of_typeEnd? placed foundInner
    · contradiction
  · contradiction

end Playground.TokenStream
