import Playground.Proofs.Erasure.Relocation.Basic

/-!
# Types in streams that stand for one another

Every recogniser finds the same type from indices that stand for one another. No type holds a
semicolon outside its brackets, so a recogniser that starts before the end of the source never
looks past it. As in the definitions, the recognisers of single constructs are related under the
assumption that `inner` and its counterpart are.
-/

namespace Playground.Relocation

open TokenStream

variable {source target : TokenStream} {reloc : Relocation source target}
variable {index other stop otherStop : Nat}

/-! ## Runs of tokens -/

/-- Runs of tokens that are accepted alike end alike. -/
theorem runEnd {accepts otherAccepts : Nat → Bool} {limit otherLimit index other : Nat}
    (past : reloc.Past index other)
    (limits : ∀ {index other}, reloc.Past index other → (index < limit ↔ other < otherLimit))
    (same : ∀ {index other}, reloc.Past index other → otherAccepts other = accepts index)
    (further : ∀ {index other}, reloc.Past index other → index < limit → accepts index = true →
      reloc.Past (index + 1) (other + 1)) :
    reloc.Past (TokenStream.runEnd accepts limit index)
      (TokenStream.runEnd otherAccepts otherLimit other) := by
  unfold TokenStream.runEnd
  refine choose (limits past) (fun inside => ?_) (fun _ => past)
  refine choose (by rw [same past]) (fun accepted => ?_) (fun _ => past)
  exact runEnd (further past inside accepted) limits same further
termination_by limit - index

theorem dottedEnd {stop otherStop : Nat} (past : reloc.Past stop otherStop) :
    reloc.Past (source.dottedEnd stop) (target.dottedEnd otherStop) := by
  unfold TokenStream.dottedEnd
  split
  case isTrue dotted =>
    have name := past.succ_of_is dotted.1 (by decide)
    rw [dif_pos ⟨by rw [past.is, dotted.1], by rw [name.isPlainWord, dotted.2]⟩]
    have := lt_size_of_is dotted.1
    exact dottedEnd (name.succ_of_isPlainWord dotted.2)
  case isFalse plain =>
    rw [dif_neg]
    · exact past
    · rintro ⟨dot, word⟩
      rw [past.is] at dot
      rw [(past.succ_of_is dot (by decide)).isPlainWord] at word
      exact plain ⟨dot, word⟩
termination_by source.size - stop

theorem qualifiedNameEnd? (past : reloc.Past index other) :
    Option.Rel reloc.Past (source.qualifiedNameEnd? index) (target.qualifiedNameEnd? other) :=
  choose (by rw [past.isPlainWord])
    (fun named => .some (dottedEnd (past.succ_of_isPlainWord named))) (fun _ => .none)

theorem parameterNameFrom (past : reloc.Past index other) :
    reloc.Past (source.parameterNameFrom index) (target.parameterNameFrom other) := by
  have next : ∀ {index other}, reloc.Past index other →
      source.textIn index ["in", "out", "const"] = true → reloc.Past (index + 1) (other + 1) :=
    fun past listed => past.succ_of_textIn listed (by decide)
  refine runEnd past (·.lt_size_iff) (fun past => ?_) (fun past _ accepted => ?_)
  · exact both (past.textIn (by decide)) fun listed => (next past listed).isPlainWord
  · exact next past (Bool.and_eq_true_iff.mp accepted).1

theorem operandFrom (past : reloc.Past index other) :
    reloc.Past (source.operandFrom index) (target.operandFrom other) := by
  refine runEnd past (·.lt_size_iff) (fun past => by simp only [past.is])
    (fun past _ accepted => ?_)
  simp only [Bool.or_eq_true] at accepted
  rcases accepted with (operator | operator) | operator
  all_goals exact past.succ_of_is operator (by decide)

theorem subscriptsEnd? {stop otherStop : Nat} (past : reloc.Past stop otherStop) :
    Option.Rel reloc.Past (source.subscriptsEnd? stop) (target.subscriptsEnd? otherStop) := by
  unfold TokenStream.subscriptsEnd?
  split
  case isFalse plain =>
    rw [dif_neg (by rwa [past.is, past.newlineBefore])]
    exact .some past
  case isTrue opens =>
    rw [dif_pos (by rwa [past.is, past.newlineBefore])]
    have := lt_size_of_is opens.1
    split
    case h_2 none =>
      obtain ⟨-, there⟩ | ⟨_, _, here, -⟩ := lookup_cases past.closer?
      · split
        · simp_all
        · exact .none
      · simp_all
    case h_1 close found =>
      have := lt_of_closer?_eq_some found
      obtain ⟨here, -⟩ | ⟨_, otherClose, here, there, closes⟩ := lookup_cases past.closer?
      · simp_all
      · obtain rfl : _ = close := Option.some.inj (here.symm.trans found)
        split
        · rename_i foundThere
          obtain rfl := Option.some.inj (there.symm.trans foundThere)
          exact subscriptsEnd? closes.next
        · simp_all
termination_by source.size - stop

/-- Halves of one operator stand for such halves. -/
theorem adjacentOperator (past : reloc.Past index other)
    (further : source.is index ";" = false) :
    target.adjacentOperator other = source.adjacentOperator index := by
  have next := past.succ further
  have touching : (target.stopOf other == target.startOf (other + 1)) =
      (source.stopOf index == source.startOf (index + 1)) := by
    rw [Bool.eq_iff_iff, beq_iff_eq, beq_iff_eq]
    exact (reloc.injective past.stopOf next.startOf).symm
  unfold TokenStream.adjacentOperator
  rw [touching, next.textIn (by decide), next.kind?]

section

/-- Recognisers of types that find the same types. -/
def InnerAlike (reloc : Relocation source target) (inner otherInner : Nat → Option Nat) : Prop :=
  ∀ {index other}, reloc.Past index other →
    Option.Rel reloc.Past (inner index) (otherInner other)

variable {inner otherInner : Nat → Option Nat}

/-! ## Lists in angles -/

theorem typeArgumentsTail? {index other : Nat}
    (alike : reloc.InnerAlike inner otherInner) (past : reloc.Past index other) :
    Option.Rel reloc.Past (source.typeArgumentsTail? inner index)
      (target.typeArgumentsTail? otherInner other) := by
  unfold TokenStream.typeArgumentsTail?
  obtain ⟨here, there⟩ | ⟨stop, otherStop, here, there, ends⟩ := lookup_cases (alike past)
  · simp only [here, there]
    exact .none
  · simp only [here, there]
    refine choose (by rw [ends.is]) (fun closes => .some (ends.succ_of_is closes (by decide)))
      (fun _ => ?_)
    split
    case isFalse plain =>
      rw [dif_neg (by rwa [← past.le_iff ends.toAt, ends.is])]
      exact .none
    case isTrue comma =>
      rw [dif_pos (by rwa [← past.le_iff ends.toAt, ends.is])]
      have := lt_size_of_is comma.2
      exact typeArgumentsTail? alike (ends.succ_of_is comma.2 (by decide))
termination_by source.size - index

theorem typeArgumentsWith? (alike : reloc.InnerAlike inner otherInner)
    (at_ : reloc.At index other) :
    Option.Rel reloc.Past (source.typeArgumentsWith? inner index)
      (target.typeArgumentsWith? otherInner other) :=
  choose (by rw [at_.is])
    (fun opens => typeArgumentsTail? alike (at_.succ_of_is opens (by decide))) (fun _ => .none)

theorem markedType? (alike : reloc.InnerAlike inner otherInner) {mark : String}
    (plain : mark ≠ ";") (past : reloc.Past index other) :
    Option.Rel reloc.Past (source.markedType? inner mark index)
      (target.markedType? otherInner mark other) :=
  choose (by rw [past.is]) (fun marked => alike (past.succ_of_is marked plain))
    (fun _ => .some past)

theorem typeParameter? (alike : reloc.InnerAlike inner otherInner)
    (past : reloc.Past index other) :
    Option.Rel reloc.Past (source.typeParameter? inner index)
      (target.typeParameter? otherInner other) := by
  have name := parameterNameFrom past
  refine choose (by rw [name.isPlainWord, name.textIn (by decide)]) (fun named => ?_)
    (fun _ => .none)
  have plain := (Bool.and_eq_true_iff.mp named).1
  refine andThen (markedType? alike (by decide) (name.succ_of_isPlainWord plain)) ?_
  exact fun constraint => markedType? alike (by decide) constraint

theorem typeParametersTail? {index other : Nat}
    (alike : reloc.InnerAlike inner otherInner) (past : reloc.Past index other) :
    Option.Rel reloc.Past (source.typeParametersTail? inner index)
      (target.typeParametersTail? otherInner other) := by
  unfold TokenStream.typeParametersTail?
  obtain ⟨here, there⟩ | ⟨stop, otherStop, here, there, ends⟩ :=
    lookup_cases (typeParameter? alike past)
  · simp only [here, there]
    exact .none
  · simp only [here, there]
    split
    case isTrue comma =>
      rw [dif_pos (by rwa [← past.le_iff ends.toAt, ends.is])]
      have := lt_size_of_is comma.2
      have next := ends.succ_of_is comma.2 (by decide)
      exact choose (by rw [next.is])
        (fun closes => .some (next.succ_of_is closes (by decide)))
        (fun _ => typeParametersTail? alike next)
    case isFalse plain =>
      rw [dif_neg (by rwa [← past.le_iff ends.toAt, ends.is])]
      exact choose (by rw [ends.is])
        (fun closes => .some (ends.succ_of_is closes (by decide))) (fun _ => .none)
termination_by source.size - index

theorem typeParametersWith? (alike : reloc.InnerAlike inner otherInner)
    (at_ : reloc.At index other) :
    Option.Rel reloc.Past (source.typeParametersWith? inner index)
      (target.typeParametersWith? otherInner other) :=
  choose (by rw [at_.is])
    (fun opens => typeParametersTail? alike (at_.succ_of_is opens (by decide))) (fun _ => .none)

/-! ## Types without operators around them -/

/-- What follows the parentheses of a function type, or of something else. -/
theorem afterParentheses (alike : reloc.InnerAlike inner otherInner)
    {otherwise otherOtherwise : Nat → Option Nat} (past : reloc.Past index other)
    (rest : ∀ {close otherClose}, reloc.Closes index close otherClose →
      Option.Rel reloc.Past (otherwise close) (otherOtherwise otherClose)) :
    Option.Rel reloc.Past
      (source.closer? index >>= fun close =>
        if source.is (close + 1) "=>" then inner (close + 2) else otherwise close)
      (target.closer? other >>= fun close =>
        if target.is (close + 1) "=>" then otherInner (close + 2) else otherOtherwise close) :=
  andThen past.closer? fun closes =>
    choose (by rw [closes.next.is])
      (fun arrow => alike (closes.next.succ_of_is arrow (by decide))) (fun _ => rest closes)

theorem arrowTypeWith? (alike : reloc.InnerAlike inner otherInner)
    (past : reloc.Past index other) :
    Option.Rel reloc.Past (source.arrowTypeWith? inner index)
      (target.arrowTypeWith? otherInner other) :=
  choose (by rw [past.is]) (fun _ => afterParentheses alike past fun _ => .none)
    (fun _ => .none)

theorem functionTypeWith? (alike : reloc.InnerAlike inner otherInner)
    (past : reloc.Past index other) :
    Option.Rel reloc.Past (source.functionTypeWith? inner index)
      (target.functionTypeWith? otherInner other) :=
  choose (by rw [past.is])
    (fun _ => andThen (typeParametersWith? alike past.toAt) (arrowTypeWith? alike))
    (fun _ => arrowTypeWith? alike past)

theorem appliedNameWith? (alike : reloc.InnerAlike inner otherInner)
    (past : reloc.Past index other) :
    Option.Rel reloc.Past (source.appliedNameWith? inner index)
      (target.appliedNameWith? otherInner other) :=
  andThen (qualifiedNameEnd? past) fun name =>
    choose (by rw [name.is, name.newlineBefore]) (fun _ => typeArgumentsWith? alike name.toAt)
      (fun _ => .some name)

theorem punctuatedTypeWith? (alike : reloc.InnerAlike inner otherInner)
    (past : reloc.Past index other) :
    Option.Rel reloc.Past (source.punctuatedTypeWith? inner index)
      (target.punctuatedTypeWith? otherInner other) := by
  refine choose (by rw [past.is]) (fun opens => ?_) (fun _ => ?_)
  · refine afterParentheses alike past fun closes => ?_
    have next := past.succ_of_is opens (by decide)
    exact choose (closes.here.eq_iff next.toAt) (fun _ => .none) (fun _ => .some closes.next)
  refine choose (by rw [past.is]) (fun _ => functionTypeWith? alike past) (fun _ => ?_)
  refine choose (by rw [past.is, past.is]) (fun _ => ?_) (fun _ => ?_)
  · obtain ⟨here, there⟩ | ⟨_, _, here, there, closes⟩ := lookup_cases past.closer?
    · rw [here, there]
      exact .none
    · rw [here, there]
      exact .some closes.next
  have next : source.is index "-" = true → reloc.Past (index + 1) (other + 1) :=
    fun minus => past.succ_of_is minus (by decide)
  refine choose ?_ (fun negative => ?_) (fun _ => .none)
  · rw [both (past.is "-") fun minus => by rw [(next minus).kind?]]
  · obtain ⟨minus, number⟩ := Bool.and_eq_true_iff.mp negative
    exact .some ((next minus).succ_of_kind? (beq_iff_eq.mp number) (by decide))

theorem wordTypeWith? (alike : reloc.InnerAlike inner otherInner)
    (past : reloc.Past index other) :
    Option.Rel reloc.Past (source.wordTypeWith? inner index)
      (target.wordTypeWith? otherInner other) := by
  refine choose (by rw [past.is])
    (fun new => functionTypeWith? alike (past.succ_of_is new (by decide))) (fun _ => ?_)
  have next : source.is index "abstract" = true → reloc.Past (index + 1) (other + 1) :=
    fun abstract => past.succ_of_is abstract (by decide)
  refine choose ?_ (fun constructs => ?_) (fun _ => ?_)
  · rw [both (past.is "abstract") fun abstract => (next abstract).is "new"]
  · obtain ⟨abstract, new⟩ := Bool.and_eq_true_iff.mp constructs
    exact functionTypeWith? alike ((next abstract).succ_of_is new (by decide))
  · exact choose (by rw [past.textIn (by decide)]) (fun _ => .none)
      (fun _ => appliedNameWith? alike past)

theorem primaryTypeWith? (alike : reloc.InnerAlike inner otherInner)
    (past : reloc.Past index other) :
    Option.Rel reloc.Past (source.primaryTypeWith? inner index)
      (target.primaryTypeWith? otherInner other) := by
  unfold TokenStream.primaryTypeWith?
  rw [past.kind?]
  cases kind : source.kind? index with
  | none => exact .none
  | some found =>
    cases found with
    | string | number | template => exact .some (past.succ_of_kind? kind (by decide))
    | regex | templateMiddle | templateTail => exact .none
    | punctuator => exact punctuatedTypeWith? alike past
    | word => exact wordTypeWith? alike past
    | templateHead =>
      have tail := past.templateTail kind
      exact choose tail.here.lt_size_iff (fun _ => .some tail.next) (fun _ => .none)

/-! ## Operators -/

theorem operandTail? (alike : reloc.InnerAlike inner otherInner)
    (past : reloc.Past stop otherStop) :
    Option.Rel reloc.Past (source.operandTail? inner stop)
      (target.operandTail? otherInner otherStop) :=
  andThen (subscriptsEnd? past) fun ends =>
    choose (by rw [ends.is, ends.newlineBefore, ends.pred.kind?])
      (fun predicate => by
        simp only [Bool.and_eq_true] at predicate
        exact alike (ends.succ_of_is predicate.1.1 (by decide)))
      (fun _ => .some ends)

theorem bareOperandWith? (alike : reloc.InnerAlike inner otherInner)
    (past : reloc.Past index other) :
    Option.Rel reloc.Past (source.bareOperandWith? inner index)
      (target.bareOperandWith? otherInner other) := by
  have next : ∀ {text : String}, text ≠ ";" → (source.text index == text) = true →
      reloc.Past (index + 1) (other + 1) := fun plain spelled =>
    past.succ (is_eq_false_of_text (by rwa [beq_iff_eq.mp spelled]))
  have named : ∀ {text : String}, text ≠ ";" → (source.text index == text) = true →
      target.isPlainWord (other + 1) = source.isPlainWord (index + 1) :=
    fun plain spelled => (next plain spelled).isPlainWord
  refine choose ?_ (fun infers => ?_) (fun _ => ?_)
  · rw [both (past.text_beq (by decide)) (named (by decide))]
  · obtain ⟨infer, name⟩ := Bool.and_eq_true_iff.mp infers
    exact operandTail? alike ((next (by decide) infer).succ_of_isPlainWord name)
  refine choose ?_ (fun asserts => ?_) (fun _ => ?_)
  · rw [Bool.and_assoc, Bool.and_assoc, both (past.text_beq (by decide)) fun spelled => ?_]
    rw [named (by decide) spelled, (next (by decide) spelled).newlineBefore]
  · simp only [Bool.and_eq_true] at asserts
    have name := (next (by decide) asserts.1.1).succ_of_isPlainWord asserts.1.2
    exact choose (by rw [name.is]) (fun narrows => alike (name.succ_of_is narrows (by decide)))
      (fun _ => .some name)
  refine choose (by rw [past.is]) (fun query => ?_) (fun _ => ?_)
  · exact andThen (appliedNameWith? alike (past.succ_of_is query (by decide)))
      (operandTail? alike)
  · exact andThen (primaryTypeWith? alike past) (operandTail? alike)

theorem operandWith? (alike : reloc.InnerAlike inner otherInner)
    (past : reloc.Past index other) :
    Option.Rel reloc.Past (source.operandWith? inner index)
      (target.operandWith? otherInner other) :=
  bareOperandWith? alike (operandFrom past)

/-- A bar or an ampersand is no semicolon. -/
theorem not_semicolon_of_operator
    (operator : (source.is index "|" || source.is index "&") = true) :
    source.is index ";" = false := by
  rcases Bool.or_eq_true_iff.mp operator with mark | mark
  all_goals exact not_semicolon_of_is mark (by decide)

theorem unionTail? {stop otherStop : Nat}
    (alike : reloc.InnerAlike inner otherInner) (past : reloc.Past stop otherStop) :
    Option.Rel reloc.Past (source.unionTail? inner stop)
      (target.unionTail? otherInner otherStop) := by
  unfold TokenStream.unionTail?
  split
  case isFalse plain =>
    rw [dif_neg]
    · exact .some past
    · rintro ⟨inside, operator, apart⟩
      rw [past.is, past.is] at operator
      rw [adjacentOperator past (not_semicolon_of_operator operator)] at apart
      exact plain ⟨past.lt_size_iff.mpr inside, operator, apart⟩
  case isTrue joined =>
    obtain ⟨inside, operator, apart⟩ := joined
    have further := not_semicolon_of_operator operator
    rw [dif_pos ⟨past.lt_size_iff.mp inside, by rwa [past.is, past.is],
      by rwa [adjacentOperator past further]⟩]
    obtain ⟨here, there⟩ | ⟨next, otherNext, here, there, ends⟩ :=
      lookup_cases (operandWith? alike (past.succ further))
    · simp only [here, there]
      exact .none
    · simp only [here, there]
      split
      case isTrue forward =>
        rw [dif_pos ((past.lt_iff ends.toAt).mp forward)]
        exact unionTail? alike ends
      case isFalse back =>
        rw [dif_neg (mt (past.lt_iff ends.toAt).mpr back)]
        exact .none
termination_by source.size - stop

theorem unionWith? (alike : reloc.InnerAlike inner otherInner)
    (past : reloc.Past index other) :
    Option.Rel reloc.Past (source.unionWith? inner index)
      (target.unionWith? otherInner other) := by
  have first : reloc.Past
      (if source.is index "|" || source.is index "&" then index + 1 else index)
      (if target.is other "|" || target.is other "&" then other + 1 else other) :=
    choose (by rw [past.is, past.is])
      (fun operator => past.succ (not_semicolon_of_operator operator)) (fun _ => past)
  exact andThen (operandWith? alike first) (unionTail? alike)

theorem branchesWith? (alike : reloc.InnerAlike inner otherInner)
    (past : reloc.Past index other) :
    Option.Rel reloc.Past (source.branchesWith? inner index)
      (target.branchesWith? otherInner other) :=
  andThen (alike past) fun whenTrue =>
    choose (by rw [whenTrue.is]) (fun colon => alike (whenTrue.succ_of_is colon (by decide)))
      (fun _ => .none)

theorem typeWith? (alike : reloc.InnerAlike inner otherInner)
    (past : reloc.Past index other) :
    Option.Rel reloc.Past (source.typeWith? inner index)
      (target.typeWith? otherInner other) := by
  refine andThen (unionWith? alike past) fun ends => ?_
  refine choose (by rw [ends.is, ends.newlineBefore]) (fun conditional => ?_)
    (fun _ => .some ends)
  have extended := (Bool.and_eq_true_iff.mp conditional).1
  obtain ⟨here, there⟩ | ⟨check, otherCheck, here, there, checked⟩ :=
    lookup_cases (unionWith? alike (ends.succ_of_is extended (by decide)))
  · simp only [here, there]
    exact .some ends
  · simp only [here, there]
    exact choose (by rw [checked.is])
      (fun question => branchesWith? alike (checked.succ_of_is question (by decide)))
      (fun _ => .some ends)

end

/-! ## Whole types -/

/-- The same type stands at indices that stand for one another. -/
theorem typeEnd? {index other : Nat} (past : reloc.Past index other) :
    Option.Rel reloc.Past (source.typeEnd? index) (target.typeEnd? other) := by
  unfold TokenStream.typeEnd?
  split
  case isFalse outside =>
    rw [dif_neg (mt past.lt_size_iff.mpr outside)]
    exact .none
  case isTrue inside =>
    rw [dif_pos (past.lt_size_iff.mp inside)]
    refine typeWith? (fun {next otherNext} later => ?_) past
    split
    case isTrue forward =>
      rw [dif_pos ((past.lt_iff later.toAt).mp forward)]
      exact typeEnd? later
    case isFalse back =>
      rw [dif_neg (mt (past.lt_iff later.toAt).mpr back)]
      exact .none
termination_by source.size - index

theorem typeArgumentsEnd? (at_ : reloc.At index other) :
    Option.Rel reloc.Past (source.typeArgumentsEnd? index) (target.typeArgumentsEnd? other) :=
  typeArgumentsWith? typeEnd? at_

theorem typeParametersEnd? (at_ : reloc.At index other) :
    Option.Rel reloc.Past (source.typeParametersEnd? index)
      (target.typeParametersEnd? other) :=
  typeParametersWith? typeEnd? at_

end Playground.Relocation
