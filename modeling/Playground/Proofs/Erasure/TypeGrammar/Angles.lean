import Playground.Proofs.Erasure.TypeGrammar

/-!
# Lists in angles

The same angles may be read as a list of type arguments and as a list of type parameters. Where
both readings succeed they end alike (`eq_of_typeArgumentsEnd?`). A list of bare names is read both
ways, but only type parameters have modifiers, constraints and defaults, and a comma behind the
last one.
-/

namespace Playground.TokenStream

/-- What one recogniser finds the other finds as well. -/
def Within (found other : Option Nat) : Prop :=
  ∀ stop, found = some stop → other = some stop

section Growing

theorem Within.bind {found other : Option Nat} {next following : Nat → Option Nat}
    (first : Within found other) (second : ∀ index, Within (next index) (following index)) :
    Within (found.bind next) (other.bind following) := by
  intro stop answered
  obtain ⟨middle, here, there⟩ := Option.bind_eq_some_iff.mp answered
  exact Option.bind_eq_some_iff.mpr ⟨middle, first middle here, second middle stop there⟩

theorem Within.choose {condition : Prop} [Decidable condition]
    {found other first second : Option Nat} (holds : condition → Within found other) (fails : ¬condition → Within first second) :
    Within (if condition then found else first) (if condition then other else second) := by
  split
  · exact holds ‹_›
  · exact fails ‹_›

theorem Within.refl (found : Option Nat) : Within found found :=
  fun _ same => same

variable {stream : TokenStream} {inner outer : Nat → Option Nat}
  (grows : ∀ index, Within (inner index) (outer index))

include grows

theorem within_typeArgumentsTail? (index : Nat) :
    Within (stream.typeArgumentsTail? inner index) (stream.typeArgumentsTail? outer index) := by
  intro stop found
  fun_induction stream.typeArgumentsTail? inner index with
  | case1 | case4 => contradiction
  | case2 index type foundType closes =>
    unfold typeArgumentsTail?
    simpa [grows index type foundType, closes] using found
  | case3 index type foundType open_ comma inductionHypothesis =>
    unfold typeArgumentsTail?
    simpa [grows index type foundType, open_, comma] using inductionHypothesis found

theorem within_typeArgumentsWith? (index : Nat) :
    Within (stream.typeArgumentsWith? inner index) (stream.typeArgumentsWith? outer index) :=
  .choose (fun _ => within_typeArgumentsTail? grows _) fun _ => .refl _

theorem within_markedType? (mark : String) (index : Nat) :
    Within (stream.markedType? inner mark index) (stream.markedType? outer mark index) :=
  .choose (fun _ => grows _) fun _ => .refl _

theorem within_typeParameter? (index : Nat) :
    Within (stream.typeParameter? inner index) (stream.typeParameter? outer index) :=
  .choose (fun _ => .bind (within_markedType? grows _ _) fun _ => within_markedType? grows _ _)
    fun _ => .refl _

theorem within_typeParametersTail? (index : Nat) :
    Within (stream.typeParametersTail? inner index) (stream.typeParametersTail? outer index) := by
  intro stop found
  fun_induction stream.typeParametersTail? inner index with
  | case1 | case5 => contradiction
  | case2 index type foundType comma closes =>
    unfold typeParametersTail?
    simpa [within_typeParameter? grows index type foundType, comma, closes] using found
  | case3 index type foundType comma open_ inductionHypothesis =>
    unfold typeParametersTail?
    simpa [within_typeParameter? grows index type foundType, comma, open_] using
      inductionHypothesis found
  | case4 index type foundType noComma closes =>
    unfold typeParametersTail?
    simpa [within_typeParameter? grows index type foundType, noComma, closes] using found

theorem within_typeParametersWith? (index : Nat) :
    Within (stream.typeParametersWith? inner index) (stream.typeParametersWith? outer index) :=
  .choose (fun _ => within_typeParametersTail? grows _) fun _ => .refl _

theorem within_arrowTypeWith? (index : Nat) :
    Within (stream.arrowTypeWith? inner index) (stream.arrowTypeWith? outer index) :=
  .choose (fun _ => .bind (.refl _) fun _ => .choose (fun _ => grows _) fun _ => .refl _)
    fun _ => .refl _

theorem within_functionTypeWith? (index : Nat) :
    Within (stream.functionTypeWith? inner index) (stream.functionTypeWith? outer index) :=
  .choose
    (fun _ => .bind (within_typeParametersWith? grows _) fun _ => within_arrowTypeWith? grows _)
    fun _ => within_arrowTypeWith? grows _

theorem within_appliedNameWith? (index : Nat) :
    Within (stream.appliedNameWith? inner index) (stream.appliedNameWith? outer index) :=
  .bind (.refl _) fun _ => .choose (fun _ => within_typeArgumentsWith? grows _) fun _ => .refl _

theorem within_punctuatedTypeWith? (index : Nat) :
    Within (stream.punctuatedTypeWith? inner index) (stream.punctuatedTypeWith? outer index) :=
  .choose (fun _ => .bind (.refl _) fun _ => .choose (fun _ => grows _) fun _ => .refl _) fun _ =>
    .choose (fun _ => within_functionTypeWith? grows _) fun _ => .refl _

theorem within_wordTypeWith? (index : Nat) :
    Within (stream.wordTypeWith? inner index) (stream.wordTypeWith? outer index) :=
  .choose (fun _ => within_functionTypeWith? grows _) fun _ =>
    .choose (fun _ => within_functionTypeWith? grows _) fun _ =>
      .choose (fun _ => .refl _) fun _ => within_appliedNameWith? grows _

theorem within_primaryTypeWith? (index : Nat) :
    Within (stream.primaryTypeWith? inner index) (stream.primaryTypeWith? outer index) := by
  unfold primaryTypeWith?
  split
  case h_9 => exact within_punctuatedTypeWith? grows index
  case h_10 => exact within_wordTypeWith? grows index
  all_goals exact .refl _

theorem within_operandTail? (stop : Nat) :
    Within (stream.operandTail? inner stop) (stream.operandTail? outer stop) :=
  .bind (.refl _) fun _ => .choose (fun _ => grows _) fun _ => .refl _

theorem within_operandWith? (index : Nat) :
    Within (stream.operandWith? inner index) (stream.operandWith? outer index) :=
  .choose (fun _ => within_operandTail? grows _) fun _ =>
    .choose (fun _ => .choose (fun _ => grows _) fun _ => .refl _) fun _ =>
      .choose
        (fun _ => .bind (within_appliedNameWith? grows _) fun _ => within_operandTail? grows _)
        fun _ => .bind (within_primaryTypeWith? grows _) fun _ => within_operandTail? grows _

theorem within_unionTail? (stop : Nat) :
    Within (stream.unionTail? inner stop) (stream.unionTail? outer stop) := by
  intro end_ found
  fun_induction stream.unionTail? inner stop with
  | case1 | case3 => contradiction
  | case2 stop operator next foundNext later inductionHypothesis =>
    unfold unionTail?
    rw [dif_pos operator, within_operandWith? grows _ _ foundNext]
    simpa only [later, dite_true] using inductionHypothesis found
  | case4 stop plain =>
    unfold unionTail?
    rwa [dif_neg plain]

theorem within_unionWith? (index : Nat) :
    Within (stream.unionWith? inner index) (stream.unionWith? outer index) :=
  .bind (within_operandWith? grows _) fun _ => within_unionTail? grows _

theorem within_branchesWith? (index : Nat) :
    Within (stream.branchesWith? inner index) (stream.branchesWith? outer index) :=
  .bind (grows _) fun _ => .choose (fun _ => grows _) fun _ => .refl _

end Growing

/-! ## One item of a list -/

section Items

variable {stream : TokenStream} {inner outer : Nat → Option Nat} {index middle stop : Nat}
  {text : String}

/-- What stands behind the name of a type parameter. -/
def parameterMarks : List String :=
  ["extends", "=", ",", ">"]

/-- Texts that begin no type. -/
def unbegun : List String :=
  notTypeWords ++ [".", "=", ",", ">"]

theorem unbegun_cases (listed : text ∈ unbegun) :
    text ∈ notTypeWords ∨ text ∈ [".", "=", ",", ">"] :=
  List.mem_append.mp listed

variable (placed : stream.Placed)

include placed

/-- No operand begins with a word or mark that begins no type. -/
theorem operandWith?_eq_none (listed : text ∈ unbegun) (found : stream.is index text = true) :
    stream.operandWith? inner index = none := by
  have foreign : ∀ text ∈ unbegun, text ∉ operandWords ∧ (text ∈ notTypeWords →
      text.toList.head?.any startsWord = true ∧ text ≠ "new" ∧ text ≠ "abstract") ∧
        (text ∈ [".", "=", ",", ">"] → hasMark text = true ∧ text ∉ ["(", "<", "\x7b", "[", "-"]) := by
    decide
  obtain ⟨noOperand, word, mark⟩ := foreign text listed
  have primary : stream.primaryTypeWith? inner index = none := by
    rcases unbegun_cases listed with ofWord | ofMark
    · obtain ⟨begins, notNew, notAbstract⟩ := word ofWord
      have kind := placed.kind?_of_start ((is_iff.mp found).2 ▸ begins)
      have listedHere : stream.textIn index notTypeWords = true := by
        rw [textIn, (is_iff.mp found).2]
        exact List.contains_iff_mem.mpr ofWord
      simp [primaryTypeWith?, kind, wordTypeWith?, is_eq_false_of_is found notNew,
        is_eq_false_of_is found notAbstract, listedHere]
    · obtain ⟨begins, other⟩ := mark ofMark
      have apart : ∀ opening ∈ ["(", "<", "\x7b", "[", "-"], stream.is index opening = false :=
        fun opening listedOpening =>
          is_eq_false_of_is found fun same => other (same ▸ listedOpening)
      simp [primaryTypeWith?, placed.kind?_of_mark found begins, punctuatedTypeWith?, apart]
  rw [operandWith?_eq_of_plain placed fun operator listedOperator =>
    is_eq_false_of_is found fun same => noOperand (same ▸ listedOperator), primary]
  rfl

theorem typeEnd?_eq_none (listed : text ∈ unbegun) (found : stream.is index text = true) :
    stream.typeEnd? index = none := by
  have foreign : ∀ text ∈ unbegun, text ≠ "|" ∧ text ≠ "&" := by
    decide
  obtain ⟨noBar, noAmpersand⟩ := foreign text listed
  obtain ⟨inner, -, whole⟩ := @typeEnd?_eq stream index (lt_size_of_is found)
  rw [whole]
  simp [typeWith?, unionWith?, is_eq_false_of_is found noBar, is_eq_false_of_is found noAmpersand,
    operandWith?_eq_none placed listed found]

/-- Where a type begins, no such word or mark stands. -/
theorem is_eq_false_of_typeEnd? (found : stream.typeEnd? index = some stop)
    (listed : text ∈ unbegun) : stream.is index text = false := by
  rw [Bool.eq_false_iff]
  intro here
  rw [typeEnd?_eq_none placed listed here] at found
  contradiction

/-- The name of a type parameter, with what stands behind it. -/
structure HeadsParameter (stream : TokenStream) (index : Nat) : Prop where
  named : stream.isPlainWord index = true
  free : stream.text index ∉ notTypeWords
  behind : ∃ mark ∈ parameterMarks, stream.is (index + 1) mark = true
  bound : stream.is (index + 1) "extends" = true → ∃ stop, stream.typeEnd? (index + 2) = some stop

omit placed in
theorem HeadsParameter.is_eq_false (head : stream.HeadsParameter index)
    (other : text ∉ parameterMarks) : stream.is (index + 1) text = false := by
  obtain ⟨mark, listed, found⟩ := head.behind
  exact is_eq_false_of_is found fun same => other (same ▸ listed)

/-- Of these marks only the word is one. -/
theorem HeadsParameter.extends_of_isPlainWord (head : stream.HeadsParameter index)
    (word : stream.isPlainWord (index + 1) = true) : stream.is (index + 1) "extends" = true := by
  have marks : ∀ mark ∈ parameterMarks, mark = "extends" ∨ hasMark mark = true := by
    decide
  obtain ⟨mark, listed, found⟩ := head.behind
  rcases marks mark listed with rfl | foreign
  · exact found
  · rw [placed.isPlainWord_eq_false found foreign] at word
    contradiction

theorem HeadsParameter.operandFrom_eq (head : stream.HeadsParameter index)
    (found : stream.operandWith? inner index = some middle) : stream.operandFrom index = index := by
  obtain ⟨mark, listed, behind⟩ := head.behind
  have beginsNone : mark ∈ unbegun :=
    (by decide : ∀ mark ∈ parameterMarks, mark ∈ unbegun) mark listed
  have modified : ∀ modifier ∈ ["keyof", "readonly", "unique"],
      stream.is index modifier = false := by
    intro modifier listedModifier
    rw [Bool.eq_false_iff]
    intro here
    rw [operandWith?_eq_of_modifier listedModifier here,
      operandWith?_eq_none placed beginsNone behind] at found
    contradiction
  unfold operandFrom runEnd
  simp [modified]

/-- An operand that begins like a type parameter is its name, or one of the words for operands with
the word of the constraint behind it. -/
theorem HeadsParameter.operandWith?_cases (head : stream.HeadsParameter index)
    (found : stream.operandWith? inner index = some middle) :
    middle = index + 1 ∨ stream.is (index + 1) "extends" = true ∧
      (stream.operandTail? inner (index + 2) = some middle ∨ middle = index + 2 ∨
        ∃ arguments, stream.is (index + 2) "<" = true ∧
          stream.typeArgumentsWith? inner (index + 2) = some arguments ∧
            stream.operandTail? inner arguments = some middle) := by
  have noPoint : ∀ next, stream.is (index + 1) "extends" = true → next ∈ unbegun →
      stream.is (index + 2) next = false := by
    intro next extended listed
    obtain ⟨stop, type⟩ := head.bound extended
    exact is_eq_false_of_typeEnd? placed type listed
  rw [operandWith?, head.operandFrom_eq placed found, bareOperandWith?] at found
  split at found
  case isTrue inferred =>
    have extended := head.extends_of_isPlainWord placed (Bool.and_eq_true_iff.mp inferred).2
    exact .inr ⟨extended, .inl found⟩
  split at found
  case isTrue asserted =>
    simp only [Bool.and_eq_true] at asserted
    have extended := head.extends_of_isPlainWord placed asserted.1.2
    rw [noPoint "is" extended (by decide), if_neg Bool.false_ne_true, Option.some.injEq] at found
    exact .inr ⟨extended, .inr (.inl found.symm)⟩
  split at found
  case isTrue =>
    simp only [appliedNameWith?, qualifiedNameEnd?, Option.bind_eq_bind,
      Option.bind_eq_some_iff] at found
    obtain ⟨applied, ⟨name, foundName, foundApplied⟩, tail⟩ := found
    split at foundName
    case isFalse => contradiction
    case isTrue word =>
      have extended := head.extends_of_isPlainWord placed word
      have nameEnd : stream.dottedEnd (index + 2) = index + 2 := by
        unfold dottedEnd
        simp [noPoint "." extended (by decide)]
      rw [nameEnd, Option.some.injEq] at foundName
      subst foundName
      split at foundApplied
      case isTrue angle =>
        exact .inr ⟨extended, .inr (.inr
          ⟨applied, (Bool.and_eq_true_iff.mp angle).1, foundApplied, tail⟩)⟩
      case isFalse =>
        cases foundApplied
        exact .inr ⟨extended, .inl tail⟩
  case isFalse =>
    have notNew : stream.is (index + 1) "new" = false := head.is_eq_false (by decide)
    have noAngle : stream.is (index + 1) "<" = false := head.is_eq_false (by decide)
    have noParenthesis : stream.is (index + 1) "(" = false := head.is_eq_false (by decide)
    have noPointBehind : stream.is (index + 1) "." = false := head.is_eq_false (by decide)
    have noBracket : stream.is (index + 1) "[" = false := head.is_eq_false (by decide)
    have noPredicate : stream.is (index + 1) "is" = false := head.is_eq_false (by decide)
    have nameEnd : stream.dottedEnd (index + 1) = index + 1 := by
      unfold dottedEnd
      simp [noPointBehind]
    have subscripts : stream.subscriptsEnd? (index + 1) = some (index + 1) := by
      unfold subscriptsEnd?
      simp [noBracket]
    obtain ⟨primary, foundPrimary, tail⟩ := Option.bind_eq_some_iff.mp found
    simp only [primaryTypeWith?, kind?_of_isPlainWord head.named, wordTypeWith?, functionTypeWith?,
      noAngle, arrowTypeWith?, noParenthesis, notNew, Bool.false_eq_true, if_false, Bool.and_false,
      appliedNameWith?, qualifiedNameEnd?, head.named, if_true, nameEnd, Option.bind_eq_bind,
      Option.bind_some, Bool.false_and, Option.pure_def] at foundPrimary
    split at foundPrimary
    · contradiction
    split at foundPrimary
    · contradiction
    cases foundPrimary
    simp only [operandTail?, subscripts, Option.bind_eq_bind, Option.bind_some, noPredicate,
      Bool.false_and, Bool.false_eq_true, if_false, Option.pure_def, Option.some.injEq] at tail
    exact .inl tail.symm

/-! ## Constraints -/

/-- The types that begin behind an index. -/
def typesBehind (stream : TokenStream) (index next : Nat) : Option Nat :=
  if index < next then stream.typeEnd? next else none

omit placed in
theorem typeEnd?_eq_typeWith? (inRange : index < stream.size) :
    stream.typeEnd? index = stream.typeWith? (stream.typesBehind index) index := by
  rw [typeEnd?]
  simp only [inRange, dite_eq_ite]
  rfl

omit placed in
theorem within_typesBehind {later : Nat} (ordered : index ≤ later) (next : Nat) :
    Within (stream.typesBehind later next) (stream.typesBehind index next) := by
  intro stop found
  unfold typesBehind at found ⊢
  split at found
  · rwa [if_pos (Nat.lt_of_le_of_lt ordered ‹_›)]
  · contradiction

omit placed in
theorem within_typeEnd? (index next : Nat) :
    Within (stream.typesBehind index next) (stream.typeEnd? next) := by
  intro stop found
  unfold typesBehind at found
  split at found
  · exact found
  · contradiction

omit placed in
/-- A type ends with its union where nothing goes on behind it. -/
theorem typeWith?_of_stops (union : stream.unionWith? inner index = some middle)
    (stops : stream.is middle "extends" = false) : stream.typeWith? inner index = some middle := by
  simp [typeWith?, union, stops]

omit placed in
/-- Two types with the same union end alike, unless the second ends before a condition. -/
theorem typeWith?_of_union {other : Nat} (grows : ∀ index, Within (inner index) (outer index))
    (union : stream.unionWith? outer index = some middle)
    (otherUnion : stream.unionWith? inner other = some middle)
    (found : stream.typeWith? inner other = some stop)
    (unconditional : stream.is stop "extends" = false) :
    stream.typeWith? outer index = some stop := by
  simp only [typeWith?, Option.bind_eq_bind, otherUnion, union, Option.bind_some] at found ⊢
  split at found
  case isFalse plain =>
    rw [if_neg plain]
    exact found
  case isTrue conditional =>
    rw [if_pos conditional]
    have stays : stop ≠ middle := by
      rintro rfl
      rw [unconditional] at conditional
      contradiction
    split at found
    case h_1 check checked =>
      rw [within_unionWith? grows _ _ checked]
      dsimp only
      split at found
      · rw [if_pos ‹_›]
        exact within_branchesWith? grows _ _ found
      · exact absurd (Option.some.inj found).symm stays
    case h_2 => exact absurd (Option.some.inj found).symm stays

omit placed in
/-- The union of a name and what stands behind it. -/
theorem HeadsParameter.unionWith?_eq_some_iff (placed : stream.Placed)
    (head : stream.HeadsParameter index) : stream.unionWith? inner index = some stop ↔
      ∃ middle, stream.operandWith? inner index = some middle ∧
        stream.unionTail? inner middle = some stop := by
  have word := kind?_of_isPlainWord head.named
  have noOperator : ∀ mark ∈ ["|", "&"], stream.is index mark = false := by
    intro mark listed
    exact placed.is_eq_false_of_word word
      ((by decide : ∀ mark ∈ ["|", "&"], hasMark mark = true) mark listed)
  simp [unionWith?, noOperator, Option.bind_eq_some_iff]

/-- A type ends with its operand where nothing goes on behind it. -/
theorem HeadsParameter.eq_of_stops (head : stream.HeadsParameter index)
    (type : stream.typeEnd? index = some stop)
    (operand : stream.operandWith? (stream.typesBehind index) index = some middle)
    (stops : ∀ text ∈ ["|", "&", "extends"], stream.is middle text = false) : stop = middle := by
  have tail : stream.unionTail? (stream.typesBehind index) middle = some middle := by
    unfold unionTail?
    simp [stops]
  have union := (head.unionWith?_eq_some_iff placed).mpr ⟨middle, operand, tail⟩
  have whole := typeWith?_of_stops union (stops "extends" (by decide))
  rw [← typeEnd?_eq_typeWith? (lt_size_of_isPlainWord head.named), type] at whole
  exact Option.some.inj whole

/-- The end of a type argument or of a type parameter. -/
def EndsItem (stream : TokenStream) (index : Nat) : Prop :=
  stream.is index "," = true ∨ stream.is index ">" = true

omit placed in
theorem EndsItem.is_eq_false (ends : stream.EndsItem stop) (foreign : text ∉ [",", ">"]) :
    stream.is stop text = false := by
  rcases ends with found | found
  · exact is_eq_false_of_is found fun same => foreign (same ▸ by decide)
  · exact is_eq_false_of_is found fun same => foreign (same ▸ by decide)

/-- A type argument and the constraint of a type parameter behind the same name. -/
structure IsConstraint (stream : TokenStream) (index stop other : Nat) : Prop where
  head : stream.HeadsParameter index
  type : stream.typeEnd? index = some stop
  ends : stream.EndsItem stop
  extended : stream.is (index + 1) "extends" = true
  bound : stream.typeEnd? (index + 2) = some other
  behind : ∃ mark ∈ ["=", ",", ">"], stream.is other mark = true

namespace IsConstraint

variable {other : Nat}

omit placed in
theorem not_behind (constraint : stream.IsConstraint index stop other)
    (foreign : text ∉ ["=", ",", ">"]) : stream.is other text = false := by
  obtain ⟨mark, listed, found⟩ := constraint.behind
  exact is_eq_false_of_is found fun same => foreign (same ▸ listed)

omit placed in
theorem typeWith?_eq (constraint : stream.IsConstraint index stop other) :
    stream.typeWith? (stream.typesBehind index) index = some stop := by
  rw [← typeEnd?_eq_typeWith? (lt_size_of_isPlainWord constraint.head.named), constraint.type]

omit placed in
theorem bound_eq (constraint : stream.IsConstraint index stop other) :
    stream.typeWith? (stream.typesBehind (index + 2)) (index + 2) = some other := by
  have found := constraint.bound
  have inRange : index + 2 < stream.size := by
    by_contra past
    rw [typeEnd?, dif_neg past] at found
    contradiction
  rw [← typeEnd?_eq_typeWith? inRange, found]

omit placed in
/-- With the same union in front of them, both go on alike. -/
theorem eq_of_union (constraint : stream.IsConstraint index stop other)
    (union : stream.unionWith? (stream.typesBehind index) index = some middle)
    (bound : stream.unionWith? (stream.typesBehind (index + 2)) (index + 2) = some middle) :
    stop = other := by
  have whole := typeWith?_of_union (within_typesBehind (Nat.le_add_right index 2)) union bound
    constraint.bound_eq (constraint.not_behind (by decide))
  exact Option.some.inj (constraint.typeWith?_eq.symm.trans whole)

/-- The name alone is no type argument: what stands behind it is no condition. -/
theorem operand_ne (constraint : stream.IsConstraint index stop other) :
    stream.operandWith? (stream.typesBehind index) index ≠ some (index + 1) := by
  intro operand
  have tail : stream.unionTail? (stream.typesBehind index) (index + 1) = some (index + 1) := by
    unfold unionTail?
    simp [is_eq_false_of_is constraint.extended]
  have union := (constraint.head.unionWith?_eq_some_iff placed).mpr ⟨_, operand, tail⟩
  have notHere : stop ≠ index + 1 := by
    rintro rfl
    have noKeyword : stream.is (index + 1) "extends" = false :=
      constraint.ends.is_eq_false (by decide)
    rw [constraint.extended] at noKeyword
    contradiction
  have found := constraint.typeWith?_eq
  simp only [typeWith?, Option.bind_eq_bind, union, Option.bind_some] at found
  split at found
  case isFalse => exact notHere (Option.some.inj found).symm
  case isTrue =>
    split at found
    case h_2 => exact notHere (Option.some.inj found).symm
    case h_1 check checked =>
      split at found
      case isFalse => exact notHere (Option.some.inj found).symm
      case isTrue question =>
        have bound := constraint.bound_eq
        obtain ⟨union, boundUnion, -⟩ := Option.bind_eq_some_iff.mp bound
        have same :=
          within_unionWith? (within_typesBehind (Nat.le_add_right index 2)) _ _ boundUnion
        obtain rfl := Option.some.inj (checked.symm.trans same)
        have whole := typeWith?_of_stops boundUnion (is_eq_false_of_is question (by decide))
        obtain rfl := Option.some.inj (bound.symm.trans whole)
        have noQuestion : stream.is _ "?" = false := constraint.not_behind (by decide)
        rw [question] at noQuestion
        contradiction

/-- Behind a whole operand the bar or ampersand of the constraint joins both alike. -/
theorem eq_of_operand (constraint : stream.IsConstraint index stop other)
    (operand : stream.operandWith? (stream.typesBehind index) index = some (index + 2)) :
    stop = other := by
  have begun : ∀ text ∈ unbegun, stream.is (index + 2) text = false :=
    fun text listed => is_eq_false_of_typeEnd? placed constraint.bound listed
  obtain ⟨union, found, -⟩ := Option.bind_eq_some_iff.mp constraint.typeWith?_eq
  obtain ⟨middle, here, tail⟩ := (constraint.head.unionWith?_eq_some_iff placed).mp found
  obtain rfl := Option.some.inj (operand.symm.trans here)
  unfold unionTail? at tail
  split at tail
  case isFalse =>
    cases tail
    have whole := typeWith?_of_stops found (begun "extends" (by decide))
    obtain rfl := Option.some.inj (constraint.typeWith?_eq.symm.trans whole)
    rcases constraint.ends with comma | angle
    · rw [begun "," (by decide)] at comma
      contradiction
    · rw [begun ">" (by decide)] at angle
      contradiction
  case isTrue joined =>
    split at tail
    case h_1 => contradiction
    case h_2 next foundNext =>
      split at tail
      case isFalse => contradiction
      case isTrue =>
        obtain ⟨boundUnion, bound, -⟩ := Option.bind_eq_some_iff.mp constraint.bound_eq
        have same : boundUnion = union := by
          simp only [unionWith?, joined.2.1, if_true] at bound
          obtain ⟨boundNext, boundOperand, boundTail⟩ := Option.bind_eq_some_iff.mp bound
          have grows := @within_typesBehind stream index (index + 2) (Nat.le_add_right index 2)
          obtain rfl := Option.some.inj
            (foundNext.symm.trans (within_operandWith? grows _ _ boundOperand))
          exact Option.some.inj ((within_unionTail? grows _ _ boundTail).symm.trans tail)
        subst same
        exact constraint.eq_of_union found bound

omit placed in
theorem subscriptsEnd?_of_not_bracket
    (plain : ¬(stream.is index "[" = true ∧ stream.newlineBefore index = false)) :
    stream.subscriptsEnd? index = some index := by
  unfold subscriptsEnd?
  rw [dif_neg plain]

/-- The brackets behind a whole operand are the constraint itself. -/
theorem eq_of_operandTail? (constraint : stream.IsConstraint index stop other)
    (operand : stream.operandWith? (stream.typesBehind index) index = some middle)
    (tail : stream.operandTail? (stream.typesBehind index) (index + 2) = some middle) :
    stop = other := by
  have begun : ∀ text ∈ unbegun, stream.is (index + 2) text = false :=
    fun text listed => is_eq_false_of_typeEnd? placed constraint.bound listed
  by_cases bracket : stream.is (index + 2) "[" = true ∧ stream.newlineBefore (index + 2) = false
  case neg =>
    simp only [operandTail?, subscriptsEnd?_of_not_bracket bracket, Option.bind_eq_bind,
      Option.bind_some, begun "is" (by decide), Bool.false_and, Bool.false_eq_true, if_false,
      Option.pure_def, Option.some.injEq] at tail
    subst tail
    exact constraint.eq_of_operand placed operand
  case pos =>
    -- the constraint is a tuple, and the brackets behind it are further subscripts
    obtain ⟨opens, sameLine⟩ := bracket
    have grows := @within_typesBehind stream index (index + 2) (Nat.le_add_right index 2)
    have mark := placed.kind?_of_mark opens (by decide)
    obtain ⟨boundUnion, bound, -⟩ := Option.bind_eq_some_iff.mp constraint.bound_eq
    obtain ⟨union, found, -⟩ := Option.bind_eq_some_iff.mp constraint.typeWith?_eq
    obtain ⟨_, here, further⟩ := (constraint.head.unionWith?_eq_some_iff placed).mp found
    obtain rfl := Option.some.inj (operand.symm.trans here)
    have notBar : stream.is (index + 2) "|" = false := is_eq_false_of_is opens (by decide)
    have notAmpersand : stream.is (index + 2) "&" = false := is_eq_false_of_is opens (by decide)
    have same : boundUnion = union := by
      simp only [unionWith?, notBar, notAmpersand, Bool.or_self, Bool.false_eq_true,
        if_false] at bound
      obtain ⟨tuple, boundOperand, boundTail⟩ := Option.bind_eq_some_iff.mp bound
      rw [operandWith?_eq_of_plain placed fun operator listed => is_eq_false_of_is opens
        fun same => absurd (same ▸ listed) (by decide)] at boundOperand
      obtain ⟨primary, foundPrimary, boundSubscripts⟩ := Option.bind_eq_some_iff.mp boundOperand
      simp only [primaryTypeWith?, mark, punctuatedTypeWith?, opens, is_eq_false_of_is opens
        (by decide : "[" ≠ "("), is_eq_false_of_is opens (by decide : "[" ≠ "<"), Bool.or_true,
        Bool.false_eq_true, if_false, if_true, Option.map_eq_some_iff] at foundPrimary
      obtain ⟨close, closes, rfl⟩ := foundPrimary
      have subscripts : stream.subscriptsEnd? (index + 2) = stream.subscriptsEnd? (close + 1) := by
        rw [subscriptsEnd?, dif_pos ⟨opens, sameLine⟩]
        split
        · rename_i found
          obtain rfl := Option.some.inj (closes.symm.trans found)
          rfl
        · rename_i missing
          rw [closes] at missing
          contradiction
      rw [operandTail?, subscripts] at tail
      obtain rfl :=
        Option.some.inj (tail.symm.trans (within_operandTail? grows _ _ boundSubscripts))
      exact Option.some.inj ((within_unionTail? grows _ _ boundTail).symm.trans further)
    subst same
    exact constraint.eq_of_union found bound

/-- Arguments behind a queried name are no constraint, since a constraint in angles is the type of a
function. -/
theorem not_arguments (constraint : stream.IsConstraint index stop other) {arguments : Nat}
    (operand : stream.operandWith? (stream.typesBehind index) index = some middle)
    (opens : stream.is (index + 2) "<" = true)
    (applied : stream.typeArgumentsWith? (stream.typesBehind index) (index + 2) = some arguments)
    (tail : stream.operandTail? (stream.typesBehind index) arguments = some middle)
    (alike : ∀ parameters, stream.typeArgumentsEnd? (index + 2) = some arguments →
      stream.typeParametersEnd? (index + 2) = some parameters → arguments = parameters) :
    False := by
  have mark := placed.kind?_of_mark opens (by decide)
  have other : ∀ {text}, text ≠ "<" → stream.is (index + 2) text = false :=
    fun different => is_eq_false_of_is opens different.symm
  obtain ⟨boundUnion, bound, -⟩ := Option.bind_eq_some_iff.mp constraint.bound_eq
  simp only [unionWith?, other (by decide : "|" ≠ "<"), other (by decide : "&" ≠ "<"), Bool.or_self,
    Bool.false_eq_true, if_false] at bound
  obtain ⟨_, boundOperand, -⟩ := Option.bind_eq_some_iff.mp bound
  rw [operandWith?_eq_of_plain placed fun operator listed => is_eq_false_of_is opens
    fun same => absurd (same ▸ listed) (by decide)] at boundOperand
  obtain ⟨_, foundPrimary, -⟩ := Option.bind_eq_some_iff.mp boundOperand
  simp only [primaryTypeWith?, mark, punctuatedTypeWith?, opens, other (by decide : "(" ≠ "<"),
    functionTypeWith?, Bool.false_eq_true, if_false, if_true] at foundPrimary
  obtain ⟨parameters, foundParameters, arrow⟩ := Option.bind_eq_some_iff.mp foundPrimary
  have typed : ∀ next, Within (stream.typesBehind index next) (stream.typeEnd? next) :=
    within_typeEnd? index
  obtain rfl := alike parameters (within_typeArgumentsWith? typed _ _ applied)
    (within_typeParametersWith? (within_typeEnd? (index + 2)) _ _ foundParameters)
  have parenthesis : stream.is arguments "(" = true := by
    unfold arrowTypeWith? at arrow
    split at arrow
    · assumption
    · contradiction
  obtain rfl := Option.some.inj
    (tail.symm.trans (operandTail?_of_stops (.of_is parenthesis (by decide))))
  obtain rfl := constraint.head.eq_of_stops placed constraint.type operand fun text listed =>
    is_eq_false_of_is parenthesis fun same => absurd (same ▸ listed) (by decide)
  have noParenthesis : stream.is _ "(" = false := constraint.ends.is_eq_false (by decide)
  rw [parenthesis] at noParenthesis
  contradiction

/-- A type argument and a type parameter with a constraint end alike. -/
theorem eq_of_alike (constraint : stream.IsConstraint index stop other)
    (alike : ∀ arguments parameters, stream.typeArgumentsEnd? (index + 2) = some arguments →
      stream.typeParametersEnd? (index + 2) = some parameters → arguments = parameters) :
    stop = other := by
  obtain ⟨union, found, -⟩ := Option.bind_eq_some_iff.mp constraint.typeWith?_eq
  obtain ⟨middle, operand, -⟩ := (constraint.head.unionWith?_eq_some_iff placed).mp found
  rcases constraint.head.operandWith?_cases placed operand with
    rfl | ⟨-, tail | rfl | ⟨arguments, opens, applied, tail⟩⟩
  · exact absurd operand (constraint.operand_ne placed)
  · exact constraint.eq_of_operandTail? placed operand tail
  · exact constraint.eq_of_operand placed operand
  · exact (constraint.not_arguments placed operand opens applied tail (alike arguments)).elim

end IsConstraint

/-! ## Whole lists -/

/-- No item ends right before a word. -/
theorem EndsItem.isPlainWord_eq_false (ends : stream.EndsItem stop) :
    stream.isPlainWord stop = false := by
  rcases ends with comma | angle
  · exact placed.isPlainWord_eq_false comma (by decide)
  · exact placed.isPlainWord_eq_false angle (by decide)

omit placed in
theorem isPlainWord_of_is (found : stream.is index text = true)
    (word : stream.kind? index = some .word) (plain : text.startsWith "#" = false) :
    stream.isPlainWord index = true := by
  unfold is at found
  unfold kind? at word
  unfold isPlainWord
  cases here : stream.get? index with
  | none =>
    rw [here] at found
    contradiction
  | some token =>
    simp only [here, Option.map_some, Option.some.injEq, Bool.and_eq_true, beq_iff_eq]
      at found word ⊢
    simp [word, found.2, plain]

/-- A type argument is no parameter with a modifier. -/
theorem parameterNameFrom_eq (type : stream.typeEnd? index = some stop)
    (ends : stream.EndsItem stop) (free : stream.text (stream.parameterNameFrom index) ∉ notTypeWords) :
    stream.parameterNameFrom index = index := by
  have inRange : index < stream.size := by
    by_contra past
    rw [typeEnd?, dif_neg past] at type
    contradiction
  by_contra modified
  obtain ⟨accepted, name⟩ : (stream.textIn index ["in", "out", "const"] = true ∧
      stream.isPlainWord (index + 1) = true) ∧
        stream.parameterNameFrom index = stream.parameterNameFrom (index + 1) := by
    unfold parameterNameFrom at modified ⊢
    rw [runEnd, if_pos inRange] at modified ⊢
    split at modified
    · rw [if_pos ‹_›]
      exact ⟨Bool.and_eq_true_iff.mp ‹_›, rfl⟩
    · exact absurd rfl modified
  obtain ⟨modifier, word⟩ := accepted
  have begins :
      stream.text index = "in" ∨ stream.text index = "out" ∨ stream.text index = "const" := by
    simpa [textIn] using modifier
  have spelled : ∀ {text}, text.toList.head?.any startsWord = true → stream.text index = text →
      stream.is index text = true :=
    fun starts same => is_of_word (placed.kind?_of_start (same ▸ starts)) same
  rcases begins with keyword | variance | keyword
  · rw [typeEnd?_eq_none placed (by decide) (spelled (by decide) keyword)] at type
    contradiction
  · -- the modifier is a name for a type, and a word behind it ends no item
    have here := spelled (by decide) variance
    have plain : stream.IsTypeName index :=
      ⟨isPlainWord_of_is here (placed.kind?_of_start (variance ▸ by decide)) (by decide +kernel),
        variance ▸ by decide, variance ▸ by decide⟩
    have other : ∀ text ∈ ["is", "extends"], stream.is (index + 1) text = false := by
      intro text listed
      rw [Bool.eq_false_iff]
      intro found
      have known := (by decide : ∀ text ∈ ["is", "extends"], text ∈ notTypeWords ∧
        text ∉ ["in", "out", "const"]) text listed
      have stays : stream.parameterNameFrom (index + 1) = index + 1 := by
        unfold parameterNameFrom runEnd
        simp [textIn, (is_iff.mp found).2, known.2]
      rw [name, stays, (is_iff.mp found).2] at free
      exact free known.1
    have stops : stream.Stops .type (index + 1) := by
      refine ⟨fun text listed => ?_, fun closes => ?_⟩
      · have marks := (by decide : ∀ text ∈ continuations .type, text ∈ ["is", "extends"] ∨
          hasMark text = true) text listed
        rcases marks with keyword | foreign
        · exact other text keyword
        · rw [Bool.eq_false_iff]
          intro found
          rw [placed.isPlainWord_eq_false found foreign] at word
          contradiction
      · rw [Nat.add_sub_cancel, is_eq_false_of_is here (by decide)] at closes
        contradiction
    have ended := typeEnd?_of_operand placed inRange
      (fun text listed => is_eq_false_of_is here fun same => absurd (same ▸ listed) (by decide))
      (fun inner _ => ⟨index + 1, primaryTypeWith?_of_name placed plain
        (appliedNameWith?_of_dottedName (.single plain) (stops.weaken (by decide))),
        operandTail?_of_stops (stops.weaken (by decide))⟩) stops
    obtain rfl := Option.some.inj (type.symm.trans ended)
    rw [ends.isPlainWord_eq_false placed] at word
    contradiction
  · rw [typeEnd?_eq_none placed (by decide) (spelled (by decide) keyword)] at type
    contradiction

omit placed in
/-- Behind the place of a default stands its mark or the end of the parameter. -/
theorem mark_of_default {other : Nat} (found : stream.markedType? inner "=" index = some other)
    (ends : stream.EndsItem other) : ∃ mark ∈ ["=", ",", ">"], stream.is index mark = true := by
  unfold markedType? at found
  split at found
  case isTrue mark => exact ⟨"=", by decide, mark⟩
  case isFalse =>
    obtain rfl := Option.some.inj found
    rcases ends with comma | angle
    · exact ⟨",", by decide, comma⟩
    · exact ⟨">", by decide, angle⟩

omit placed in
/-- Where an item ends, no default stands. -/
theorem eq_of_default {other : Nat} (found : stream.markedType? inner "=" index = some other)
    (ends : stream.EndsItem index) : index = other := by
  rw [markedType?, ends.is_eq_false (by decide), if_neg Bool.false_ne_true] at found
  exact Option.some.inj found

/-- A type argument and a type parameter end alike. -/
theorem eq_of_typeParameter? {other : Nat} (type : stream.typeEnd? index = some stop)
    (ends : stream.EndsItem stop)
    (parameter : stream.typeParameter? stream.typeEnd? index = some other)
    (otherEnds : stream.EndsItem other)
    (alike : ∀ arguments parameters, stream.typeArgumentsEnd? (index + 2) = some arguments →
      stream.typeParametersEnd? (index + 2) = some parameters → arguments = parameters) :
    stop = other := by
  unfold typeParameter? at parameter
  dsimp only at parameter
  split at parameter
  case isFalse => contradiction
  case isTrue word =>
    simp only [Bool.and_eq_true, Bool.not_eq_true', textIn, List.contains_eq_mem,
      decide_eq_false_iff_not] at word
    have name := parameterNameFrom_eq placed type ends word.2
    rw [name] at word parameter
    obtain ⟨constraint, bound, default⟩ := Option.bind_eq_some_iff.mp parameter
    obtain ⟨mark, listed, behind⟩ := mark_of_default default otherEnds
    have marks := (by decide : ∀ mark ∈ ["=", ",", ">"], mark ∈ parameterMarks) mark listed
    unfold markedType? at bound
    split at bound
    case isTrue extended =>
      have head : stream.HeadsParameter index :=
        ⟨word.1, word.2, ⟨"extends", by decide, extended⟩, fun _ => ⟨constraint, bound⟩⟩
      have constrained : stream.IsConstraint index stop constraint :=
        ⟨head, type, ends, extended, bound, mark, listed, behind⟩
      obtain rfl := constrained.eq_of_alike placed alike
      exact eq_of_default default ends
    case isFalse unbounded =>
      obtain rfl := Option.some.inj bound
      have head : stream.HeadsParameter index :=
        ⟨word.1, word.2, ⟨mark, marks, behind⟩, fun extended => absurd extended unbounded⟩
      have whole := (typeEnd?_eq_typeWith? (lt_size_of_isPlainWord word.1)).symm.trans type
      obtain ⟨union, found, -⟩ := Option.bind_eq_some_iff.mp whole
      obtain ⟨middle, operand, -⟩ := (head.unionWith?_eq_some_iff placed).mp found
      obtain rfl : middle = index + 1 :=
        (head.operandWith?_cases placed operand).resolve_right fun extended =>
          unbounded extended.1
      obtain rfl := head.eq_of_stops placed type operand fun text listedText =>
        is_eq_false_of_is behind fun same => absurd
          ((by decide : ∀ mark ∈ ["=", ",", ">"], mark ∉ ["|", "&", "extends"]) mark listed)
          (not_not.mpr (same ▸ listedText))
      exact eq_of_default default ends

omit placed in
/-- A list of type parameters is its first parameter, and what its comma or its angle leave. -/
theorem typeParametersTail?_cases
    (found : stream.typeParametersTail? inner index = some stop) :
    ∃ item, stream.typeParameter? inner index = some item ∧
      (stream.is item ">" = true ∧ stop = item + 1 ∨
        stream.is item "," = true ∧ (stream.is (item + 1) ">" = true ∨
          stream.typeParametersTail? inner (item + 1) = some stop)) := by
  unfold typeParametersTail? at found
  split at found
  case h_1 => contradiction
  case h_2 item foundItem =>
    refine ⟨item, foundItem, ?_⟩
    split at found
    case isTrue comma =>
      refine .inr ⟨comma.2, ?_⟩
      split at found
      · exact .inl ‹_›
      · exact .inr found
    case isFalse =>
      split at found
      · exact .inl ⟨‹_›, (Option.some.inj found).symm⟩
      · contradiction

theorem eq_of_typeArgumentsTail? {first index other : Nat} (reached : first ≤ index)
    (found : stream.typeArgumentsTail? stream.typeEnd? index = some stop)
    (otherFound : stream.typeParametersTail? stream.typeEnd? index = some other)
    (alike : ∀ angle, first < angle → ∀ arguments parameters,
      stream.typeArgumentsEnd? angle = some arguments →
        stream.typeParametersEnd? angle = some parameters → arguments = parameters) :
    stop = other := by
  fun_induction stream.typeArgumentsTail? stream.typeEnd? index with
  | case1 | case4 => contradiction
  | case2 index type foundType closes =>
    obtain ⟨item, foundItem, ⟨angle, rfl⟩ | ⟨comma, -⟩⟩ := typeParametersTail?_cases otherFound
    · obtain rfl := eq_of_typeParameter? placed foundType (.inr closes) foundItem (.inr angle)
        (alike (index + 2) (by omega))
      exact (Option.some.inj found).symm
    · obtain rfl := eq_of_typeParameter? placed foundType (.inr closes) foundItem (.inl comma)
        (alike (index + 2) (by omega))
      rw [is_eq_false_of_is closes (by decide)] at comma
      contradiction
  | case3 index type foundType unclosed comma inductionHypothesis =>
    obtain ⟨item, foundItem, ⟨angle, -⟩ | ⟨otherComma, last | more⟩⟩ :=
      typeParametersTail?_cases otherFound
    · obtain rfl := eq_of_typeParameter? placed foundType (.inl comma.2) foundItem (.inr angle)
        (alike (index + 2) (by omega))
      exact absurd angle unclosed
    all_goals
      obtain rfl := eq_of_typeParameter? placed foundType (.inl comma.2) foundItem (.inl otherComma)
        (alike (index + 2) (by omega))
    · -- no type argument stands behind a comma that ends the list
      unfold typeArgumentsTail? at found
      rw [typeEnd?_eq_none placed (by decide) last] at found
      contradiction
    · exact inductionHypothesis (by omega) found more

end Items

/-- Type arguments and type parameters between the same angles end alike. -/
theorem eq_of_typeArgumentsEnd? {stream : TokenStream} (placed : stream.Placed)
    {angle arguments parameters : Nat} (found : stream.typeArgumentsEnd? angle = some arguments)
    (otherFound : stream.typeParametersEnd? angle = some parameters) : arguments = parameters := by
  have list := found
  unfold typeArgumentsEnd? typeArgumentsWith? at list
  unfold typeParametersEnd? typeParametersWith? at otherFound
  split at list
  case isFalse => contradiction
  case isTrue opens =>
    rw [if_pos opens] at otherFound
    have := lt_size_of_is opens
    exact eq_of_typeArgumentsTail? placed (Nat.le_succ angle) list otherFound
      fun _ _ _ _ => eq_of_typeArgumentsEnd? placed
termination_by stream.size - angle

end Playground.TokenStream
