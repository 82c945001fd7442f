import Playground.Proofs.Erasure.Typed.Parts

/-!
# Chains of type assertions

Statements that are operands with assertions behind them lose these assertions, and nothing else, as
long as each assertion follows a token that an expression may end with
(`AssertionStatements.walkFrom_eq`). The type of an assertion may end with another token.
-/

namespace Playground

namespace TokenStream

/-- A word that begins no construct where it stands. -/
inductive IsIdleWord (stream : TokenStream) (index : Nat) : Prop where
  | free (other : stream.text index ∉ constructWords)
  | ofAlias (spelled : stream.text index = "type") (noAlias : stream.startsAlias index = false)
  | ofAmbient (spelled : stream.text index = "declare")
      (noDeclaration : stream.startsAmbient index = false)
  | ofNamespace (spelled : stream.text index = "namespace" ∨ stream.text index = "module")
      (noNamespace : stream.startsNamespace index = false)
  | ofAbstract (spelled : stream.text index = "abstract")
      (noClass : stream.is (index + 1) "class" = false)
  | ofOperator (spelled : stream.text index = "as" ∨ stream.text index = "satisfies")
      (noOperand : 0 < index → stream.endsExpression (index - 1) = false)

/-- A walk of the tokens from an index up to another finds nothing to erase. -/
def IsUntouched (stream : TokenStream) (first stop : Nat) : Prop :=
  stream.walkFrom first first (.upTo stop) = .ok (.still stop)

/-- A name, a literal or an expression in brackets. -/
inductive IsOperand (stream : TokenStream) : Nat → Nat → Prop where
  | name {index} (word : stream.kind? index = some .word) (idle : stream.IsIdleWord index) :
      IsOperand stream index (index + 1)
  | literal {index kind} (listed : kind ∈ [TokenKind.number, .string, .regex, .template])
      (found : stream.kind? index = some kind) : IsOperand stream index (index + 1)
  | template {head} (found : stream.kind? head = some .templateHead)
      (inside : stream.IsUntouched (head + 1) (stream.templateTail head)) :
      IsOperand stream head (stream.templateTail head + 1)
  | group {opening close} (closes : stream.closer? opening = some close)
      (inside : stream.IsUntouched (opening + 1) close) : IsOperand stream opening (close + 1)

/-- A type assertion from its keyword to the end of its type. -/
inductive IsAssertion (stream : TokenStream) (keyword : Nat) : Nat → Prop where
  | ofConst (operator : stream.is keyword "as" = true)
      (mark : stream.is (keyword + 1) "const" = true) : IsAssertion stream keyword (keyword + 2)
  | ofType {stop} (operator : stream.is keyword "as" = true ∨ stream.is keyword "satisfies" = true)
      (other : stream.is (keyword + 1) "const" = false)
      (type : stream.typeEnd? (keyword + 1) = some stop) : IsAssertion stream keyword stop

/-- Assertions one behind the other; the tokens before them are as `Ends` says. -/
inductive AssertionChain (stream : TokenStream) (Ends : Nat → Prop) :
    Nat → Nat → List Stretch → Prop where
  | last {keyword stop} (behind : Ends (keyword - 1)) (one : stream.IsAssertion keyword stop) :
      AssertionChain stream Ends keyword stop [stream.attachedStretch keyword stop]
  | more {keyword middle stop types} (behind : Ends (keyword - 1))
      (one : stream.IsAssertion keyword middle)
      (rest : AssertionChain stream Ends middle stop types) :
      AssertionChain stream Ends keyword stop (stream.attachedStretch keyword middle :: types)

/-- Statements that are operands with assertions behind them, each with its semicolon. -/
inductive AssertionStatements (stream : TokenStream) (Ends : Nat → Prop) :
    Nat → Nat → List Stretch → Prop where
  | nothing {index} : AssertionStatements stream Ends index index []
  | statement {first keyword semicolon stop types others}
      (operand : stream.IsOperand first keyword)
      (chain : stream.AssertionChain Ends keyword semicolon types)
      (ends : stream.is semicolon ";" = true)
      (rest : AssertionStatements stream Ends (semicolon + 1) stop others) :
      AssertionStatements stream Ends first stop (types ++ others)

variable {stream : TokenStream} {Ends Further : Nat → Prop} {first index keyword middle stop : Nat}
  {types : List Stretch}

theorem AssertionChain.mono (chain : stream.AssertionChain Ends keyword stop types)
    (weaker : ∀ index, Ends index → Further index) :
    stream.AssertionChain Further keyword stop types := by
  induction chain with
  | last behind one => exact .last (weaker _ behind) one
  | more behind one _ inductionHypothesis => exact .more (weaker _ behind) one inductionHypothesis

theorem AssertionStatements.mono (statements : stream.AssertionStatements Ends first stop types)
    (weaker : ∀ index, Ends index → Further index) :
    stream.AssertionStatements Further first stop types := by
  induction statements with
  | nothing => exact .nothing
  | statement operand chain ends _ inductionHypothesis =>
    exact .statement operand (chain.mono weaker) ends inductionHypothesis

/-! ## Operands -/

theorem wordStep_of_idle (walk : Walk) (idle : stream.IsIdleWord index) :
    stream.wordStep walk index = .ok (.still (index + 1)) := by
  unfold wordStep
  split
  · rfl
  cases idle with
  | free other =>
    split <;> first | rfl | (rename_i same; exact absurd (same ▸ (by decide)) other)
  | ofAlias spelled noAlias => simp [spelled, noAlias, pure, Except.pure]
  | ofAmbient spelled noDeclaration => simp [spelled, noDeclaration, pure, Except.pure]
  | ofNamespace spelled noNamespace =>
    rcases spelled with spelled | spelled <;> simp [spelled, noNamespace, pure, Except.pure]
  | ofAbstract spelled noClass => simp [spelled, noClass, pure, Except.pure]
  | ofOperator spelled noOperand =>
    have passes : (decide (0 < index) && stream.endsExpression (index - 1)) = false := by
      simpa using noOperand
    rcases spelled with spelled | spelled <;>
      simp only [spelled, passes, Bool.false_eq_true, if_false, pure, Except.pure]

theorem IsOperand.lt_size (nested : stream.Nested) (operand : stream.IsOperand first stop) :
    first < stream.size := by
  cases operand with
  | name word | literal _ word | template word => exact lt_size_of_kind? word
  | group closes => exact lt_size_of_kind? (nested.text_bracket closes).1

theorem IsOperand.lt (operand : stream.IsOperand first stop) : first < stop := by
  cases operand with
  | name | literal => exact Nat.lt_succ_self first
  | template found =>
    exact Nat.lt_succ_of_lt (le_templateTailFrom 0 (lt_size_of_kind? found))
  | group closes => exact Nat.lt_succ_of_lt (lt_of_closer?_eq_some closes)

/-- An operand is passed where nothing behind it makes its parentheses a list of parameters. -/
theorem IsOperand.step_eq (nested : stream.Nested) {walk : Walk}
    (walks : stream.WalksBehind first walk) (operand : stream.IsOperand first stop)
    (headFree : stream.HeadFree stop) :
    stream.step walk first = .ok (.still stop) := by
  cases operand with
  | name word idle =>
    rw [step, word]
    exact wordStep_of_idle walk idle
  | literal listed found => exact (IsPlainToken.literal listed found).step_eq walk
  | template found inside =>
    rw [step, found]
    change stream.templateStep walk first = _
    rw [templateStep, walks _ _ (Nat.lt_succ_self first), inside]
    rfl
  | group closes inside => exact step_of_closer? nested walks closes headFree inside

/-- Plain code is left as it is. -/
theorem isUntouched_of_plain (nested : stream.Nested) (placed : stream.Placed)
    (plain : stream.Plain true first stop) (headFree : stream.HeadFree stop) :
    stream.IsUntouched first stop :=
  walkFrom_of_plain nested placed plain headFree (spares_upTo (Nat.le_refl stop))
    (walkFrom_of_le (Nat.le_refl stop))

/-! ## Assertions -/

theorem IsAssertion.operator (one : stream.IsAssertion keyword stop) :
    stream.is keyword "as" = true ∨ stream.is keyword "satisfies" = true := by
  cases one with
  | ofConst operator => exact .inl operator
  | ofType operator => exact operator

theorem IsAssertion.text_keyword (one : stream.IsAssertion keyword stop) :
    stream.text keyword = "as" ∨ stream.text keyword = "satisfies" :=
  one.operator.imp (fun found => (is_iff.mp found).2) fun found => (is_iff.mp found).2

theorem IsAssertion.lt_size (one : stream.IsAssertion keyword stop) : keyword < stream.size :=
  one.operator.elim lt_size_of_is lt_size_of_is

/-- No list of parameters stands before an assertion. -/
theorem IsAssertion.headFree (one : stream.IsAssertion keyword stop) : stream.HeadFree keyword := by
  rcases one.operator with operator | operator
  · exact headFree_of_is operator (by decide)
  · exact headFree_of_is operator (by decide)

theorem AssertionChain.exists_head (chain : stream.AssertionChain Ends keyword stop types) :
    ∃ middle, stream.IsAssertion keyword middle := by
  cases chain with
  | last _ one | more _ one => exact ⟨_, one⟩

theorem AssertionChain.headFree (chain : stream.AssertionChain Ends keyword stop types) :
    stream.HeadFree keyword :=
  let ⟨_, one⟩ := chain.exists_head
  one.headFree

section Walking

variable (nested : stream.Nested) (placed : stream.Placed)

include nested placed

omit nested in
theorem IsAssertion.step_keyword (walk : Walk) (one : stream.IsAssertion keyword stop) :
    stream.step walk keyword = stream.wordStep walk keyword := by
  rcases one.operator with operator | operator
  · exact placed.step_of_keyword walk operator (by decide)
  · exact placed.step_of_keyword walk operator (by decide)

theorem IsAssertion.lt (one : stream.IsAssertion keyword stop) : keyword < stop := by
  cases one with
  | ofConst => exact Nat.lt_add_of_pos_right (Nat.succ_pos 1)
  | ofType _ _ type => exact ((passes_of_typeEnd? placed type).balanced nested).ordered

/-- An assertion is erased with its keyword where an expression may end before it. -/
theorem IsAssertion.step_eq (walk : Walk) (one : stream.IsAssertion keyword stop)
    (later : 0 < keyword) (behind : stream.EndsExpression (keyword - 1)) :
    stream.step walk keyword = .ok ⟨stop, erasures [stream.attachedStretch keyword stop]⟩ := by
  have found : stream.typeAssertion keyword = ⟨stop, [stream.attached keyword stop]⟩ := by
    cases one with
    | ofConst _ mark => simp [typeAssertion, mark]
    | ofType _ other type => simp [typeAssertion, other, type]
  have starts := placed.isPropertyName_eq_false_of_endsExpression behind
  rw [attached_eq later (one.lt nested placed)] at found
  rw [one.step_keyword placed, wordStep, if_neg (by simp [starts])]
  rcases one.text_keyword with spelled | spelled
  · simp [spelled, later, behind, found, pure, Except.pure]
  · simp [spelled, later, behind, found, pure, Except.pure]

/-- A chain is erased one assertion after the other. -/
theorem AssertionChain.walkFrom_eq {rest : Progress}
    (chain : stream.AssertionChain stream.EndsExpression keyword stop types) (later : 0 < keyword)
    (following : stream.walkFrom first stop (.upTo stream.size) = .ok rest) :
    stream.walkFrom first keyword (.upTo stream.size) = .ok (rest.preceded (erasures types)) := by
  induction chain with
  | last behind one =>
    exact walkFrom_of_step one.lt_size one.lt_size (endsBefore_upTo ..)
      (fun walk _ => one.step_eq nested placed walk later behind) (one.lt nested placed) following
  | more behind one _ inductionHypothesis =>
    have ordered := one.lt nested placed
    have walked := walkFrom_of_step one.lt_size one.lt_size (endsBefore_upTo ..)
      (fun walk _ => one.step_eq nested placed walk later behind) ordered
      (inductionHypothesis (Nat.lt_trans later ordered) following)
    rw [walked, preceded_preceded, ← erasures_append]
    rfl

theorem AssertionChain.laid (chain : stream.AssertionChain Ends keyword stop types) :
    Laid (stream.passed keyword) types (stream.passed stop) := by
  induction chain with
  | last _ one => exact placed.laid_attached (one.lt nested placed) one.lt_size
  | more _ one _ inductionHypothesis =>
    exact (placed.laid_attached (one.lt nested placed) one.lt_size).append inductionHypothesis

/-! ## Statements -/

theorem AssertionStatements.walkFrom_eq {finish : Nat}
    (statements : stream.AssertionStatements stream.EndsExpression index finish types)
    (whole : finish = stream.size) :
    stream.walkFrom first index (.upTo stream.size) = .ok ⟨finish, erasures types⟩ := by
  induction statements with
  | nothing => exact walkFrom_of_le (Nat.le_of_eq whole.symm)
  | @statement index keyword semicolon finish types others operand chain ends _ inductionHypothesis =>
    have inside := operand.lt_size nested
    have chained := chain.walkFrom_eq nested placed (Nat.zero_lt_of_lt operand.lt)
      (walkFrom_of_semicolon placed ends (lt_size_of_is ends) (inductionHypothesis whole))
    rw [walkFrom_of_step inside inside (endsBefore_upTo ..)
      (fun walk walks => operand.step_eq nested walks chain.headFree) operand.lt chained]
    rw [erasures_append]
    rfl

theorem AssertionStatements.laid (statements : stream.AssertionStatements Ends index stop types) :
    Laid (stream.passed index) types (stream.passed stop) := by
  induction statements with
  | nothing => exact .nothing (Nat.le_refl _)
  | @statement _ _ semicolon _ _ _ operand chain _ _ inductionHypothesis =>
    exact ((chain.laid nested placed).from_lower (placed.passed_mono (Nat.le_of_lt operand.lt))).append
      (inductionHypothesis.from_lower (placed.passed_mono (Nat.le_succ semicolon)))

end Walking

end TokenStream

end Playground
