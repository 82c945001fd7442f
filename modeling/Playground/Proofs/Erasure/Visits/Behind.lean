import Playground.Proofs.Erasure.Pairing.ClassBody
import Playground.Proofs.Erasure.Visits.Basic

/-!
# Nested walks begin behind a step

A walker asks only for walks that begin behind the index that it is given, so it answers alike if it
is handed another walk that agrees with the first one there (`Walk.AgreesBehind`). The walk that a
step of a program is handed gives up on all others; a step that is handed `nestedWalk`, which does
not, finds the same (`step_walkBehind`).
-/

namespace Playground

/-- Two walks find the same from every index behind `floor`. -/
def Walk.AgreesBehind (walk other : Walk) (floor : Nat) : Prop :=
  ∀ next ending, floor < next → walk next ending = other next ending

/-- A computation goes on alike if it does so with the value that it has. -/
theorem bind_congr_of_ok {ε α β : Type} {first : Except ε α} {next other : α → Except ε β}
    (same : ∀ value, first = .ok value → next value = other value) :
    first >>= next = first >>= other := by
  cases first with
  | error error => rfl
  | ok value => exact same value rfl

namespace TokenStream

variable {stream : TokenStream} {walk other : Walk} {floor index close : Nat}

section Agreement

variable (nested : stream.Nested) (placed : stream.Placed) (same : walk.AgreesBehind other floor)

/-! ## Brackets and values -/

section Parts

include same

theorem walkInside_congr (later : floor ≤ index) :
    stream.walkInside walk index = stream.walkInside other index := by
  simp only [walkInside, same (index + 1) _ (Nat.lt_succ_of_le later)]

theorem initializer_congr (later : floor ≤ index) (ending : WalkEnd) :
    stream.initializer walk index ending = stream.initializer other index ending := by
  simp only [initializer, same (index + 1) _ (Nat.lt_succ_of_le later)]

theorem parameterTarget_congr (later : floor < index) :
    stream.parameterTarget walk index close = stream.parameterTarget other index close := by
  simp only [parameterTarget, walkInside_congr same (Nat.le_of_lt later), same index _ later]

theorem variableTarget_congr (later : floor ≤ index) :
    stream.variableTarget walk index = stream.variableTarget other index := by
  simp only [variableTarget, walkInside_congr same later]

theorem controlHead_congr (later : floor ≤ index) :
    stream.controlHead walk index = stream.controlHead other index := by
  unfold controlHead
  extract_lets opening
  have behind : floor ≤ opening := by
    unfold opening
    split <;> omega
  rw [walkInside_congr same behind]

theorem memberHead_congr {first modified name nameEnd markerEnd : Nat} (later : floor ≤ name) :
    stream.memberHead walk first modified name nameEnd markerEnd =
      stream.memberHead other first modified name nameEnd markerEnd := by
  simp only [memberHead, walkInside_congr same later]

theorem heritagePart_congr (later : floor ≤ index) :
    stream.heritagePart walk index = stream.heritagePart other index := by
  simp only [heritagePart, walkInside_congr same later]

theorem heritageFrom_congr {index : Nat} (later : floor ≤ index) :
    stream.heritageFrom walk index = stream.heritageFrom other index := by
  rw [heritageFrom, heritageFrom, heritagePart_congr same later]
  split
  case isFalse => rfl
  case isTrue =>
    refine ite_congr rfl (fun _ => rfl) fun _ => bind_congr_of_ok fun part _ => ?_
    split
    case isFalse => rfl
    case isTrue further =>
      rw [heritageFrom_congr (Nat.le_of_lt (Nat.lt_of_le_of_lt later further))]
termination_by stream.size - index

theorem heritage_congr (later : floor ≤ index) :
    stream.heritage walk index = stream.heritage other index := by
  simp only [heritage, heritageFrom_congr same (Nat.le_succ_of_le later)]

end Parts

/-! ## Variables -/

include nested placed same

theorem variableFrom_congr {target : Progress} (later : floor ≤ target.next) :
    stream.variableFrom walk target = stream.variableFrom other target := by
  unfold variableFrom
  refine bind_congr_of_ok fun noted found => ?_
  have marked := stream.le_definiteMark target.next
  have annotated := le_of_erasedAnnotation nested placed found
  rw [initializer_congr same (by omega)]

theorem variablesFrom_congr {index : Nat} (later : floor ≤ index) :
    stream.variablesFrom walk index = stream.variablesFrom other index := by
  rw [variablesFrom, variablesFrom, variableTarget_congr same later]
  refine bind_congr_of_ok fun target? found => ?_
  cases target? with
  | none => rfl
  | some target =>
    have reached := lt_of_variableTarget found
    dsimp only
    rw [variableFrom_congr nested placed same (by omega)]
    refine bind_congr_of_ok fun one _ => ?_
    split
    case isFalse => rfl
    case isTrue comma =>
      have inside := lt_size_of_is comma.2
      have behind : floor ≤ one.next + 1 := by omega
      rw [variablesFrom_congr behind]
termination_by stream.size - index

/-! ## Parameters -/

variable (advances : other.Advances)

include advances

theorem parameter_congr (later : floor < index) :
    stream.parameter walk index close = stream.parameter other index close := by
  have modified : index ≤ stream.parameterModifiersEnd index := le_runEnd ..
  unfold TokenStream.parameter
  extract_lets _ _ name
  have named : index ≤ name := by
    unfold name
    split <;> omega
  rw [parameterTarget_congr same (by omega)]
  refine bind_congr_of_ok fun target found => ?_
  have reached := le_of_parameterTarget advances found
  have marked := stream.le_erasedMarker "?" target.next
  refine bind_congr_of_ok fun noted foundNoted => ?_
  have annotated := le_of_erasedAnnotation nested placed foundNoted
  rw [initializer_congr same (by omega)]

theorem parametersFrom_congr {index : Nat} (later : floor < index) :
    stream.parametersFrom walk index close = stream.parametersFrom other index close := by
  rw [parametersFrom, parametersFrom, parameter_congr nested placed same advances later]
  split
  case isFalse => rfl
  case isTrue =>
    split
    case isTrue =>
      refine bind_congr_of_ok fun receiver _ => ?_
      split
      case isFalse => rfl
      case isTrue further => rw [parametersFrom_congr (Nat.lt_trans later further)]
    case isFalse =>
      refine bind_congr_of_ok fun one _ => ?_
      split
      case isFalse => rfl
      case isTrue comma => rw [parametersFrom_congr (Nat.lt_succ_of_le (by omega))]
termination_by close - index

/-! ## Functions -/

theorem functionDeclaration_congr (later : floor ≤ index) :
    stream.functionDeclaration walk index = stream.functionDeclaration other index := by
  have named := ((stream.passes_functionNameEnd index).balanced nested).ordered
  unfold functionDeclaration
  refine bind_congr_of_ok fun opening generics => ?_
  have listed := le_of_optionalTypeParameters nested placed generics
  refine ite_congr rfl (fun _ => bind_congr_of_ok fun close closes => ?_) fun _ => rfl
  have closed := lt_of_closeOf closes
  refine bind_congr_of_ok fun body annotated => ?_
  have typed := le_of_optionalAnnotation nested placed annotated
  have behind : floor ≤ body := by omega
  rw [parametersFrom_congr nested placed same advances (by omega), walkInside_congr same behind]

theorem parenthesis_congr (later : floor ≤ index) :
    stream.parenthesis walk index = stream.parenthesis other index := by
  unfold parenthesis
  refine bind_congr_of_ok fun close _ => ?_
  rw [walkInside_congr same later,
    parametersFrom_congr nested placed same advances (Nat.lt_succ_of_le later)]

/-! ## Class members -/

omit placed advances in
theorem constructorBody_congr {derived : Bool} {names : List String} (later : floor ≤ index) :
    stream.constructorBody walk index derived names =
      stream.constructorBody other index derived names := by
  unfold constructorBody
  refine bind_congr_of_ok fun close closes => bind_congr_of_ok fun anchor found => ?_
  have behind :=
    (balanced_of_assignmentAnchor nested (closeOf_eq_ok_iff.mp closes) found).ordered
  rw [same (index + 1) _ (by omega), same (anchor + 1) _ (by omega)]

omit placed advances in
theorem methodBody_congr {name : Nat} {derived : Bool} {names : List String}
    (later : floor ≤ index) : stream.methodBody walk index name derived names =
      stream.methodBody other index name derived names := by
  unfold methodBody
  rw [constructorBody_congr nested same later, walkInside_congr same later]

theorem methodMember_congr {first modified name nameEnd markerEnd opening : Nat} {derived : Bool}
    (named : floor ≤ name) (later : floor ≤ opening) :
    stream.methodMember walk first modified name nameEnd markerEnd opening derived =
      stream.methodMember other first modified name nameEnd markerEnd opening derived := by
  unfold methodMember
  refine bind_congr_of_ok fun close closes => bind_congr_of_ok fun body annotated => ?_
  have closed := lt_of_closeOf closes
  have typed := le_of_optionalAnnotation nested placed annotated
  have behind : floor ≤ body := by omega
  refine ite_congr rfl (fun _ => ?_) fun _ => rfl
  rw [memberHead_congr same named,
    parametersFrom_congr nested placed same advances (Nat.lt_succ_of_le later)]
  refine bind_congr_of_ok fun head _ => bind_congr_of_ok fun parameters _ => ?_
  rw [methodBody_congr nested same behind]

omit advances in
theorem fieldMember_congr {first modified name nameEnd headEnd : Nat} (named : floor ≤ name)
    (later : floor ≤ headEnd) :
    stream.fieldMember walk first modified name nameEnd headEnd close =
      stream.fieldMember other first modified name nameEnd headEnd close := by
  unfold fieldMember
  rw [memberHead_congr same named]
  refine bind_congr_of_ok fun head _ => bind_congr_of_ok fun noted found => ?_
  have annotated := le_of_erasedAnnotation nested placed found
  rw [initializer_congr same (by omega)]

theorem namedMember_congr {first modified : Nat} {derived : Bool} (later : floor ≤ modified) :
    stream.namedMember walk first modified close derived =
      stream.namedMember other first modified close derived := by
  unfold namedMember
  extract_lets name
  have named : modified ≤ name := by
    unfold name
    split <;> omega
  refine bind_congr_of_ok fun nameEnd found => ?_
  have ended := lt_of_memberNameEnd found
  extract_lets marked markerEnd
  have headed : nameEnd ≤ markerEnd := by
    unfold markerEnd
    split <;> omega
  refine bind_congr_of_ok fun opening generics => ?_
  have listed := le_of_optionalTypeParameters nested placed generics
  rw [methodMember_congr nested placed same advances (by omega) (by omega),
    fieldMember_congr nested placed same (by omega) (by omega)]

theorem classMember_congr {derived : Bool} (later : floor ≤ index) :
    stream.classMember walk index close derived = stream.classMember other index close derived := by
  have modified : floor ≤ stream.modifiersEnd index close := Nat.le_trans later (le_runEnd ..)
  simp only [classMember, namedMember_congr nested placed same advances modified,
    walkInside_congr same modified]

theorem classMembersFrom_congr {index : Nat} {derived : Bool} (later : floor ≤ index) :
    stream.classMembersFrom walk index close derived =
      stream.classMembersFrom other index close derived := by
  rw [classMembersFrom, classMembersFrom, classMember_congr nested placed same advances later]
  split
  case isFalse => rfl
  case isTrue =>
    refine bind_congr_of_ok fun member _ => ?_
    split
    case isFalse => rfl
    case isTrue further =>
      rw [classMembersFrom_congr (Nat.le_of_lt (Nat.lt_of_le_of_lt later further))]
termination_by close - index

theorem classDeclaration_congr (later : floor ≤ index) :
    stream.classDeclaration walk index = stream.classDeclaration other index := by
  have named := stream.lt_classNameEnd index
  unfold classDeclaration
  refine bind_congr_of_ok fun generics found => ?_
  have listed := le_of_optionalTypeParameters nested placed found
  rw [heritage_congr same (by omega)]
  refine bind_congr_of_ok fun base foundBase => bind_congr_of_ok fun implemented foundTypes => ?_
  have derived := le_of_heritage nested placed foundBase
  have implements := le_of_implementedTypes nested placed foundTypes
  dsimp only
  refine ite_congr rfl (fun _ => bind_congr_of_ok fun close _ => ?_) fun _ => rfl
  rw [classMembersFrom_congr nested placed same advances (by omega)]

/-! ## Steps -/

theorem wordStep_congr (later : floor ≤ index) :
    stream.wordStep walk index = stream.wordStep other index := by
  simp only [wordStep, variablesFrom_congr nested placed same (Nat.le_succ_of_le later),
    functionDeclaration_congr nested placed same advances later,
    classDeclaration_congr nested placed same advances later, controlHead_congr same later]

theorem punctuatorStep_congr (later : floor ≤ index) :
    stream.punctuatorStep walk index = stream.punctuatorStep other index := by
  simp only [punctuatorStep, parenthesis_congr nested placed same advances later,
    walkInside_congr same later]

/-- A step needs nothing but the walks behind it. -/
theorem step_congr (later : floor ≤ index) : stream.step walk index = stream.step other index := by
  simp only [step, templateStep, wordStep_congr nested placed same advances later,
    punctuatorStep_congr nested placed same advances later,
    same (index + 1) _ (Nat.lt_succ_of_le later)]

end Agreement

/-! ## The nested walk of a program -/

/-- The walk of a nested construct, wherever it begins. -/
def nestedWalk (stream : TokenStream) : Walk := fun next ending =>
  stream.walkFrom next next ending

theorem advances_nestedWalk (nested : stream.Nested) (placed : stream.Placed) :
    stream.nestedWalk.Advances :=
  fun found => le_of_walkFrom nested placed found

/-- Nothing that a step needs is kept from it. -/
theorem step_walkBehind (nested : stream.Nested) (placed : stream.Placed) (index : Nat) :
    stream.step (stream.walkBehind index) index = stream.step stream.nestedWalk index := by
  have same : (stream.walkBehind index).AgreesBehind stream.nestedWalk index :=
    fun _ ending later => walkBehind_of_lt later ending
  exact step_congr nested placed same (advances_nestedWalk nested placed) (Nat.le_refl index)

end TokenStream

end Playground
