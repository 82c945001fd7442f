import Playground.Erasure.Program
import Playground.Proofs.Erasure.Steps

/-!
# What the walk blames

A walk that gives up blames a token, or the end of the program where it asked for more tokens than
there are (`BlamesToken`). Each walker of a construct is judged under the assumption that the walk
it is handed blames tokens, and the recursion of the walk is closed once (`blamesToken_walkFrom`).
-/

namespace Playground

/-- Whatever makes a computation give up stands where a token starts, or at the end of the
program. -/
def TokenStream.BlamesToken {α : Type} (stream : TokenStream) (result : Except SyntaxError α) :
    Prop :=
  ∀ error, result = .error error → ∃ index, error.offset = stream.startOf index

/-- A walk blames tokens, wherever it begins. -/
def Walk.BlamesToken (walk : Walk) (stream : TokenStream) : Prop :=
  ∀ index ending, stream.BlamesToken (walk index ending)

namespace TokenStream

variable {stream : TokenStream} {α β : Type}

theorem blamesToken_ok (value : α) : stream.BlamesToken (.ok value) :=
  fun _ failed => nomatch failed

theorem blamesToken_fail (index : Nat) (fault : SyntaxFault) :
    stream.BlamesToken (stream.fail index fault : Except SyntaxError α) := by
  intro error failed
  cases failed
  exact ⟨index, rfl⟩

theorem BlamesToken.bind {first : Except SyntaxError α} {next : α → Except SyntaxError β}
    (one : stream.BlamesToken first) (others : ∀ value, stream.BlamesToken (next value)) :
    stream.BlamesToken (first >>= next) := by
  intro error failed
  cases first with
  | error => exact one error (by cases failed; rfl)
  | ok value => exact others value error failed

theorem BlamesToken.ite {condition : Prop} [Decidable condition] {one other : Except SyntaxError α}
    (first : stream.BlamesToken one) (second : stream.BlamesToken other) :
    stream.BlamesToken (if condition then one else other) := by
  split
  · exact first
  · exact second

/-! ## Parts of every construct -/

theorem blamesToken_closeOf (index : Nat) : stream.BlamesToken (stream.closeOf index) := by
  unfold closeOf
  split
  · exact blamesToken_ok _
  · exact blamesToken_fail index _

theorem blamesToken_expectType (index : Nat) : stream.BlamesToken (stream.expectType index) := by
  unfold expectType
  split
  · exact blamesToken_ok _
  · exact blamesToken_fail index _

theorem blamesToken_typeListEnd (index : Nat) : stream.BlamesToken (stream.typeListEnd index) := by
  unfold typeListEnd
  refine (blamesToken_expectType index).bind fun stop => ?_
  split
  case isTrue comma =>
    have inside := lt_size_of_is comma.2
    exact blamesToken_typeListEnd (stop + 1)
  case isFalse => exact blamesToken_ok _
termination_by stream.size - index

theorem blamesToken_optionalTypeParameters (index : Nat) :
    stream.BlamesToken (stream.optionalTypeParameters index) := by
  unfold optionalTypeParameters expectTypeParameters
  split
  · split
    · exact blamesToken_ok _
    · exact blamesToken_fail index _
  · exact blamesToken_ok _

theorem blamesToken_annotationEnd (index : Nat) :
    stream.BlamesToken (stream.optionalAnnotation index) := by
  unfold optionalAnnotation
  split
  · exact blamesToken_expectType (index + 1)
  · exact blamesToken_ok _

theorem blamesToken_annotationErased (index : Nat) :
    stream.BlamesToken (stream.erasedAnnotation index) :=
  (blamesToken_annotationEnd index).bind fun _ => blamesToken_ok _

/-! ## Clauses and declarations without a walk -/

theorem blamesToken_catchHead (keyword : Nat) : stream.BlamesToken (stream.catchHead keyword) := by
  refine (blamesToken_closeOf _).bind fun close => .bind ?_ fun target => ?_
  · unfold catchTargetEnd
    split
    · exact (blamesToken_closeOf _).bind fun _ => blamesToken_ok _
    · exact blamesToken_ok _
  · exact (blamesToken_annotationEnd target).bind fun _ => blamesToken_ok _

theorem blamesToken_interfaceDeclaration (keyword : Nat) :
    stream.BlamesToken (stream.interfaceDeclaration keyword) := by
  refine (blamesToken_optionalTypeParameters _).bind fun generics => .bind ?_ fun opening => ?_
  · unfold extendedTypesEnd
    split
    · exact blamesToken_typeListEnd (generics + 1)
    · exact blamesToken_ok _
  · split
    · exact (blamesToken_closeOf opening).bind fun _ => blamesToken_ok _
    · exact blamesToken_fail opening _

theorem blamesToken_aliasDeclaration (keyword : Nat) :
    stream.BlamesToken (stream.aliasDeclaration keyword) := by
  refine (blamesToken_optionalTypeParameters _).bind fun generics => ?_
  split
  · exact (blamesToken_expectType _).bind fun _ => blamesToken_ok _
  · exact blamesToken_ok _

theorem blamesToken_erasedSpecifiers (first stop : Nat) :
    stream.BlamesToken (stream.erasedSpecifiers first stop) := by
  unfold erasedSpecifiers
  split
  · exact blamesToken_ok _
  · exact (blamesToken_closeOf _).bind fun _ => blamesToken_ok _

theorem blamesToken_importDeclaration (keyword : Nat) :
    stream.BlamesToken (stream.importDeclaration keyword) := by
  unfold importDeclaration
  extract_lets clause stop
  refine .ite (.ite ?_ ?_) ?_
  · exact blamesToken_ok _
  · exact (blamesToken_erasedSpecifiers clause stop).bind fun _ => blamesToken_ok _
  · exact blamesToken_ok _

theorem blamesToken_exportClauseEnd (index : Nat) :
    stream.BlamesToken (stream.exportClauseEnd index) := by
  unfold exportClauseEnd
  extract_lets behind
  refine .ite ?_ (.ite ?_ ?_)
  · exact (blamesToken_closeOf index).bind fun _ => blamesToken_ok _
  · exact blamesToken_ok _
  · exact blamesToken_ok _

theorem blamesToken_exportDeclaration (keyword : Nat) :
    stream.BlamesToken (stream.exportDeclaration keyword) := by
  unfold exportDeclaration
  extract_lets clause
  split
  · exact (blamesToken_exportClauseEnd _).bind fun _ => blamesToken_ok _
  split
  · exact blamesToken_ok _
  split
  · exact (blamesToken_closeOf clause).bind fun _ =>
      (blamesToken_erasedSpecifiers clause _).bind fun _ => blamesToken_ok _
  · exact blamesToken_ok _

/-! ## Enumerations -/

theorem blamesToken_memberKey (index : Nat) : stream.BlamesToken (stream.memberKey index) := by
  unfold memberKey
  split
  · exact blamesToken_ok _
  · exact blamesToken_ok _
  · exact blamesToken_fail index _

theorem blamesToken_uninitializedMember (name key : String) (index : Nat) (value : NextMember) :
    stream.BlamesToken (stream.uninitializedMember name key index value) := by
  cases value with
  | value | after => exact blamesToken_ok _
  | unknown => exact blamesToken_fail index _

theorem blamesToken_enumMember (name : String) (index close : Nat) (value : NextMember) :
    stream.BlamesToken (stream.enumMember name index close value) := by
  refine (blamesToken_memberKey index).bind fun key => ?_
  split
  · extract_lets first stop
    split
    · exact blamesToken_fail first _
    · exact blamesToken_ok _
  · exact blamesToken_uninitializedMember name key index value

theorem blamesToken_enumMembersFrom (name : String) (index close : Nat) (value : NextMember) :
    stream.BlamesToken (stream.enumMembersFrom name index close value) := by
  unfold enumMembersFrom
  split
  case isFalse => exact blamesToken_ok _
  case isTrue inside =>
    refine (blamesToken_enumMember name index close value).bind fun member => ?_
    split
    case isTrue comma =>
      exact (blamesToken_enumMembersFrom name (member.stop + 1) close member.following).bind
        fun _ => blamesToken_ok _
    case isFalse =>
      split
      · exact blamesToken_fail member.stop _
      · exact blamesToken_ok _
termination_by close - index

theorem blamesToken_enumDeclaration (first keyword : Nat) :
    stream.BlamesToken (stream.enumDeclaration first keyword) := by
  unfold enumDeclaration
  extract_lets name opening
  split
  · exact (blamesToken_closeOf opening).bind fun close =>
      (blamesToken_enumMembersFrom name (opening + 1) close _).bind fun _ => blamesToken_ok _
  · exact blamesToken_fail opening _

section Walks

variable {walk : Walk} (blames : walk.BlamesToken stream)

include blames

/-! ## Bindings and functions -/

theorem blamesToken_walkInside (index : Nat) :
    stream.BlamesToken (stream.walkInside walk index) :=
  (blamesToken_closeOf index).bind fun close =>
    (blames (index + 1) (.upTo close)).bind fun _ => blamesToken_ok _

theorem blamesToken_initializer (index : Nat) (ending : WalkEnd) :
    stream.BlamesToken (stream.initializer walk index ending) := by
  unfold initializer
  split
  · exact blames (index + 1) ending
  · exact blamesToken_ok _

theorem blamesToken_parameterTarget (index close : Nat) :
    stream.BlamesToken (stream.parameterTarget walk index close) := by
  unfold parameterTarget
  split
  · exact blamesToken_walkInside blames index
  split
  · exact blamesToken_ok _
  · exact blames index _

theorem blamesToken_parameter (index close : Nat) :
    stream.BlamesToken (stream.parameter walk index close) := by
  unfold parameter
  extract_lets modified modifiers name
  exact (blamesToken_parameterTarget blames name close).bind fun target =>
    (blamesToken_annotationErased _).bind fun annotation =>
      (blamesToken_initializer blames annotation.next _).bind fun _ => blamesToken_ok _

theorem blamesToken_parametersFrom (index close : Nat) :
    stream.BlamesToken (stream.parametersFrom walk index close) := by
  unfold parametersFrom
  split
  case isFalse => exact blamesToken_ok _
  case isTrue inside =>
    split
    · have receives : stream.BlamesToken (stream.receiverParameter index) :=
        (blamesToken_annotationEnd (index + 1)).bind fun _ => blamesToken_ok _
      refine receives.bind fun receiver => ?_
      split
      · exact (blamesToken_parametersFrom receiver.next close).bind fun _ => blamesToken_ok _
      · exact blamesToken_ok _
    · refine (blamesToken_parameter blames index close).bind fun one => ?_
      split
      · exact (blamesToken_parametersFrom (one.progress.next + 1) close).bind
          fun _ => blamesToken_ok _
      split
      · exact blamesToken_fail one.progress.next _
      · exact blamesToken_ok _
termination_by close - index

theorem blamesToken_variableTarget (index : Nat) :
    stream.BlamesToken (stream.variableTarget walk index) := by
  unfold variableTarget
  split
  · exact (blamesToken_walkInside blames index).bind fun _ => blamesToken_ok _
  split <;> exact blamesToken_ok _

theorem blamesToken_variableFrom (target : Progress) :
    stream.BlamesToken (stream.variableFrom walk target) :=
  (blamesToken_annotationErased _).bind fun annotation =>
    (blamesToken_initializer blames annotation.next _).bind fun _ => blamesToken_ok _

theorem blamesToken_variablesFrom (index : Nat) :
    stream.BlamesToken (stream.variablesFrom walk index) := by
  unfold variablesFrom
  refine (blamesToken_variableTarget blames index).bind fun target? => ?_
  split
  · exact blamesToken_ok _
  · refine (blamesToken_variableFrom blames _).bind fun one => ?_
    split
    case isTrue comma =>
      have inside := lt_size_of_is comma.2
      exact (blamesToken_variablesFrom (one.next + 1)).bind fun _ => blamesToken_ok _
    case isFalse => exact blamesToken_ok _
termination_by stream.size - index

theorem blamesToken_controlHead (keyword : Nat) :
    stream.BlamesToken (stream.controlHead walk keyword) := by
  unfold controlHead
  extract_lets opening
  split
  · exact blamesToken_walkInside blames opening
  · exact blamesToken_ok _

theorem blamesToken_functionDeclaration (keyword : Nat) :
    stream.BlamesToken (stream.functionDeclaration walk keyword) := by
  unfold functionDeclaration
  extract_lets name
  refine (blamesToken_optionalTypeParameters name).bind fun opening => ?_
  split
  · refine (blamesToken_closeOf opening).bind fun close =>
      (blamesToken_annotationEnd (close + 1)).bind fun body => ?_
    split
    · exact (blamesToken_parametersFrom blames (opening + 1) close).bind fun _ =>
        (blamesToken_walkInside blames body).bind fun _ => blamesToken_ok _
    · exact blamesToken_ok _
  · exact blamesToken_ok _

theorem blamesToken_parenthesis (opening : Nat) :
    stream.BlamesToken (stream.parenthesis walk opening) := by
  refine (blamesToken_closeOf opening).bind fun close => ?_
  split
  · exact blamesToken_walkInside blames opening
  · exact (blamesToken_parametersFrom blames (opening + 1) close).bind fun _ => blamesToken_ok _

/-! ## Classes -/

omit blames in
theorem blamesToken_memberNameEnd (name : Nat) :
    stream.BlamesToken (stream.memberNameEnd name) := by
  unfold memberNameEnd
  split
  · exact (blamesToken_closeOf name).bind fun _ => blamesToken_ok _
  split
  case h_4 => exact blamesToken_fail name _
  all_goals exact blamesToken_ok _

omit blames in
theorem blamesToken_assignmentAnchor (opening close : Nat) (derived : Bool) :
    stream.BlamesToken (stream.assignmentAnchor opening close derived) := by
  have called : stream.BlamesToken (stream.superCallEnd? (opening + 1) close) := by
    unfold superCallEnd?
    extract_lets call
    refine .ite ?_ ?_
    · exact (blamesToken_closeOf (call + 1)).bind fun _ => blamesToken_ok _
    · exact blamesToken_ok _
  unfold assignmentAnchor
  extract_lets anchor
  refine .ite ?_ ?_
  · exact called.bind fun _ => blamesToken_ok _
  · exact blamesToken_ok _

theorem blamesToken_memberHead (first modified name nameEnd markerEnd : Nat) :
    stream.BlamesToken (stream.memberHead walk first modified name nameEnd markerEnd) := by
  unfold memberHead
  extract_lets parts
  refine .ite ?_ ?_
  · exact (blamesToken_walkInside blames name).bind fun _ => blamesToken_ok _
  · exact blamesToken_ok _

theorem blamesToken_methodBody (opening name : Nat) (derived : Bool) (properties : List String) :
    stream.BlamesToken (stream.methodBody walk opening name derived properties) := by
  unfold methodBody constructorBody
  split
  · exact (blamesToken_closeOf opening).bind fun close =>
      (blamesToken_assignmentAnchor opening close derived).bind fun anchor =>
        (blames (opening + 1) _).bind fun _ => (blames (anchor + 1) _).bind fun _ =>
          blamesToken_ok _
  · exact blamesToken_walkInside blames opening

theorem blamesToken_methodMember (first modified name nameEnd markerEnd opening : Nat)
    (derived : Bool) : stream.BlamesToken
      (stream.methodMember walk first modified name nameEnd markerEnd opening derived) := by
  refine (blamesToken_closeOf opening).bind fun close =>
    (blamesToken_annotationEnd (close + 1)).bind fun body => ?_
  split
  · exact (blamesToken_memberHead blames first modified name nameEnd markerEnd).bind fun _ =>
      (blamesToken_parametersFrom blames (opening + 1) close).bind fun parameters =>
        (blamesToken_methodBody blames body name derived parameters.properties).bind fun _ =>
          blamesToken_ok _
  · exact blamesToken_ok _

theorem blamesToken_fieldMember (first modified name nameEnd headEnd close : Nat) :
    stream.BlamesToken (stream.fieldMember walk first modified name nameEnd headEnd close) :=
  (blamesToken_memberHead blames first modified name nameEnd headEnd).bind fun _ =>
    (blamesToken_annotationErased headEnd).bind fun annotation =>
      (blamesToken_initializer blames annotation.next _).bind fun _ => blamesToken_ok _

theorem blamesToken_namedMember (first modified close : Nat) (derived : Bool) :
    stream.BlamesToken (stream.namedMember walk first modified close derived) := by
  unfold namedMember
  extract_lets name
  refine (blamesToken_memberNameEnd name).bind fun nameEnd => ?_
  extract_lets marked markerEnd
  refine (blamesToken_optionalTypeParameters markerEnd).bind fun generics => ?_
  split
  · exact blamesToken_methodMember blames first modified name nameEnd markerEnd generics derived
  split
  · exact blamesToken_fail generics _
  · exact blamesToken_fieldMember blames first modified name nameEnd markerEnd close

theorem blamesToken_classMember (first close : Nat) (derived : Bool) :
    stream.BlamesToken (stream.classMember walk first close derived) := by
  unfold classMember
  split
  · exact blamesToken_ok _
  split
  · exact blamesToken_fail first _
  extract_lets modified
  split
  · exact blamesToken_walkInside blames modified
  split
  · exact blamesToken_ok _
  · exact blamesToken_namedMember blames first modified close derived

theorem blamesToken_classMembersFrom (index close : Nat) (derived : Bool) :
    stream.BlamesToken (stream.classMembersFrom walk index close derived) := by
  unfold classMembersFrom
  split
  · refine (blamesToken_classMember blames index close derived).bind fun member => ?_
    split
    · exact (blamesToken_classMembersFrom member.next close derived).bind fun _ =>
        blamesToken_ok _
    · exact blamesToken_ok _
  · exact blamesToken_ok _
termination_by close - index

theorem blamesToken_heritagePart (index : Nat) :
    stream.BlamesToken (stream.heritagePart walk index) := by
  unfold heritagePart
  split
  · exact blamesToken_ok _
  split
  · exact blamesToken_walkInside blames index
  · exact blamesToken_ok _

theorem blamesToken_heritageFrom (index : Nat) :
    stream.BlamesToken (stream.heritageFrom walk index) := by
  unfold heritageFrom
  split
  · split
    · exact blamesToken_ok _
    · refine (blamesToken_heritagePart blames index).bind fun part => ?_
      split
      · exact (blamesToken_heritageFrom part.next).bind fun _ => blamesToken_ok _
      · exact blamesToken_ok _
  · exact blamesToken_ok _
termination_by stream.size - index

omit blames in
theorem blamesToken_implementedTypes (index : Nat) :
    stream.BlamesToken (stream.implementedTypes index) := by
  unfold implementedTypes
  split
  · exact (blamesToken_typeListEnd (index + 1)).bind fun _ => blamesToken_ok _
  · exact blamesToken_ok _

theorem blamesToken_classDeclaration (keyword : Nat) :
    stream.BlamesToken (stream.classDeclaration walk keyword) := by
  have inherits : ∀ index, stream.BlamesToken (stream.heritage walk index) := by
    intro index
    unfold heritage
    split
    · exact blamesToken_heritageFrom blames (index + 1)
    · exact blamesToken_ok _
  unfold classDeclaration
  extract_lets name
  refine (blamesToken_optionalTypeParameters name).bind fun generics =>
    (inherits generics).bind fun base =>
      (blamesToken_implementedTypes base.next).bind fun implemented => ?_
  extract_lets head
  split
  · exact (blamesToken_closeOf implemented.next).bind fun close =>
      (blamesToken_classMembersFrom blames (implemented.next + 1) close _).bind fun _ =>
        blamesToken_ok _
  · exact blamesToken_ok _

/-! ## The walk -/

theorem blamesToken_wordStep (index : Nat) : stream.BlamesToken (stream.wordStep walk index) := by
  unfold wordStep
  extract_lets pass
  have passes : stream.BlamesToken pass := blamesToken_ok _
  refine .ite passes ?_
  split
  case h_1 => exact .ite (blamesToken_interfaceDeclaration index) passes
  case h_2 => exact .ite (blamesToken_aliasDeclaration index) passes
  case h_4 | h_5 => exact .ite (blamesToken_fail index _) passes
  case h_7 => exact .ite (blamesToken_enumDeclaration index index) passes
  case h_8 =>
    exact .ite (blamesToken_enumDeclaration index (index + 1))
      (.ite (blamesToken_variablesFrom blames (index + 1)) passes)
  case h_9 | h_10 => exact .ite (blamesToken_variablesFrom blames (index + 1)) passes
  case h_11 => exact blamesToken_functionDeclaration blames index
  case h_12 => exact blamesToken_classDeclaration blames index
  case h_15 => exact blamesToken_importDeclaration index
  case h_16 => exact blamesToken_exportDeclaration index
  case h_17 => exact .ite (blamesToken_catchHead index) passes
  case h_18 | h_19 | h_20 | h_21 | h_22 => exact blamesToken_controlHead blames index
  case h_23 => exact passes
  -- What is left is erased on the spot, or passed.
  all_goals exact .ite (blamesToken_ok _) passes

theorem blamesToken_step (index : Nat) : stream.BlamesToken (stream.step walk index) := by
  unfold step
  split
  · exact blamesToken_wordStep blames index
  · unfold punctuatorStep
    split
    case h_1 => exact blamesToken_parenthesis blames index
    case h_2 | h_3 => exact blamesToken_walkInside blames index
    all_goals exact blamesToken_ok _
  · exact (blames (index + 1) _).bind fun _ => blamesToken_ok _
  · exact blamesToken_ok _

end Walks

/-- A walk that gives up blames a token, or the end of the program. -/
theorem blamesToken_walkFrom (first index : Nat) (ending : WalkEnd) :
    stream.BlamesToken (stream.walkFrom first index ending) := by
  by_cases goesOn : stream.GoesOn first index ending
  case neg =>
    rw [walkFrom_of_not_goesOn goesOn]
    exact blamesToken_ok _
  case pos =>
    have inside := goesOn.inside
    have nestedWalks : (stream.walkBehind index).BlamesToken stream := by
      intro next nested
      unfold walkBehind
      split
      · exact blamesToken_walkFrom next next nested
      · exact blamesToken_ok _
    rw [goesOn.walkFrom_eq]
    refine (blamesToken_step nestedWalks index).bind fun one => ?_
    split
    · exact (blamesToken_walkFrom first one.next ending).bind fun _ => blamesToken_ok _
    · exact blamesToken_ok _
termination_by stream.size - index

theorem blamesToken_edits : stream.BlamesToken stream.edits :=
  (blamesToken_walkFrom 0 0 _).bind fun _ => blamesToken_ok _

end TokenStream

end Playground
