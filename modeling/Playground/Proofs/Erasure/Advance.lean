import Playground.Proofs.Erasure.Pairing.Parts
import Playground.Proofs.Erasure.Steps

/-!
# Every step moves forward

A step ends behind the token it starts at, so a walk never ends because a step has stood still:
it ends where its end says, or with an error.
-/

namespace Playground

/-- A walk ends where it starts or later. -/
def Walk.Advances (walk : Walk) : Prop :=
  ∀ {index : Nat} {ending : WalkEnd} {progress : Progress},
    walk index ending = .ok progress → index ≤ progress.next

namespace TokenStream

variable {stream : TokenStream} {walk : Walk} {index keyword : Nat} {progress : Progress}

theorem lt_of_closeOf {opening close : Nat} (found : stream.closeOf opening = .ok close) :
    opening < close :=
  lt_of_closer?_eq_some (closeOf_eq_ok_iff.mp found)

theorem lt_of_walkInside (found : stream.walkInside walk index = .ok progress) :
    index < progress.next := by
  obtain ⟨close, closes, rest⟩ := bind_eq_ok_iff.mp found
  obtain ⟨inside, -, result⟩ := bind_eq_ok_iff.mp rest
  cases result
  exact Nat.lt_succ_of_lt (lt_of_closeOf closes)

theorem le_erasedMarker (mark : String) (index : Nat) :
    index ≤ (stream.erasedMarker mark index).next := by
  unfold erasedMarker
  split
  · exact Nat.le_succ index
  · exact Nat.le_refl index

theorem le_definiteMark (index : Nat) : index ≤ (stream.definiteMark index).next := by
  unfold definiteMark
  split
  · exact le_erasedMarker "!" index
  · exact Nat.le_refl index

theorem lt_of_enumDeclaration {first : Nat}
    (found : stream.enumDeclaration first keyword = .ok progress) :
    keyword < progress.next := by
  unfold enumDeclaration at found
  dsimp only at found
  split at found
  · obtain ⟨close, closes, rest⟩ := bind_eq_ok_iff.mp found
    obtain ⟨body, -, result⟩ := bind_eq_ok_iff.mp rest
    cases result
    have := lt_of_closeOf closes
    dsimp only
    omega
  · contradiction

theorem lt_of_importDeclaration (found : stream.importDeclaration keyword = .ok progress) :
    keyword < progress.next := by
  unfold importDeclaration at found
  dsimp only at found
  split at found
  · split at found
    · cases found
      exact stream.le_moduleClauseEnd (keyword + 1)
    · obtain ⟨edits, -, result⟩ := bind_eq_ok_iff.mp found
      cases result
      exact stream.le_moduleClauseEnd (keyword + 1)
  · cases found
    exact Nat.lt_succ_self keyword

theorem lt_of_exportDeclaration (inRange : keyword < stream.size)
    (found : stream.exportDeclaration keyword = .ok progress) : keyword < progress.next := by
  unfold exportDeclaration at found
  dsimp only at found
  split at found
  · obtain ⟨stop, foundStop, result⟩ := bind_eq_ok_iff.mp found
    cases result
    have := lt_of_exportClauseEnd foundStop
    dsimp only
    omega
  split at found
  · cases found
    exact le_statementEnd inRange
  split at found
  · obtain ⟨close, closes, rest⟩ := bind_eq_ok_iff.mp found
    obtain ⟨edits, -, result⟩ := bind_eq_ok_iff.mp rest
    cases result
    exact Nat.lt_succ_of_lt (Nat.lt_of_succ_lt (lt_of_closeOf closes))
  · cases found
    exact Nat.lt_succ_self keyword

theorem lt_of_catchHead (found : stream.catchHead keyword = .ok progress) :
    keyword < progress.next := by
  obtain ⟨close, closes, rest⟩ := bind_eq_ok_iff.mp found
  obtain ⟨target, -, rest⟩ := bind_eq_ok_iff.mp rest
  obtain ⟨noted, -, result⟩ := bind_eq_ok_iff.mp rest
  cases result
  exact Nat.lt_succ_of_lt (Nat.lt_of_succ_lt (lt_of_closeOf closes))

theorem lt_of_controlHead (found : stream.controlHead walk keyword = .ok progress) :
    keyword < progress.next := by
  unfold controlHead at found
  extract_lets opening at found
  have later : keyword < opening := by
    unfold opening
    split <;> omega
  split at found
  · exact Nat.lt_trans later (lt_of_walkInside found)
  · cases found
    exact Nat.lt_succ_self keyword

theorem lt_classNameEnd (keyword : Nat) : keyword < stream.classNameEnd keyword := by
  unfold classNameEnd
  split <;> omega

theorem lt_of_variableTarget {target : Progress}
    (found : stream.variableTarget walk index = .ok (some target)) : index < target.next := by
  unfold variableTarget at found
  split at found
  · obtain ⟨pattern, foundPattern, result⟩ := bind_eq_ok_iff.mp found
    cases result
    exact lt_of_walkInside foundPattern
  split at found
  · cases found
    exact Nat.lt_succ_self index
  · cases found

theorem le_of_parameterTarget (advances : walk.Advances) {close : Nat}
    (found : stream.parameterTarget walk index close = .ok progress) : index ≤ progress.next := by
  unfold parameterTarget at found
  split at found
  · exact Nat.le_of_lt (lt_of_walkInside found)
  split at found
  · cases found
    exact Nat.le_succ index
  · exact advances found

theorem le_of_initializer (advances : walk.Advances) {ending : WalkEnd}
    (found : stream.initializer walk index ending = .ok progress) : index ≤ progress.next := by
  unfold initializer at found
  split at found
  · exact Nat.le_of_succ_le (advances found)
  · cases found
    exact Nat.le_refl index

theorem next_nonNullMark (index : Nat) : (stream.nonNullMark index).next = index + 1 := by
  unfold nonNullMark
  split <;> rfl

/-- The walks of nested constructs end where they start or later, if longer walks do. -/
theorem advances_nested (index : Nat)
    (advances : ∀ {next ending progress}, index < next →
      stream.walkFrom next next ending = .ok progress → next ≤ progress.next) :
    (stream.walkBehind index).Advances := by
  intro next ending progress found
  rcases walkFrom_or_still_of_walkBehind found with ⟨later, walked⟩ | rfl
  · exact advances later walked
  · exact Nat.le_refl next

section

variable (nested : stream.Nested) (placed : stream.Placed)

include nested placed

/-! ## Clauses -/

theorem le_of_optionalAnnotation {stop : Nat}
    (found : stream.optionalAnnotation index = .ok stop) : index ≤ stop :=
  ((passes_of_annotated placed found).balanced nested).ordered

theorem le_of_optionalTypeParameters {stop : Nat}
    (found : stream.optionalTypeParameters index = .ok stop) : index ≤ stop :=
  ((passes_of_optionalTypeParameters placed found).balanced nested).ordered

theorem le_of_erasedAnnotation (found : stream.erasedAnnotation index = .ok progress) :
    index ≤ progress.next := by
  obtain ⟨stop, foundStop, result⟩ := bind_eq_ok_iff.mp found
  cases result
  exact le_of_optionalAnnotation nested placed foundStop

theorem lt_angle (index : Nat) : index < (stream.angle index).next := by
  unfold angle
  extract_lets erased?
  cases shape : erased? with
  | none => exact Nat.lt_succ_self index
  | some erased =>
    unfold erased? at shape
    split at shape
    · unfold callArguments? at shape
      split at shape
      · obtain ⟨stop, found, rfl⟩ := Option.map_eq_some_iff.mp shape
        exact lt_of_typeArgumentsEnd? nested placed (Option.filter_eq_some_iff.mp found).1
      · contradiction
    · obtain ⟨stop, found, rfl⟩ := Option.map_eq_some_iff.mp shape
      exact lt_of_typeParametersEnd? nested placed (Option.filter_eq_some_iff.mp found).1

theorem lt_typeAssertion (keyword : Nat) : keyword < (stream.typeAssertion keyword).next := by
  unfold typeAssertion
  split
  · exact Nat.lt_add_of_pos_right (by decide)
  · split
    · rename_i stop found
      exact ((passes_of_typeEnd? placed found).balanced nested).ordered
    · exact Nat.lt_succ_self keyword

theorem lt_of_aliasDeclaration (found : stream.aliasDeclaration keyword = .ok progress) :
    keyword < progress.next := by
  obtain ⟨generics, foundGenerics, rest⟩ := bind_eq_ok_iff.mp found
  have := le_of_optionalTypeParameters nested placed foundGenerics
  split at rest
  · obtain ⟨type, foundType, result⟩ := bind_eq_ok_iff.mp rest
    cases result
    have := ((passes_of_expectType placed foundType).balanced nested).ordered
    have := stream.le_afterSemicolon type
    dsimp only
    omega
  · cases rest
    exact Nat.lt_succ_self keyword

theorem lt_of_interfaceDeclaration (found : stream.interfaceDeclaration keyword = .ok progress) :
    keyword < progress.next := by
  obtain ⟨generics, foundGenerics, rest⟩ := bind_eq_ok_iff.mp found
  obtain ⟨opening, foundOpening, rest⟩ := bind_eq_ok_iff.mp rest
  have := le_of_optionalTypeParameters nested placed foundGenerics
  have : generics ≤ opening := by
    unfold extendedTypesEnd at foundOpening
    split at foundOpening
    · exact Nat.le_of_succ_le ((passes_of_typeListEnd placed foundOpening).balanced nested).ordered
    · cases foundOpening
      exact Nat.le_refl generics
  split at rest
  · obtain ⟨close, closes, result⟩ := bind_eq_ok_iff.mp rest
    cases result
    have := lt_of_closeOf closes
    dsimp only
    omega
  · contradiction

theorem le_of_implementedTypes (found : stream.implementedTypes index = .ok progress) :
    index ≤ progress.next := by
  unfold implementedTypes at found
  split at found
  · obtain ⟨stop, foundStop, result⟩ := bind_eq_ok_iff.mp found
    cases result
    exact Nat.le_of_succ_le ((passes_of_typeListEnd placed foundStop).balanced nested).ordered
  · cases found
    exact Nat.le_refl index

theorem lt_of_receiverParameter (found : stream.receiverParameter index = .ok progress) :
    index < progress.next := by
  obtain ⟨type, foundType, result⟩ := bind_eq_ok_iff.mp found
  cases result
  have typed := le_of_optionalAnnotation nested placed foundType
  dsimp only
  split <;> omega

/-! ## Bindings and functions -/

section Walks

variable (advances : walk.Advances)

include advances

/-- A parameter ends behind its name or pattern. -/
theorem exists_target_of_parameter {close : Nat} {parameter : Parameter}
    (found : stream.parameter walk index close = .ok parameter) : ∃ target,
      stream.parameterTarget walk
        (if stream.is (stream.parameterModifiersEnd index) "..." = true then
          stream.parameterModifiersEnd index + 1 else stream.parameterModifiersEnd index) close =
          .ok target ∧ target.next ≤ parameter.progress.next := by
  simp only [TokenStream.parameter, bind_eq_ok_iff] at found
  obtain ⟨target, foundTarget, noted, foundNoted, value, foundValue, result⟩ := found
  cases result
  have marked := stream.le_erasedMarker "?" target.next
  have annotated := le_of_erasedAnnotation nested placed foundNoted
  have valued := le_of_initializer advances foundValue
  exact ⟨target, foundTarget, by dsimp only; omega⟩

theorem le_of_parameter {close : Nat} {parameter : Parameter}
    (found : stream.parameter walk index close = .ok parameter) :
    index ≤ parameter.progress.next := by
  obtain ⟨target, foundTarget, ends⟩ := exists_target_of_parameter nested placed advances found
  have modified : index ≤ stream.parameterModifiersEnd index := le_runEnd ..
  have reached := le_of_parameterTarget advances foundTarget
  split at reached <;> omega

theorem le_of_variableFrom {name : Progress}
    (found : stream.variableFrom walk name = .ok progress) : name.next ≤ progress.next := by
  obtain ⟨noted, foundNoted, rest⟩ := bind_eq_ok_iff.mp found
  obtain ⟨value, foundValue, result⟩ := bind_eq_ok_iff.mp rest
  cases result
  have := stream.le_definiteMark name.next
  have := le_of_erasedAnnotation nested placed foundNoted
  have := le_of_initializer advances foundValue
  change name.next ≤ value.next
  omega

theorem le_of_variablesFrom {index : Nat} {progress : Progress}
    (found : stream.variablesFrom walk index = .ok progress) : index ≤ progress.next := by
  unfold variablesFrom at found
  obtain ⟨name?, foundName, rest⟩ := bind_eq_ok_iff.mp found
  cases name? with
  | none =>
    cases rest
    exact Nat.le_refl index
  | some name =>
    obtain ⟨one, foundOne, rest⟩ := bind_eq_ok_iff.mp rest
    have := le_of_variableFrom nested placed advances foundOne
    have := lt_of_variableTarget foundName
    split at rest
    case isTrue comma =>
      have inside := lt_size_of_is comma.2
      have decreases : stream.size - (one.next + 1) < stream.size - index := by omega
      obtain ⟨others, foundOthers, result⟩ := bind_eq_ok_iff.mp rest
      cases result
      have := le_of_variablesFrom foundOthers
      change index ≤ others.next
      omega
    case isFalse =>
      cases rest
      omega
termination_by stream.size - index

omit advances in
theorem lt_of_functionDeclaration (found : stream.functionDeclaration walk keyword = .ok progress) :
    keyword < progress.next := by
  obtain ⟨opening, foundOpening, rest⟩ := bind_eq_ok_iff.mp found
  have named := ((stream.passes_functionNameEnd keyword).balanced nested).ordered
  have generics := le_of_optionalTypeParameters nested placed foundOpening
  have later : keyword < opening := Nat.lt_of_lt_of_le named generics
  split at rest
  · obtain ⟨close, closes, rest⟩ := bind_eq_ok_iff.mp rest
    obtain ⟨body, foundBody, rest⟩ := bind_eq_ok_iff.mp rest
    have := lt_of_closeOf closes
    have := le_of_optionalAnnotation nested placed foundBody
    split at rest
    · obtain ⟨parameters, -, rest⟩ := bind_eq_ok_iff.mp rest
      obtain ⟨inside, foundInside, result⟩ := bind_eq_ok_iff.mp rest
      cases result
      have := lt_of_walkInside foundInside
      change keyword < inside.next
      omega
    · cases rest
      have := stream.le_afterSemicolon body
      dsimp only
      omega
  · cases rest
    exact later

omit advances in
theorem lt_of_parenthesis (found : stream.parenthesis walk index = .ok progress) :
    index < progress.next := by
  obtain ⟨close, closes, rest⟩ := bind_eq_ok_iff.mp found
  have later := lt_of_closeOf closes
  split at rest
  · exact lt_of_walkInside rest
  · rename_i head foundHead
    obtain ⟨parameters, -, result⟩ := bind_eq_ok_iff.mp rest
    cases result
    unfold parameterHeadEnd? at foundHead
    dsimp only at foundHead
    split at foundHead
    · cases foundHead
      exact Nat.lt_succ_of_lt later
    split at foundHead
    · have typed := (Option.filter_eq_some_iff.mp foundHead).1
      have := ((passes_of_typeEnd? placed typed).balanced nested).ordered
      dsimp only
      omega
    split at foundHead
    · cases foundHead
      exact Nat.lt_succ_of_lt later
    · contradiction

/-! ## Classes -/

omit advances in
theorem lt_of_heritagePart (found : stream.heritagePart walk index = .ok progress) :
    index < progress.next := by
  unfold heritagePart at found
  split at found
  · rename_i stop base
    cases found
    exact lt_of_typeArgumentsEnd? nested placed (Option.filter_eq_some_iff.mp base).1
  · split at found
    · exact lt_of_walkInside found
    · cases found
      exact Nat.lt_succ_self index

omit advances in
theorem le_of_heritageFrom {index : Nat} {progress : Progress}
    (found : stream.heritageFrom walk index = .ok progress) : index ≤ progress.next := by
  unfold heritageFrom at found
  split at found
  case isFalse =>
    cases found
    exact Nat.le_refl index
  case isTrue inside =>
    split at found
    · cases found
      exact Nat.le_refl index
    · obtain ⟨part, foundPart, rest⟩ := bind_eq_ok_iff.mp found
      have later := lt_of_heritagePart nested placed foundPart
      rw [dif_pos later] at rest
      obtain ⟨others, foundOthers, result⟩ := bind_eq_ok_iff.mp rest
      cases result
      have further := le_of_heritageFrom foundOthers
      exact Nat.le_trans (Nat.le_of_lt later) further
termination_by stream.size - index

omit advances in
theorem le_of_heritage (found : stream.heritage walk index = .ok progress) :
    index ≤ progress.next := by
  unfold heritage at found
  split at found
  · exact Nat.le_of_succ_le (le_of_heritageFrom nested placed found)
  · cases found
    exact Nat.le_refl index

omit advances in
theorem lt_of_classDeclaration (found : stream.classDeclaration walk keyword = .ok progress) :
    keyword < progress.next := by
  obtain ⟨generics, foundGenerics, rest⟩ := bind_eq_ok_iff.mp found
  obtain ⟨base, foundBase, rest⟩ := bind_eq_ok_iff.mp rest
  obtain ⟨implemented, foundImplemented, rest⟩ := bind_eq_ok_iff.mp rest
  have := stream.lt_classNameEnd keyword
  have := le_of_optionalTypeParameters nested placed foundGenerics
  have := le_of_heritage nested placed foundBase
  have := le_of_implementedTypes nested placed foundImplemented
  split at rest
  · obtain ⟨close, closes, rest⟩ := bind_eq_ok_iff.mp rest
    obtain ⟨members, -, result⟩ := bind_eq_ok_iff.mp rest
    cases result
    have := lt_of_closeOf closes
    dsimp only
    omega
  · cases rest
    exact Nat.lt_succ_self keyword

/-! ## Members -/

omit advances in
/-- A method ends behind its parameters. -/
theorem lt_of_methodMember {first modified name nameEnd markerEnd opening : Nat} {derived : Bool}
    (found : stream.methodMember walk first modified name nameEnd markerEnd opening derived =
      .ok progress) : opening < progress.next := by
  obtain ⟨close, closes, rest⟩ := bind_eq_ok_iff.mp found
  have listed := lt_of_closeOf closes
  obtain ⟨body, annotated, rest⟩ := bind_eq_ok_iff.mp rest
  have typed := le_of_optionalAnnotation nested placed annotated
  split at rest
  case isFalse =>
    cases rest
    have ended := stream.le_afterSemicolon body
    dsimp only
    omega
  case isTrue =>
    simp only [bind_eq_ok_iff] at rest
    obtain ⟨head, _, parameters, _, inside, foundInside, result⟩ := rest
    cases result
    have bodyEnds : body < inside.next := by
      unfold methodBody at foundInside
      split at foundInside
      · simp only [constructorBody, bind_eq_ok_iff] at foundInside
        obtain ⟨finish, closes, anchor, _, before, _, rest, _, result⟩ := foundInside
        cases result
        exact Nat.lt_succ_of_lt (lt_of_closeOf closes)
      · exact lt_of_walkInside foundInside
    change opening < inside.next
    omega

theorem le_of_fieldMember {first modified name nameEnd headEnd close : Nat}
    (found : stream.fieldMember walk first modified name nameEnd headEnd close = .ok progress) :
    headEnd ≤ progress.next := by
  simp only [fieldMember, bind_eq_ok_iff] at found
  obtain ⟨head, _, noted, foundNoted, value, foundValue, result⟩ := found
  cases result
  have annotated := le_of_erasedAnnotation nested placed foundNoted
  have valued := le_of_initializer advances foundValue
  have ended := stream.le_afterSemicolon value.next
  dsimp only
  omega

/-- A member is at least one token long. -/
theorem lt_of_classMember {first close : Nat} {derived : Bool} (inside : first < close)
    (found : stream.classMember walk first close derived = .ok progress) :
    first < progress.next := by
  have modified : first ≤ stream.modifiersEnd first close := le_runEnd ..
  cases memberShape_of_classMember found with
  | semicolon => exact Nat.lt_succ_self first
  | staticBlock _ found => exact Nat.lt_of_le_of_lt modified (lt_of_walkInside found)
  | vanishing =>
    rcases stream.statementEnd_advances (stream.modifiersEnd first close) close with later | limit
    · exact Nat.lt_of_le_of_lt modified later
    · exact Nat.lt_of_lt_of_eq inside limit.symm
  | method head generics _ found =>
    have named := head.ordered
    have passed := le_of_optionalTypeParameters nested placed generics
    have ended := lt_of_methodMember nested placed found
    omega
  | field head found =>
    have named := head.ordered
    have ended := le_of_fieldMember nested placed advances found
    omega

/-! ## Steps -/

theorem lt_of_step (inRange : index < stream.size)
    (found : stream.step walk index = .ok progress) : index < progress.next := by
  cases starts_of_step found with
  | word | mark | token | abstractClass => exact Nat.lt_succ_self index
  | interface _ _ _ found => exact lt_of_interfaceDeclaration nested placed found
  | typeAlias _ _ _ found => exact lt_of_aliasDeclaration nested placed found
  | ambient => exact le_statementEnd inRange
  | enumeration _ later _ found => exact Nat.lt_of_le_of_lt later (lt_of_enumDeclaration found)
  | bindings _ found => exact le_of_variablesFrom nested placed advances found
  | function _ found => exact lt_of_functionDeclaration nested placed found
  | classBody _ found => exact lt_of_classDeclaration nested placed found
  | assertion => exact lt_typeAssertion nested placed index
  | importClause _ found => exact lt_of_importDeclaration found
  | exportClause _ found => exact lt_of_exportDeclaration inRange found
  | catchClause _ found => exact lt_of_catchHead found
  | control _ found => exact lt_of_controlHead found
  | parenthesis _ found => exact lt_of_parenthesis nested placed found
  | bracket _ found => exact lt_of_walkInside found
  | angle => exact lt_angle nested placed index
  | nonNullMark =>
    rw [next_nonNullMark]
    exact Nat.lt_succ_self index
  | template => exact Nat.lt_succ_of_lt (le_templateTailFrom 0 inRange)

end Walks

/-- A walk ends where it starts or later. -/
theorem le_of_walkFrom {first index : Nat} {ending : WalkEnd} {progress : Progress}
    (found : stream.walkFrom first index ending = .ok progress) : index ≤ progress.next := by
  by_cases goesOn : stream.GoesOn first index ending
  · have inside := goesOn.inside
    rw [goesOn.walkFrom_eq] at found
    obtain ⟨one, stepped, rest⟩ := bind_eq_ok_iff.mp found
    have later := lt_of_step nested placed (advances_nested index fun _ foundNext =>
      le_of_walkFrom foundNext) inside stepped
    rw [if_pos later] at rest
    obtain ⟨others, foundOthers, result⟩ := bind_eq_ok_iff.mp rest
    cases result
    have further := le_of_walkFrom foundOthers
    exact Nat.le_trans (Nat.le_of_lt later) further
  · cases (walkFrom_of_not_goesOn goesOn).symm.trans found
    exact Nat.le_refl index
termination_by stream.size - index

end

end TokenStream

end Playground
