import Playground.Proofs.Erasure.Frame.Basic

/-!
# Bindings and functions are edited where they stand
-/

namespace Playground.TokenStream

variable {stream : TokenStream} {barrier index keyword : Nat} {progress : Progress}
  (nested : stream.Nested) (placed : stream.Placed) {walk : Walk}
  (spares : walk.Spares stream barrier) (advances : walk.Advances)

include nested placed spares advances

/-! ## Parameters and variables -/

omit nested placed advances in
theorem allBehind_of_parameterTarget {close : Nat}
    (found : stream.parameterTarget walk index close = .ok progress) :
    stream.AllBehind barrier progress.edits := by
  unfold parameterTarget at found
  split at found
  · exact allBehind_of_walkInside spares found
  split at found
  · cases found
    simp
  · exact spares found

omit nested in
theorem allBehind_of_parameter {close : Nat} {parameter : Parameter} (after : barrier < index)
    (found : stream.parameter walk index close = .ok parameter) :
    stream.AllBehind barrier parameter.progress.edits := by
  simp only [TokenStream.parameter, bind_eq_ok_iff] at found
  obtain ⟨target, foundTarget, noted, foundNoted, value, foundValue, result⟩ := found
  cases result
  have modified : index ≤ stream.parameterModifiersEnd index := le_runEnd ..
  have modifiers : stream.AllBehind barrier ((List.range' index
      (stream.parameterModifiersEnd index - index)).map stream.leading) := by
    intro edit member
    obtain ⟨between, range, rfl⟩ := List.mem_map.mp member
    have later := (List.mem_range'_1.mp range).1
    exact placed.stopOf_le_startOf (Nat.lt_of_lt_of_le after later)
  have named : barrier < target.next := by
    have reached := le_of_parameterTarget advances foundTarget
    split at reached <;> omega
  have marked := stream.le_erasedMarker "?" target.next
  simp only [allBehind_append]
  exact ⟨⟨⟨⟨modifiers, allBehind_of_parameterTarget spares foundTarget⟩,
    allBehind_erasedMarker placed named "?"⟩,
    allBehind_of_erasedAnnotation placed (Nat.lt_of_lt_of_le named marked) foundNoted⟩,
    allBehind_of_initializer spares foundValue⟩

theorem allBehind_of_parametersFrom {close : Nat} {list : ParameterList} (after : barrier < index)
    (found : stream.parametersFrom walk index close = .ok list) :
    stream.AllBehind barrier list.edits := by
  replace found := parameterCourse_of_parametersFrom nested placed found
  induction found with
  | ended => exact allBehind_nil
  | receiver _ _ found further _ inductionHypothesis =>
    obtain ⟨type, _, result⟩ := bind_eq_ok_iff.mp found
    cases result
    exact allBehind_append.mpr ⟨allBehind_single placed after rfl,
      inductionHypothesis (Nat.lt_trans after further)⟩
  | more _ _ found ordered _ _ inductionHypothesis =>
    exact allBehind_append.mpr ⟨allBehind_of_parameter placed spares advances after found,
      inductionHypothesis (Nat.lt_succ_of_lt (Nat.lt_of_lt_of_le after ordered))⟩
  | last _ _ found =>
    simpa [ParameterList.cons] using allBehind_of_parameter placed spares advances after found

omit nested placed advances in
theorem allBehind_of_variableTarget {target : Progress}
    (found : stream.variableTarget walk index = .ok (some target)) :
    stream.AllBehind barrier target.edits := by
  unfold variableTarget at found
  split at found
  · obtain ⟨pattern, foundPattern, result⟩ := bind_eq_ok_iff.mp found
    cases result
    exact allBehind_of_walkInside spares foundPattern
  split at found
  · cases found
    simp
  · cases found

omit nested advances in
theorem allBehind_of_variableFrom {target : Progress} (after : barrier < target.next)
    (behind : stream.AllBehind barrier target.edits)
    (found : stream.variableFrom walk target = .ok progress) :
    stream.AllBehind barrier progress.edits := by
  obtain ⟨noted, foundNoted, rest⟩ := bind_eq_ok_iff.mp found
  obtain ⟨value, foundValue, result⟩ := bind_eq_ok_iff.mp rest
  cases result
  have marked := stream.le_definiteMark target.next
  simp only [edits_preceded, allBehind_append]
  exact ⟨⟨⟨behind, allBehind_definiteMark placed after⟩,
    allBehind_of_erasedAnnotation placed (Nat.lt_of_lt_of_le after marked) foundNoted⟩,
    allBehind_of_initializer spares foundValue⟩

omit nested advances in
theorem allBehind_of_variablesFrom (after : barrier < index)
    (found : stream.variablesFrom walk index = .ok progress) :
    stream.AllBehind barrier progress.edits := by
  have variableBehind : ∀ {index target one}, barrier < index →
      stream.variableTarget walk index = .ok (some target) →
        stream.variableFrom walk target = .ok one → stream.AllBehind barrier one.edits :=
    fun after named found => allBehind_of_variableFrom placed spares
      (Nat.lt_trans after (lt_of_variableTarget named)) (allBehind_of_variableTarget spares named)
      found
  replace found := variableCourse_of_variablesFrom found
  induction found with
  | ended => exact allBehind_nil
  | more named found ordered _ _ inductionHypothesis =>
    exact allBehind_append.mpr ⟨variableBehind after named found,
      inductionHypothesis (Nat.lt_succ_of_lt (Nat.lt_of_lt_of_le after ordered))⟩
  | last named found => exact variableBehind after named found

/-! ## Functions -/

theorem allBehind_of_functionDeclaration (solid : stream.IsBarrier barrier)
    (after : barrier < keyword) (found : stream.functionDeclaration walk keyword = .ok progress) :
    stream.AllBehind barrier progress.edits := by
  have named := ((stream.passes_functionNameEnd keyword).balanced nested).ordered
  obtain ⟨opening, generics, rest⟩ := bind_eq_ok_iff.mp found
  have ordered := le_of_optionalTypeParameters nested placed generics
  split at rest
  case isFalse =>
    cases rest
    simp
  case isTrue opens =>
    obtain ⟨close, closes, rest⟩ := bind_eq_ok_iff.mp rest
    have listed := lt_of_closeOf closes
    obtain ⟨body, annotated, rest⟩ := bind_eq_ok_iff.mp rest
    split at rest
    case isTrue =>
      obtain ⟨parameters, foundParameters, rest⟩ := bind_eq_ok_iff.mp rest
      obtain ⟨inside, foundInside, result⟩ := bind_eq_ok_iff.mp rest
      cases result
      simp only [edits_preceded, allBehind_append]
      exact ⟨⟨⟨allBehind_attachedIf placed (by omega) opening,
        allBehind_of_parametersFrom nested placed spares advances (by omega) foundParameters⟩,
        allBehind_attachedIf placed (by omega) body⟩, allBehind_of_walkInside spares foundInside⟩
    case isFalse =>
      cases rest
      exact allBehind_declarationErased placed solid after _

theorem allBehind_of_parenthesis {opening : Nat} (after : barrier < opening)
    (found : stream.parenthesis walk opening = .ok progress) :
    stream.AllBehind barrier progress.edits := by
  obtain ⟨close, closes, rest⟩ := bind_eq_ok_iff.mp found
  have later := lt_of_closeOf closes
  split at rest
  · exact allBehind_of_walkInside spares rest
  · obtain ⟨parameters, foundParameters, result⟩ := bind_eq_ok_iff.mp rest
    cases result
    exact allBehind_append.mpr
      ⟨allBehind_of_parametersFrom nested placed spares advances (by omega) foundParameters,
        allBehind_attachedIf placed (by omega) _⟩

end Playground.TokenStream
