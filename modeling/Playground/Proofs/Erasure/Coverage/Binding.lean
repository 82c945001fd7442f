import Playground.Proofs.Erasure.Coverage.Clauses
import Playground.Proofs.Erasure.Frame.Binding

/-!
# Marks in bindings and functions

Patterns and values are walked; a definite assignment mark is erased with the annotation behind it
or left to the walk.
-/

namespace Playground.TokenStream

variable {stream : TokenStream} {mark index keyword floor : Nat} {progress : Progress}
  (nested : stream.Nested) (placed : stream.Placed) (sought : stream.Sought mark) {walk : Walk}
  (handed : walk.Settles stream mark floor)

include nested placed sought handed

/-! ## Brackets and values -/

omit placed in
/-- What stands in a bracket pair is walked up to the closing bracket. -/
theorem settles_of_walkInside (later : floor ≤ index)
    (found : stream.walkInside walk index = .ok progress) :
    stream.Settles mark index progress.edits progress.next := by
  obtain ⟨close, closes, rest⟩ := bind_eq_ok_iff.mp found
  obtain ⟨inside, foundInside, result⟩ := bind_eq_ok_iff.mp rest
  cases result
  rw [closeOf_eq_ok_iff] at closes
  have within := Nat.le_of_lt (lt_size_of_kind? (nested.text_bracket closes).2.1)
  have reached := handed.reaches (Nat.lt_succ_of_le later) within foundInside
  have walked := handed.settles (Nat.lt_succ_of_le later) foundInside
  exact sought.settles_pair nested closes (walked.to_upper reached)

omit nested placed in
theorem settles_of_initializer {ending : WalkEnd} (later : floor ≤ index)
    (found : stream.initializer walk index ending = .ok progress) :
    stream.Settles mark index progress.edits progress.next := by
  unfold initializer at found
  split at found
  · exact (sought.settles_token ‹_› (by decide)).after
      (handed.settles (Nat.lt_succ_of_le later) found)
  · cases found
    exact .still index

/-! ## Parameters -/

theorem settles_of_parameterTarget {close : Nat} (later : floor < index)
    (found : stream.parameterTarget walk index close = .ok progress) :
    stream.Settles mark index progress.edits progress.next := by
  unfold parameterTarget at found
  split at found
  · exact settles_of_walkInside nested sought handed (Nat.le_of_lt later) found
  split at found
  · cases found
    exact sought.settles_word placed ‹_›
  · exact handed.settles later found

omit nested handed in
theorem settles_parameterModifiers (index : Nat) :
    stream.Settles mark index ((List.range' index
      (stream.parameterModifiersEnd index - index)).map stream.leading)
      (stream.parameterModifiersEnd index) := by
  have passed : index ≤ stream.parameterModifiersEnd index := le_runEnd ..
  refine settles_modifiers placed (fun after before => ?_) fun edit member => ?_
  · have modifier := (parameterModifier_of_lt after before).1
    exact (sought.settles_textIn modifier (by decide)).mark_ne rfl
  · obtain ⟨between, range, rfl⟩ := List.mem_map.mp member
    have bounds := List.mem_range'_1.mp range
    exact ⟨between, by omega, rfl⟩

theorem settles_of_parameter {close : Nat} {parameter : Parameter} (later : floor < index)
    (found : stream.parameter walk index close = .ok parameter) :
    stream.Settles mark index parameter.progress.edits parameter.progress.next := by
  simp only [TokenStream.parameter, bind_eq_ok_iff] at found
  obtain ⟨target, foundTarget, noted, foundNoted, value, foundValue, result⟩ := found
  cases result
  have passed : index ≤ stream.parameterModifiersEnd index := le_runEnd ..
  have reached := le_of_parameterTarget handed.advances foundTarget
  have marked := stream.le_erasedMarker "?" target.next
  have annotated := le_of_erasedAnnotation nested placed foundNoted
  have targetSettles : stream.Settles mark (stream.parameterModifiersEnd index) target.edits
      target.next := by
    split at foundTarget
    · exact (sought.settles_token ‹_› (by decide)).after
        (settles_of_parameterTarget nested placed sought handed (by omega) foundTarget)
    · exact settles_of_parameterTarget nested placed sought handed (by omega) foundTarget
  have named : floor ≤ target.next := by
    split at reached <;> omega
  exact ((((settles_parameterModifiers placed sought index).append targetSettles).append
    (settles_erasedMarker placed "?" target.next)).append
      ( settles_of_erasedAnnotation placed foundNoted)).append
        (settles_of_initializer sought handed (by omega) foundValue)

theorem settles_of_parametersFrom {close : Nat} {list : ParameterList} (later : floor < index)
    (found : stream.parametersFrom walk index close = .ok list) :
    stream.Settles mark index list.edits close := by
  replace found := parameterCourse_of_parametersFrom nested placed found
  induction found with
  | ended past => exact .nothing fun after before => by omega
  | @receiver index _ _ _ _ found further _ inductionHypothesis =>
    obtain ⟨type, _, result⟩ := bind_eq_ok_iff.mp found
    cases result
    exact (settles_upTo placed index _).append (inductionHypothesis (Nat.lt_trans later further))
  | more _ _ found ordered comma _ inductionHypothesis =>
    exact (settles_of_parameter nested placed sought handed later found).append
      ((sought.settles_token comma (by decide)).after
        (inductionHypothesis (Nat.lt_succ_of_lt (Nat.lt_of_lt_of_le later ordered))))
  | last _ _ found _ reached =>
    have settled := settles_of_parameter nested placed sought handed later found
    simpa [ParameterList.cons] using settled.to_upper reached

/-! ## Variables -/

theorem settles_of_variableTarget {target : Progress} (later : floor ≤ index)
    (found : stream.variableTarget walk index = .ok (some target)) :
    stream.Settles mark index target.edits target.next := by
  unfold variableTarget at found
  split at found
  · obtain ⟨pattern, foundPattern, result⟩ := bind_eq_ok_iff.mp found
    cases result
    exact settles_of_walkInside nested sought handed later foundPattern
  split at found
  · cases found
    exact sought.settles_word placed ‹_›
  · cases found

theorem settles_of_variableFrom {target : Progress} (later : floor ≤ target.next)
    (settled : stream.Settles mark index target.edits target.next)
    (found : stream.variableFrom walk target = .ok progress) :
    stream.Settles mark index progress.edits progress.next := by
  obtain ⟨noted, foundNoted, rest⟩ := bind_eq_ok_iff.mp found
  obtain ⟨value, foundValue, result⟩ := bind_eq_ok_iff.mp rest
  cases result
  have marked := stream.le_definiteMark target.next
  have annotated := le_of_erasedAnnotation nested placed foundNoted
  exact ((settled.append (settles_definiteMark placed target.next)).append
    ( settles_of_erasedAnnotation placed foundNoted)).append
      (settles_of_initializer sought handed (by omega) foundValue)

theorem settles_of_variablesFrom (later : floor ≤ index)
    (found : stream.variablesFrom walk index = .ok progress) :
    stream.Settles mark index progress.edits progress.next := by
  have variableSettles : ∀ {index target one}, floor ≤ index →
      stream.variableTarget walk index = .ok (some target) →
        stream.variableFrom walk target = .ok one →
          stream.Settles mark index one.edits one.next := by
    intro index target one later named found
    have further := lt_of_variableTarget named
    exact settles_of_variableFrom nested placed sought handed (by omega)
      (settles_of_variableTarget nested placed sought handed later named) found
  replace found := variableCourse_of_variablesFrom found
  induction found with
  | @ended index _ => exact .still index
  | more named found ordered comma _ inductionHypothesis =>
    exact (variableSettles later named found).append ((sought.settles_token comma (by decide)).after
      (inductionHypothesis (Nat.le_succ_of_le (Nat.le_trans later ordered))))
  | last named found => exact variableSettles later named found

/-! ## Functions -/

omit nested handed in
/-- The keyword, the star and the name of a function are other tokens. -/
theorem settles_functionNameEnd (word : stream.is keyword "function" = true) :
    stream.Settles mark keyword [] (stream.functionNameEnd keyword) := by
  have passed := sought.settles_token word (by decide)
  unfold functionNameEnd
  dsimp only
  have starred : stream.Settles mark keyword []
      (if stream.is (keyword + 1) "*" = true then keyword + 2 else keyword + 1) := by
    split
    · exact passed.after (sought.settles_token ‹_› (by decide))
    · exact passed
  generalize (if stream.is (keyword + 1) "*" = true then keyword + 2 else keyword + 1) = name
    at starred ⊢
  split
  · exact starred.after (sought.settles_word placed ‹_›)
  · exact starred

theorem settles_of_functionDeclaration (word : stream.IsKeyword keyword "function")
    (later : floor ≤ keyword) (found : stream.functionDeclaration walk keyword = .ok progress) :
    stream.Settles mark keyword progress.edits progress.next := by
  have named := ((stream.passes_functionNameEnd keyword).balanced nested).ordered
  have name := settles_functionNameEnd placed sought word.1
  obtain ⟨opening, generics, rest⟩ := bind_eq_ok_iff.mp found
  have ordered := le_of_optionalTypeParameters nested placed generics
  split at rest
  case isFalse noList =>
    cases rest
    exact name.after (.nothing fun after before =>
      sought.attended (.generics word generics (Bool.eq_false_iff.mpr noList) after before))
  case isTrue opens =>
    obtain ⟨close, closes, rest⟩ := bind_eq_ok_iff.mp rest
    have listed := lt_of_closeOf closes
    rw [closeOf_eq_ok_iff] at closes
    obtain ⟨body, annotated, rest⟩ := bind_eq_ok_iff.mp rest
    have typed := le_of_optionalAnnotation nested placed annotated
    split at rest
    case isTrue =>
      obtain ⟨parameters, foundParameters, rest⟩ := bind_eq_ok_iff.mp rest
      obtain ⟨inside, foundInside, result⟩ := bind_eq_ok_iff.mp rest
      cases result
      have list := sought.settles_pair nested closes
        (settles_of_parametersFrom nested placed sought handed (by omega) foundParameters)
      exact (((name.after (settles_attachedIf placed _ opening)).append list).append
        (settles_attachedIf placed (close + 1) body)).append
          (settles_of_walkInside nested sought handed (by omega) foundInside)
    case isFalse =>
      cases rest
      exact settles_declarationErased placed keyword _

theorem settles_of_parenthesis {opening : Nat} (later : floor ≤ opening)
    (found : stream.parenthesis walk opening = .ok progress) :
    stream.Settles mark opening progress.edits progress.next := by
  obtain ⟨close, closes, rest⟩ := bind_eq_ok_iff.mp found
  rw [closeOf_eq_ok_iff] at closes
  split at rest
  · exact settles_of_walkInside nested sought handed later rest
  · rename_i head _
    obtain ⟨parameters, foundParameters, result⟩ := bind_eq_ok_iff.mp rest
    cases result
    have list := sought.settles_pair nested closes
      (settles_of_parametersFrom nested placed sought handed (by omega) foundParameters)
    exact list.append (settles_attachedIf placed (close + 1) head)

omit placed in
theorem settles_of_controlHead (word : stream.kind? keyword = some .word) (placed : stream.Placed)
    (later : floor ≤ keyword) (found : stream.controlHead walk keyword = .ok progress) :
    stream.Settles mark keyword progress.edits progress.next := by
  have passed := sought.settles_kind placed word (by decide)
  unfold controlHead at found
  extract_lets opening at found
  split at found
  case isTrue =>
    have head : stream.Settles mark keyword [] opening := by
      unfold opening
      split
      · rename_i awaited
        exact passed.after
          (sought.settles_token (Bool.and_eq_true_iff.mp awaited).2 (by decide))
      · exact passed
    have further : keyword ≤ opening := by
      unfold opening
      split <;> omega
    exact head.after (settles_of_walkInside nested sought handed (by omega) found)
  case isFalse =>
    cases found
    exact passed

end Playground.TokenStream
