import Playground.Proofs.Erasure.Courses

/-!
# Bindings and functions leave brackets in pairs

Parameters stand between parentheses, so a parameter list ends at its closing parenthesis. The
initializer of a variable may end anywhere, but it stops at every closing bracket.
-/

namespace Playground.TokenStream

variable {stream : TokenStream} {walk : Walk} (sound : walk.Sound stream)

include sound

/-! ## Parameters -/

theorem outcome_of_receiverParameter {index close : Nat} {progress : Progress}
    (receiver : stream.isReceiver index close = true)
    (found : stream.receiverParameter index = .ok progress) :
    stream.Outcome index progress.edits progress.next := by
  have further := lt_of_receiverParameter sound.nested sound.placed found
  obtain ⟨type, annotated, result⟩ := bind_eq_ok_iff.mp found
  cases result
  have this := (Bool.and_eq_true_iff.mp receiver).1
  have noted : stream.Balanced index type :=
    (Passes.token (isNeutral_of_is this (by decide))
      (passes_of_annotated sound.placed annotated)).balanced sound.nested
  have comma : stream.Balanced type (if stream.is type "," then type + 1 else type) := by
    split
    · exact .neutral sound.nested (isNeutral_of_is ‹_› (by decide))
    · exact .refl type
  exact .erase (drops_leading sound.placed further) (noted.trans comma)

theorem outcome_of_parameterTarget {index close : Nat} {progress : Progress}
    (contained : stream.Contained index ⟨close, [","], .never⟩)
    (found : stream.parameterTarget walk index close = .ok progress) :
    stream.Outcome index progress.edits progress.next := by
  unfold parameterTarget at found
  split at found
  · exact outcome_of_walkInside sound found
  split at found
  · cases found
    exact .nothing (.neutral sound.nested (isNeutral_of_isPlainWord ‹_›))
  · exact sound.outcome contained found

theorem outcome_parameterModifiers (index : Nat) :
    stream.Outcome index
      ((List.range' index (stream.parameterModifiersEnd index - index)).map stream.leading)
      (stream.parameterModifiersEnd index) := by
  have passed : index ≤ stream.parameterModifiersEnd index := le_runEnd ..
  have outcome := outcome_modifiers sound.nested sound.placed (some ∘ stream.leading) index
    (stream.parameterModifiersEnd index - index)
    (fun between edit chosen => (Option.some.inj chosen).symm)
    fun between lower upper => (isOrdinary_of_textIn sound.placed
      (parameterModifier_of_lt lower (by omega)).1 (by decide)).neutral
  rwa [List.filterMap_eq_map, Nat.add_sub_cancel' passed] at outcome

theorem outcome_of_parameter {index close : Nat} {parameter : Parameter}
    (contained : stream.Contained index ⟨close, [","], .never⟩)
    (found : stream.parameter walk index close = .ok parameter) :
    stream.Outcome index parameter.progress.edits parameter.progress.next := by
  simp only [TokenStream.parameter, bind_eq_ok_iff] at found
  obtain ⟨target, foundTarget, annotation, foundAnnotation, value, foundValue, result⟩ := found
  cases result
  generalize modifiers : stream.parameterModifiersEnd index = modified at *
  have spread : stream.Balanced modified
      (if stream.is modified "..." then modified + 1 else modified) := by
    split
    · exact .neutral sound.nested (isNeutral_of_is ‹_› (by decide))
    · exact .refl modified
  have first := (modifiers ▸ outcome_parameterModifiers sound index).extend fun _ => spread
  have second := first.append fun passed =>
    outcome_of_parameterTarget sound (contained.rest passed) foundTarget
  have third := second.append fun _ =>
    outcome_erasedMarker sound.nested sound.placed "?" (by decide) target.next
  have fourth := third.append fun _ =>
    outcome_of_erasedAnnotation sound.nested sound.placed foundAnnotation
  exact fourth.append fun passed =>
    outcome_of_initializer sound (contained.rest passed) foundValue

/-- A parameter list is walked up to its closing parenthesis. -/
theorem outcome_of_parametersFrom {opening close index : Nat} {list : ParameterList}
    (closes : stream.closer? opening = some close) (level : stream.Balanced (opening + 1) index)
    (found : stream.parametersFrom walk index close = .ok list) :
    stream.Outcome index list.edits close := by
  have before : ∀ {next}, stream.Balanced (opening + 1) next → next ≤ close := fun balanced =>
    balanced.le_close closes (Nat.lt_succ_self opening) (lt_of_closer?_eq_some closes)
  have listed : ∀ {index one}, stream.Balanced (opening + 1) index →
      stream.parameter walk index close = .ok one →
        stream.Outcome index one.progress.edits one.progress.next := fun level found =>
    outcome_of_parameter sound (contained_of_balanced
      ((Balanced.inside_pair sound.nested closes).rest level (before level)) (Nat.le_refl close))
      found
  replace found := parameterCourse_of_parametersFrom sound.nested sound.placed found
  induction found with
  | @ended index past =>
    obtain rfl : index = close := Nat.le_antisymm (before level) past
    exact .nothing (.refl index)
  | receiver _ receives found _ _ inductionHypothesis =>
    exact (outcome_of_receiverParameter sound receives found).append fun passed =>
      inductionHypothesis (level.trans passed)
  | @more index one _ _ _ found _ comma _ inductionHypothesis =>
    have separator : stream.Balanced one.progress.next (one.progress.next + 1) :=
      .neutral sound.nested (isNeutral_of_is comma (by decide))
    exact ((listed level found).extend fun _ => separator).append fun passed =>
      inductionHypothesis (level.trans passed)
  | @last index one _ _ found _ reached =>
    simp only [ParameterList.cons, List.append_nil]
    refine (listed level found).extend fun passed => ?_
    have within := before (level.trans passed)
    obtain same : one.progress.next = close := Nat.le_antisymm within reached
    rw [same]
    exact .refl close

/-- What stands between parentheses that hold parameters. -/
theorem outcome_of_parameters {opening close : Nat} {list : ParameterList}
    (closes : stream.closer? opening = some close)
    (found : stream.parametersFrom walk (opening + 1) close = .ok list) :
    stream.Outcome opening list.edits (close + 1) :=
  .inside_pair sound.nested closes
    (outcome_of_parametersFrom sound closes (.refl (opening + 1)) found)

/-! ## Variables -/

theorem outcome_of_variableTarget {index : Nat} {target : Progress}
    (found : stream.variableTarget walk index = .ok (some target)) :
    stream.Outcome index target.edits target.next := by
  unfold variableTarget at found
  split at found
  · obtain ⟨pattern, foundPattern, result⟩ := bind_eq_ok_iff.mp found
    cases result
    exact outcome_of_walkInside sound foundPattern
  split at found
  · cases found
    exact .nothing (.neutral sound.nested (isNeutral_of_isPlainWord ‹_›))
  · cases found

theorem outcome_of_variableFrom {index : Nat} {target progress : Progress}
    (outcome : stream.Outcome index target.edits target.next)
    (found : stream.variableFrom walk target = .ok progress) :
    stream.Outcome index progress.edits progress.next := by
  obtain ⟨noted, foundNoted, rest⟩ := bind_eq_ok_iff.mp found
  obtain ⟨value, foundValue, result⟩ := bind_eq_ok_iff.mp rest
  cases result
  have marked := outcome.append fun _ => outcome_definiteMark sound.nested sound.placed target.next
  have typed := marked.append fun _ =>
    outcome_of_erasedAnnotation sound.nested sound.placed foundNoted
  exact typed.append fun _ =>
    outcome_of_initializer sound (contained_of_stops sound.nested (by simp)) foundValue

theorem outcome_of_variablesFrom {index : Nat} {progress : Progress}
    (found : stream.variablesFrom walk index = .ok progress) :
    stream.Outcome index progress.edits progress.next := by
  replace found := variableCourse_of_variablesFrom found
  induction found with
  | @ended index _ => exact .nothing (.refl index)
  | @more _ _ one _ named found _ comma _ inductionHypothesis =>
    have outcome := outcome_of_variableFrom sound (outcome_of_variableTarget sound named) found
    have separator : stream.Balanced one.next (one.next + 1) :=
      .neutral sound.nested (isNeutral_of_is comma (by decide))
    exact (outcome.extend fun _ => separator).append fun _ => inductionHypothesis
  | last named found =>
    exact outcome_of_variableFrom sound (outcome_of_variableTarget sound named) found

/-! ## Functions -/

theorem outcome_of_functionDeclaration {keyword : Nat} {progress : Progress}
    (function : stream.is keyword "function" = true)
    (found : stream.functionDeclaration walk keyword = .ok progress) :
    stream.Outcome keyword progress.edits progress.next := by
  obtain ⟨opening, generics, rest⟩ := bind_eq_ok_iff.mp found
  have named : stream.Passes keyword (stream.functionNameEnd keyword) :=
    .token (isNeutral_of_is function (by decide)) (passes_functionNameEnd keyword)
  have parameters := passes_of_optionalTypeParameters sound.placed generics
  split at rest
  case isFalse =>
    cases rest
    exact .nothing ((named.trans parameters).balanced sound.nested)
  case isTrue opens =>
    obtain ⟨close, closes, rest⟩ := bind_eq_ok_iff.mp rest
    rw [closeOf_eq_ok_iff] at closes
    obtain ⟨body, annotated, rest⟩ := bind_eq_ok_iff.mp rest
    have result := passes_of_annotated sound.placed annotated
    split at rest
    case isTrue =>
      obtain ⟨list, foundList, rest⟩ := bind_eq_ok_iff.mp rest
      obtain ⟨inside, foundInside, final⟩ := bind_eq_ok_iff.mp rest
      cases final
      have head : stream.Outcome keyword (stream.attachedIf (stream.functionNameEnd keyword) opening)
          opening :=
        .after (named.balanced sound.nested)
          (outcome_attachedIf sound.placed (parameters.balanced sound.nested))
      have listed := head.append fun _ => outcome_of_parameters sound closes foundList
      have typed := listed.append fun _ =>
        outcome_attachedIf sound.placed (result.balanced sound.nested)
      exact typed.append fun _ => outcome_of_walkInside sound foundInside
    case isFalse =>
      cases rest
      have signature : stream.Balanced keyword body :=
        ((named.trans parameters).trans ((Passes.enclosed closes).trans result)).balanced sound.nested
      have semicolon := balanced_afterSemicolon sound.nested body
      have advance : keyword < stream.afterSemicolon body := by
        have := (stream.passes_functionNameEnd keyword).balanced sound.nested
        have := this.ordered
        have := (parameters.balanced sound.nested).ordered
        have := ((Passes.enclosed closes).trans result |>.balanced sound.nested).ordered
        have := semicolon.ordered
        omega
      exact .erase (drops_declaration sound.placed advance) (signature.trans semicolon)

theorem outcome_of_parenthesis {opening : Nat} {progress : Progress}
    (found : stream.parenthesis walk opening = .ok progress) :
    stream.Outcome opening progress.edits progress.next := by
  obtain ⟨close, closes, rest⟩ := bind_eq_ok_iff.mp found
  rw [closeOf_eq_ok_iff] at closes
  split at rest
  · exact outcome_of_walkInside sound rest
  · rename_i head foundHead
    obtain ⟨list, foundList, result⟩ := bind_eq_ok_iff.mp rest
    cases result
    have typed : stream.Passes (close + 1) head := by
      unfold parameterHeadEnd? at foundHead
      dsimp only at foundHead
      split at foundHead
      · cases foundHead
        exact .nothing
      split at foundHead
      · exact .token (isNeutral_of_is ‹_› (by decide))
          (passes_of_typeEnd? sound.placed (Option.filter_eq_some_iff.mp foundHead).1)
      split at foundHead
      · cases foundHead
        exact .nothing
      · contradiction
    exact (outcome_of_parameters sound closes foundList).append fun _ =>
      outcome_attachedIf sound.placed (typed.balanced sound.nested)

end Playground.TokenStream
