import Playground.Proofs.Erasure.Justification.Basic

/-!
# Justified edits of bindings and functions

A modifier makes a parameter a property, and the list of a constructor's properties names its
parameters. A receiver is an annotation or an item of its own.
-/

namespace Playground.TokenStream

variable {stream : TokenStream}

/-! ## Parameters -/

/-- After a modifier no spread mark stands. -/
theorem not_spread_of_modified {index : Nat} (placed : stream.Placed)
    (modified : stream.parameterModifiersEnd index ≠ index) :
    stream.is (stream.parameterModifiersEnd index) "..." = false := by
  have progress : index ≤ stream.parameterModifiersEnd index := le_runEnd ..
  have last : index ≤ stream.parameterModifiersEnd index - 1 := by omega
  have reached : stream.parameterModifiersEnd index - 1 < stream.parameterModifiersEnd index := by
    omega
  have binding := (parameterModifier_of_lt last reached).2
  rw [Nat.sub_add_cancel (by omega)] at binding
  rw [Bool.eq_false_iff]
  intro spread
  have mark := placed.kind?_of_mark spread (by decide)
  have spelled := (is_iff.mp spread).2
  simp only [startsBinding, Bool.or_eq_true] at binding
  rcases binding with (plain | brace) | bracket
  · simp [kind?_of_isPlainWord plain] at mark
  · simp [is_iff, spelled] at brace
  · simp [is_iff, spelled] at bracket

/-- A modifier stands before the name of a property, and the name before the closing
parenthesis. -/
theorem isParameterProperty_of_modified {opening close index : Nat} (placed : stream.Placed)
    (closed : stream.is close ")" = true) (lower : opening < index) (upper : index < close)
    (modified : stream.parameterModifiersEnd index ≠ index)
    (word : stream.isPlainWord (stream.parameterModifiersEnd index) = true) :
    stream.IsParameterProperty opening close (stream.parameterModifiersEnd index) := by
  generalize stop : stream.parameterModifiersEnd index = name at modified word ⊢
  have progress : index ≤ name := stop ▸ le_runEnd ..
  have isModifier : ∀ between, index ≤ between → between < name →
      stream.textIn between parameterModifiers = true ∧
        stream.startsBinding (between + 1) = true :=
    fun between first last => parameterModifier_of_lt first (stop ▸ last)
  refine ⟨by omega, ?_, word, (isModifier (name - 1) (by omega) (by omega)).1⟩
  have notWord : stream.isPlainWord close = false := placed.isPlainWord_eq_false closed (by decide)
  have spelled := (is_iff.mp closed).2
  by_contra past
  rcases Nat.lt_or_ge close name with later | reached
  · have binding := (isModifier (close - 1) (by omega) (by omega)).2
    rw [show close - 1 + 1 = close by omega, startsBinding, notWord] at binding
    simp [is_iff, spelled] at binding
  · obtain rfl : name = close := by omega
    simp [notWord] at word

theorem NamesProperties.nil {opening close : Nat} : stream.NamesProperties opening close [] :=
  ⟨[], by simp, rfl⟩

theorem NamesProperties.append {opening close : Nat} {first second : List String}
    (firstNames : stream.NamesProperties opening close first)
    (secondNames : stream.NamesProperties opening close second) :
    stream.NamesProperties opening close (first ++ second) := by
  obtain ⟨firstIndices, firstProperties, rfl⟩ := firstNames
  obtain ⟨secondIndices, secondProperties, rfl⟩ := secondNames
  refine ⟨firstIndices ++ secondIndices, fun index member => ?_, List.map_append.symm⟩
  rcases List.mem_append.mp member with inFirst | inSecond
  · exact firstProperties index inFirst
  · exact secondProperties index inSecond

/-- Where an item of a parenthesised list is looked for: at its start, or, once the list
has an annotation or has ended, anywhere. -/
def StartsItem (stream : TokenStream) (index close : Nat) : Prop :=
  close ≤ index ∨ stream.IsAnnotated ∨
    ((stream.is (index - 1) "(" = true ∨ stream.is (index - 1) "," = true) ∧ 0 < index)

theorem startsItem_succ {index close : Nat} (comma : stream.is index "," = true) :
    stream.StartsItem (index + 1) close :=
  .inr (.inr ⟨.inr comma, Nat.succ_pos index⟩)

/-- The receiver annotation, after which another item may start. -/
theorem justified_of_receiver {index close : Nat} {progress : Progress}
    (closed : stream.is close ")" = true) (start : stream.StartsItem index close)
    (inside : index < close) (receiver : stream.isReceiver index close = true)
    (found : stream.receiverParameter index = .ok progress) :
    stream.AllJustified progress.edits ∧ stream.StartsItem progress.next close := by
  obtain ⟨type, annotated, result⟩ := bind_eq_ok_iff.mp found
  cases result
  simp only [isReceiver, Bool.and_eq_true, Bool.or_eq_true, beq_iff_eq] at receiver
  obtain ⟨this, (colon | comma) | last⟩ := receiver
  case inl.inl =>
    have annotation : stream.IsAnnotated := ⟨_, colon⟩
    exact ⟨by simpa using Justified.receiver this (.inl annotation), .inr (.inl annotation)⟩
  all_goals
    have place : stream.IsAnnotated ∨ stream.IsLoneItem index := by
      rcases start with past | annotation | ⟨before, positive⟩
      · omega
      · exact .inl annotation
      · exact .inr ⟨before, positive, by simp_all⟩
    refine ⟨by simpa using Justified.receiver this place, ?_⟩
    unfold optionalAnnotation at annotated
    split at annotated
    · exact .inr (.inl ⟨_, ‹_›⟩)
    · cases annotated
      dsimp only
      split
      · exact startsItem_succ ‹_›
      · simp_all [StartsItem]

section Walks

variable {walk : Walk} (justifies : walk.Justifies stream)

include justifies

theorem allJustified_of_parameterTarget {index close : Nat} {progress : Progress}
    (found : stream.parameterTarget walk index close = .ok progress) :
    stream.AllJustified progress.edits := by
  unfold parameterTarget at found
  split at found
  · exact allJustified_of_walkInside justifies found
  split at found
  · cases found
    simp
  · exact justifies found

/-- One parameter; if it is a property, its name stands in the list. -/
theorem justified_of_parameter {opening close index : Nat} {parameter : Parameter}
    (placed : stream.Placed) (closed : stream.is close ")" = true) (lower : opening < index)
    (upper : index < close) (found : stream.parameter walk index close = .ok parameter) :
    stream.AllJustified parameter.progress.edits ∧
      stream.NamesProperties opening close parameter.property.toList := by
  simp only [TokenStream.parameter, bind_eq_ok_iff] at found
  obtain ⟨target, foundTarget, annotation, foundAnnotation, value, foundValue, result⟩ := found
  cases result
  have marker : stream.AllJustified (stream.erasedMarker "?" target.next).edits :=
    allJustified_erasedMarker (.inl rfl)
  have modifiers : stream.AllJustified ((List.range' index
      (stream.parameterModifiersEnd index - index)).map stream.leading) := by
    intro edit member
    obtain ⟨between, range, rfl⟩ := List.mem_map.mp member
    obtain ⟨first, last⟩ := List.mem_range'_1.mp range
    exact .parameterModifier (parameterModifier_of_lt first (by omega)).1
  constructor
  · simp only [allJustified_append]
    exact ⟨⟨⟨⟨modifiers, allJustified_of_parameterTarget justifies foundTarget⟩, marker⟩,
      allJustified_of_erasedAnnotation foundAnnotation⟩,
      allJustified_of_initializer justifies foundValue⟩
  · generalize name : (if stream.is (stream.parameterModifiersEnd index) "..." = true then
      stream.parameterModifiersEnd index + 1 else stream.parameterModifiersEnd index) = named
    dsimp only
    split
    case isFalse => exact ⟨[], by simp, rfl⟩
    case isTrue property =>
      simp only [Bool.and_eq_true, bne_iff_ne, ne_eq] at property
      obtain ⟨modified, word⟩ := property
      have notSpread := not_spread_of_modified placed modified
      simp only [notSpread, Bool.false_eq_true, if_false] at name
      subst name
      have declared := isParameterProperty_of_modified placed closed lower upper modified word
      exact ⟨[_], by simpa using declared, rfl⟩

/-- The edits of a parameter list, and the properties among its parameters. -/
theorem justified_of_parametersFrom {opening close index : Nat} {list : ParameterList}
    (nested : stream.Nested) (placed : stream.Placed) (closed : stream.is close ")" = true)
    (lower : opening < index) (start : stream.StartsItem index close)
    (found : stream.parametersFrom walk index close = .ok list) :
    stream.AllJustified list.edits ∧ stream.NamesProperties opening close list.properties := by
  replace found := parameterCourse_of_parametersFrom nested placed found
  induction found with
  | ended => exact ⟨allJustified_nil, .nil⟩
  | receiver inside receives found further _ inductionHypothesis =>
    obtain ⟨justified, startNext⟩ := justified_of_receiver closed start inside receives found
    obtain ⟨justifiedRest, names⟩ := inductionHypothesis (Nat.lt_trans lower further) startNext
    exact ⟨allJustified_append.mpr ⟨justified, justifiedRest⟩, names⟩
  | more inside _ found ordered comma _ inductionHypothesis =>
    obtain ⟨justified, names⟩ := justified_of_parameter justifies placed closed lower inside found
    obtain ⟨justifiedRest, namesRest⟩ := inductionHypothesis
      (Nat.lt_succ_of_lt (Nat.lt_of_lt_of_le lower ordered)) (startsItem_succ comma)
    exact ⟨allJustified_append.mpr ⟨justified, justifiedRest⟩, names.append namesRest⟩
  | last inside _ found =>
    simpa [ParameterList.cons] using
      justified_of_parameter justifies placed closed lower inside found

/-! ## Variables and functions -/

theorem allJustified_of_variableTarget {index : Nat} {target : Progress}
    (found : stream.variableTarget walk index = .ok (some target)) :
    stream.AllJustified target.edits := by
  unfold variableTarget at found
  split at found
  · obtain ⟨pattern, foundPattern, result⟩ := bind_eq_ok_iff.mp found
    cases result
    exact allJustified_of_walkInside justifies foundPattern
  split at found
  · cases found
    simp
  · cases found

theorem allJustified_of_variableFrom {target progress : Progress}
    (justified : stream.AllJustified target.edits)
    (found : stream.variableFrom walk target = .ok progress) :
    stream.AllJustified progress.edits := by
  obtain ⟨noted, foundNoted, rest⟩ := bind_eq_ok_iff.mp found
  obtain ⟨value, foundValue, result⟩ := bind_eq_ok_iff.mp rest
  cases result
  simp only [edits_preceded, allJustified_append]
  exact ⟨⟨⟨justified, allJustified_definiteMark _⟩,
    allJustified_of_erasedAnnotation foundNoted⟩,
    allJustified_of_initializer justifies foundValue⟩

theorem allJustified_of_variablesFrom {index : Nat} {progress : Progress}
    (found : stream.variablesFrom walk index = .ok progress) :
    stream.AllJustified progress.edits := by
  replace found := variableCourse_of_variablesFrom found
  induction found with
  | ended => exact allJustified_nil
  | more named found _ _ _ inductionHypothesis =>
    exact allJustified_append.mpr ⟨allJustified_of_variableFrom justifies
      (allJustified_of_variableTarget justifies named) found, inductionHypothesis⟩
  | last named found =>
    exact allJustified_of_variableFrom justifies (allJustified_of_variableTarget justifies named)
      found

theorem allJustified_of_functionDeclaration {keyword : Nat} {progress : Progress}
    (nested : stream.Nested) (placed : stream.Placed)
    (function : stream.is keyword "function" = true)
    (found : stream.functionDeclaration walk keyword = .ok progress) :
    stream.AllJustified progress.edits := by
  obtain ⟨opening, generics, rest⟩ := bind_eq_ok_iff.mp found
  split at rest
  case isFalse =>
    cases rest
    simp
  case isTrue opens =>
    obtain ⟨close, closes, rest⟩ := bind_eq_ok_iff.mp rest
    rw [closeOf_eq_ok_iff] at closes
    obtain ⟨body, annotated, rest⟩ := bind_eq_ok_iff.mp rest
    split at rest
    case isTrue =>
      obtain ⟨parameters, foundParameters, rest⟩ := bind_eq_ok_iff.mp rest
      obtain ⟨inside, foundInside, result⟩ := bind_eq_ok_iff.mp rest
      cases result
      have closed : stream.is close ")" = true := nested.is_close closes opens (by decide)
      have start : stream.StartsItem (opening + 1) close :=
        .inr (.inr ⟨.inl opens, Nat.succ_pos opening⟩)
      have listed := justified_of_parametersFrom justifies nested placed closed
        (Nat.lt_succ_self opening) start foundParameters
      simp only [edits_preceded, allJustified_append]
      exact ⟨⟨⟨allJustified_of_generics generics, listed.1⟩,
        allJustified_of_annotation annotated⟩, allJustified_of_walkInside justifies foundInside⟩
    case isFalse bodiless =>
      cases result : rest
      have signature : stream.IsSignature keyword body :=
        ⟨opening, close, function, generics, opens, closes, annotated,
          Bool.eq_false_iff.mpr bodiless⟩
      simpa using Justified.signature signature

theorem allJustified_of_parenthesis {opening : Nat} {progress : Progress}
    (nested : stream.Nested) (placed : stream.Placed) (opens : stream.is opening "(" = true)
    (found : stream.parenthesis walk opening = .ok progress) :
    stream.AllJustified progress.edits := by
  obtain ⟨close, closes, rest⟩ := bind_eq_ok_iff.mp found
  rw [closeOf_eq_ok_iff] at closes
  split at rest
  · exact allJustified_of_walkInside justifies rest
  · rename_i head foundHead
    obtain ⟨parameters, foundParameters, result⟩ := bind_eq_ok_iff.mp rest
    cases result
    have closed : stream.is close ")" = true := nested.is_close closes opens (by decide)
    have start : stream.StartsItem (opening + 1) close :=
      .inr (.inr ⟨.inl opens, Nat.succ_pos opening⟩)
    have listed := justified_of_parametersFrom justifies nested placed closed
      (Nat.lt_succ_self opening) start foundParameters
    refine allJustified_append.mpr ⟨listed.1, allJustified_attachedIf fun later => ?_⟩
    unfold parameterHeadEnd? at foundHead
    dsimp only at foundHead
    split at foundHead
    · cases foundHead
      exact absurd later (Nat.lt_irrefl _)
    split at foundHead
    · exact .annotated ‹_›
    split at foundHead
    · cases foundHead
      exact absurd later (Nat.lt_irrefl _)
    · contradiction

end Walks

end Playground.TokenStream
