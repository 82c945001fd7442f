import Playground.Proofs.Erasure.Justification.Binding

/-!
# Justified edits of classes
-/

namespace Playground.TokenStream

variable {stream : TokenStream} {walk : Walk} (justifies : walk.Justifies stream)

include justifies

/-! ## Members -/

theorem allJustified_of_memberHead {first modified name nameEnd markerEnd : Nat}
    {head : List Edit} (owner : stream.HasClass)
    (marked : nameEnd < markerEnd → stream.is nameEnd "?" = true ∨ stream.is nameEnd "!" = true)
    (found : stream.memberHead walk first modified name nameEnd markerEnd = .ok head) :
    stream.AllJustified head := by
  have modifiers : stream.AllJustified (stream.erasedModifiers first modified) := by
    intro edit member
    obtain ⟨index, _, erased⟩ := List.mem_filterMap.mp member
    split at erased
    · contradiction
    · cases erased
      exact .memberModifier owner
  have marker : stream.AllJustified
      (if nameEnd < markerEnd then [stream.single nameEnd] else []) := by
    split
    · simpa using Justified.marker (marked ‹_›)
    · simp
  unfold memberHead at found
  dsimp only at found
  split at found
  · obtain ⟨inside, foundInside, result⟩ := bind_eq_ok_iff.mp found
    cases result
    simp only [allJustified_append]
    exact ⟨⟨modifiers, allJustified_of_walkInside justifies foundInside⟩, marker⟩
  · cases found
    simp only [allJustified_append, allJustified_nil, and_true]
    exact ⟨modifiers, marker⟩

theorem allJustified_of_constructorBody {body : Nat} {derived : Bool} {names : List String}
    {progress : Progress} (owner : stream.HasClass)
    (assigns : stream.AssignsProperties (propertyAssignments names))
    (found : stream.constructorBody walk body derived names = .ok progress) :
    stream.AllJustified progress.edits := by
  simp only [constructorBody, bind_eq_ok_iff] at found
  obtain ⟨close, _, anchor, _, before, foundBefore, after, foundAfter, result⟩ := found
  cases result
  simp only [allJustified_append, allJustified_cons, allJustified_nil, and_true]
  exact ⟨⟨justifies foundBefore, .assignments owner assigns⟩, justifies foundAfter⟩

theorem allJustified_of_methodMember
    {first modified name nameEnd markerEnd opening : Nat} {derived : Bool} {progress : Progress}
    (nested : stream.Nested) (placed : stream.Placed) (owner : stream.HasClass)
    (marked : nameEnd < markerEnd → stream.is nameEnd "?" = true ∨ stream.is nameEnd "!" = true)
    (later : name < markerEnd)
    (generics : stream.optionalTypeParameters markerEnd = .ok opening)
    (opens : stream.is opening "(" = true)
    (found : stream.methodMember walk first modified name nameEnd markerEnd opening derived =
      .ok progress) :
    stream.AllJustified progress.edits := by
  obtain ⟨close, closes, rest⟩ := bind_eq_ok_iff.mp found
  rw [closeOf_eq_ok_iff] at closes
  obtain ⟨body, annotated, rest⟩ := bind_eq_ok_iff.mp rest
  split at rest
  case isFalse =>
    cases rest
    simpa using Justified.member owner
  case isTrue =>
    simp only [bind_eq_ok_iff] at rest
    obtain ⟨head, foundHead, parameters, foundParameters, inside, foundInside, result⟩ := rest
    cases result
    have closed : stream.is close ")" = true := nested.is_close closes opens (by decide)
    have start : stream.StartsItem (opening + 1) close :=
      .inr (.inr ⟨.inl opens, Nat.succ_pos opening⟩)
    have listed := justified_of_parametersFrom justifies nested placed closed
      (Nat.lt_succ_self opening) start foundParameters
    have bodyJustified : stream.AllJustified inside.edits := by
      unfold methodBody at foundInside
      split at foundInside
      case isFalse => exact allJustified_of_walkInside justifies foundInside
      case isTrue constructs =>
        simp only [Bool.and_eq_true, beq_iff_eq, Bool.not_eq_true'] at constructs
        have assigns : stream.AssignsProperties (propertyAssignments parameters.properties) :=
          ⟨name, markerEnd, opening, close, _, constructs.1, later, generics, opens, closes,
            listed.2, by simpa [List.isEmpty_iff] using constructs.2, rfl⟩
        exact allJustified_of_constructorBody justifies owner assigns foundInside
    simp only [edits_preceded, allJustified_append]
    exact ⟨⟨⟨⟨allJustified_of_memberHead justifies owner marked foundHead,
      allJustified_of_generics generics⟩, listed.1⟩, allJustified_of_annotation annotated⟩,
      bodyJustified⟩

theorem allJustified_of_fieldMember {first modified name nameEnd headEnd close : Nat}
    {progress : Progress} (owner : stream.HasClass)
    (marked : nameEnd < headEnd → stream.is nameEnd "?" = true ∨ stream.is nameEnd "!" = true)
    (found : stream.fieldMember walk first modified name nameEnd headEnd close = .ok progress) :
    stream.AllJustified progress.edits := by
  simp only [fieldMember, bind_eq_ok_iff] at found
  obtain ⟨head, foundHead, annotation, foundAnnotation, value, foundValue, result⟩ := found
  cases result
  simp only [allJustified_append]
  exact ⟨⟨allJustified_of_memberHead justifies owner marked foundHead,
    allJustified_of_erasedAnnotation foundAnnotation⟩,
    allJustified_of_initializer justifies foundValue⟩

theorem allJustified_of_classMember {first close : Nat} {derived : Bool} {progress : Progress}
    (nested : stream.Nested) (placed : stream.Placed) (owner : stream.HasClass)
    (found : stream.classMember walk first close derived = .ok progress) :
    stream.AllJustified progress.edits := by
  cases memberShape_of_classMember found with
  | semicolon => exact allJustified_nil
  | staticBlock _ found => exact allJustified_of_walkInside justifies found
  | vanishing => simpa using Justified.member owner
  | method head generics opens found =>
    have later := Nat.lt_of_lt_of_le head.ordered.2.1 head.ordered.2.2
    exact allJustified_of_methodMember justifies nested placed owner head.marked later generics
      opens found
  | field head found => exact allJustified_of_fieldMember justifies owner head.marked found

theorem allJustified_of_classMembersFrom {index close : Nat} {derived : Bool}
    {edits : List Edit} (nested : stream.Nested) (placed : stream.Placed)
    (advances : walk.Advances) (owner : stream.HasClass)
    (found : stream.classMembersFrom walk index close derived = .ok edits) :
    stream.AllJustified edits := by
  replace found := memberCourse_of_classMembersFrom nested placed advances found
  induction found with
  | ended => exact allJustified_nil
  | member _ found _ _ inductionHypothesis =>
    exact allJustified_append.mpr
      ⟨allJustified_of_classMember justifies nested placed owner found, inductionHypothesis⟩

/-! ## Class heads -/

theorem allJustified_of_heritagePart {index : Nat} {progress : Progress}
    (found : stream.heritagePart walk index = .ok progress) :
    stream.AllJustified progress.edits := by
  unfold heritagePart at found
  split at found
  · rename_i stop arguments
    cases found
    have angle := angle_of_typeArguments (Option.filter_eq_some_iff.mp arguments).1
    simpa using Justified.generics angle
  · split at found
    · exact allJustified_of_walkInside justifies found
    · cases found
      simp

theorem allJustified_of_heritageFrom {index : Nat} {progress : Progress}
    (nested : stream.Nested) (placed : stream.Placed)
    (found : stream.heritageFrom walk index = .ok progress) :
    stream.AllJustified progress.edits := by
  replace found := heritageCourse_of_heritageFrom nested placed found
  induction found with
  | ended => exact allJustified_nil
  | part _ _ _ found _ _ inductionHypothesis =>
    exact allJustified_append.mpr
      ⟨allJustified_of_heritagePart justifies found, inductionHypothesis⟩

theorem allJustified_of_classDeclaration {keyword : Nat} {progress : Progress}
    (nested : stream.Nested) (placed : stream.Placed) (advances : walk.Advances)
    (owner : stream.is keyword "class" = true)
    (found : stream.classDeclaration walk keyword = .ok progress) :
    stream.AllJustified progress.edits := by
  have hasClass : stream.HasClass := ⟨keyword, owner⟩
  simp only [classDeclaration, bind_eq_ok_iff] at found
  obtain ⟨generics, foundGenerics, base, foundBase, implemented, foundImplemented, rest⟩ := found
  have baseJustified : stream.AllJustified base.edits := by
    unfold heritage at foundBase
    split at foundBase
    · exact allJustified_of_heritageFrom justifies nested placed foundBase
    · cases foundBase
      simp
  have implementedJustified : stream.AllJustified implemented.edits := by
    unfold implementedTypes at foundImplemented
    split at foundImplemented
    · rename_i mark
      obtain ⟨stop, _, result⟩ := bind_eq_ok_iff.mp foundImplemented
      cases result
      simpa using Justified.implemented hasClass mark
    · cases foundImplemented
      simp
  have head : stream.AllJustified (stream.attachedIf (stream.classNameEnd keyword) generics ++
      base.edits ++ implemented.edits) := by
    simp only [allJustified_append]
    exact ⟨⟨allJustified_of_generics foundGenerics, baseJustified⟩, implementedJustified⟩
  split at rest
  · simp only [bind_eq_ok_iff] at rest
    obtain ⟨close, _, members, foundMembers, result⟩ := rest
    cases result
    exact allJustified_append.mpr ⟨head,
      allJustified_of_classMembersFrom justifies nested placed advances hasClass foundMembers⟩
  · cases rest
    exact head

end Playground.TokenStream
