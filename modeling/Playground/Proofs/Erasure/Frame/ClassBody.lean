import Playground.Proofs.Erasure.Frame.Binding
import Playground.Proofs.Erasure.Pairing.ClassBody

/-!
# Classes are edited where they stand

The assignments of parameter properties stand in the body of their constructor.
-/

namespace Playground.TokenStream

variable {stream : TokenStream} {barrier index keyword : Nat} {progress : Progress}
  (nested : stream.Nested) (placed : stream.Placed) {walk : Walk}
  (spares : walk.Spares stream barrier) (advances : walk.Advances)

include nested placed spares advances

/-! ## Members -/

omit nested advances in
theorem allBehind_of_memberHead {first modified name nameEnd markerEnd : Nat} {head : List Edit}
    (after : barrier < first) (later : barrier < nameEnd)
    (found : stream.memberHead walk first modified name nameEnd markerEnd = .ok head) :
    stream.AllBehind barrier head := by
  have modifiers : stream.AllBehind barrier (stream.erasedModifiers first modified) := by
    intro edit member
    obtain ⟨index, listed, erased⟩ := List.mem_filterMap.mp member
    split at erased
    · contradiction
    · cases erased
      exact placed.stopOf_le_startOf (Nat.lt_of_lt_of_le after (List.mem_range'_1.mp listed).1)
  have marker : stream.AllBehind barrier
      (if nameEnd < markerEnd then [stream.single nameEnd] else []) := by
    split
    · exact allBehind_single placed later rfl
    · simp
  unfold memberHead at found
  dsimp only at found
  split at found
  · obtain ⟨inside, foundInside, result⟩ := bind_eq_ok_iff.mp found
    cases result
    simp only [allBehind_append]
    exact ⟨⟨modifiers, allBehind_of_walkInside spares foundInside⟩, marker⟩
  · cases found
    simp only [allBehind_append, allBehind_nil, and_true]
    exact ⟨modifiers, marker⟩

omit advances in
theorem allBehind_of_constructorBody {body : Nat} {derived : Bool} {names : List String}
    (after : barrier < body)
    (found : stream.constructorBody walk body derived names = .ok progress) :
    stream.AllBehind barrier progress.edits := by
  simp only [constructorBody, bind_eq_ok_iff] at found
  obtain ⟨close, closes, anchor, foundAnchor, before, foundBefore, rest, foundRest, result⟩ := found
  cases result
  rw [closeOf_eq_ok_iff] at closes
  have reached := (balanced_of_assignmentAnchor nested closes foundAnchor).ordered
  have assigned : stream.stopOf barrier ≤ stream.stopOf anchor := placed.stopOf_mono (by omega)
  simp only [allBehind_append, allBehind_cons, allBehind_nil, and_true]
  exact ⟨⟨spares foundBefore, assigned⟩, spares foundRest⟩

theorem allBehind_of_methodMember
    {first modified name nameEnd markerEnd opening : Nat} {derived : Bool}
    (after : barrier < first) (named : barrier < nameEnd) (marked : barrier < markerEnd)
    (opened : barrier < opening)
    (found : stream.methodMember walk first modified name nameEnd markerEnd opening derived =
      .ok progress) :
    stream.AllBehind barrier progress.edits := by
  obtain ⟨close, closes, rest⟩ := bind_eq_ok_iff.mp found
  have listed := lt_of_closeOf closes
  obtain ⟨body, annotated, rest⟩ := bind_eq_ok_iff.mp rest
  have ordered := le_of_optionalAnnotation nested placed annotated
  split at rest
  case isFalse =>
    cases rest
    exact allBehind_single placed after rfl
  case isTrue =>
    simp only [bind_eq_ok_iff] at rest
    obtain ⟨head, foundHead, parameters, foundParameters, inside, foundInside, result⟩ := rest
    cases result
    have bodyBehind : stream.AllBehind barrier inside.edits := by
      unfold methodBody at foundInside
      split at foundInside
      · exact allBehind_of_constructorBody nested placed spares (by omega) foundInside
      · exact allBehind_of_walkInside spares foundInside
    simp only [edits_preceded, allBehind_append]
    exact ⟨⟨⟨⟨allBehind_of_memberHead placed spares after named foundHead,
      allBehind_attachedIf placed marked opening⟩,
      allBehind_of_parametersFrom nested placed spares advances (by omega) foundParameters⟩,
      allBehind_attachedIf placed (by omega) body⟩, bodyBehind⟩

omit nested advances in
theorem allBehind_of_fieldMember {first modified name nameEnd headEnd close : Nat}
    (after : barrier < first) (named : barrier < nameEnd) (headed : barrier < headEnd)
    (found : stream.fieldMember walk first modified name nameEnd headEnd close = .ok progress) :
    stream.AllBehind barrier progress.edits := by
  simp only [fieldMember, bind_eq_ok_iff] at found
  obtain ⟨head, foundHead, noted, foundNoted, value, foundValue, result⟩ := found
  cases result
  simp only [allBehind_append]
  exact ⟨⟨allBehind_of_memberHead placed spares after named foundHead,
    allBehind_of_erasedAnnotation placed headed foundNoted⟩,
    allBehind_of_initializer spares foundValue⟩

theorem allBehind_of_classMember {first close : Nat} {derived : Bool} (after : barrier < first)
    (found : stream.classMember walk first close derived = .ok progress) :
    stream.AllBehind barrier progress.edits := by
  have modified : first ≤ stream.modifiersEnd first close := le_runEnd ..
  cases memberShape_of_classMember found with
  | semicolon => exact allBehind_nil
  | staticBlock _ found => exact allBehind_of_walkInside spares found
  | vanishing => exact allBehind_single placed after rfl
  | method head generics _ found =>
    have named := head.ordered
    have passed := le_of_optionalTypeParameters nested placed generics
    exact allBehind_of_methodMember nested placed spares advances after (by omega) (by omega)
      (by omega) found
  | field head found =>
    have named := head.ordered
    exact allBehind_of_fieldMember placed spares after (by omega) (by omega) found

theorem allBehind_of_classMembersFrom {close : Nat} {derived : Bool} {edits : List Edit}
    (after : barrier < index)
    (found : stream.classMembersFrom walk index close derived = .ok edits) :
    stream.AllBehind barrier edits := by
  replace found := memberCourse_of_classMembersFrom nested placed advances found
  induction found with
  | ended => exact allBehind_nil
  | member _ found further _ inductionHypothesis =>
    exact allBehind_append.mpr
      ⟨allBehind_of_classMember nested placed spares advances after found,
        inductionHypothesis (Nat.lt_trans after further)⟩

/-! ## Class heads -/

omit nested advances in
theorem allBehind_of_heritagePart (after : barrier < index)
    (found : stream.heritagePart walk index = .ok progress) :
    stream.AllBehind barrier progress.edits := by
  unfold heritagePart at found
  split at found
  · cases found
    exact allBehind_attached placed after _
  · split at found
    · exact allBehind_of_walkInside spares found
    · cases found
      simp

omit advances in
theorem allBehind_of_heritageFrom (after : barrier < index)
    (found : stream.heritageFrom walk index = .ok progress) :
    stream.AllBehind barrier progress.edits := by
  replace found := heritageCourse_of_heritageFrom nested placed found
  induction found with
  | ended => exact allBehind_nil
  | part _ _ _ found further _ inductionHypothesis =>
    exact allBehind_append.mpr ⟨allBehind_of_heritagePart placed spares after found,
      inductionHypothesis (Nat.lt_trans after further)⟩

omit advances in
theorem allBehind_of_heritage (after : barrier < index)
    (found : stream.heritage walk index = .ok progress) :
    stream.AllBehind barrier progress.edits := by
  unfold heritage at found
  split at found
  · exact allBehind_of_heritageFrom nested placed spares (Nat.lt_succ_of_lt after) found
  · cases found
    exact allBehind_nil

omit nested spares advances in
theorem allBehind_of_implementedTypes (after : barrier < index)
    (found : stream.implementedTypes index = .ok progress) :
    stream.AllBehind barrier progress.edits := by
  unfold implementedTypes at found
  split at found
  · obtain ⟨stop, _, result⟩ := bind_eq_ok_iff.mp found
    cases result
    exact allBehind_attached placed after stop
  · cases found
    exact allBehind_nil

theorem allBehind_of_classDeclaration (after : barrier < keyword)
    (found : stream.classDeclaration walk keyword = .ok progress) :
    stream.AllBehind barrier progress.edits := by
  simp only [classDeclaration, bind_eq_ok_iff] at found
  obtain ⟨generics, foundGenerics, base, foundBase, implemented, foundImplemented, rest⟩ := found
  have named : barrier < stream.classNameEnd keyword :=
    Nat.lt_trans after (stream.lt_classNameEnd keyword)
  have passed := le_of_optionalTypeParameters nested placed foundGenerics
  have further := le_of_heritage nested placed foundBase
  have last := le_of_implementedTypes nested placed foundImplemented
  have derived := allBehind_of_heritage nested placed spares (by omega : barrier < generics)
    foundBase
  have listed := allBehind_of_implementedTypes placed (by omega : barrier < base.next)
    foundImplemented
  have head : stream.AllBehind barrier (stream.attachedIf (stream.classNameEnd keyword) generics ++
      base.edits ++ implemented.edits) := by
    simp only [allBehind_append]
    exact ⟨⟨allBehind_attachedIf placed named generics, derived⟩, listed⟩
  split at rest
  · simp only [bind_eq_ok_iff] at rest
    obtain ⟨close, _, members, foundMembers, result⟩ := rest
    cases result
    exact allBehind_append.mpr ⟨head, allBehind_of_classMembersFrom nested placed spares advances
      (by omega) foundMembers⟩
  · cases rest
    exact head

end Playground.TokenStream
