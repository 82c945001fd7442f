import Playground.Proofs.Erasure.Coverage.Binding
import Playground.Proofs.Erasure.Pairing.ClassBody

/-!
# Marks in classes

The mark of a field is erased whatever follows it. Outside of brackets the base of a class is passed
token by token.
-/

namespace Playground.TokenStream

variable {stream : TokenStream} {mark index keyword floor : Nat} {progress : Progress}
  (nested : stream.Nested) (placed : stream.Placed) (sought : stream.Sought mark) {walk : Walk}
  (handed : walk.Settles stream mark floor)

/-! ## Members -/

section Heads

include sought

/-- The modifiers of a member are other tokens. -/
theorem not_lt_modifiersEnd {first close : Nat} (after : first ≤ mark) :
    ¬mark < stream.modifiersEnd first close := by
  intro before
  have accepted := accepts_of_lt_runEnd after before
  have modifier := (Bool.and_eq_true_iff.mp accepted).1
  exact (sought.settles_textIn modifier (by decide)).mark_ne rfl

include placed

theorem settles_erasedModifiers (first close : Nat) :
    stream.Settles mark first (stream.erasedModifiers first (stream.modifiersEnd first close))
      (stream.modifiersEnd first close) := by
  refine settles_modifiers placed (not_lt_modifiersEnd sought) fun edit member => ?_
  obtain ⟨index, listed, erased⟩ := List.mem_filterMap.mp member
  have range := List.mem_range'_1.mp listed
  split at erased
  · contradiction
  · cases erased
    exact ⟨index, by omega, rfl⟩

omit placed in
theorem MemberName.settles_star {modified name nameEnd markerEnd : Nat}
    (head : stream.MemberName modified name nameEnd markerEnd) :
    stream.Settles mark modified [] name := by
  rcases head.star with rfl | ⟨rfl, star⟩
  · exact .still name
  · exact sought.settles_token star (by decide)

include nested handed

theorem settles_of_memberHead {first close name nameEnd markerEnd : Nat} {edits : List Edit}
    (later : floor ≤ name)
    (head : stream.MemberName (stream.modifiersEnd first close) name nameEnd markerEnd)
    (found : stream.memberHead walk first (stream.modifiersEnd first close) name nameEnd markerEnd =
      .ok edits) :
    stream.Settles mark first edits markerEnd := by
  have foundName := head.named
  have star := head.settles_star sought
  have modifiers := settles_erasedModifiers placed sought first close
  have marker : stream.Settles mark nameEnd
      (if nameEnd < markerEnd then [stream.single nameEnd] else []) markerEnd := by
    rcases head.marker with rfl | ⟨rfl, -⟩
    · simpa using Settles.still markerEnd
    · simpa using settles_single placed nameEnd
  unfold memberHead at found
  unfold memberNameEnd at foundName
  dsimp only at found
  split at found
  case isTrue bracket =>
    rw [if_pos bracket] at foundName
    obtain ⟨close, closes, result⟩ := bind_eq_ok_iff.mp foundName
    cases result
    obtain ⟨inside, foundInside, result⟩ := bind_eq_ok_iff.mp found
    cases result
    have computed := settles_of_walkInside nested sought handed later foundInside
    obtain ⟨other, foundOther, walked⟩ := bind_eq_ok_iff.mp foundInside
    cases foundOther.symm.trans closes
    obtain ⟨_, _, result⟩ := bind_eq_ok_iff.mp walked
    cases result
    exact (modifiers.append (star.after computed)).append marker
  case isFalse noBracket =>
    cases found
    rw [if_neg noBracket] at foundName
    have named : stream.Settles mark name [] nameEnd := by
      split at foundName
      all_goals first
        | (cases foundName; exact sought.settles_kind placed ‹_› (by decide))
        | contradiction
    exact (modifiers.append (star.after named)).append marker

end Heads

section Members

include nested placed sought handed

theorem settles_of_constructorBody {body : Nat} {derived : Bool} {names : List String}
    (later : floor ≤ body)
    (found : stream.constructorBody walk body derived names = .ok progress) :
    stream.Settles mark body progress.edits progress.next := by
  simp only [constructorBody, bind_eq_ok_iff] at found
  obtain ⟨close, closes, anchor, foundAnchor, before, foundBefore, rest, foundRest, result⟩ := found
  cases result
  rw [closeOf_eq_ok_iff] at closes
  have level := balanced_of_assignmentAnchor nested closes foundAnchor
  have reached := level.ordered
  have inside := lt_of_closer?_eq_some closes
  have within := lt_size_of_kind? (nested.text_bracket closes).2.1
  have bounded : anchor + 1 ≤ close := level.le_close closes (Nat.lt_succ_self body) inside
  have first := (handed.settles (Nat.lt_succ_of_le later) foundBefore).to_upper
    (handed.reaches (Nat.lt_succ_of_le later) (by omega) foundBefore)
  have last := (handed.settles (by omega) foundRest).to_upper
    (handed.reaches (by omega) (Nat.le_of_lt within) foundRest)
  have assigned : stream.Settles mark (anchor + 1)
      [.insert (stream.stopOf anchor) (propertyAssignments names)] (anchor + 1) :=
    .single (fun after => placed.stopOf_le_startOf after) fun after before =>
      absurd before (Nat.not_lt_of_le after)
  exact sought.settles_pair nested closes ((first.append assigned).append last)

theorem settles_of_methodMember {first close name nameEnd markerEnd opening : Nat} {derived : Bool}
    (later : floor ≤ first)
    (head : stream.MemberName (stream.modifiersEnd first close) name nameEnd markerEnd)
    (generics : stream.optionalTypeParameters markerEnd = .ok opening)
    (found : stream.methodMember walk first (stream.modifiersEnd first close) name nameEnd markerEnd
      opening derived = .ok progress) :
    stream.Settles mark first progress.edits progress.next := by
  have modified : first ≤ stream.modifiersEnd first close := le_runEnd ..
  have named := head.ordered
  have passed := le_of_optionalTypeParameters nested placed generics
  obtain ⟨close, closes, rest⟩ := bind_eq_ok_iff.mp found
  have listed := lt_of_closeOf closes
  rw [closeOf_eq_ok_iff] at closes
  obtain ⟨body, annotated, rest⟩ := bind_eq_ok_iff.mp rest
  have typed := le_of_optionalAnnotation nested placed annotated
  split at rest
  case isFalse =>
    cases rest
    exact settles_whole placed first _
  case isTrue =>
    simp only [bind_eq_ok_iff] at rest
    obtain ⟨parts, foundParts, parameters, foundParameters, inside, foundInside, result⟩ := rest
    cases result
    have bodySettles : stream.Settles mark body inside.edits inside.next := by
      unfold methodBody at foundInside
      split at foundInside
      · exact settles_of_constructorBody nested placed sought handed (by omega) foundInside
      · exact settles_of_walkInside nested sought handed (by omega) foundInside
    have list := sought.settles_pair nested closes
      (settles_of_parametersFrom nested placed sought handed (by omega) foundParameters)
    have headSettles := settles_of_memberHead nested placed sought handed (by omega) head foundParts
    exact (((headSettles.append (settles_attachedIf placed markerEnd opening)).append list).append
      (settles_attachedIf placed _ body)).append bodySettles

omit nested placed handed in
theorem settles_afterSemicolon (index : Nat) :
    stream.Settles mark index [] (stream.afterSemicolon index) := by
  unfold afterSemicolon
  split
  · exact sought.settles_token ‹_› (by decide)
  · exact .still index

theorem settles_of_fieldMember {first close name nameEnd headEnd : Nat} (later : floor ≤ first)
    (head : stream.MemberName (stream.modifiersEnd first close) name nameEnd headEnd)
    (found : stream.fieldMember walk first (stream.modifiersEnd first close) name nameEnd headEnd
      close = .ok progress) :
    stream.Settles mark first progress.edits progress.next := by
  simp only [fieldMember, bind_eq_ok_iff] at found
  obtain ⟨parts, foundParts, noted, foundNoted, value, foundValue, result⟩ := found
  cases result
  have modified : first ≤ stream.modifiersEnd first close := le_runEnd ..
  have named := head.ordered
  have annotated := le_of_erasedAnnotation nested placed foundNoted
  have headSettles := settles_of_memberHead nested placed sought handed (by omega) head foundParts
  exact ((headSettles.append ( settles_of_erasedAnnotation placed foundNoted)).append
    (settles_of_initializer sought handed (by omega) foundValue)).before
      (settles_afterSemicolon sought value.next)

theorem settles_of_classMember {first close : Nat} {derived : Bool} (later : floor ≤ first)
    (found : stream.classMember walk first close derived = .ok progress) :
    stream.Settles mark first progress.edits progress.next := by
  have modified : first ≤ stream.modifiersEnd first close := le_runEnd ..
  cases memberShape_of_classMember found with
  | semicolon semicolon => exact sought.settles_token semicolon (by decide)
  | staticBlock _ found =>
    exact (Settles.nothing (not_lt_modifiersEnd sought)).after
      (settles_of_walkInside nested sought handed (by omega) found)
  | vanishing => exact settles_whole placed first _
  | method head generics _ found =>
    exact settles_of_methodMember nested placed sought handed later head generics found
  | field head found => exact settles_of_fieldMember nested placed sought handed later head found

theorem settles_of_classMembersFrom {close : Nat} {derived : Bool} {edits : List Edit}
    (later : floor ≤ index)
    (found : stream.classMembersFrom walk index close derived = .ok edits) :
    stream.Settles mark index edits close := by
  replace found := memberCourse_of_classMembersFrom nested placed handed.advances found
  induction found with
  | ended past => exact .nothing fun after before => by omega
  | member _ found further _ inductionHypothesis =>
    exact (settles_of_classMember nested placed sought handed later found).append
      (inductionHypothesis (Nat.le_of_lt (Nat.lt_of_le_of_lt later further)))

end Members

/-! ## Class heads -/

section ClassHeads

include nested placed sought handed

omit nested placed sought handed in
/-- A part of the base ends where the next one begins. -/
theorem next_of_heritagePart (found : stream.heritagePart walk index = .ok progress) :
    progress.next = stream.basePartEnd index := by
  unfold heritagePart at found
  rw [basePartEnd]
  cases base : stream.baseArgumentsEnd? index with
  | some stop =>
    rw [base] at found
    cases found
    rfl
  | none =>
    rw [base] at found
    dsimp only at found ⊢
    split at found
    case isTrue opens =>
      obtain ⟨close, closes, rest⟩ := bind_eq_ok_iff.mp found
      obtain ⟨inside, _, result⟩ := bind_eq_ok_iff.mp rest
      cases result
      rw [closeOf_eq_ok_iff] at closes
      simp only [skip, closes, opens, if_true]
    case isFalse closed =>
      cases found
      exact (if_neg closed).symm

theorem settles_of_heritagePart (later : floor ≤ index)
    (unlisted : mark ≠ index) (found : stream.heritagePart walk index = .ok progress) :
    stream.Settles mark index progress.edits progress.next := by
  unfold heritagePart at found
  split at found
  · cases found
    exact settles_attached placed index _
  split at found
  · exact settles_of_walkInside nested sought handed later found
  · cases found
    exact .other unlisted

theorem settles_of_heritageFrom {first : Nat} (later : floor ≤ index)
    (aside : ∀ {token}, stream.BaseReaches first token → stream.StandsAside token)
    (reached : stream.BaseReaches first index)
    (found : stream.heritageFrom walk index = .ok progress) :
    stream.Settles mark index progress.edits progress.next := by
  replace found := heritageCourse_of_heritageFrom nested placed found
  induction found with
  | @ended index _ => exact .still index
  | @part index _ _ _ noBody noTypes found further _ inductionHypothesis =>
    have unlisted : mark ≠ index := fun same => sought.attended (same ▸ aside reached)
    have settled := settles_of_heritagePart nested placed sought handed later unlisted found
    have ends := next_of_heritagePart found
    exact settled.append (inductionHypothesis (Nat.le_of_lt (Nat.lt_of_le_of_lt later further))
      (ends ▸ .part reached noBody noTypes))

omit nested handed in
/-- The keyword and the name of a class are other tokens. -/
theorem settles_classNameEnd (word : stream.is keyword "class" = true) :
    stream.Settles mark keyword [] (stream.classNameEnd keyword) := by
  have passed := sought.settles_token word (by decide)
  unfold classNameEnd
  split
  · rename_i named
    exact passed.after (sought.settles_word placed (Bool.and_eq_true_iff.mp named).1)
  · exact passed

omit nested sought handed in
theorem settles_of_implementedTypes (found : stream.implementedTypes index = .ok progress) :
    stream.Settles mark index progress.edits progress.next := by
  unfold implementedTypes at found
  split at found
  · obtain ⟨stop, _, result⟩ := bind_eq_ok_iff.mp found
    cases result
    exact settles_attached placed index stop
  · cases found
    exact .still index

theorem settles_of_heritage {index : Nat} (later : floor ≤ index)
    (aside : ∀ {token}, stream.is index "extends" = true → stream.BaseReaches (index + 1) token →
      stream.StandsAside token) (found : stream.heritage walk index = .ok progress) :
    stream.Settles mark index progress.edits progress.next := by
  unfold heritage at found
  split at found
  · exact (sought.settles_token ‹_› (by decide)).after
      (settles_of_heritageFrom nested placed sought handed (Nat.le_succ_of_le later)
        (aside ‹_›) .here found)
  · cases found
    exact .still index

theorem settles_of_classDeclaration (word : stream.IsKeyword keyword "class")
    (later : floor ≤ keyword) (found : stream.classDeclaration walk keyword = .ok progress) :
    stream.Settles mark keyword progress.edits progress.next := by
  simp only [classDeclaration, bind_eq_ok_iff] at found
  obtain ⟨generics, foundGenerics, base, foundBase, implemented, foundImplemented, rest⟩ := found
  have named := stream.lt_classNameEnd keyword
  have passed := le_of_optionalTypeParameters nested placed foundGenerics
  have further := le_of_heritage nested placed foundBase
  have last := le_of_implementedTypes nested placed foundImplemented
  have derived := settles_of_heritage nested placed sought handed (by omega)
    (fun extended reaches => .base word foundGenerics extended reaches) foundBase
  have head := (((settles_classNameEnd placed sought word.1).after
    (settles_attachedIf placed (stream.classNameEnd keyword) generics)).append derived).append
      (settles_of_implementedTypes placed foundImplemented)
  split at rest
  · simp only [bind_eq_ok_iff] at rest
    obtain ⟨close, closes, members, foundMembers, result⟩ := rest
    cases result
    rw [closeOf_eq_ok_iff] at closes
    have body := sought.settles_pair nested closes
      (settles_of_classMembersFrom nested placed sought handed (by omega) foundMembers)
    exact head.append body
  · cases rest
    exact head.to_upper (by dsimp only; omega)

end ClassHeads

end Playground.TokenStream
