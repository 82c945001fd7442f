import Playground.Proofs.Erasure.Pairing.Binding

/-!
# Classes leave brackets in pairs

A member ends in the body of its class, unless it vanishes up to an end that is searched for.
The walk takes for granted that a class has a body where its head ends.
-/

namespace Playground.TokenStream

variable {stream : TokenStream}

/-- The assignments of parameter properties follow a balanced part of the body. -/
theorem balanced_of_assignmentAnchor {opening close anchor : Nat} {derived : Bool}
    (nested : stream.Nested)
    (closes : stream.closer? opening = some close)
    (found : stream.assignmentAnchor opening close derived = .ok anchor) :
    stream.Balanced (opening + 1) (anchor + 1) := by
  unfold assignmentAnchor at found
  split at found
  case isFalse =>
    cases found
    exact .refl (opening + 1)
  case isTrue =>
    obtain ⟨call?, foundCall, result⟩ := bind_eq_ok_iff.mp found
    cases result
    unfold superCallEnd? at foundCall
    extract_lets call at foundCall
    split at foundCall
    case isFalse =>
      cases foundCall
      exact .refl (opening + 1)
    case isTrue before =>
      obtain ⟨stop, foundStop, result⟩ := bind_eq_ok_iff.mp foundCall
      have body : stream.Balanced (opening + 1) call :=
        (Balanced.inside_pair nested closes).of_closes (closes_seek nested _ close _)
          (stream.le_seek ..) (Nat.le_of_lt before)
      have super := (Bool.and_eq_true_iff.mp (found_of_seek_lt before)).1
      have called : stream.Balanced call (stop + 1) :=
        (Balanced.neutral nested (isNeutral_of_is super (by decide))).trans
          (.pair nested (closeOf_eq_ok_iff.mp foundStop))
      cases result
      rw [Option.getD_some]
      split
      · exact (body.trans called).trans
          (.neutral nested (isNeutral_of_is ‹_› (by decide)))
      · exact body.trans called

variable {walk : Walk} (sound : walk.Sound stream)

include sound

/-! ## Member heads -/

theorem balanced_modifiersEnd (first close : Nat) :
    stream.Balanced first (stream.modifiersEnd first close) := by
  refine (phrase_runEnd fun index accepted => ?_).balanced sound.nested
  exact isOrdinary_of_textIn sound.placed (Bool.and_eq_true_iff.mp accepted).1 (by decide)

theorem outcome_erasedModifiers (first close : Nat) :
    stream.Outcome first (stream.erasedModifiers first (stream.modifiersEnd first close))
      (stream.modifiersEnd first close) := by
  have passed : first ≤ stream.modifiersEnd first close := le_runEnd ..
  have outcome := outcome_modifiers sound.nested sound.placed
    (fun index =>
      if stream.textIn index keptModifiers || stream.textIn index ambientModifiers then none
      else some (stream.leading index))
    first (stream.modifiersEnd first close - first)
    (fun index edit chosen => by
      split at chosen
      · contradiction
      · exact (Option.some.inj chosen).symm)
    fun index lower upper => by
      have upper : index < stream.modifiersEnd first close := by omega
      have accepted := accepts_of_lt_runEnd lower upper
      exact (isOrdinary_of_textIn sound.placed (Bool.and_eq_true_iff.mp accepted).1
        (by decide)).neutral
  rwa [Nat.add_sub_cancel' passed] at outcome

omit sound in
theorem isNeutral_of_marker {index : Nat}
    (mark : stream.is index "?" = true ∨ stream.is index "!" = true) : stream.IsNeutral index :=
  mark.elim (isNeutral_of_is · (by decide)) (isNeutral_of_is · (by decide))

theorem MemberName.balanced_star {modified name nameEnd markerEnd : Nat}
    (head : stream.MemberName modified name nameEnd markerEnd) : stream.Balanced modified name := by
  rcases head.star with rfl | ⟨rfl, star⟩
  · exact .refl _
  · exact .neutral sound.nested (isNeutral_of_is star (by decide))

/-- The mark behind the name of a member is erased. -/
theorem MemberName.outcome_marker {modified name nameEnd markerEnd : Nat}
    (head : stream.MemberName modified name nameEnd markerEnd) :
    stream.Outcome nameEnd (if nameEnd < markerEnd then [stream.single nameEnd] else [])
      markerEnd := by
  rcases head.marker with rfl | ⟨rfl, mark⟩
  · rw [if_neg (Nat.lt_irrefl _)]
    exact .nothing (.refl _)
  · rw [if_pos (Nat.lt_succ_self _)]
    exact outcome_single sound.nested sound.placed (isNeutral_of_marker mark)

/-- A name is passed whole with the star before it and the marker behind it. -/
theorem MemberName.balanced {modified name nameEnd markerEnd : Nat}
    (head : stream.MemberName modified name nameEnd markerEnd) :
    stream.Balanced modified markerEnd := by
  have named := (passes_of_memberNameEnd head.named).balanced sound.nested
  have marker : stream.Balanced nameEnd markerEnd := by
    rcases head.marker with rfl | ⟨rfl, mark⟩
    · exact .refl _
    · exact .neutral sound.nested (isNeutral_of_marker mark)
  exact (head.balanced_star sound).trans (named.trans marker)

theorem outcome_of_memberHead {first close name nameEnd markerEnd : Nat} {edits : List Edit}
    (head : stream.MemberName (stream.modifiersEnd first close) name nameEnd markerEnd)
    (found : stream.memberHead walk first (stream.modifiersEnd first close) name nameEnd markerEnd =
      .ok edits) :
    stream.Outcome first edits markerEnd := by
  have named := head.named
  have marker := head.outcome_marker sound
  have modifiers := (outcome_erasedModifiers sound first close).extend fun _ =>
    head.balanced_star sound
  unfold memberHead at found
  dsimp only at found
  split at found
  case isTrue computed =>
    obtain ⟨inside, foundInside, result⟩ := bind_eq_ok_iff.mp found
    cases result
    have same : inside.next = nameEnd := by
      unfold memberNameEnd at named
      rw [if_pos computed] at named
      obtain ⟨bracket, closes, stop⟩ := bind_eq_ok_iff.mp named
      simp only [walkInside, closes, bind_eq_ok_iff] at foundInside
      obtain ⟨other, same, walked, _, progress⟩ := foundInside
      cases same
      cases stop
      cases progress
      rfl
    have name := outcome_of_walkInside sound foundInside
    rw [same] at name
    exact (modifiers.append fun _ => name).append fun _ => marker
  case isFalse =>
    cases found
    have name := (passes_of_memberNameEnd named).balanced sound.nested
    exact ((modifiers.append fun _ => .nothing name)).append fun _ => marker

/-! ## Constructors and methods -/

theorem outcome_of_constructorBody {opening : Nat} {derived : Bool} {names : List String}
    {progress : Progress} (opens : stream.is opening "\x7b" = true)
    (found : stream.constructorBody walk opening derived names = .ok progress) :
    stream.Outcome opening progress.edits progress.next := by
  simp only [constructorBody, bind_eq_ok_iff] at found
  obtain ⟨close, closes, anchor, foundAnchor, before, foundBefore, after, foundAfter, result⟩ :=
    found
  cases result
  rw [closeOf_eq_ok_iff] at closes
  have start := balanced_of_assignmentAnchor sound.nested closes foundAnchor
  have reached : anchor + 1 ≤ close :=
    start.le_close closes (Nat.lt_succ_self opening) (lt_of_closer?_eq_some closes)
  have ending := (Balanced.inside_pair sound.nested closes).rest start reached
  have first : stream.Outcome (opening + 1) before.edits (anchor + 1) :=
    (sound.outcome (contained_of_balanced start (Nat.le_refl _)) foundBefore).within start
      (sound.constructors opens closes foundAnchor foundBefore)
  have assigned : stream.Outcome (anchor + 1)
      [.insert (stream.stopOf anchor) (propertyAssignments names)] (anchor + 1) :=
    .tidy (.insert (Nat.le_refl _) (.done (Nat.le_refl _))) (.refl _)
  have second := sound.outcome (contained_of_balanced ending (Nat.le_refl _)) foundAfter
  exact .inside_pair sound.nested closes ((first.append fun _ => assigned).append fun _ => second)

theorem outcome_of_methodBody {opening name : Nat} {derived : Bool} {names : List String}
    {progress : Progress} (opens : stream.is opening "\x7b" = true)
    (found : stream.methodBody walk opening name derived names = .ok progress) :
    stream.Outcome opening progress.edits progress.next := by
  unfold methodBody at found
  split at found
  · exact outcome_of_constructorBody sound opens found
  · exact outcome_of_walkInside sound found

theorem outcome_of_methodMember {first close name nameEnd markerEnd opening : Nat}
    {derived : Bool} {progress : Progress}
    (head : stream.MemberName (stream.modifiersEnd first close) name nameEnd markerEnd)
    (generics : stream.Balanced markerEnd opening)
    (found : stream.methodMember walk first (stream.modifiersEnd first close) name nameEnd markerEnd
      opening derived = .ok progress) :
    stream.Outcome first progress.edits progress.next := by
  have level : stream.Balanced first markerEnd :=
    (balanced_modifiersEnd sound first close).trans (head.balanced sound)
  obtain ⟨close, closes, rest⟩ := bind_eq_ok_iff.mp found
  rw [closeOf_eq_ok_iff] at closes
  obtain ⟨body, annotated, rest⟩ := bind_eq_ok_iff.mp rest
  have result : stream.Balanced (close + 1) body :=
    (passes_of_annotated sound.placed annotated).balanced sound.nested
  split at rest
  case isTrue opens =>
    simp only [bind_eq_ok_iff] at rest
    obtain ⟨parts, foundParts, list, foundList, inside, foundInside, final⟩ := rest
    cases final
    have typed := (outcome_of_memberHead sound head foundParts).append fun _ =>
      outcome_attachedIf sound.placed generics
    have listed := typed.append fun _ => outcome_of_parameters sound closes foundList
    have answered := listed.append fun _ => outcome_attachedIf sound.placed result
    exact answered.append fun _ => outcome_of_methodBody sound opens foundInside
  case isFalse =>
    cases rest
    have signature := ((level.trans generics).trans (.pair sound.nested closes)).trans
      (result.trans (balanced_afterSemicolon sound.nested body))
    have advance : first < stream.afterSemicolon body := by
      have := level.ordered
      have := generics.ordered
      have := lt_of_closer?_eq_some closes
      have := result.ordered
      have := stream.le_afterSemicolon body
      omega
    exact .erase (drops_whole sound.placed advance) signature

/-! ## Members -/

theorem outcome_of_fieldMember {first close name nameEnd headEnd : Nat} {progress : Progress}
    (contained : stream.Contained first ⟨close, [";"], .member⟩)
    (head : stream.MemberName (stream.modifiersEnd first close) name nameEnd headEnd)
    (found : stream.fieldMember walk first (stream.modifiersEnd first close) name nameEnd headEnd
      close = .ok progress) :
    stream.Outcome first progress.edits progress.next := by
  simp only [fieldMember, bind_eq_ok_iff] at found
  obtain ⟨parts, foundParts, annotation, foundAnnotation, value, foundValue, result⟩ := found
  cases result
  have typed := (outcome_of_memberHead sound head foundParts).append fun _ =>
    outcome_of_erasedAnnotation sound.nested sound.placed foundAnnotation
  have initialized := typed.append fun passed =>
    outcome_of_initializer sound (contained.rest passed) foundValue
  exact initialized.extend fun _ => balanced_afterSemicolon sound.nested value.next

theorem outcome_of_classMember {opening first close : Nat} {derived : Bool} {progress : Progress}
    (body : stream.closer? opening = some close) (level : stream.Balanced (opening + 1) first)
    (before : first < close)
    (found : stream.classMember walk first close derived = .ok progress) :
    stream.Outcome first progress.edits progress.next := by
  have inside : stream.Balanced first close :=
    (Balanced.inside_pair sound.nested body).rest level (Nat.le_of_lt before)
  cases memberShape_of_classMember found with
  | semicolon mark => exact .nothing (.neutral sound.nested (isNeutral_of_is mark (by decide)))
  | staticBlock _ found =>
    exact .after (balanced_modifiersEnd sound first close) (outcome_of_walkInside sound found)
  | vanishing vanishes =>
    have clause := SearchedClause.member body level before vanishes
    exact .clause (drops_whole sound.placed clause.lt) clause
      (clause.balanced_or_takesCloser sound.nested sound.placed sound.regular)
  | method head generics _ found =>
    have listed := (passes_of_optionalTypeParameters sound.placed generics).balanced sound.nested
    exact outcome_of_methodMember sound head listed found
  | field head found =>
    exact outcome_of_fieldMember sound (contained_of_balanced inside (Nat.le_refl _)) head found

/-- The members of a class are walked up to its closing brace. -/
theorem outcome_of_classMembersFrom (advances : walk.Advances) {opening index close : Nat}
    {derived : Bool} {edits : List Edit} (body : stream.closer? opening = some close)
    (level : stream.Balanced (opening + 1) index)
    (found : stream.classMembersFrom walk index close derived = .ok edits) :
    stream.Outcome index edits close := by
  replace found := memberCourse_of_classMembersFrom sound.nested sound.placed advances found
  induction found with
  | @ended index past =>
    have within := level.le_close body (Nat.lt_succ_self opening) (lt_of_closer?_eq_some body)
    obtain rfl : index = close := Nat.le_antisymm within past
    exact .nothing (.refl index)
  | member before found _ _ inductionHypothesis =>
    exact (outcome_of_classMember sound body level before found).append fun passed =>
      inductionHypothesis (level.trans passed)

/-! ## Class heads -/

theorem orderly_of_heritagePart {index : Nat} {progress : Progress}
    (found : stream.heritagePart walk index = .ok progress) :
    stream.Orderly index progress.edits progress.next := by
  unfold heritagePart at found
  split at found
  · rename_i stop base
    cases found
    have arguments := (Option.filter_eq_some_iff.mp base).1
    have advance := lt_of_typeArgumentsEnd? sound.nested sound.placed arguments
    have balanced := (passes_of_typeArgumentsEnd? sound.placed arguments).balanced sound.nested
    exact (outcome_attached sound.placed advance balanced).orderly
  · split at found
    · exact (outcome_of_walkInside sound found).orderly
    · cases found
      exact .inl (.done (Nat.le_succ index))

theorem orderly_of_heritageFrom {index : Nat} {progress : Progress}
    (found : stream.heritageFrom walk index = .ok progress) :
    stream.Orderly index progress.edits progress.next := by
  replace found := heritageCourse_of_heritageFrom sound.nested sound.placed found
  induction found with
  | @ended index _ => exact .inl (.done (Nat.le_refl index))
  | part _ _ _ found _ _ inductionHypothesis =>
    exact (orderly_of_heritagePart sound found).append inductionHypothesis

/-- A head without a base class is left as it is. -/
theorem orderly_of_heritage {index : Nat} {progress : Progress}
    (found : stream.heritage walk index = .ok progress) :
    stream.Orderly index progress.edits progress.next ∧
      (index < progress.next ∨ progress = .still index) := by
  unfold heritage at found
  split at found
  · exact ⟨(orderly_of_heritageFrom sound found).widen (Nat.le_succ index) (Nat.le_refl _),
      .inl (le_of_heritageFrom sound.nested sound.placed found)⟩
  · cases found
    exact ⟨.inl (.done (Nat.le_refl index)), .inr rfl⟩

theorem outcome_of_implementedTypes {index : Nat} {progress : Progress}
    (found : stream.implementedTypes index = .ok progress) :
    stream.Outcome index progress.edits progress.next ∧
      (index < progress.next ∨ progress = .still index) := by
  unfold implementedTypes at found
  split at found
  · obtain ⟨stop, types, result⟩ := bind_eq_ok_iff.mp found
    cases result
    have listed := (passes_of_typeListEnd sound.placed types).balanced sound.nested
    have keyword : stream.Balanced index (index + 1) :=
      .neutral sound.nested (isNeutral_of_is ‹_› (by decide))
    exact ⟨outcome_attached sound.placed listed.ordered (keyword.trans listed), .inl listed.ordered⟩
  · cases found
    exact ⟨.nothing (.refl index), .inr rfl⟩

theorem outcome_of_classDeclaration (advances : walk.Advances) {keyword : Nat}
    {progress : Progress} (owner : stream.IsKeyword keyword "class")
    (found : stream.classDeclaration walk keyword = .ok progress) :
    stream.Outcome keyword progress.edits progress.next := by
  simp only [classDeclaration, bind_eq_ok_iff] at found
  obtain ⟨generics, foundGenerics, base, foundBase, implemented, foundImplemented, rest⟩ := found
  have regular := sound.regular.classes owner foundGenerics foundBase foundImplemented
  have word : stream.Balanced keyword (keyword + 1) :=
    .neutral sound.nested (isNeutral_of_is owner.1 (by decide))
  have named : stream.Balanced (keyword + 1) (stream.classNameEnd keyword) := by
    unfold classNameEnd
    split
    · rename_i name
      exact .neutral sound.nested (isNeutral_of_isPlainWord (Bool.and_eq_true_iff.mp name).1)
    · exact .refl _
  have parameters := (passes_of_optionalTypeParameters sound.placed foundGenerics).balanced
    sound.nested
  obtain ⟨orderly, extended⟩ := orderly_of_heritage sound foundBase
  obtain ⟨types, implementing⟩ := outcome_of_implementedTypes sound foundImplemented
  -- A head in which nothing stands has no edits; any other has a body.
  have plain : implemented.next = stream.classNameEnd keyword →
      generics = stream.classNameEnd keyword ∧ base = .still generics ∧
        implemented = .still base.next := by
    intro same
    have := parameters.ordered
    rcases extended with further | rfl
    · rcases implementing with later | rfl
      · omega
      · simp only [Progress.still] at same
        omega
    · rcases implementing with later | still
      · simp only [Progress.still] at later
        omega
      · rw [still] at same
        exact ⟨same, rfl, still⟩
  split at rest
  case isTrue opens =>
    simp only [bind_eq_ok_iff] at rest
    obtain ⟨close, closes, members, foundMembers, result⟩ := rest
    cases result
    rw [closeOf_eq_ok_iff] at closes
    have level : stream.Balanced generics base.next := by
      rcases regular with same | ⟨_, balanced⟩
      · rw [(plain same).2.1]
        exact .refl generics
      · exact balanced
    have head := Outcome.after (word.trans named) (outcome_attachedIf sound.placed parameters)
    have extending := head.append fun _ => orderly.outcome level
    have whole := extending.append fun _ => types
    exact whole.append fun _ => .inside_pair sound.nested closes
      (outcome_of_classMembersFrom sound advances closes (.refl _) foundMembers)
  case isFalse closed =>
    cases rest
    have same := regular.resolve_right fun body => closed body.1
    obtain ⟨rfl, rfl, rfl⟩ := plain same
    simp only [attachedIf, Nat.lt_irrefl, if_false, edits_still, List.append_nil]
    exact .nothing word

end Playground.TokenStream
