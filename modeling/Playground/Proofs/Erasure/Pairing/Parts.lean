import Playground.Proofs.Erasure.EditOrder

/-!
# Parts of walkers pass whole pairs

What the walkers of single constructs share: types and names are passed, annotations, markers
and modifiers are erased, and brackets are walked. A walk that is handed on is `Sound` when its
outcome is as `Outcome` says wherever it is `Contained`.
-/

namespace Playground

namespace TokenStream

variable {stream : TokenStream}

/-- A walk from an index meets no closing bracket unless it stops before it. -/
def Contained (stream : TokenStream) (start : Nat) (ending : WalkEnd) : Prop :=
  ∀ index, stream.Balanced start index → index < ending.limit →
    ¬(stream.kind? index = some .punctuator ∧ stream.textIn index ending.stops = true) →
      ∀ opening, stream.closer? opening ≠ some index

theorem Contained.rest {start middle : Nat} {ending : WalkEnd}
    (contained : stream.Contained start ending) (balanced : stream.Balanced start middle) :
    stream.Contained middle ending :=
  fun index level => contained index (balanced.trans level)

/-- A walk that ends within a balanced span is contained. -/
theorem contained_of_balanced {start stop : Nat} {ending : WalkEnd}
    (balanced : stream.Balanced start stop) (ends : ending.limit ≤ stop) :
    stream.Contained start ending := by
  intro index level before _ opening found
  have inside := (balanced.paired found).mpr ⟨level.ordered, Nat.lt_of_lt_of_le before ends⟩
  have closed := (level.paired found).mp ⟨inside.1, lt_of_closer?_eq_some found⟩
  omega

/-- A walk from the start of the program is contained. -/
theorem contained_zero (ending : WalkEnd) : stream.Contained 0 ending := by
  intro index level _ _ opening found
  have closed := (level.paired found).mp ⟨Nat.zero_le opening, lt_of_closer?_eq_some found⟩
  omega

/-- A walk that stops at every closing bracket is contained. -/
theorem contained_of_stops (nested : stream.Nested) {start : Nat} {ending : WalkEnd}
    (stops : ∀ closer ∈ [")", "]", "\x7d"], closer ∈ ending.stops) :
    stream.Contained start ending := by
  intro index _ _ unstopped opening found
  obtain ⟨_, kind, listed⟩ := nested.text_bracket found
  have closers : ∀ pair ∈ bracketPairs, pair.2 ∈ [")", "]", "\x7d"] := by
    decide
  exact unstopped ⟨kind, List.contains_iff_mem.mpr (stops _ (closers _ listed))⟩

end TokenStream

/-- A walk leaves brackets in pairs, as far as regular programs let it. -/
structure Walk.Sound (walk : Walk) (stream : TokenStream) : Prop where
  nested : stream.Nested
  placed : stream.Placed
  regular : stream.Regular
  outcome : ∀ {next ending progress}, stream.Contained next ending →
    walk next ending = .ok progress → stream.Outcome next progress.edits progress.next
  constructors : ∀ {opening close derived anchor before}, stream.is opening "\x7b" = true →
    stream.closer? opening = some close →
      stream.assignmentAnchor opening close derived = .ok anchor →
        walk (opening + 1) (.upTo (anchor + 1)) = .ok before →
          stream.Balanced (opening + 1) before.next → before.next ≤ anchor + 1
  templates : ∀ {head inside}, stream.kind? head = some .templateHead →
    walk (head + 1) (.upTo (stream.templateTail head)) = .ok inside →
      stream.Balanced (head + 1) inside.next → inside.next ≤ stream.templateTail head

namespace TokenStream

variable {stream : TokenStream}

/-! ## Types and names -/

section Passing

variable {index stop : Nat} (placed : stream.Placed)

include placed

theorem passes_of_expectType (found : stream.expectType index = .ok stop) :
    stream.Passes index stop := by
  unfold expectType at found
  split at found
  · cases found
    exact passes_of_typeEnd? placed ‹_›
  · contradiction

theorem passes_of_annotated (found : stream.optionalAnnotation index = .ok stop) :
    stream.Passes index stop := by
  unfold optionalAnnotation at found
  split at found
  · exact .token (isNeutral_of_is ‹_› (by decide)) (passes_of_expectType placed found)
  · cases found
    exact .nothing

theorem passes_of_optionalTypeParameters (found : stream.optionalTypeParameters index = .ok stop) :
    stream.Passes index stop := by
  unfold optionalTypeParameters expectTypeParameters at found
  split at found
  · split at found
    · cases found
      exact passes_of_typeParametersEnd? placed ‹_›
    · contradiction
  · cases found
    exact .nothing

theorem passes_of_typeListEnd {index stop : Nat} (found : stream.typeListEnd index = .ok stop) :
    stream.Passes index stop := by
  unfold typeListEnd at found
  obtain ⟨type, foundType, rest⟩ := bind_eq_ok_iff.mp found
  have passed := passes_of_expectType placed foundType
  split at rest
  case isTrue comma =>
    have inside := lt_size_of_is comma.2
    have advance : stream.size - (type + 1) < stream.size - index := by omega
    exact passed.trans (.token (isNeutral_of_is comma.2 (by decide))
      (passes_of_typeListEnd rest))
  case isFalse =>
    cases rest
    exact passed
termination_by stream.size - index

end Passing

theorem passes_functionNameEnd (keyword : Nat) :
    stream.Passes (keyword + 1) (stream.functionNameEnd keyword) := by
  have named : ∀ star, stream.Passes star (if stream.isPlainWord star then star + 1 else star) := by
    intro star
    split
    · exact .single (isNeutral_of_isPlainWord ‹_›)
    · exact .nothing
  unfold functionNameEnd
  extract_lets star
  refine Passes.trans ?_ (named star)
  unfold star
  split
  · exact .single (isNeutral_of_is ‹_› (by decide))
  · exact .nothing

theorem lt_of_typeArgumentsEnd? (nested : stream.Nested) (placed : stream.Placed)
    {index stop : Nat} (found : stream.typeArgumentsEnd? index = some stop) : index < stop := by
  unfold typeArgumentsEnd? typeArgumentsWith? at found
  rw [if_pos (angle_of_typeArguments found)] at found
  exact ((phrase_of_typeArgumentsTail? (phrase_of_typeEnd? placed) found).balanced nested).ordered

theorem lt_of_typeParametersEnd? (nested : stream.Nested) (placed : stream.Placed)
    {index stop : Nat} (found : stream.typeParametersEnd? index = some stop) : index < stop := by
  unfold typeParametersEnd? typeParametersWith? at found
  rw [if_pos (angle_of_typeParameters found)] at found
  exact ((phrase_of_typeParametersTail? (phrase_of_typeEnd? placed) placed found).balanced
    nested).ordered

theorem passes_of_memberNameEnd {name stop : Nat} (found : stream.memberNameEnd name = .ok stop) :
    stream.Passes name stop := by
  unfold memberNameEnd at found
  split at found
  · obtain ⟨close, closes, result⟩ := bind_eq_ok_iff.mp found
    cases result
    exact .enclosed (closeOf_eq_ok_iff.mp closes)
  · split at found
    case h_1 word =>
      cases found
      exact .single (isNeutral_of_kind? word (.inl rfl))
    case h_2 string =>
      cases found
      exact .single (isNeutral_of_kind? string (.inr (.inr (.inl rfl))))
    case h_3 number =>
      cases found
      exact .single (isNeutral_of_kind? number (.inr (.inl rfl)))
    case h_4 => contradiction

/-! ## Erasures -/

section Erasing

variable {index first stop : Nat} (nested : stream.Nested) (placed : stream.Placed)

include placed

theorem outcome_attached (ordered : first < stop) (balanced : stream.Balanced first stop) :
    stream.Outcome first [stream.attached first stop] stop := by
  obtain ⟨start, shape, drops⟩ := drops_attached placed ordered
  rw [shape]
  exact .erase drops balanced

theorem outcome_attachedIf (balanced : stream.Balanced first stop) :
    stream.Outcome first (stream.attachedIf first stop) stop := by
  unfold attachedIf
  split
  · exact outcome_attached placed ‹_› balanced
  · exact .nothing balanced

include nested

theorem outcome_single (neutral : stream.IsNeutral index) :
    stream.Outcome index [stream.single index] (index + 1) :=
  .erase (drops_whole placed (Nat.lt_succ_self index)) (.neutral nested neutral)

theorem outcome_leading (neutral : stream.IsNeutral index) :
    stream.Outcome index [stream.leading index] (index + 1) :=
  .erase (drops_leading placed (Nat.lt_succ_self index)) (.neutral nested neutral)

/-- Modifiers are erased or kept one by one. -/
theorem outcome_modifiers (chosen : Nat → Option Edit) (first count : Nat)
    (erased : ∀ index edit, chosen index = some edit → edit = stream.leading index)
    (neutral : ∀ index, first ≤ index → index < first + count → stream.IsNeutral index) :
    stream.Outcome first ((List.range' first count).filterMap chosen) (first + count) := by
  induction count generalizing first with
  | zero => exact .nothing (.refl first)
  | succ count inductionHypothesis =>
    have here := neutral first (Nat.le_refl first) (by omega)
    have one : stream.Outcome first (chosen first).toList (first + 1) := by
      cases choice : chosen first with
      | none => exact .nothing (.neutral nested here)
      | some edit =>
        rw [erased first edit choice]
        exact outcome_leading nested placed here
    have rest := inductionHypothesis (first + 1)
      fun index lower upper => neutral index (by omega) (by omega)
    have whole := one.append fun _ => rest
    rw [Nat.add_right_comm, Nat.add_assoc] at whole
    rw [List.range'_succ]
    cases choice : chosen first with
    | none => simpa [choice] using whole
    | some edit => simpa [choice] using whole

theorem outcome_of_erasedAnnotation {progress : Progress}
    (found : stream.erasedAnnotation index = .ok progress) :
    stream.Outcome index progress.edits progress.next := by
  obtain ⟨stop, annotated, result⟩ := bind_eq_ok_iff.mp found
  cases result
  exact outcome_attachedIf placed ((passes_of_annotated placed annotated).balanced nested)

theorem outcome_erasedMarker (mark : String)
    (plain : ["(", "[", "\x7b", ")", "]", "\x7d"].contains mark = false) (index : Nat) :
    stream.Outcome index (stream.erasedMarker mark index).edits
      (stream.erasedMarker mark index).next := by
  unfold erasedMarker
  split
  · exact outcome_single nested placed (isNeutral_of_is ‹_› plain)
  · exact .nothing (.refl index)

theorem outcome_definiteMark (index : Nat) :
    stream.Outcome index (stream.definiteMark index).edits (stream.definiteMark index).next := by
  unfold definiteMark
  split
  · exact outcome_erasedMarker nested placed "!" (by decide) index
  · exact .nothing (.refl index)

end Erasing

/-! ## Brackets and values -/

section Walks

variable {walk : Walk} (sound : walk.Sound stream)

include sound

theorem outcome_of_walkInside {index : Nat} {progress : Progress}
    (found : stream.walkInside walk index = .ok progress) :
    stream.Outcome index progress.edits progress.next := by
  obtain ⟨close, closes, rest⟩ := bind_eq_ok_iff.mp found
  obtain ⟨inside, foundInside, result⟩ := bind_eq_ok_iff.mp rest
  cases result
  rw [closeOf_eq_ok_iff] at closes
  have contained : stream.Contained (index + 1) (.upTo close) :=
    contained_of_balanced (.inside_pair sound.nested closes) (Nat.le_refl close)
  have inner := sound.outcome contained foundInside
  exact .inside_pair sound.nested closes inner

theorem outcome_of_initializer {index : Nat} {ending : WalkEnd} {progress : Progress}
    (contained : stream.Contained index ending)
    (found : stream.initializer walk index ending = .ok progress) :
    stream.Outcome index progress.edits progress.next := by
  unfold initializer at found
  split at found
  · have equals : stream.Balanced index (index + 1) :=
      .neutral sound.nested (isNeutral_of_is ‹_› (by decide))
    exact .after equals (sound.outcome (contained.rest equals) found)
  · cases found
    exact .nothing (.refl index)

end Walks

end TokenStream

end Playground
