import Playground.Proofs.Erasure.Courses
import Playground.Proofs.Erasure.Juxtaposition

/-!
# What a walk leaves alone

A construct is edited behind the token that it starts behind. Only a declaration reaches back, over
the modifiers before its keyword; a token that is no such modifier is a barrier.
-/

namespace Playground

namespace TokenStream

/-- No declaration reaches back over a token. -/
def IsBarrier (stream : TokenStream) (barrier : Nat) : Prop :=
  stream.declarationStart (barrier + 1) = barrier + 1

/-- Edits begin behind a token. -/
def AllBehind (stream : TokenStream) (barrier : Nat) (edits : List Edit) : Prop :=
  ∀ edit ∈ edits, stream.stopOf barrier ≤ edit.start

end TokenStream

/-- A walk edits nothing up to a token. -/
def Walk.Spares (walk : Walk) (stream : TokenStream) (barrier : Nat) : Prop :=
  ∀ {next ending progress}, walk next ending = .ok progress →
    stream.AllBehind barrier progress.edits

namespace TokenStream

variable {stream : TokenStream} {barrier index keyword : Nat} {progress : Progress}

/-- A token that is written unlike the modifiers of a declaration is a barrier. -/
theorem isBarrier_of_text (other : stream.text barrier ∉ ["export", "default", "declare", "async"]) :
    stream.IsBarrier barrier := by
  have noModifier : stream.textIn barrier ["export", "default", "declare", "async"] = false := by
    simpa [textIn] using other
  rw [IsBarrier, declarationStart, noModifier, Bool.and_false, if_neg Bool.false_ne_true]

@[simp] theorem allBehind_nil : stream.AllBehind barrier [] := by
  simp [AllBehind]

@[simp] theorem allBehind_cons {edit : Edit} {edits : List Edit} :
    stream.AllBehind barrier (edit :: edits) ↔
      stream.stopOf barrier ≤ edit.start ∧ stream.AllBehind barrier edits := by
  simp [AllBehind]

@[simp] theorem allBehind_append {first second : List Edit} :
    stream.AllBehind barrier (first ++ second) ↔
      stream.AllBehind barrier first ∧ stream.AllBehind barrier second := by
  simp only [AllBehind, List.mem_append]
  exact ⟨fun all => ⟨fun edit member => all edit (.inl member),
    fun edit member => all edit (.inr member)⟩,
    fun all edit member => member.elim (all.1 edit) (all.2 edit)⟩

section

variable (placed : stream.Placed)

include placed

/-! ## Single edits -/

/-- An edit that begins with a token behind the barrier. -/
theorem allBehind_single {edit : Edit} (after : barrier < index)
    (starts : edit.start = stream.startOf index) : stream.AllBehind barrier [edit] := by
  simpa [starts] using placed.stopOf_le_startOf after

/-- The blanks before a token lie behind the barrier as well. -/
theorem allBehind_attached (after : barrier < index) (stop : Nat) :
    stream.AllBehind barrier [stream.attached index stop] := by
  have nonzero : index ≠ 0 := Nat.ne_zero_of_lt after
  simpa [attached, Edit.start, nonzero] using placed.stopOf_mono (Nat.le_sub_one_of_lt after)

omit placed in
theorem IsBarrier.lt_declarationStart (solid : stream.IsBarrier barrier)
    (after : barrier < keyword) : barrier < stream.declarationStart keyword := by
  induction keyword with
  | zero => exact absurd after (Nat.not_lt_zero barrier)
  | succ keyword inductionHypothesis =>
    rcases Nat.lt_or_eq_of_le (Nat.le_of_lt_succ after) with further | rfl
    · unfold declarationStart
      split
      · exact inductionHypothesis further
      · exact after
    · rw [solid]
      exact Nat.lt_succ_self barrier

theorem allBehind_declarationErased (solid : stream.IsBarrier barrier) (after : barrier < keyword)
    (stop : Nat) : stream.AllBehind barrier [stream.declarationErased keyword stop] :=
  allBehind_single placed (solid.lt_declarationStart after) rfl

/-! ## Parts of every construct -/

theorem allBehind_attachedIf (after : barrier < index) (stop : Nat) :
    stream.AllBehind barrier (stream.attachedIf index stop) := by
  unfold attachedIf
  split
  · exact allBehind_attached placed after stop
  · simp

theorem allBehind_of_erasedAnnotation (after : barrier < index)
    (found : stream.erasedAnnotation index = .ok progress) :
    stream.AllBehind barrier progress.edits := by
  obtain ⟨stop, _, result⟩ := bind_eq_ok_iff.mp found
  cases result
  exact allBehind_attachedIf placed after stop

theorem allBehind_erasedMarker (after : barrier < index) (mark : String) :
    stream.AllBehind barrier (stream.erasedMarker mark index).edits := by
  unfold erasedMarker
  split
  · exact allBehind_single placed after rfl
  · simp

theorem allBehind_definiteMark (after : barrier < index) :
    stream.AllBehind barrier (stream.definiteMark index).edits := by
  unfold definiteMark
  split
  · exact allBehind_erasedMarker placed after "!"
  · simp

/-! ## Expressions and clauses -/

theorem allBehind_angle (after : barrier < index) :
    stream.AllBehind barrier (stream.angle index).edits := by
  unfold angle
  dsimp only
  split
  · unfold callArguments?
    split
    · cases (stream.typeArgumentsEnd? index).filter stream.startsCall with
      | none => simp
      | some stop => exact allBehind_attached placed after stop
    · simp
  · unfold arrowParameters?
    cases (stream.typeParametersEnd? index).filter stream.opensArrowHead with
    | none => simp
    | some stop => exact allBehind_single placed after rfl

theorem allBehind_nonNullMark (after : barrier < index) :
    stream.AllBehind barrier (stream.nonNullMark index).edits := by
  unfold nonNullMark
  split
  · exact allBehind_single placed after rfl
  · simp

theorem allBehind_typeAssertion (after : barrier < keyword) :
    stream.AllBehind barrier (stream.typeAssertion keyword).edits := by
  unfold typeAssertion
  split
  · exact allBehind_attached placed after _
  split
  · exact allBehind_attached placed after _
  · simp

theorem allBehind_of_catchHead (after : barrier < keyword)
    (found : stream.catchHead keyword = .ok progress) :
    stream.AllBehind barrier progress.edits := by
  simp only [catchHead, bind_eq_ok_iff] at found
  obtain ⟨close, closes, target, foundTarget, noted, _, result⟩ := found
  cases result
  refine allBehind_attachedIf placed ?_ noted
  unfold catchTargetEnd at foundTarget
  split at foundTarget
  · obtain ⟨pattern, foundPattern, result⟩ := bind_eq_ok_iff.mp foundTarget
    cases result
    have := lt_of_closeOf foundPattern
    omega
  · cases foundTarget
    omega

theorem allBehind_of_enumDeclaration {first : Nat} (after : barrier < first)
    (found : stream.enumDeclaration first keyword = .ok progress) :
    stream.AllBehind barrier progress.edits := by
  unfold enumDeclaration at found
  dsimp only at found
  split at found
  · simp only [bind_eq_ok_iff] at found
    obtain ⟨close, _, body, _, result⟩ := found
    cases result
    exact allBehind_single placed after rfl
  · contradiction

theorem allBehind_erasedSpecifiersFrom (after : barrier < index) (close : Nat) :
    stream.AllBehind barrier (stream.erasedSpecifiersFrom index close) := by
  fun_induction stream.erasedSpecifiersFrom index close with
  | case1 index inside stop dropped inductionHypothesis =>
    have later : index ≤ stop := le_runEnd ..
    refine allBehind_append.mpr ⟨?_, inductionHypothesis (by omega)⟩
    unfold dropped
    split
    · exact allBehind_single placed after rfl
    · simp
  | case2 => simp

theorem allBehind_of_erasedSpecifiers {first stop : Nat} {edits : List Edit}
    (after : barrier < first) (found : stream.erasedSpecifiers first stop = .ok edits) :
    stream.AllBehind barrier edits := by
  unfold erasedSpecifiers at found
  split at found
  · cases found
    simp
  · rename_i opening foundOpening
    obtain ⟨close, _, result⟩ := bind_eq_ok_iff.mp found
    cases result
    have listed := List.mem_of_find?_eq_some foundOpening
    have bounds := List.mem_range'_1.mp listed
    exact allBehind_erasedSpecifiersFrom placed (by omega) close

theorem allBehind_of_importDeclaration (after : barrier < keyword)
    (found : stream.importDeclaration keyword = .ok progress) :
    stream.AllBehind barrier progress.edits := by
  unfold importDeclaration at found
  dsimp only at found
  split at found
  · split at found
    · cases found
      exact allBehind_single placed after rfl
    · obtain ⟨edits, foundEdits, result⟩ := bind_eq_ok_iff.mp found
      cases result
      exact allBehind_of_erasedSpecifiers placed (Nat.lt_succ_of_lt after) foundEdits
  · cases found
    simp

theorem allBehind_of_exportDeclaration (after : barrier < keyword)
    (found : stream.exportDeclaration keyword = .ok progress) :
    stream.AllBehind barrier progress.edits := by
  unfold exportDeclaration at found
  dsimp only at found
  split at found
  · obtain ⟨stop, _, result⟩ := bind_eq_ok_iff.mp found
    cases result
    exact allBehind_single placed after rfl
  split at found
  · cases found
    exact allBehind_single placed after rfl
  split at found
  · simp only [bind_eq_ok_iff] at found
    obtain ⟨close, _, edits, foundEdits, result⟩ := found
    cases result
    exact allBehind_of_erasedSpecifiers placed (Nat.lt_succ_of_lt after) foundEdits
  · cases found
    simp

/-! ## Declarations without a counterpart at run time -/

section Declarations

variable (solid : stream.IsBarrier barrier)

include solid

theorem allBehind_of_interfaceDeclaration (after : barrier < keyword)
    (found : stream.interfaceDeclaration keyword = .ok progress) :
    stream.AllBehind barrier progress.edits := by
  simp only [interfaceDeclaration, bind_eq_ok_iff] at found
  obtain ⟨generics, _, opening, _, rest⟩ := found
  split at rest
  · obtain ⟨close, _, result⟩ := bind_eq_ok_iff.mp rest
    cases result
    exact allBehind_declarationErased placed solid after _
  · contradiction

theorem allBehind_of_aliasDeclaration (after : barrier < keyword)
    (found : stream.aliasDeclaration keyword = .ok progress) :
    stream.AllBehind barrier progress.edits := by
  obtain ⟨generics, _, rest⟩ := bind_eq_ok_iff.mp found
  split at rest
  · obtain ⟨type, _, result⟩ := bind_eq_ok_iff.mp rest
    cases result
    exact allBehind_declarationErased placed solid after _
  · cases rest
    simp

theorem allBehind_ambientDeclaration (after : barrier < keyword) :
    stream.AllBehind barrier (stream.ambientDeclaration keyword).edits :=
  allBehind_declarationErased placed solid after _

end Declarations

/-! ## Bindings -/

section Walks

variable {walk : Walk} (spares : walk.Spares stream barrier)

include spares

omit placed in
theorem allBehind_of_walkInside (walked : stream.walkInside walk index = .ok progress) :
    stream.AllBehind barrier progress.edits := by
  obtain ⟨close, _, rest⟩ := bind_eq_ok_iff.mp walked
  obtain ⟨inside, found, result⟩ := bind_eq_ok_iff.mp rest
  cases result
  exact (spares found : stream.AllBehind barrier inside.edits)

omit placed in
theorem allBehind_of_initializer {ending : WalkEnd}
    (walked : stream.initializer walk index ending = .ok progress) :
    stream.AllBehind barrier progress.edits := by
  unfold initializer at walked
  split at walked
  · exact spares walked
  · cases walked
    simp

omit placed in
theorem allBehind_of_controlHead (found : stream.controlHead walk keyword = .ok progress) :
    stream.AllBehind barrier progress.edits := by
  unfold controlHead at found
  extract_lets opening at found
  split at found
  · exact allBehind_of_walkInside spares found
  · cases found
    simp

end Walks

end

end TokenStream

end Playground
