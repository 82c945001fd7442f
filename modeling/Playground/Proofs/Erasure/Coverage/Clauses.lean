import Playground.Proofs.Erasure.Coverage.Basic

/-!
# Marks in expressions, clauses and declarations

Types are erased up to their ends. A clause is erased whole or passed without a look, and nothing
in it is erased behind a token that comes after the clause.
-/

namespace Playground.TokenStream

variable {stream : TokenStream} {mark index keyword floor : Nat} {progress : Progress}
  (placed : stream.Placed)

/-! ## Annotations and markers -/

section Parts

include placed

theorem settles_erasedMarker (text : String) (index : Nat) :
    stream.Settles mark index (stream.erasedMarker text index).edits
      (stream.erasedMarker text index).next := by
  unfold erasedMarker
  split
  · exact settles_single placed index
  · exact .still index

theorem settles_definiteMark (index : Nat) :
    stream.Settles mark index (stream.definiteMark index).edits
      (stream.definiteMark index).next := by
  unfold definiteMark
  split
  · exact settles_erasedMarker placed "!" index
  · exact .still index

theorem settles_of_erasedAnnotation (found : stream.erasedAnnotation index = .ok progress) :
    stream.Settles mark index progress.edits progress.next := by
  obtain ⟨stop, _, result⟩ := bind_eq_ok_iff.mp found
  cases result
  exact settles_attachedIf placed index stop

end Parts

/-! ## Expressions -/

section Expressions

variable (sought : stream.Sought mark)

include placed sought

theorem settles_angle (angle : stream.is index "<" = true) :
    stream.Settles mark index (stream.angle index).edits (stream.angle index).next := by
  have still := sought.settles_token angle (by decide)
  unfold TokenStream.angle
  dsimp only
  split
  · unfold callArguments?
    split
    · cases (stream.typeArgumentsEnd? index).filter stream.startsCall with
      | none => exact still
      | some stop => exact settles_attached placed index stop
    · exact still
  · unfold arrowParameters?
    cases (stream.typeParametersEnd? index).filter stream.opensArrowHead with
    | none => exact still
    | some stop => exact settles_upTo placed index stop

/-- The mark that is looked for is erased where a step comes to it. -/
theorem settles_nonNullMark (index : Nat) :
    stream.Settles mark index (stream.nonNullMark index).edits (stream.nonNullMark index).next := by
  unfold nonNullMark
  split
  · exact settles_single placed index
  · rename_i refused
    refine .other fun same => refused ?_
    subst same
    have takes : stream.takesNonNullMark (mark - 1) = true := by
      simp [takesNonNullMark, sought.nonNull.operand, textIn, sought.nonNull.named]
    simp [sought.nonNull.positive, sought.nonNull.sameLine, takes, sought.follows]

theorem settles_typeAssertion (word : stream.kind? keyword = some .word) :
    stream.Settles mark keyword (stream.typeAssertion keyword).edits
      (stream.typeAssertion keyword).next := by
  unfold typeAssertion
  split
  · exact settles_attached placed keyword (keyword + 2)
  split
  · exact settles_attached placed keyword _
  · exact sought.settles_kind placed word (by decide)

end Expressions

/-! ## Declarations that vanish -/

section Declarations

include placed

theorem settles_of_interfaceDeclaration
    (found : stream.interfaceDeclaration keyword = .ok progress) :
    stream.Settles mark keyword progress.edits progress.next := by
  simp only [interfaceDeclaration, bind_eq_ok_iff] at found
  obtain ⟨generics, _, opening, _, rest⟩ := found
  split at rest
  · obtain ⟨close, _, result⟩ := bind_eq_ok_iff.mp rest
    cases result
    exact settles_declarationErased placed keyword (close + 1)
  · contradiction

theorem settles_of_aliasDeclaration (sought : stream.Sought mark)
    (word : stream.kind? keyword = some .word)
    (found : stream.aliasDeclaration keyword = .ok progress) :
    stream.Settles mark keyword progress.edits progress.next := by
  obtain ⟨generics, _, rest⟩ := bind_eq_ok_iff.mp found
  split at rest
  · obtain ⟨type, _, result⟩ := bind_eq_ok_iff.mp rest
    cases result
    exact settles_declarationErased placed keyword _
  · cases rest
    exact sought.settles_kind placed word (by decide)

theorem settles_ambientDeclaration (keyword : Nat) :
    stream.Settles mark keyword (stream.ambientDeclaration keyword).edits
      (stream.ambientDeclaration keyword).next :=
  settles_declarationErased placed keyword _

theorem settles_of_enumDeclaration {first : Nat}
    (found : stream.enumDeclaration first keyword = .ok progress) :
    stream.Settles mark first progress.edits progress.next := by
  unfold enumDeclaration at found
  dsimp only at found
  split at found
  · simp only [bind_eq_ok_iff] at found
    obtain ⟨close, _, body, _, result⟩ := found
    cases result
    exact .single (fun after => placed.startOf_mono after) fun after before =>
      ⟨placed.startOf_mono after, placed.stopOf_mono (Nat.le_of_lt_succ before)⟩
  · contradiction

end Declarations

/-! ## Clauses -/

section Clauses

include placed

/-- Specifiers are erased before the brace that closes their list. -/
theorem early_erasedSpecifiersFrom {close : Nat} (beyond : close ≤ mark) :
    stream.Early mark (stream.erasedSpecifiersFrom index close) := by
  fun_induction stream.erasedSpecifiersFrom index close with
  | case1 index inside stop dropped inductionHypothesis =>
    refine Early.append ?_ inductionHypothesis
    unfold dropped
    split
    · exact early_single (placed.startOf_mono (Nat.le_of_lt (Nat.lt_of_lt_of_le inside beyond)))
    · exact early_nil
  | case2 => exact early_nil

theorem early_of_erasedSpecifiers {first stop : Nat} {edits : List Edit}
    (closed : stream.Closes first stop) (beyond : stop ≤ mark)
    (found : stream.erasedSpecifiers first stop = .ok edits) : stream.Early mark edits := by
  unfold erasedSpecifiers at found
  split at found
  · cases found
    exact early_nil
  · rename_i opening brace
    obtain ⟨close, closes, result⟩ := bind_eq_ok_iff.mp found
    cases result
    have range := List.mem_range'_1.mp (List.mem_of_find?_eq_some brace)
    have inside := closed opening close (closeOf_eq_ok_iff.mp closes) range.1 (by omega)
    exact early_erasedSpecifiersFrom placed (by omega)

variable (nested : stream.Nested) (sought : stream.Sought mark)

include nested sought

theorem settles_of_importDeclaration (word : stream.IsKeyword keyword "import")
    (found : stream.importDeclaration keyword = .ok progress) :
    stream.Settles mark keyword progress.edits progress.next := by
  have passed := sought.settles_token word.1 (by decide)
  unfold importDeclaration at found
  dsimp only at found
  split at found
  case isFalse =>
    cases found
    exact passed
  case isTrue clause =>
    split at found
    case isTrue =>
      cases found
      exact settles_whole placed keyword _
    case isFalse values =>
      obtain ⟨edits, foundEdits, result⟩ := bind_eq_ok_iff.mp found
      cases result
      have outside : keyword + 1 ≤ mark → stream.moduleClauseEnd (keyword + 1) ≤ mark := by
        intro after
        by_contra before
        exact sought.attended (.imported word clause (Bool.eq_false_iff.mpr values) after
          (Nat.lt_of_not_le before))
      exact passed.after
        { clear := fun after => .inr (early_of_erasedSpecifiers placed
            (closes_moduleClauseEnd nested (keyword + 1)) (outside after) foundEdits)
          caught := fun after before => absurd before (Nat.not_lt_of_le (outside after)) }

theorem settles_of_exportDeclaration (word : stream.IsKeyword keyword "export")
    (found : stream.exportDeclaration keyword = .ok progress) :
    stream.Settles mark keyword progress.edits progress.next := by
  have passed := sought.settles_token word.1 (by decide)
  unfold exportDeclaration at found
  dsimp only at found
  split at found
  · obtain ⟨stop, _, result⟩ := bind_eq_ok_iff.mp found
    cases result
    exact settles_whole placed keyword stop
  split at found
  · cases found
    exact settles_whole placed keyword _
  split at found
  case isTrue brace =>
    simp only [bind_eq_ok_iff] at found
    obtain ⟨close, closes, edits, foundEdits, result⟩ := found
    cases result
    rw [closeOf_eq_ok_iff] at closes
    have pair := Balanced.pair nested closes
    have outside : keyword + 1 ≤ mark → close < mark :=
      sought.lt_of_aside nested closes (.exported word brace closes)
    exact passed.after
      { clear := fun after => .inr (early_of_erasedSpecifiers placed pair.closes (outside after)
          foundEdits)
        caught := fun after before => absurd before (Nat.not_lt_of_le (outside after)) }
  case isFalse =>
    cases found
    exact passed

theorem settles_of_catchHead (word : stream.IsKeyword keyword "catch")
    (found : stream.catchHead keyword = .ok progress) :
    stream.Settles mark keyword progress.edits progress.next := by
  simp only [catchHead, bind_eq_ok_iff] at found
  obtain ⟨close, closes, target, foundTarget, stop, annotated, result⟩ := found
  cases result
  rw [closeOf_eq_ok_iff] at closes
  have opened := lt_of_closer?_eq_some closes
  have reached : target ≤ close + 1 := by
    unfold catchTargetEnd at foundTarget
    split at foundTarget
    · obtain ⟨pattern, foundPattern, result⟩ := bind_eq_ok_iff.mp foundTarget
      cases result
      have binding := Balanced.pair nested (closeOf_eq_ok_iff.mp foundPattern)
      exact Nat.le_succ_of_le (binding.le_close closes (Nat.lt_succ_self _) opened)
    · cases foundTarget
      omega
  have outside : keyword + 1 ≤ mark → close < mark :=
    sought.lt_of_aside nested closes (.binding word closes)
  exact (sought.settles_token word.1 (by decide)).after
    { clear := fun after =>
        (settles_attachedIf placed target stop).clear (Nat.le_trans reached (outside after))
      caught := fun after before => absurd before (Nat.not_lt_of_le (outside after)) }

end Clauses

end Playground.TokenStream
