import Playground.Proofs.Erasure.Draft
import Playground.Proofs.Erasure.Loops

/-!
# Every walker makes progress

A step, a class member and every turn of a loop end behind the index that they begin at, and the
guards that end the walkers in any case are never what ends them (`MakesProgress`). The draft that
the edits are applied to only grows meanwhile: an edit passes more of the source and writes at the
end (`Draft.Grows`).
-/

namespace Playground

namespace Draft

/-- A draft has passed no less of the source than another, and what the other has written. -/
structure Grows (source : Array Char) (before after : Draft) : Prop where
  copied : before.copied ≤ after.copied
  written : before.characters source <+: after.characters source

variable {source : Array Char} {draft : Draft}

theorem le_copied_apply (edit : Edit) : draft.copied ≤ (draft.apply source edit).copied := by
  unfold apply
  split
  · split
    · exact Nat.le_refl _
    · simp only [copied_dropTo, copied_write, copied_keepTo]
      omega
  · simp only [copied_dropTo, copied_write, copied_keepTo]
    omega
  · simp only [copied_write, copied_keepTo]
    omega

theorem le_copied_applyAll (edits : List Edit) :
    draft.copied ≤ (draft.applyAll source edits).copied := by
  induction edits generalizing draft with
  | nil => exact Nat.le_refl _
  | cons edit _ inductionHypothesis =>
    exact Nat.le_trans (le_copied_apply edit) inductionHypothesis

/-- Further edits let a draft grow. -/
theorem grows_applyAll (draft : Draft) (done left : List Edit) :
    Grows source (draft.applyAll source done) (draft.applyAll source (done ++ left)) := by
  rw [show draft.applyAll source (done ++ left) =
    (draft.applyAll source done).applyAll source left from List.foldl_append ..]
  exact ⟨le_copied_applyAll left, prefix_applyAll source _ left⟩

end Draft

namespace TokenStream

/-- The walkers of a program make progress, and so does the draft that they work on. -/
structure MakesProgress (stream : TokenStream) : Prop where
  step : ∀ {index progress}, stream.step stream.nestedWalk index = .ok progress →
    index < progress.next
  classMember : ∀ {first close derived progress}, first < close →
    stream.classMember stream.nestedWalk first close derived = .ok progress →
      first < progress.next
  walks : ∀ first ending, Loops id (min ending.limit stream.size) (stream.walkTurn first ending)
    fun index => stream.walkFrom first index ending
  parameters : ∀ close, Loops id close (stream.parameterTurn stream.nestedWalk close)
    fun index => stream.parametersFrom stream.nestedWalk index close
  parameterModifiers : Loops id stream.size
    (runTurn (fun index =>
      stream.textIn index parameterModifiers && stream.startsBinding (index + 1)) stream.size)
    fun index => .ok (stream.parameterModifiersEnd index)
  declaredVariables : Loops id stream.size (stream.variableTurn stream.nestedWalk)
    (stream.variablesFrom stream.nestedWalk)
  enumMembers : ∀ name close, Loops Prod.fst close (stream.enumTurn name close)
    fun state => stream.enumMembersFrom name state.1 close state.2
  enumValues : ∀ close, Loops id close (stream.seekTurn (stream.is · ",") close)
    fun index => .ok (stream.memberValueEnd index close)
  heritage : Loops id stream.size (stream.heritageTurn stream.nestedWalk)
    (stream.heritageFrom stream.nestedWalk)
  implementedTypes : Loops id stream.size stream.typeTurn stream.typeListEnd
  classMembers : ∀ close derived, Loops id close (stream.memberTurn stream.nestedWalk close derived)
    fun index => stream.classMembersFrom stream.nestedWalk index close derived
  statementEnd : ∀ first limit,
    stream.statementEnd first limit = stream.statementEndFrom first limit first ∧
      Loops id limit (stream.statementTurn first limit)
        fun index => .ok (stream.statementEndFrom first limit index)
  moduleClauseEnd : Loops id stream.size stream.moduleTurn
    fun index => .ok (stream.moduleClauseEnd index)
  /-- However many of the edits that are found have been applied to whatever draft. -/
  drafts : ∀ (draft : Draft) (done left : List Edit),
    Draft.Grows stream.source (draft.applyAll stream.source done)
      (draft.applyAll stream.source (done ++ left))

/-- The walkers of every accepted program make progress. -/
theorem makesProgress_of_ofSource {source : List Char} {stream : TokenStream}
    (read : ofSource source = .ok stream) : stream.MakesProgress := by
  have nested := nested_of_ofSource read
  have placed := placed_of_ofSource read
  have advances : stream.nestedWalk.Advances := advances_nestedWalk nested placed
  constructor
  case step => exact lt_of_step_nestedWalk nested placed
  case classMember => exact lt_of_classMember nested placed advances
  case walks => exact loops_walkFrom nested placed
  case parameters => exact loops_parametersFrom nested placed advances
  case parameterModifiers => exact loops_runEnd _ _
  case declaredVariables => exact loops_variablesFrom nested placed advances
  case enumMembers => exact loops_enumMembersFrom
  case enumValues => exact loops_seek _
  case heritage => exact loops_heritageFrom nested placed
  case implementedTypes => exact loops_typeListEnd nested placed
  case classMembers => exact loops_classMembersFrom nested placed advances
  case statementEnd => exact fun first limit => ⟨rfl, loops_statementEnd first limit⟩
  case moduleClauseEnd => exact loops_moduleClauseEnd
  case drafts => exact Draft.grows_applyAll

/-- A program with loops of all kinds. -/
theorem makesProgress_of_derivedClass :
    ∃ stream, ofSource ("import a from 'b'; enum E \x7b X = 1, Y \x7d " ++
        "class A extends B<T> \x7b m(public x: T, y = 1) \x7b let z: T, w \x7d \x7d").toList =
          .ok stream ∧
      (stream.step stream.nestedWalk 14).toOption.map Progress.next = some stream.size ∧
      stream.MakesProgress := by
  obtain ⟨stream, read, stepped⟩ := exists_ok_of_any
    (fun stream : TokenStream =>
      (stream.step stream.nestedWalk 14).toOption.map Progress.next = some stream.size)
    (show ((ofSource ("import a from 'b'; enum E \x7b X = 1, Y \x7d " ++
      "class A extends B<T> \x7b m(public x: T, y = 1) \x7b let z: T, w \x7d \x7d").toList
        ).toOption.any fun stream => decide _) = true by decide +kernel)
  exact ⟨stream, read, stepped, makesProgress_of_ofSource read⟩

end TokenStream

end Playground
