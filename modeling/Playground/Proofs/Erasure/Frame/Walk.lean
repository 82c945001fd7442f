import Playground.Proofs.Erasure.Frame.ClassBody

/-!
# A walk edits nothing before it

What a walk finds behind a barrier begins behind it (`allBehind_of_walkFrom`).
-/

namespace Playground.TokenStream

variable {stream : TokenStream} {barrier index : Nat} {progress : Progress}

section Walks

variable (nested : stream.Nested) (placed : stream.Placed) {walk : Walk}
  (spares : walk.Spares stream barrier) (advances : walk.Advances)

include nested placed spares advances

theorem allBehind_of_step (solid : stream.IsBarrier barrier) (after : barrier < index)
    (found : stream.step walk index = .ok progress) : stream.AllBehind barrier progress.edits := by
  cases starts_of_step found with
  | word | mark | token => exact allBehind_nil
  | interface _ _ _ found => exact allBehind_of_interfaceDeclaration placed solid after found
  | typeAlias _ _ _ found => exact allBehind_of_aliasDeclaration placed solid after found
  | ambient => exact allBehind_ambientDeclaration placed solid after
  | abstractClass => exact allBehind_single placed after rfl
  | enumeration _ _ _ found => exact allBehind_of_enumDeclaration placed after found
  | bindings _ found =>
    exact allBehind_of_variablesFrom placed spares (Nat.lt_succ_of_lt after) found
  | function _ found =>
    exact allBehind_of_functionDeclaration nested placed spares advances solid after found
  | classBody _ found =>
    exact allBehind_of_classDeclaration nested placed spares advances after found
  | assertion => exact allBehind_typeAssertion placed after
  | importClause _ found => exact allBehind_of_importDeclaration placed after found
  | exportClause _ found => exact allBehind_of_exportDeclaration placed after found
  | catchClause _ found => exact allBehind_of_catchHead placed after found
  | control _ found => exact allBehind_of_controlHead spares found
  | parenthesis _ found => exact allBehind_of_parenthesis nested placed spares advances after found
  | bracket _ found => exact allBehind_of_walkInside spares found
  | angle => exact allBehind_angle placed after
  | nonNullMark => exact allBehind_nonNullMark placed after
  | @template inside _ walked => exact (spares walked : stream.AllBehind barrier inside.edits)

end Walks

/-- A walk edits nothing up to a barrier before it. -/
theorem allBehind_of_walkFrom (nested : stream.Nested) (placed : stream.Placed)
    (solid : stream.IsBarrier barrier) {first : Nat} {ending : WalkEnd} (after : barrier < index)
    (found : stream.walkFrom first index ending = .ok progress) :
    stream.AllBehind barrier progress.edits := by
  replace found := walkCourse_of_walkFrom nested placed found
  induction found with
  | ended => exact allBehind_nil
  | @step _ _ index _ _ _ _ stepped further _ partBehind restBehind =>
    have spares : (stream.walkBehind index).Spares stream barrier := by
      intro next ending progress walked
      rcases walkFrom_or_still_of_walkBehind walked with ⟨later, walked⟩ | rfl
      · exact partBehind later walked (Nat.lt_trans after later)
      · exact allBehind_nil
    have stepBehind := allBehind_of_step nested placed spares
      (advances_walkBehind nested placed index) solid after stepped
    exact allBehind_append.mpr ⟨stepBehind, restBehind (Nat.lt_trans after further)⟩

/-- The walk behind a barrier leaves it alone. -/
theorem spares_walkBehind (nested : stream.Nested) (placed : stream.Placed)
    (solid : stream.IsBarrier barrier) (after : barrier ≤ index) :
    (stream.walkBehind index).Spares stream barrier := by
  intro next ending progress walked
  rcases walkFrom_or_still_of_walkBehind walked with ⟨later, walked⟩ | rfl
  · exact allBehind_of_walkFrom nested placed solid (Nat.lt_of_le_of_lt after later) walked
  · exact allBehind_nil

end Playground.TokenStream
