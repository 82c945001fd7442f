import Playground.Proofs.Erasure.Coverage.ClassBody
import Playground.Proofs.Erasure.Typed.Plain

/-!
# The walk settles every mark

Every step settles the mark for the tokens that it passes (`settles_of_step`), and so does a whole
walk (`settles_of_walkFrom`). The recursion is closed once, over the nested walks and the rest of
each walk.
-/

namespace Playground.TokenStream

variable {stream : TokenStream} {mark index floor : Nat} {progress : Progress}

/-! ## Where a walk ends -/

/-- A walk without stops comes to its limit. -/
theorem reaches_of_walkFrom (nested : stream.Nested) (placed : stream.Placed)
    {first index limit : Nat} (within : limit ≤ stream.size)
    (found : stream.walkFrom first index (.upTo limit) = .ok progress) :
    limit ≤ progress.next := by
  have ends := (walkCourse_of_walkFrom nested placed found).not_goesOn
  by_contra before
  have before : progress.next < limit := Nat.lt_of_not_le before
  exact ends ⟨before, Nat.lt_of_lt_of_le before within, endsBefore_upTo ..⟩

/-! ## Steps -/

section Steps

variable (nested : stream.Nested) (placed : stream.Placed) (sought : stream.Sought mark)
  {walk : Walk} (handed : walk.Settles stream mark floor)

include nested placed sought handed

omit nested in
theorem settles_of_template {inside : Progress} (later : floor ≤ index)
    (head : stream.kind? index = some .templateHead)
    (walked : walk (index + 1) (.upTo (stream.templateTail index)) = .ok inside) :
    stream.Settles mark index inside.edits (stream.templateTail index + 1) := by
  have ends : stream.templateTail index = stream.size ∨
      stream.kind? (stream.templateTail index) = some .templateTail :=
    stream.templateTailFrom_cases (index + 1) 0
  have within : stream.templateTail index ≤ stream.size :=
    ends.elim Nat.le_of_eq fun kind => Nat.le_of_lt (lt_size_of_kind? kind)
  have settled := (handed.settles (Nat.lt_succ_of_le later) walked).to_upper
    (handed.reaches (Nat.lt_succ_of_le later) within walked)
  have tail : stream.Settles mark (stream.templateTail index) []
      (stream.templateTail index + 1) := by
    rcases ends with atEnd | kind
    · have inside := lt_size_of_is sought.nonNull.spelled
      exact .nothing fun after before => by omega
    · exact sought.settles_kind placed kind (by decide)
  exact (sought.settles_kind placed head (by decide)).after (settled.before tail)

/-- A step settles the mark for the tokens that it passes. -/
theorem settles_of_step (later : floor ≤ index)
    (found : stream.step walk index = .ok progress) :
    stream.Settles mark index progress.edits progress.next := by
  cases starts_of_step found with
  | word kind => exact sought.settles_kind placed kind (by decide)
  | interface _ _ _ found => exact settles_of_interfaceDeclaration placed found
  | typeAlias kind _ _ found => exact settles_of_aliasDeclaration placed sought kind found
  | ambient => exact settles_ambientDeclaration placed index
  | abstractClass => exact settles_upTo placed index (index + 1)
  | enumeration _ _ _ found => exact settles_of_enumDeclaration placed found
  | bindings kind found =>
    exact (sought.settles_kind placed kind (by decide)).after
      (settles_of_variablesFrom nested placed sought handed (Nat.le_succ_of_le later) found)
  | function word found =>
    exact settles_of_functionDeclaration nested placed sought handed word later found
  | classBody word found =>
    exact settles_of_classDeclaration nested placed sought handed word later found
  | assertion kind => exact settles_typeAssertion placed sought kind
  | importClause word found => exact settles_of_importDeclaration placed nested sought word found
  | exportClause word found => exact settles_of_exportDeclaration placed nested sought word found
  | catchClause word found => exact settles_of_catchHead placed nested sought word found
  | control kind found => exact settles_of_controlHead nested sought handed kind placed later found
  | parenthesis _ found => exact settles_of_parenthesis nested placed sought handed later found
  | bracket _ found => exact settles_of_walkInside nested sought handed later found
  | angle mark => exact settles_angle placed sought mark
  | nonNullMark => exact settles_nonNullMark placed sought index
  | mark _ other =>
    refine .other ?_
    rintro rfl
    simp [(is_iff.mp sought.nonNull.spelled).2] at other
  | template head walked =>
    have settled := settles_of_template placed sought handed later head walked
    exact settled
  | token _ noMark =>
    refine .other ?_
    rintro rfl
    exact noMark (sought.kind? placed)

end Steps

/-- A walk settles a mark that is looked for. -/
theorem settles_of_walkFrom (nested : stream.Nested) (placed : stream.Placed)
    (sought : stream.Sought mark) {first : Nat} {ending : WalkEnd}
    (found : stream.walkFrom first index ending = .ok progress) :
    stream.Settles mark index progress.edits progress.next := by
  replace found := walkCourse_of_walkFrom nested placed found
  induction found with
  | @ended _ _ index _ => exact .still index
  | @step _ _ index _ _ _ _ stepped _ _ partSettles restSettles =>
    have handed : (stream.walkBehind index).Settles stream mark index :=
      { settles := fun later walked => partSettles later (walkBehind_of_lt later _ ▸ walked)
        reaches := fun later within walked =>
          reaches_of_walkFrom nested placed within (walkBehind_of_lt later _ ▸ walked)
        advances := advances_walkBehind nested placed index }
    exact (settles_of_step nested placed sought handed (Nat.le_refl index) stepped).append
      restSettles

end Playground.TokenStream
