import Playground.Proofs.Erasure.Courses
import Playground.Proofs.Erasure.Visits.Agreement

/-!
# The tokens that a program's walk steps on

A walk steps on a token, goes on where the step has led, and begins anew wherever a step needs a
nested walk (`Visits`). A step needs the walk that it fails with (`Needs`). Whatever is found in a
step is among the edits of the program (`StepsOn.exists_step`).
-/

namespace Playground

deriving instance DecidableEq for WalkEnd

/-- A walk that fails where another may succeed. -/
def Walk.failingAt (walk : Walk) (next : Nat) (ending : WalkEnd) (error : SyntaxError) : Walk :=
  fun index other => if index = next ∧ other = ending then .error error else walk index other

namespace TokenStream

/-- The step at an index comes to nothing without the walk of a part. -/
def Needs (stream : TokenStream) (index next : Nat) (ending : WalkEnd) : Prop :=
  ∀ error, stream.step ((stream.walkBehind index).failingAt next ending error) index = .error error

/-- The walks that make up the walk of a program, by their beginnings and ends, with the indices
that each of them comes to. -/
inductive Visits (stream : TokenStream) : Nat → WalkEnd → Nat → Prop where
  | program : Visits stream 0 (.upTo stream.size) 0
  | further {first ending index progress} (visits : Visits stream first ending index)
      (goesOn : stream.GoesOn first index ending)
      (stepped : stream.step (stream.walkBehind index) index = .ok progress) :
      Visits stream first ending progress.next
  | part {first ending index next inner} (visits : Visits stream first ending index)
      (goesOn : stream.GoesOn first index ending) (later : index < next)
      (needs : stream.Needs index next inner) : Visits stream next inner next

/-- The walk of the program steps on the token at an index. -/
def StepsOn (stream : TokenStream) (index : Nat) : Prop :=
  ∃ first ending, stream.Visits first ending index ∧ stream.GoesOn first index ending

variable {stream : TokenStream} {first index : Nat} {ending : WalkEnd} {progress : Progress}

/-- A walk that succeeds agrees with one that fails at a place, if what it finds there is not
among the edits. -/
theorem agreesOn_failingAt {walk : Walk} {next : Nat} {edits : List Edit} (error : SyntaxError)
    (foreign : ∀ part, walk next ending = .ok part → ¬part.edits ⊆ edits) :
    walk.AgreesOn (walk.failingAt next ending error) edits := by
  intro index other progress found within
  unfold Walk.failingAt
  split
  · rename_i same
    obtain ⟨rfl, rfl⟩ := same
    exact absurd within (foreign progress found)
  · exact found

/-- What a step finds includes what is found in the parts that it needs. -/
theorem Needs.exists_part {next : Nat} (needs : stream.Needs index next ending)
    (stepped : stream.step (stream.walkBehind index) index = .ok progress) :
    ∃ part, stream.walkBehind index next ending = .ok part ∧ part.edits ⊆ progress.edits := by
  by_contra foreign
  have agrees : (stream.walkBehind index).AgreesOn _ progress.edits :=
    agreesOn_failingAt ⟨.unbalancedBracket, 0⟩ fun part found within =>
      foreign ⟨part, found, within⟩
  have succeeds := step_of_agrees agrees stepped (List.Subset.refl _)
  rw [needs] at succeeds
  contradiction

/-- A step at a brace needs the walk of what stands in the block. -/
theorem needs_of_brace (placed : stream.Placed) {opening close : Nat}
    (opens : stream.is opening "\x7b" = true) (closes : stream.closer? opening = some close) :
    stream.Needs opening (opening + 1) (.upTo close) := by
  intro error
  rw [placed.step_of_brace _ opens, walkInside, closeOf_eq_ok_iff.mpr closes]
  change (Walk.failingAt _ _ _ error (opening + 1) (.upTo close) >>= _) = _
  rw [Walk.failingAt, if_pos ⟨rfl, rfl⟩]
  rfl

/-- The walk of a program steps on its first token. -/
theorem stepsOn_zero (nonempty : 0 < stream.size) : stream.StepsOn 0 :=
  ⟨0, .upTo stream.size, .program, ⟨nonempty, nonempty, endsBefore_upTo ..⟩⟩

section Program

variable (nested : stream.Nested) (placed : stream.Placed) {whole : Progress}
  (walked : stream.walkFrom 0 0 (.upTo stream.size) = .ok whole)

include nested placed walked

/-- What is found from an index on that a walk comes to is found in the program. -/
theorem Visits.exists_walk (visits : stream.Visits first ending index) :
    ∃ progress, stream.walkFrom first index ending = .ok progress ∧
      progress.edits ⊆ whole.edits := by
  induction visits with
  | program => exact ⟨whole, walked, List.Subset.refl _⟩
  | further _ goesOn stepped inductionHypothesis =>
    obtain ⟨progress, found, within⟩ := inductionHypothesis
    obtain ⟨one, rest, foundOne, -, foundRest, rfl⟩ := goesOn.exists_step nested placed found
    cases stepped.symm.trans foundOne
    exact ⟨rest, foundRest, (List.append_subset.mp within).2⟩
  | part _ goesOn later needs inductionHypothesis =>
    obtain ⟨progress, found, within⟩ := inductionHypothesis
    obtain ⟨one, rest, foundOne, -, foundRest, rfl⟩ := goesOn.exists_step nested placed found
    obtain ⟨part, foundPart, among⟩ := needs.exists_part foundOne
    rw [walkBehind_of_lt later] at foundPart
    exact ⟨part, foundPart, List.Subset.trans among (List.append_subset.mp within).1⟩

/-- What is found in a step of the walk is found in the program. -/
theorem StepsOn.exists_step (steps : stream.StepsOn index) :
    ∃ one, stream.step (stream.walkBehind index) index = .ok one ∧ one.edits ⊆ whole.edits := by
  obtain ⟨first, ending, visits, goesOn⟩ := steps
  obtain ⟨progress, found, within⟩ := visits.exists_walk nested placed walked
  obtain ⟨one, rest, stepped, -, -, rfl⟩ := goesOn.exists_step nested placed found
  exact ⟨one, stepped, (List.append_subset.mp within).1⟩

end Program

end TokenStream

end Playground
