import Playground.Script.Value

/-!
# Promises and suspended bodies

A promise is pending until it is settled once. Reactions attached to it wait for that and
then become jobs. A body that awaits a value is kept as the frames that are left to run.
-/

namespace Playground.Script

/-- How a body ends. -/
inductive Ending where
  | normal
  | thrown (value : Value)

/-- What is left to run of a suspended body, from the inside out. -/
inductive Frame where
  /-- The rest of a block. -/
  | statements (rest : List Statement)
  /-- The block ran under a handler and a closing part. -/
  | guarded (handler closing : List Statement)
  /-- The block was a handler before a closing part. -/
  | closing (closing : List Statement)
  /-- The block was a closing part; afterwards the attempt ends as it was going to. -/
  | pending (ending : Ending)

/-- A wait: the value that is awaited, the name for the result, and the frames that run
afterwards. -/
structure Wait where
  value : Value
  name : Option String
  frames : List Frame

/-- How a block stops: it ends, or it waits. -/
inductive Completion where
  | ended (ending : Ending)
  | waiting (wait : Wait)

/-- A wait with one more frame outside. -/
def Wait.within (wait : Wait) (frame : Frame) : Wait :=
  { wait with frames := wait.frames ++ [frame] }

/-- How a promise is settled. -/
inductive Settlement where
  | fulfilled (value : Value)
  | rejected (reason : Value)

/-- The settlement of a promise whose body has ended. -/
def Ending.settlement : Ending → Settlement
  | .normal => .fulfilled .undefined
  | .thrown value => .rejected value

/-- What happens once a promise is settled. -/
inductive Reaction where
  /-- Runs a body on the value and settles the derived promise; a rejection passes on. -/
  | proceed (body : List Statement) (derived : Nat)
  /-- Runs a body on the reason and settles the derived promise; a value passes on. -/
  | recover (body : List Statement) (derived : Nat)
  /-- Resumes a suspended body, whose end settles its promise. -/
  | resume (name : Option String) (frames : List Frame) (promise : Nat)

/-- A reaction that is due. -/
structure Job where
  reaction : Reaction
  settlement : Settlement

/-- The state of a promise. -/
structure Promise where
  settlement : Option Settlement
  reactions : List Reaction
  /-- Whether a reaction was ever attached. -/
  handled : Bool

/-- A pending promise that nothing waits for. -/
def Promise.fresh : Promise := ⟨none, [], false⟩

end Playground.Script
