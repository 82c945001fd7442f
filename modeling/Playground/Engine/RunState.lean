/-!
# The run state

An engine is idle or running. Entering a run succeeds only from idle, in one step; leaving
it happens however the run ends.
-/

namespace Playground

/-- Whether a run is in flight. -/
inductive RunState where
  | idle
  | running
  deriving DecidableEq, Repr

namespace RunState

/-- The name. -/
def name : RunState → String
  | .idle => "idle"
  | .running => "running"

/-- Enters a run, if none is in flight. -/
def tryBegin? : RunState → Option RunState
  | .idle => some .running
  | .running => none

/-- Leaves a run. -/
def finish : RunState → RunState
  | _ => .idle

end RunState

end Playground
