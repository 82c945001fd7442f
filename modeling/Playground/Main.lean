import Playground.Command.Execution

/-!
# The command line program

Reads the files of the system, prints what commands report, and keeps a watch going until
the program is interrupted.
-/

namespace Playground.Command

open Script (Source)

/-- The fault that a failed read stands for. -/
def readFaultOf (error : IO.Error) : ReadFault :=
  match error with
  | .inappropriateType _ code _ => if code = 21 then .isADirectory else .notADirectory
  | .invalidArgument _ _ _ => .nameTooLong
  | .permissionDenied _ _ _ => .notPermitted
  | .userError _ => .notText
  | _ => .notFound

/-- Reads a file of the system. -/
def readSystemFile (path : String) : IO (Except ReadFault Source) := do
  try
    return .ok (.text (← IO.FS.readFile path))
  catch error =>
    return .error (readFaultOf error)

/-- The stamp of the last change of a file of the system. -/
def stampSystemFile (path : String) : IO (Option Nat) := do
  try
    let found ← (← IO.FS.realPath path).metadata
    return some (found.modified.sec.toNat * 1000000000 + found.modified.nsec.toNat)
  catch _ =>
    return none

/-- A view of the given files as they are now. -/
def viewSystem (paths : List String) : IO FileView := do
  let reads ← paths.mapM fun path => do return (path, ← readSystemFile path)
  let stamps ← paths.mapM fun path => do return (path, ← stampSystemFile path)
  return {
    read := fun path => (reads.lookup path).getD (.error .notFound)
    stamp := fun path => (stamps.lookup path).getD none }

/-- The paths that a command may read. -/
def Invocation.paths (invocation : Invocation) : List String :=
  invocation.config.toList ++
    match invocation.action with
    | .run file _ => [file]
    | .preview files _ _ => files.layout :: files.style.toList ++ files.behavior.toList
    | .sample _ => []

/-- Milliseconds between two ticks of a watch. -/
def tickPeriod : Nat := 100

/-- Keeps a watch going. -/
partial def keepWatching (watch : Watch) (paths : List String) : IO Unit := do
  let ticked := watch.tick (← viewSystem paths)
  let (pages, next) := ticked.advance tickPeriod
  for page in pages do
    IO.println page
  IO.sleep tickPeriod.toUInt32
  keepWatching next paths

end Playground.Command

open Playground.Command in
/-- Runs the command that the arguments ask for. -/
def main (arguments : List String) : IO UInt32 := do
  let paths :=
    match Invocation.ofArguments arguments with
    | .ok invocation => invocation.paths
    | .error _ => []
  match start (← viewSystem paths) arguments with
  | .finished report =>
    IO.print report.stdout
    IO.eprint report.stderr
    return report.code.toUInt32
  | .watching page watch =>
    IO.println page
    keepWatching watch paths
    return 0
