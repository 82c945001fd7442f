import Playground.Json.Basic
import Playground.Outcome

/-!
# Reports of a command

What a command leaves behind: an exit code and the texts of its two output streams. An
error is reported with the causes behind it.
-/

namespace Playground.Command

/-- What a command leaves behind. -/
structure Report where
  code : Nat
  stdout : String
  stderr : String
  deriving DecidableEq, Repr

/-- An error and the causes behind it, the nearest first. -/
structure ErrorReport where
  message : String
  causes : List String
  deriving DecidableEq, Repr

namespace ErrorReport

/-- A cause with its number in front. -/
def numbered (number : Nat) (cause : String) : String :=
  "    " ++ toString number ++ ": " ++ cause

/-- The lines of the causes; several causes are numbered. -/
def causeLines : List String → List String
  | [] => []
  | [cause] => ["", "Caused by:", "    " ++ cause]
  | causes =>
    ["", "Caused by:"] ++
      (List.range causes.length).zipWith (fun number cause => numbered number cause) causes

/-- The text of an error. -/
def text (error : ErrorReport) : String :=
  "\n".intercalate (("Error: " ++ error.message) :: causeLines error.causes) ++ "\n"

end ErrorReport

namespace Report

/-- A command that did its work. -/
def success (stdout : String) : Report := ⟨0, stdout, ""⟩

/-- A command that was not understood. -/
def misuse : Report := ⟨2, "", ""⟩

/-- A command that stopped with an error. -/
def ofError (error : ErrorReport) : Report := ⟨1, "", error.text⟩

/-- A command that was cut short by a fault of the program itself. -/
def aborted (message : String) : Report := ⟨101, "", message ++ "\n"⟩

/-- The exit code of an outcome. -/
def exitCode : Outcome → Nat
  | .failure _ _ | .unsupported _ => 1
  | _ => 0

/-- The report of an outcome: JSON if asked for, or else the console text, which goes to
the error stream if the run failed. -/
def ofOutcome (outcome : Outcome) (json : Bool) : Report :=
  if json then ⟨exitCode outcome, outcome.toJson.pretty ++ "\n", ""⟩
  else if outcome.isFailure then ⟨exitCode outcome, "", outcome.consoleText ++ "\n"⟩
  else ⟨exitCode outcome, outcome.consoleText ++ "\n", ""⟩

end Report

end Playground.Command
