import Playground.Json.Basic
import Playground.Markup.Assembly
import Playground.Text.Uppercase

/-!
# Outcomes of a run

Every run settles into one outcome. A failed run is an outcome like any other.
-/

namespace Playground

/-- Why a run failed. -/
inductive FailureKind where
  /-- Types could not be erased, and nothing was evaluated. -/
  | transpile
  /-- Evaluation stopped with a fault. -/
  | runtime
  /-- Another run was in flight. -/
  | alreadyRunning
  deriving DecidableEq, Repr

/-- The name of a kind of failure. -/
def FailureKind.name : FailureKind → String
  | .transpile => "transpile"
  | .runtime => "runtime"
  | .alreadyRunning => "already_running"

/-- What a run settles into. -/
inductive Outcome where
  /-- The console lines of a program that ran to its end. -/
  | output (lines : List String)
  | document (document : Document)
  | failure (kind : FailureKind) (message : String)
  /-- The declared language is not run. -/
  | unsupported (language : String)
  deriving DecidableEq, Repr

namespace Outcome

/-- The outcome of a run that found another one in flight. -/
def alreadyRunning : Outcome :=
  .failure .alreadyRunning "an execution is already running"

/-- The kind of failure, if the run failed. -/
def failureKind? : Outcome → Option FailureKind
  | .failure kind _ => some kind
  | _ => none

/-- Whether the run failed. -/
def isFailure (outcome : Outcome) : Bool :=
  outcome.failureKind?.isSome

/-- The console text of a program that printed nothing. -/
def silentText : String :=
  "Code executed successfully (no output)"

/-- The console text about a language that is not run. -/
def unsupportedNote (language : String) : String :=
  let name := Text.uppercase language
  "Note: " ++ name ++ " execution requires an external execution service.\n" ++
    "This engine runs JavaScript, TypeScript, and HTML/CSS locally.\n\n" ++
    "To enable " ++ name ++ ", a code execution service has to be integrated."

/-- The text for the output console. -/
def consoleText : Outcome → String
  | .output [] => silentText
  | .output lines => "\n".intercalate lines
  | .document page => page.markup
  | .failure _ message => "Error: " ++ message
  | .unsupported language => unsupportedNote language

/-- The JSON form, tagged with the kind of outcome. -/
def toJson : Outcome → Json
  | .output lines =>
    .object [("result", .string "text_output"), ("lines", .array (lines.map .string))]
  | .document page =>
    .object [("result", .string "document"), ("markup", .string page.markup)]
  | .failure kind message =>
    .object [("result", .string "failure"), ("kind", .string kind.name),
      ("message", .string message)]
  | .unsupported language =>
    .object [("result", .string "unsupported"), ("language", .string language)]

end Outcome

end Playground
