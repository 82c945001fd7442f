import Playground.Markup.Assembly
import Playground.Script.Statement

/-!
# Source buffers

The sources of one run, each under the role it plays. A role occurs at most once, and
roles keep the order in which they were first set.
-/

namespace Playground

open Script (Source)

/-- The part that a buffer plays in a run. -/
inductive Role where
  | program
  | layout
  | style
  | behavior
  deriving DecidableEq, Repr

/-- The file name under which an editor shows a buffer. -/
def Role.fileName : Role → String
  | .program => "main"
  | .layout => "index.html"
  | .style => "styles.css"
  | .behavior => "script.js"

/-- Buffers in the order in which their roles were first set. -/
structure Buffers where
  entries : List (Role × Source)

namespace Buffers

/-- No buffers. -/
def empty : Buffers := ⟨[]⟩

/-- Entries with the source of one role set. -/
def setIn (role : Role) (source : Source) : List (Role × Source) → List (Role × Source)
  | [] => [(role, source)]
  | (other, held) :: rest =>
    if other = role then (role, source) :: rest else (other, held) :: setIn role source rest

/-- Sets the source of a role. -/
def set (buffers : Buffers) (role : Role) (source : Source) : Buffers :=
  ⟨setIn role source buffers.entries⟩

/-- The source of a role, if it was set. -/
def get? (buffers : Buffers) (role : Role) : Option Source :=
  (buffers.entries.find? (·.1 == role)).map Prod.snd

/-- The source of a role; a role that was never set has an empty text. -/
def source (buffers : Buffers) (role : Role) : Source :=
  (buffers.get? role).getD (.text "")

/-- The text of a role; a role that was never set has an empty one. -/
def text (buffers : Buffers) (role : Role) : String :=
  (buffers.source role).plainText

/-- The number of roles that were set. -/
def size (buffers : Buffers) : Nat :=
  buffers.entries.length

/-- Whether no role was set. -/
def isEmpty (buffers : Buffers) : Bool :=
  buffers.entries.isEmpty

/-- A single program. -/
def ofProgram (program : Source) : Buffers :=
  empty.set .program program

/-- The three sources of a page. -/
def ofPage (sources : PageSources) : Buffers :=
  ((empty.set .layout (.text sources.layout)).set .style (.text sources.style)).set .behavior
    (.text sources.behavior)

/-- The page that the buffers hold. -/
def page (buffers : Buffers) : PageSources :=
  ⟨buffers.text .layout, buffers.text .style, buffers.text .behavior⟩

end Buffers

end Playground
