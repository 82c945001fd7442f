/-!
# Capturing console output

Console lines go to a sink, which forwards them until a capture session puts a buffer in
its place. Ending the session in any way restores the sink that it replaced. Sessions do
not nest: beginning one while another is live is refused and changes nothing.
-/

namespace Playground.Console

/-- Where console lines go. -/
inductive Sink where
  /-- Lines leave the program. -/
  | forwarding
  /-- Lines are kept, in the order in which they were written. -/
  | buffering (lines : List String)
  deriving DecidableEq, Repr

/-- A session, with the sink that it has yet to put back. -/
structure CaptureSession where
  previous : Option Sink
  deriving DecidableEq, Repr

/-- Why control left a computation early. -/
inductive Panic where
  /-- A session was begun while another was live. -/
  | reentrantCapture
  /-- A captured body stopped on its own account. -/
  | bodyStopped
  deriving DecidableEq, Repr

/-- The text of a panic that this library raises itself. -/
def Panic.message? : Panic → Option String
  | .reentrantCapture =>
    some "console capture is not reentrant: a capture session is already active"
  | .bodyStopped => none

namespace Sink

/-- Whether a session is live. -/
def isCapturing : Sink → Bool
  | .forwarding => false
  | .buffering _ => true

/-- Writes one line. -/
def emit (sink : Sink) (line : String) : Sink :=
  match sink with
  | .forwarding => .forwarding
  | .buffering lines => .buffering (lines ++ [line])

/-- Writes lines in order. -/
def emitAll (sink : Sink) (lines : List String) : Sink :=
  lines.foldl emit sink

/-- Begins a session. -/
def begin (sink : Sink) : Except Panic (CaptureSession × Sink) :=
  match sink with
  | .forwarding => .ok (⟨some .forwarding⟩, .buffering [])
  | .buffering _ => .error .reentrantCapture

/-- The lines that a sink has kept, if it keeps any. -/
def captured? : Sink → Option (List String)
  | .forwarding => none
  | .buffering lines => some lines

end Sink

namespace CaptureSession

/-- Puts back the sink that was in place before, unless that was done already: the captured
lines, what is left of the session, and the sink. -/
def restore (session : CaptureSession) (sink : Sink) :
    Option (List String) × CaptureSession × Sink :=
  match session.previous with
  | some previous => (sink.captured?, ⟨none⟩, previous)
  | none => (none, session, sink)

/-- Lets go of a session. -/
def drop (session : CaptureSession) (sink : Sink) : Sink :=
  (session.restore sink).2.2

/-- Ends a session: the captured lines, and the sink afterwards. What is left of the session
is let go of. -/
def finish (session : CaptureSession) (sink : Sink) : List String × Sink :=
  let (lines, spent, restored) := session.restore sink
  (lines.getD [], spent.drop restored)

end CaptureSession

/-- A computation that writes to the console and may stop early. -/
abbrev Writer (α : Type) := Sink → Except Panic α × Sink

/-- Runs a computation with its console lines captured. -/
def withCapture {α : Type} (body : Writer α) : Writer (α × List String) := fun sink =>
  match sink.begin with
  | .error panic => (.error panic, sink)
  | .ok (session, buffer) =>
    match body buffer with
    | (.ok value, written) =>
      let (lines, restored) := session.finish written
      (.ok (value, lines), restored)
    | (.error panic, written) => (.error panic, session.drop written)

/-- Writes lines in order. -/
def writeAll (lines : List String) : Writer Unit := fun sink =>
  (.ok (), sink.emitAll lines)

end Playground.Console
