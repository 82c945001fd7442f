import Playground.Console
import Playground.Script.Session

/-!
# Evaluating programs

An evaluation executes one program in a fresh session with its console lines captured.
Lines printed before a fault are dropped with the capture.
-/

namespace Playground.Script

open Console (Writer)

/-- Executes a program in a session; what it prints goes to the console. -/
def Session.executeOn (session : Session) (program : Source) :
    Writer (Option RunFault × Session) := fun sink =>
  let (fault, after) := session.execute program
  (.ok (fault, after), sink.emitAll after.lines)

/-- Evaluates a program: its console lines, or the fault that stopped it. -/
def evaluate (limits : Limits) (program : Source) : Writer (Except RunFault (List String)) :=
  fun sink =>
    match Console.withCapture ((Session.start limits).executeOn program) sink with
    | (.error panic, after) => (.error panic, after)
    | (.ok ((some fault, _), _), after) => (.ok (.error fault), after)
    | (.ok ((none, _), lines), after) => (.ok (.ok lines), after)

end Playground.Script
