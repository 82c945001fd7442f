import Playground.Script.Execution
import Playground.Script.Reading
import Playground.Settings

/-!
# Executing programs

An execution runs the body of a program, and then alternates: all promise jobs, then the
earliest timer. It stops at the first fault, at a rejection that nothing handled, when a
budget is spent, or when nothing is left to do. Names, jobs, promises and rejections that
were not reported outlive an execution; timers and the clock do not.
-/

namespace Playground.Script

/-- The bounds of an execution. -/
structure Limits where
  /-- The wall-clock budget in microseconds, if there is one. -/
  timeout : Option Nat
  /-- The number of timer callbacks that may fire. -/
  maxTimerTurns : Nat
  /-- The number of promise jobs that may run between two timer callbacks. -/
  maxPendingJobs : Nat
  deriving DecidableEq, Repr

/-- The bounds that settings ask for. -/
def Limits.ofSettings (settings : ExecutionSettings) : Limits where
  timeout := settings.timeout?.map (· * 1000)
  maxTimerTurns := settings.maxTimerTurns.toNat
  maxPendingJobs := settings.maxPendingJobs.toNat

/-- Why an execution stopped. -/
inductive RunFault where
  /-- A value was thrown or a rejection was not handled. -/
  | raised (message : String)
  /-- The wall-clock budget, in microseconds, was spent. -/
  | timedOut (limit : Nat)
  | timerBudget (turns : Nat)
  | jobBudget (jobs : Nat)
  deriving DecidableEq, Repr

/-- The text that reports a fault. -/
def RunFault.message : RunFault → String
  | .raised message => message
  | .timedOut limit => "execution timed out after " ++ toString (limit / 1000) ++ " ms"
  | .timerBudget turns => "timer budget of " ++ toString turns ++ " callbacks exhausted"
  | .jobBudget jobs => "promise job budget of " ++ toString jobs ++ " jobs exhausted"

/-- Runs jobs until none is left, which is `true`, or until one more than the budget has
run. -/
def drainJobs : Nat → Run Bool
  | 0 => do
    match ← Run.nextJob? with
    | none => return true
    | some job =>
      job.run callFunction
      return false
  | budget + 1 => do
    match ← Run.nextJob? with
    | none => return true
    | some job =>
      job.run callFunction
      drainJobs budget

/-- Calls a timer's callback; one that is not a function does nothing. -/
def TimerAction.run (action : TimerAction) : Run Ending :=
  match action.callback with
  | .function _ body => callFunction 0 body action.arguments
  | _ => pure .normal

/-- Fires a pending timer. -/
def fireTimer (timer : Timer TimerAction) : Run Ending := do
  Run.modifyTimers (·.fire timer)
  let ending ← timer.payload.run
  match ending with
  | .normal => Run.modifyTimers (·.finishFiring)
  | .thrown _ => Run.modifyTimers (·.abandonFiring)
  return ending

/-- Drains the jobs and fires the timers that are left, up to the given number of timer
callbacks. -/
def settleTimers (limits : Limits) (turns : Nat) : Run (Option RunFault) := do
  if !(← drainJobs limits.maxPendingJobs) then
    return some (.jobBudget limits.maxPendingJobs)
  match ← Run.takeRejection with
  | some message => return some (.raised message)
  | none =>
    match (← get).timers.earliest? with
    | none => return none
    | some timer =>
      match turns with
      | 0 => return some (.timerBudget limits.maxTimerTurns)
      | left + 1 =>
        match ← fireTimer timer with
        | .thrown value => return some (.raised (← Run.faultMessage value))
        | .normal => settleTimers limits left

/-- Runs the statements of a program and settles what they started. -/
def runProgram (limits : Limits) (statements : List Statement) : Run (Option RunFault) := do
  match ← callFunction 0 statements [] with
  | .thrown value => return some (.raised (← Run.faultMessage value))
  | .normal => settleTimers limits limits.maxTimerTurns

/-- A machine on which programs are executed one after another. -/
structure Session where
  limits : Limits
  machine : Machine

namespace Session

/-- A session in which nothing has run. -/
def start (limits : Limits) : Session := ⟨limits, .initial⟩

/-- The machine at the start of an execution: no timers, a clock at zero, and no lines. -/
def prepared (session : Session) : Machine :=
  { session.machine with timers := .initial, lines := #[] }

/-- What an execution is reported as. Once the deadline has passed, every execution is
reported as timed out. -/
def verdict (session : Session) (machine : Machine) (fault : Option RunFault) :
    Option RunFault :=
  match session.limits.timeout with
  | some limit => if machine.expired then some (.timedOut limit) else fault
  | none => fault

/-- Executes a program: the fault that stopped it, if any, and the session afterwards. -/
def execute (session : Session) (program : Source) : Option RunFault × Session :=
  let (fault, machine) :=
    (runProgram session.limits program.statements).run session.prepared
  (session.verdict machine fault, { session with machine := machine })

/-- The lines that the last execution printed. -/
def lines (session : Session) : List String :=
  session.machine.lines.toList

end Session

end Playground.Script
