import Playground.Proofs.Script.Steps

/-!
# The course of an execution

An execution runs a body and then goes on in turns: it drains the jobs, reads the rejection log and
fires the earliest timer. `Executes` relates an execution to what happened in it and to what stopped
it. The jobs that began, the timers that fired and the callbacks that ended are named there one by
one; in between are steps of statements. Every execution has such a course (`exists_executes`), and
it ends as its course says (`Executes.outcome`).
-/

namespace Playground.Script

/-- What a value that stopped an execution was thrown by. -/
inductive Thrower where
  | body
  | callback
  deriving DecidableEq, Repr

/-- What stops an execution. -/
inductive Stop where
  /-- Nothing is left to do. -/
  | quiet
  | threw (thrower : Thrower) (value : Value)
  /-- The earliest entry of the rejection log. -/
  | unhandled (key : Nat) (message : String)
  | timersSpent
  | jobsSpent

/-- The answer of an execution. The message of a value is made up after the execution has
stopped. -/
def Stop.report (limits : Limits) : Stop → Run (Option RunFault)
  | .quiet => pure none
  | .threw _ value => do
    return some (.raised (← Run.faultMessage value))
  | .unhandled _ message => pure (some (.raised message))
  | .timersSpent => pure (some (.timerBudget limits.maxTimerTurns))
  | .jobsSpent => pure (some (.jobBudget limits.maxPendingJobs))

/-! ## The relation -/

/-- Jobs run in order until none is left, or until one more than the budget has run. -/
inductive Drains : Nat → Machine → List Event → Bool → Machine → Prop where
  | done {budget machine} (empty : machine.jobs = []) : Drains budget machine [] true machine
  | overrun {machine job rest events after} (first : machine.jobs = job :: rest)
      (ran : Performs (job.run callFunction) { machine with jobs := rest } events () after) :
      Drains 0 machine (.began job :: events) false after
  | next {budget machine job rest events settled more drained after}
      (first : machine.jobs = job :: rest)
      (ran : Performs (job.run callFunction) { machine with jobs := rest } events () settled)
      (others : Drains budget settled more drained after) :
      Drains (budget + 1) machine (.began job :: events ++ more) drained after

/-- The jobs are drained, and then the rejection log is read and has no entry. -/
inductive Rests (limits : Limits) (machine : Machine) : List Event → Machine → Prop where
  | intro {events settled} (drains : Drains limits.maxPendingJobs machine events true settled)
      (handled : settled.rejections.entries = []) :
      Rests limits machine (events ++ [.polled none]) { settled with rejections := .empty }

/-- A timer fires: its callback runs, and the timer is armed again if it repeats. -/
inductive Fires (timer : Timer TimerAction) (machine : Machine) :
    List Event → Ending → Machine → Prop where
  | returned {events after} (earliest : machine.timers.earliest? = some timer)
      (ran : Performs timer.payload.run (machine.changeTimers (·.fire timer)) events .normal
        after) :
      Fires timer machine (.fired timer :: events ++ [.finished after.timers.rearmed?]) .normal
        (after.changeTimers (·.finishFiring))
  | threw {events value after} (earliest : machine.timers.earliest? = some timer)
      (ran : Performs timer.payload.run (machine.changeTimers (·.fire timer)) events
        (.thrown value) after) :
      Fires timer machine (.fired timer :: events ++ [.finished none]) (.thrown value)
        (after.changeTimers (·.abandonFiring))

theorem Fires.earliest {timer : Timer TimerAction} {machine after : Machine}
    {events : List Event} {ending : Ending} (fires : Fires timer machine events ending after) :
    machine.timers.earliest? = some timer := by
  cases fires <;> assumption

/-- Turns go on until something stops them, with so many timer callbacks left to fire. -/
inductive Settles (limits : Limits) : Nat → Machine → List Event → Stop → Machine → Prop where
  | jobsSpent {left machine events after}
      (drains : Drains limits.maxPendingJobs machine events false after) :
      Settles limits left machine events .jobsSpent after
  | unhandled {left machine events settled key message}
      (drains : Drains limits.maxPendingJobs machine events true settled)
      (earliest : settled.rejections.entries.head? = some (key, message)) :
      Settles limits left machine (events ++ [.polled (some (key, message))])
        (.unhandled key message) { settled with rejections := .empty }
  | quiet {left machine events after} (rests : Rests limits machine events after)
      (idle : after.timers.earliest? = none) : Settles limits left machine events .quiet after
  | timersSpent {machine events after timer} (rests : Rests limits machine events after)
      (waiting : after.timers.earliest? = some timer) :
      Settles limits 0 machine events .timersSpent after
  | threw {left machine events settled timer firing value after}
      (rests : Rests limits machine events settled)
      (fires : Fires timer settled firing (.thrown value) after) :
      Settles limits (left + 1) machine (events ++ firing) (.threw .callback value) after
  | turned {left machine events settled timer firing next more stop after}
      (rests : Rests limits machine events settled) (fires : Fires timer settled firing .normal next)
      (others : Settles limits left next more stop after) :
      Settles limits (left + 1) machine (events ++ firing ++ more) stop after

/-- What happens in an execution, what stops it, and the machine at that moment. -/
inductive Executes (session : Session) (program : Source) :
    List Event → Stop → Machine → Prop where
  | threw {events value after}
      (body : Performs (callFunction 0 program.statements []) session.prepared events
        (.thrown value) after) :
      Executes session program events (.threw .body value) after
  | settled {events settled more stop after}
      (body : Performs (callFunction 0 program.statements []) session.prepared events .normal
        settled)
      (settles : Settles session.limits session.limits.maxTimerTurns settled more stop after) :
      Executes session program (events ++ more) stop after

/-! ## Courses and outcomes -/

section Outcomes

variable {α β : Type} {run : Run α} {result : α} {machine after settled : Machine}
  {limits : Limits} {session : Session} {program : Source} {events : List Event} {stop : Stop}
  {timer : Timer TimerAction} {ending : Ending} {budget left : Nat} {drained : Bool}

/-- A computation goes on from where the first part of it has led. -/
theorem run_bind_of_eq (outcome : run.run machine = (result, after)) (next : α → Run β) :
    (run >>= next).run machine = (next result).run after := by
  rw [StateT.run_bind, outcome]
  rfl

theorem nextJob?_of_nil (empty : machine.jobs = []) :
    Run.nextJob?.run machine = (none, machine) := by
  simp only [Run.nextJob?, StateT.run_modifyGet, empty]
  rfl

theorem nextJob?_of_cons {job : Job} {rest : List Job} (first : machine.jobs = job :: rest) :
    Run.nextJob?.run machine = (some job, { machine with jobs := rest }) := by
  simp only [Run.nextJob?, StateT.run_modifyGet, first]
  rfl

theorem takeRejection_eq : Run.takeRejection.run machine =
    (machine.rejections.entries.head?.map Prod.snd, { machine with rejections := .empty }) := rfl

theorem Drains.outcome (drains : Drains budget machine events drained after) :
    (drainJobs budget).run machine = (drained, after) := by
  induction drains with
  | @done budget _ empty =>
    cases budget <;> exact run_bind_of_eq (nextJob?_of_nil empty) _
  | overrun first ran =>
    unfold drainJobs
    rw [run_bind_of_eq (nextJob?_of_cons first), run_bind_of_eq ran.outcome]
    rfl
  | next first ran _ inductionHypothesis =>
    unfold drainJobs
    rw [run_bind_of_eq (nextJob?_of_cons first), run_bind_of_eq ran.outcome]
    exact inductionHypothesis

theorem exists_drains (budget : Nat) (machine : Machine) :
    ∃ events drained after, Drains budget machine events drained after := by
  induction budget generalizing machine with
  | zero =>
    cases queue : machine.jobs with
    | nil => exact ⟨[], true, machine, .done queue⟩
    | cons job rest =>
      obtain ⟨events, ran⟩ := (scripted_job job).performs { machine with jobs := rest }
      exact ⟨_, false, _, .overrun queue ran⟩
  | succ budget inductionHypothesis =>
    cases queue : machine.jobs with
    | nil => exact ⟨[], true, machine, .done queue⟩
    | cons job rest =>
      obtain ⟨events, ran⟩ := (scripted_job job).performs { machine with jobs := rest }
      obtain ⟨more, drained, after, others⟩ := inductionHypothesis _
      exact ⟨_, drained, after, .next queue ran others⟩

theorem Fires.outcome (fires : Fires timer machine events ending after) :
    (fireTimer timer).run machine = (ending, after) := by
  have fired : (Run.modifyTimers (·.fire timer)).run machine =
    ((), machine.changeTimers (·.fire timer)) := rfl
  unfold fireTimer
  rw [run_bind_of_eq fired]
  cases fires with
  | returned earliest ran | threw earliest ran =>
    rw [run_bind_of_eq ran.outcome]
    rfl

theorem exists_fires (earliest : machine.timers.earliest? = some timer) :
    ∃ events ending after, Fires timer machine events ending after := by
  obtain ⟨events, ran⟩ :=
    (scripted_timerAction timer.payload).performs (machine.changeTimers (·.fire timer))
  generalize (timer.payload.run.run (machine.changeTimers (·.fire timer))).1 = ending at ran
  cases ending with
  | normal => exact ⟨_, .normal, _, .returned earliest ran⟩
  | thrown value => exact ⟨_, .thrown value, _, .threw earliest ran⟩

/-- What is left of a turn once the jobs are drained and no rejection was found. -/
def fireNext (limits : Limits) : Nat → Option (Timer TimerAction) → Run (Option RunFault)
  | _, none => pure none
  | 0, some _ => pure (some (.timerBudget limits.maxTimerTurns))
  | left + 1, some timer => do
    match ← fireTimer timer with
    | .thrown value => return some (.raised (← Run.faultMessage value))
    | .normal => settleTimers limits left

/-- A turn fires the next timer after it has drained the jobs and found no rejection. -/
theorem Rests.settleTimers_eq (rests : Rests limits machine events after) (left : Nat) :
    (settleTimers limits left).run machine =
      (fireNext limits left after.timers.earliest?).run after := by
  cases rests with
  | @intro _ settled drains handled =>
    have none : Run.takeRejection.run settled = (none, { settled with rejections := .empty }) := by
      rw [takeRejection_eq, handled]
      rfl
    have read : (MonadState.get : Run Machine).run { settled with rejections := .empty } =
      ({ settled with rejections := .empty }, { settled with rejections := .empty }) := rfl
    unfold settleTimers
    rw [run_bind_of_eq drains.outcome]
    simp only [Bool.not_true, Bool.false_eq_true, if_false]
    rw [run_bind_of_eq none, run_bind_of_eq read]
    cases settled.timers.earliest? <;> cases left <;> rfl

theorem Settles.outcome (settles : Settles limits left machine events stop after) :
    (settleTimers limits left).run machine = (stop.report limits).run after := by
  induction settles with
  | jobsSpent drains =>
    unfold settleTimers
    rw [run_bind_of_eq drains.outcome]
    rfl
  | @unhandled _ _ _ settled key message drains earliest =>
    have some : Run.takeRejection.run settled =
        (some message, { settled with rejections := .empty }) := by
      rw [takeRejection_eq, earliest]
      rfl
    unfold settleTimers
    rw [run_bind_of_eq drains.outcome]
    simp only [Bool.not_true, Bool.false_eq_true, if_false]
    rw [run_bind_of_eq some]
    rfl
  | @quiet left _ _ _ rests idle =>
    rw [rests.settleTimers_eq, idle]
    cases left <;> rfl
  | timersSpent rests waiting =>
    rw [rests.settleTimers_eq, waiting]
    rfl
  | threw rests fires =>
    rw [rests.settleTimers_eq, fires.earliest, fireNext, run_bind_of_eq fires.outcome]
    rfl
  | turned rests fires _ inductionHypothesis =>
    rw [rests.settleTimers_eq, fires.earliest, fireNext, run_bind_of_eq fires.outcome]
    exact inductionHypothesis

/-- What comes before a timer fires is the same however many may fire. -/
theorem exists_settles_of_rests
    (goesOn : ∀ events settled, Rests limits machine events settled →
      ∃ all stop after, Settles limits left machine all stop after) :
    ∃ events stop after, Settles limits left machine events stop after := by
  obtain ⟨events, drained, settled, drains⟩ := exists_drains limits.maxPendingJobs machine
  cases drained with
  | false => exact ⟨events, .jobsSpent, settled, .jobsSpent drains⟩
  | true =>
    cases log : settled.rejections.entries with
    | nil => exact goesOn _ _ (.intro drains log)
    | cons entry rest =>
      have earliest : settled.rejections.entries.head? = some entry := by rw [log]; rfl
      exact ⟨_, _, _, .unhandled drains earliest⟩

theorem exists_settles (limits : Limits) (left : Nat) (machine : Machine) :
    ∃ events stop after, Settles limits left machine events stop after := by
  induction left generalizing machine with
  | zero =>
    refine exists_settles_of_rests fun events settled rests => ?_
    cases waiting : settled.timers.earliest? with
    | none => exact ⟨events, .quiet, settled, .quiet rests waiting⟩
    | some timer => exact ⟨events, .timersSpent, settled, .timersSpent rests waiting⟩
  | succ left inductionHypothesis =>
    refine exists_settles_of_rests fun events settled rests => ?_
    cases waiting : settled.timers.earliest? with
    | none => exact ⟨events, .quiet, settled, .quiet rests waiting⟩
    | some timer =>
      obtain ⟨firing, ending, next, fires⟩ := exists_fires waiting
      cases ending with
      | normal =>
        obtain ⟨more, stop, after, others⟩ := inductionHypothesis next
        exact ⟨_, stop, after, .turned rests fires others⟩
      | thrown value => exact ⟨_, .threw .callback value, next, .threw rests fires⟩

theorem Executes.outcome (executes : Executes session program events stop after) :
    (runProgram session.limits program.statements).run session.prepared =
      (stop.report session.limits).run after := by
  unfold runProgram
  cases executes with
  | threw body =>
    rw [run_bind_of_eq body.outcome]
    rfl
  | settled body settles =>
    rw [run_bind_of_eq body.outcome]
    exact settles.outcome

/-- Every execution has a course. -/
theorem exists_executes (session : Session) (program : Source) :
    ∃ events stop after, Executes session program events stop after := by
  obtain ⟨events, body⟩ :=
    (scripted_callFunction 0 program.statements []).performs session.prepared
  generalize ((callFunction 0 program.statements []).run session.prepared).1 = ending at body
  cases ending with
  | normal =>
    obtain ⟨more, stop, after, settles⟩ := exists_settles session.limits _ _
    exact ⟨_, stop, after, .settled body settles⟩
  | thrown value => exact ⟨events, .threw .body value, _, .threw body⟩

end Outcomes

/-! ## Executions are steps -/

section Courses

variable {session : Session} {program : Source} {limits : Limits} {timer : Timer TimerAction}
  {machine after : Machine} {events : List Event} {stop : Stop} {ending : Ending} {budget : Nat}
  {drained : Bool}

theorem Drains.steps (drains : Drains budget machine events drained after) :
    Steps machine events after := by
  induction drains with
  | done => exact .refl
  | overrun first ran => exact (Steps.single (.begin first)).trans ran.steps
  | next first ran _ inductionHypothesis =>
    exact ((Steps.single (.begin first)).trans ran.steps).trans inductionHypothesis

theorem Rests.steps (rests : Rests limits machine events after) : Steps machine events after := by
  cases rests with
  | @intro events settled drains handled =>
    have polled : Step settled (.polled settled.rejections.entries.head?)
      { settled with rejections := .empty } := .poll
    rw [handled] at polled
    exact drains.steps.trans (.single polled)

theorem Fires.steps (fires : Fires timer machine events ending after) :
    Steps machine events after := by
  cases fires with
  | returned earliest ran =>
    exact ((Steps.single (.fire earliest)).trans ran.steps).trans (.single .finish)
  | threw earliest ran =>
    exact ((Steps.single (.fire earliest)).trans ran.steps).trans (.single .abandon)

theorem Settles.steps {left : Nat} (settles : Settles limits left machine events stop after) :
    Steps machine events after := by
  induction settles with
  | jobsSpent drains => exact drains.steps
  | unhandled drains earliest => exact drains.steps.trans (.single (earliest ▸ .poll))
  | quiet rests | timersSpent rests => exact rests.steps
  | threw rests fires => exact rests.steps.trans fires.steps
  | turned rests fires _ inductionHypothesis =>
    exact (rests.steps.trans fires.steps).trans inductionHypothesis

theorem Executes.steps (executes : Executes session program events stop after) :
    Steps session.prepared events after := by
  cases executes with
  | threw body => exact body.steps
  | settled body settles => exact body.steps.trans settles.steps

end Courses

end Playground.Script
