import Playground.Proofs.Script.Turns

/-!
# Quiescence and the timer budget

An execution that succeeds has nothing left to do: the jobs are drained, the rejection log has just
been found empty, and no timer is pending. One whose timer budget is spent stops at the same point
of a turn, with timers pending and exactly as many callbacks fired as the limits allow.
-/

namespace Playground.Script

variable {session : Session} {program : Source} {limits : Limits} {timer : Timer TimerAction}
  {machine after : Machine} {events : List Event} {stop : Stop} {ending : Ending}
  {budget left : Nat} {drained : Bool}

/-- Statements fire no timer. -/
theorem Performs.firings_eq {α : Type} {run : Run α} {result : α}
    (performs : Performs run machine events result after) : firings events = [] := by
  refine List.filterMap_eq_nil_iff.mpr fun event member => ?_
  have scripted := performs.scripted event member
  cases event <;> first | rfl | exact absurd scripted id

theorem Drains.firings_eq (drains : Drains budget machine events drained after) :
    firings events = [] := by
  induction drains with
  | done => rfl
  | overrun _ ran => simp [ran.firings_eq, Event.fired?]
  | next _ ran _ inductionHypothesis => simp [ran.firings_eq, inductionHypothesis, Event.fired?]

theorem Rests.firings_eq (rests : Rests limits machine events after) : firings events = [] := by
  cases rests with
  | intro drains => simp [drains.firings_eq, Event.fired?]

theorem Fires.firings_eq (fires : Fires timer machine events ending after) :
    firings events = [timer] := by
  cases fires with
  | returned _ ran | threw _ ran => simp [ran.firings_eq, Event.fired?]

/-- No more timers fire than may, and they are all spent when the budget stops an execution. -/
theorem Settles.firings_length (settles : Settles limits left machine events stop after) :
    (firings events).length ≤ left ∧
      (stop = .timersSpent → (firings events).length = left) := by
  induction settles with
  | jobsSpent drains | unhandled drains => simp [drains.firings_eq, Event.fired?]
  | quiet rests | timersSpent rests => simp [rests.firings_eq]
  | threw rests fires => simp [rests.firings_eq, fires.firings_eq]
  | turned rests fires _ inductionHypothesis =>
    simp only [firings_append, rests.firings_eq, fires.firings_eq, List.nil_append,
      List.cons_append, List.length_cons, Nat.add_le_add_iff_right, Nat.add_right_cancel_iff]
    exact inductionHypothesis

/-! ## What is left -/

/-- Between a turn's jobs and its timer: no job is queued, and the rejection log has just been read
and had no entry. -/
structure AtRest (events : List Event) (machine : Machine) : Prop where
  jobs : machine.jobs = []
  read : events.getLast? = some (.polled none)
  rejections : machine.rejections = .empty

/-- What is left to do by what stopped the execution. -/
def Stop.Leaves (events : List Event) (machine : Machine) : Stop → Prop
  | .quiet => AtRest events machine ∧ machine.timers.pending = []
  | .timersSpent => AtRest events machine ∧ machine.timers.pending ≠ []
  | .threw _ _ | .unhandled _ _ | .jobsSpent => True

theorem Timers.earliest?_eq_none_iff {α : Type} (timers : Timers α) :
    timers.earliest? = none ↔ timers.pending = [] := by
  unfold Timers.earliest?
  cases timers.pending <;> simp

theorem Drains.jobs_eq (drains : Drains budget machine events drained after) :
    drained = true → after.jobs = [] := by
  induction drains with
  | done empty => exact fun _ => empty
  | overrun => exact nofun
  | next _ _ _ inductionHypothesis => exact inductionHypothesis

theorem Rests.atRest (rests : Rests limits machine events after) : AtRest events after := by
  cases rests with
  | intro drains => exact ⟨drains.jobs_eq rfl, by simp, rfl⟩

/-- What happened before does not change that the log has just been read. -/
theorem AtRest.behind (rest : AtRest events machine) (before : List Event) :
    AtRest (before ++ events) machine :=
  ⟨rest.jobs, by simp [List.getLast?_append, rest.read], rest.rejections⟩

theorem Stop.Leaves.behind (leaves : stop.Leaves events machine) (before : List Event) :
    stop.Leaves (before ++ events) machine := by
  cases stop with
  | quiet | timersSpent => exact ⟨leaves.1.behind before, leaves.2⟩
  | threw | unhandled | jobsSpent => trivial

theorem Settles.leaves (settles : Settles limits left machine events stop after) :
    stop.Leaves events after := by
  induction settles with
  | jobsSpent | unhandled | threw => trivial
  | quiet rests idle => exact ⟨rests.atRest, (Timers.earliest?_eq_none_iff _).mp idle⟩
  | timersSpent rests waiting =>
    refine ⟨rests.atRest, fun idle => ?_⟩
    rw [(Timers.earliest?_eq_none_iff _).mpr idle] at waiting
    cases waiting
  | turned _ _ _ inductionHypothesis => exact inductionHypothesis.behind _

/-! ## Executions -/

theorem Executes.firings_length (executes : Executes session program events stop after) :
    (firings events).length ≤ session.limits.maxTimerTurns ∧
      (stop = .timersSpent → (firings events).length = session.limits.maxTimerTurns) := by
  cases executes with
  | threw body => simp [body.firings_eq]
  | settled body settles => simpa [body.firings_eq] using settles.firings_length

theorem Executes.leaves (executes : Executes session program events stop after) :
    stop.Leaves events after := by
  cases executes with
  | threw => trivial
  | settled _ settles => exact settles.leaves.behind _

theorem Executes.verdict_eq (executes : Executes session program events stop after) :
    (session.execute program).1 = session.verdict ((stop.report session.limits).run after).2
      ((stop.report session.limits).run after).1 := by
  rw [Session.execute, executes.outcome]
  rfl

/-- An execution answers with what stopped it, unless its deadline has passed. -/
theorem Executes.report_eq {fault : Option RunFault}
    (executes : Executes session program events stop after)
    (answer : (session.execute program).1 = fault)
    (inTime : ∀ limit, fault ≠ some (.timedOut limit)) :
    ((stop.report session.limits).run after).1 = fault := by
  have verdict := executes.verdict_eq.symm.trans answer
  unfold Session.verdict at verdict
  split at verdict
  · split at verdict
    · exact absurd verdict.symm (inTime _)
    · exact verdict
  · exact verdict

theorem Executes.machine_eq (executes : Executes session program events stop after) :
    (session.execute program).2.machine = ((stop.report session.limits).run after).2 := by
  rw [Session.execute, executes.outcome]
  rfl

/-- Only quiet executions succeed. -/
theorem Executes.eq_quiet (executes : Executes session program events stop after)
    (succeeded : (session.execute program).1 = none) : stop = .quiet := by
  have report := executes.report_eq succeeded nofun
  cases stop with
  | quiet => rfl
  | threw | unhandled | timersSpent | jobsSpent => exact absurd report nofun

/-- Only executions that a spent timer budget stopped fail with it. -/
theorem Executes.eq_timersSpent {turns : Nat}
    (executes : Executes session program events stop after)
    (failed : (session.execute program).1 = some (.timerBudget turns)) :
    stop = .timersSpent ∧ turns = session.limits.maxTimerTurns := by
  have report := executes.report_eq failed nofun
  cases stop with
  | timersSpent => cases report; exact ⟨rfl, rfl⟩
  | quiet | threw | unhandled | jobsSpent => exact absurd report nofun

/-- What an execution with the given course answers for. -/
structure Accounts (session : Session) (program : Source) (events : List Event) (stop : Stop) :
    Prop where
  /-- Unless its deadline has passed, an execution that goes quiet succeeds, and one that has no
  timer turns left fails with the timer budget. -/
  answered : (∀ limit, (session.execute program).1 ≠ some (.timedOut limit)) →
    ((session.execute program).1 = none ↔ stop = .quiet) ∧
      ((session.execute program).1 = some (.timerBudget session.limits.maxTimerTurns) ↔
        stop = .timersSpent)
  within : (firings events).length ≤ session.limits.maxTimerTurns
  /-- Success means that nothing is left to do. -/
  succeeded : (session.execute program).1 = none →
    AtRest events (session.execute program).2.machine ∧
      (session.execute program).2.machine.timers.pending = []
  /-- The budget is spent to the last callback, and there is another timer to fire. -/
  exhausted : ∀ turns, (session.execute program).1 = some (.timerBudget turns) →
    turns = session.limits.maxTimerTurns ∧
      (firings events).length = session.limits.maxTimerTurns ∧
      AtRest events (session.execute program).2.machine ∧
      (session.execute program).2.machine.timers.pending ≠ []

theorem Executes.accounts (executes : Executes session program events stop after) :
    Accounts session program events stop where
  answered inTime := by
    refine ⟨⟨executes.eq_quiet, ?_⟩, fun failed => (executes.eq_timersSpent failed).1, ?_⟩
    · rintro rfl
      exact (executes.report_eq rfl inTime).symm
    · rintro rfl
      exact (executes.report_eq rfl inTime).symm
  within := executes.firings_length.1
  succeeded success := by
    obtain rfl := executes.eq_quiet success
    rw [executes.machine_eq]
    exact executes.leaves
  exhausted turns failed := by
    obtain ⟨rfl, rfl⟩ := executes.eq_timersSpent failed
    rw [executes.machine_eq]
    exact ⟨rfl, executes.firings_length.2 rfl, executes.leaves⟩

/-- Whatever a session holds and whatever program it executes, the execution has a course, and on
every course it has, success means quiescence and the timer budget is exact. -/
theorem execute_quiescent (session : Session) (program : Source) :
    (∃ events stop after, Executes session program events stop after) ∧
      ∀ events stop after, Executes session program events stop after →
        Accounts session program events stop :=
  ⟨exists_executes session program, fun _ _ _ executes => executes.accounts⟩

set_option maxRecDepth 4000 in
/-- A timer that repeats for ever spends the budget. -/
example : ((Session.start ⟨none, 3, 10⟩).execute
    (.script [.startTimer ⟨true, .number (.ofNat 10), [], none⟩ []])).1 =
      some (.timerBudget 3) := by
  decide +kernel

end Playground.Script
