import Playground.Proofs.Script.Quiescence

/-!
# The budget of promise jobs

A drain runs the jobs of the queue in order, and a job is counted once it has run. So a drain stays
within the budget if it finds no job after the last one that the budget has room for, and otherwise
that job runs as well, with all it does, before the execution is given up (`execute_jobBudget`).
-/

namespace Playground.Script

/-! ## A drain -/

/-- Jobs run one after another, each of them the first in the queue. -/
inductive RunsJobs : Machine → List Job → Machine → Prop where
  | idle {machine} : RunsJobs machine [] machine
  | job {machine job rest jobs after} (first : machine.jobs = job :: rest)
      (others : RunsJobs ((job.run callFunction).run { machine with jobs := rest }).2 jobs after) :
      RunsJobs machine (job :: jobs) after

/-- A drain runs the jobs that the budget has room for, unless it runs out of jobs. It fails if
there is another one, which has run by then. -/
structure DrainsWithin (budget : Nat) (machine : Machine) (jobs : List Job) (waiting : Machine) :
    Prop where
  runs : RunsJobs machine jobs waiting
  within : jobs.length ≤ budget
  spent : waiting.jobs ≠ [] → jobs.length = budget
  drained : waiting.jobs = [] → (drainJobs budget).run machine = (true, waiting)
  overrun : ∀ job rest, waiting.jobs = job :: rest → (drainJobs budget).run machine =
    (false, ((job.run callFunction).run { waiting with jobs := rest }).2)

section Drains

variable {machine waiting : Machine} {jobs : List Job} {budget : Nat}

theorem drainsWithin_of_nil (budget : Nat) (empty : machine.jobs = []) :
    DrainsWithin budget machine [] machine where
  runs := .idle
  within := Nat.zero_le _
  spent waits := absurd empty waits
  drained _ := by cases budget <;> exact run_bind_of_eq (nextJob?_of_nil empty) _
  overrun job rest queue := by
    rw [queue] at empty
    cases empty

theorem drainsWithin_zero (machine : Machine) : DrainsWithin 0 machine [] machine where
  runs := .idle
  within := Nat.le_refl 0
  spent _ := rfl
  drained empty := run_bind_of_eq (nextJob?_of_nil empty) _
  overrun _ _ queue := run_bind_of_eq (nextJob?_of_cons queue) _

/-- A job at the front of the queue takes one from the budget. -/
theorem DrainsWithin.cons {job : Job} {rest : List Job} (queue : machine.jobs = job :: rest)
    (others : DrainsWithin budget ((job.run callFunction).run { machine with jobs := rest }).2 jobs
      waiting) : DrainsWithin (budget + 1) machine (job :: jobs) waiting := by
  have goesOn : (drainJobs (budget + 1)).run machine =
      (drainJobs budget).run ((job.run callFunction).run { machine with jobs := rest }).2 :=
    run_bind_of_eq (nextJob?_of_cons queue) _
  refine ⟨.job queue others.runs, Nat.succ_le_succ others.within, ?_, ?_, ?_⟩
  · exact fun waits => congrArg Nat.succ (others.spent waits)
  · exact fun empty => goesOn.trans (others.drained empty)
  · exact fun next behind queued => goesOn.trans (others.overrun next behind queued)

theorem exists_drainsWithin (budget : Nat) (machine : Machine) :
    ∃ jobs waiting, DrainsWithin budget machine jobs waiting := by
  induction budget generalizing machine with
  | zero => exact ⟨[], machine, drainsWithin_zero machine⟩
  | succ budget inductionHypothesis =>
    cases queue : machine.jobs with
    | nil => exact ⟨[], machine, drainsWithin_of_nil _ queue⟩
    | cons job rest =>
      obtain ⟨jobs, waiting, others⟩ := inductionHypothesis
        ((job.run callFunction).run { machine with jobs := rest }).2
      exact ⟨job :: jobs, waiting, others.cons queue⟩

end Drains

/-! ## The drains of a course -/

/-- The jobs of the drain under way after one more event. A drain is over once the rejection log is
read. -/
def Event.goOn (jobs : List Job) : Event → List Job
  | .began job => jobs ++ [job]
  | .polled _ => []
  | .internal | .armed _ | .cleared _ | .fired _ | .finished _ => jobs

/-- The jobs that have begun in the drain under way, if some had before. -/
def drainAfter (jobs : List Job) (events : List Event) : List Job :=
  events.foldl Event.goOn jobs

/-- At no moment has the drain under way begun more jobs than the bound. -/
def StaysWithin (bound : Nat) (jobs : List Job) (events : List Event) : Prop :=
  ∀ before later, events = before ++ later → (drainAfter jobs before).length ≤ bound

/-- The drain under way has begun as many jobs as the bound and none before had begun more. Then
the job at the front of the queue begins and runs to its end. -/
inductive Overruns (bound : Nat) (jobs : List Job) (start : Machine) :
    List Event → Machine → Prop where
  | intro {before job later waiting rest after} (reached : Steps start before waiting)
      (within : StaysWithin bound jobs before) (full : (drainAfter jobs before).length = bound)
      (queue : waiting.jobs = job :: rest)
      (ran : Performs (job.run callFunction) { waiting with jobs := rest } later () after) :
      Overruns bound jobs start (before ++ .began job :: later) after

/-- The rejection log is read only when no job is queued. -/
def PollsIdle (start : Machine) (events : List Event) : Prop :=
  ∀ before earliest later, events = before ++ .polled earliest :: later →
    ∃ machine, Steps start before machine ∧ machine.jobs = []

section Courses

variable {session : Session} {program : Source} {limits : Limits} {timer : Timer TimerAction}
  {start machine after : Machine} {event : Event} {events more : List Event} {stop : Stop}
  {ending : Ending} {jobs : List Job} {budget bound left : Nat} {drained : Bool}

@[simp]
theorem drainAfter_nil (jobs : List Job) : drainAfter jobs [] = jobs := rfl

@[simp]
theorem drainAfter_cons (jobs : List Job) (event : Event) (events : List Event) :
    drainAfter jobs (event :: events) = drainAfter (event.goOn jobs) events := rfl

@[simp]
theorem drainAfter_append (jobs : List Job) (events more : List Event) :
    drainAfter jobs (events ++ more) = drainAfter (drainAfter jobs events) more :=
  List.foldl_append

/-! ### Staying within the budget -/

theorem staysWithin_nil : StaysWithin bound jobs [] ↔ jobs.length ≤ bound := by
  refine ⟨fun stays => stays [] [] rfl, fun within before later split => ?_⟩
  obtain ⟨rfl, -⟩ := List.append_eq_nil_iff.mp split.symm
  exact within

theorem staysWithin_cons : StaysWithin bound jobs (event :: events) ↔
    jobs.length ≤ bound ∧ StaysWithin bound (event.goOn jobs) events := by
  constructor
  · intro stays
    refine ⟨stays [] (event :: events) rfl, fun before later split => ?_⟩
    exact stays (event :: before) later (by rw [split, List.cons_append])
  · rintro ⟨within, others⟩ (_ | ⟨first, before⟩) later split
    · exact within
    · obtain ⟨rfl, rest⟩ := List.cons.inj split
      exact others before later rest

theorem StaysWithin.length_le (stays : StaysWithin bound jobs events) :
    (drainAfter jobs events).length ≤ bound :=
  stays events [] (List.append_nil events).symm

theorem StaysWithin.append (first : StaysWithin bound jobs events)
    (second : StaysWithin bound (drainAfter jobs events) more) :
    StaysWithin bound jobs (events ++ more) := by
  induction events generalizing jobs with
  | nil => exact second
  | cons event events inductionHypothesis =>
    obtain ⟨within, others⟩ := staysWithin_cons.mp first
    exact staysWithin_cons.mpr ⟨within, inductionHypothesis others second⟩

/-- Statements begin no job and end no drain. -/
theorem Performs.staysWithin {α : Type} {run : Run α} {result : α}
    (performs : Performs run machine events result after) (within : jobs.length ≤ bound) :
    drainAfter jobs events = jobs ∧ StaysWithin bound jobs events := by
  have scripted := performs.scripted
  clear performs
  induction events with
  | nil => exact ⟨rfl, staysWithin_nil.mpr within⟩
  | cons event events inductionHypothesis =>
    obtain ⟨first, others⟩ := List.forall_mem_cons.mp scripted
    have same : event.goOn jobs = jobs := by
      cases event <;> first | rfl | exact first.elim
    obtain ⟨unchanged, stays⟩ := inductionHypothesis others
    rw [drainAfter_cons, staysWithin_cons, same]
    exact ⟨unchanged, within, stays⟩

theorem Performs.staysWithin_start {α : Type} {run : Run α} {result : α}
    (performs : Performs run machine events result after) (bound : Nat) :
    drainAfter [] events = [] ∧ StaysWithin bound [] events :=
  performs.staysWithin (Nat.zero_le bound)

/-- What has happened before an overrun was within the bound as well. -/
theorem Overruns.behind (steps : Steps start events machine)
    (stays : StaysWithin bound jobs events)
    (overruns : Overruns bound (drainAfter jobs events) machine more after) :
    Overruns bound jobs start (events ++ more) after := by
  obtain ⟨reached, within, full, queue, ran⟩ := overruns
  rw [← List.append_assoc]
  exact .intro (steps.trans reached) (stays.append within) (by simpa using full) queue ran

/-! ### The end of a drain -/

theorem Drains.staysWithin (drains : Drains budget machine events true after)
    (within : jobs.length + budget ≤ bound) : StaysWithin bound jobs events := by
  generalize finished : true = drained at drains
  induction drains generalizing jobs with
  | done => exact staysWithin_nil.mpr (by omega)
  | overrun => cases finished
  | @next budget _ job _ _ _ _ _ _ _ ran _ inductionHypothesis =>
    have more : (jobs ++ [job]).length + budget ≤ bound := by
      rw [List.length_append, List.length_singleton]
      omega
    have room : (jobs ++ [job]).length ≤ bound := by omega
    obtain ⟨same, stays⟩ := ran.staysWithin room
    rw [List.cons_append]
    refine staysWithin_cons.mpr ⟨by omega, stays.append ?_⟩
    rw [same]
    exact inductionHypothesis more finished

theorem Drains.staysWithin_start (drains : Drains budget machine events true after) :
    StaysWithin budget [] events :=
  drains.staysWithin (Nat.le_of_eq (Nat.zero_add budget))

theorem Drains.overruns (drains : Drains budget machine events false after)
    (bounded : jobs.length + budget = bound) : Overruns bound jobs machine events after := by
  generalize failed : false = drained at drains
  induction drains generalizing jobs with
  | done => cases failed
  | overrun first ran =>
    exact .intro .refl (staysWithin_nil.mpr (by omega)) bounded first ran
  | @next budget _ job _ _ _ _ _ _ first ran _ inductionHypothesis =>
    have more : (jobs ++ [job]).length + budget = bound := by
      rw [List.length_append, List.length_singleton]
      omega
    have room : (jobs ++ [job]).length ≤ bound := by omega
    obtain ⟨same, stays⟩ := ran.staysWithin room
    have begun := (Steps.single (.begin first)).trans ran.steps
    refine Overruns.behind begun (staysWithin_cons.mpr ⟨by omega, stays⟩) ?_
    rw [drainAfter_cons, Event.goOn, same]
    exact inductionHypothesis more failed

/-- Once the log has been read, the next drain begins with no job. -/
theorem Rests.staysWithin (rests : Rests limits machine events after) :
    drainAfter [] events = [] ∧ StaysWithin limits.maxPendingJobs [] events := by
  cases rests with
  | intro drains =>
    have stays := drains.staysWithin_start
    refine ⟨by simp [Event.goOn], stays.append (staysWithin_cons.mpr ⟨stays.length_le, ?_⟩)⟩
    exact staysWithin_nil.mpr (Nat.zero_le _)

theorem Fires.staysWithin (fires : Fires timer machine events ending after) (bound : Nat) :
    drainAfter [] events = [] ∧ StaysWithin bound [] events := by
  cases fires with
  | returned _ ran | threw _ ran =>
    obtain ⟨same, stays⟩ := ran.staysWithin_start bound
    simp only [List.cons_append, drainAfter_cons, drainAfter_append, Event.goOn, same,
      drainAfter_nil, staysWithin_cons, List.length_nil, Nat.zero_le, true_and]
    refine stays.append ?_
    rw [same]
    exact staysWithin_cons.mpr ⟨Nat.zero_le _, staysWithin_nil.mpr (Nat.zero_le _)⟩

/-! ### Reading the log -/

theorem pollsIdle_of_not_mem (unread : ∀ earliest, Event.polled earliest ∉ events) :
    PollsIdle start events :=
  fun before earliest later split => absurd (by simp [split]) (unread earliest)

theorem PollsIdle.append (steps : Steps start events machine) (first : PollsIdle start events)
    (second : PollsIdle machine more) : PollsIdle start (events ++ more) := by
  intro before earliest later split
  obtain ⟨between, rfl, rest⟩ | ⟨between, front, rest⟩ := List.append_eq_append_iff.mp split
  · obtain ⟨reached, goesOn, idle⟩ := second between earliest later rest
    exact ⟨reached, steps.trans goesOn, idle⟩
  · cases between with
    | nil =>
      obtain ⟨reached, goesOn, idle⟩ := second [] earliest later rest.symm
      obtain rfl : events = before := by simpa using front
      exact ⟨reached, by simpa using steps.trans goesOn, idle⟩
    | cons event between =>
      obtain ⟨rfl, -⟩ := List.cons.inj rest
      exact first before earliest between front

theorem Performs.polled_not_mem {α : Type} {run : Run α} {result : α}
    (performs : Performs run machine events result after) (earliest : Option (Nat × String)) :
    Event.polled earliest ∉ events :=
  performs.scripted _

theorem Drains.polled_not_mem (drains : Drains budget machine events drained after)
    (earliest : Option (Nat × String)) : Event.polled earliest ∉ events := by
  induction drains with
  | done => exact List.not_mem_nil
  | overrun _ ran => simp [ran.polled_not_mem]
  | next _ ran _ inductionHypothesis => simp [ran.polled_not_mem, inductionHypothesis]

/-- A drain that is followed by a look at the log has left no job. -/
theorem Drains.pollsIdle (drains : Drains budget machine events true after)
    (earliest : Option (Nat × String)) :
    PollsIdle machine (events ++ [.polled earliest]) := by
  have idle : PollsIdle after [.polled earliest] := by
    intro before other later split
    obtain rfl : before = [] := by
      cases before with
      | nil => rfl
      | cons => simp at split
    exact ⟨after, .refl, drains.jobs_eq rfl⟩
  exact (pollsIdle_of_not_mem drains.polled_not_mem).append drains.steps idle

theorem Rests.pollsIdle (rests : Rests limits machine events after) :
    PollsIdle machine events := by
  cases rests with
  | intro drains => exact drains.pollsIdle none

theorem Fires.pollsIdle (fires : Fires timer machine events ending after) :
    PollsIdle machine events := by
  refine pollsIdle_of_not_mem fun earliest => ?_
  cases fires with
  | returned _ ran | threw _ ran => simp [ran.polled_not_mem]

/-! ### Courses -/

theorem Settles.staysWithin (settles : Settles limits left machine events stop after)
    (other : stop ≠ .jobsSpent) : StaysWithin limits.maxPendingJobs [] events := by
  induction settles with
  | jobsSpent => exact absurd rfl other
  | unhandled drains =>
    have stays := drains.staysWithin_start
    exact stays.append (staysWithin_cons.mpr ⟨stays.length_le, staysWithin_nil.mpr (Nat.zero_le _)⟩)
  | quiet rests | timersSpent rests => exact rests.staysWithin.2
  | threw rests fires =>
    refine rests.staysWithin.2.append ?_
    rw [rests.staysWithin.1]
    exact (fires.staysWithin _).2
  | turned rests fires _ inductionHypothesis =>
    refine (rests.staysWithin.2.append ?_).append ?_
    · rw [rests.staysWithin.1]
      exact (fires.staysWithin _).2
    · rw [drainAfter_append, rests.staysWithin.1, (fires.staysWithin 0).1]
      exact inductionHypothesis other

theorem Settles.overruns (settles : Settles limits left machine events stop after)
    (spent : stop = .jobsSpent) : Overruns limits.maxPendingJobs [] machine events after := by
  induction settles with
  | jobsSpent drains => exact drains.overruns (Nat.zero_add _)
  | unhandled | quiet | timersSpent | threw => cases spent
  | turned rests fires _ inductionHypothesis =>
    have rested := rests.staysWithin
    have fired := fires.staysWithin limits.maxPendingJobs
    refine Overruns.behind (rests.steps.trans fires.steps) (rested.2.append ?_) ?_
    · rw [rested.1]
      exact fired.2
    · rw [drainAfter_append, rested.1, fired.1]
      exact inductionHypothesis spent

theorem Settles.pollsIdle (settles : Settles limits left machine events stop after) :
    PollsIdle machine events := by
  induction settles with
  | jobsSpent drains => exact pollsIdle_of_not_mem drains.polled_not_mem
  | unhandled drains => exact drains.pollsIdle _
  | quiet rests | timersSpent rests => exact rests.pollsIdle
  | threw rests fires => exact rests.pollsIdle.append rests.steps fires.pollsIdle
  | turned rests fires _ inductionHypothesis =>
    have turn := rests.pollsIdle.append rests.steps fires.pollsIdle
    exact turn.append (rests.steps.trans fires.steps) inductionHypothesis

/-! ## Executions -/

theorem Executes.staysWithin (executes : Executes session program events stop after)
    (other : stop ≠ .jobsSpent) : StaysWithin session.limits.maxPendingJobs [] events := by
  cases executes with
  | threw body => exact (body.staysWithin_start _).2
  | settled body settles =>
    have began := body.staysWithin_start session.limits.maxPendingJobs
    refine began.2.append ?_
    rw [began.1]
    exact settles.staysWithin other

theorem Executes.overruns (executes : Executes session program events stop after)
    (spent : stop = .jobsSpent) :
    Overruns session.limits.maxPendingJobs [] session.prepared events after := by
  cases executes with
  | threw => cases spent
  | settled body settles =>
    have began := body.staysWithin_start session.limits.maxPendingJobs
    refine Overruns.behind body.steps began.2 ?_
    rw [began.1]
    exact settles.overruns spent

theorem Executes.pollsIdle (executes : Executes session program events stop after) :
    PollsIdle session.prepared events := by
  cases executes with
  | threw body => exact pollsIdle_of_not_mem body.polled_not_mem
  | settled body settles =>
    exact (pollsIdle_of_not_mem body.polled_not_mem).append body.steps settles.pollsIdle

/-- Only executions whose job budget was spent fail with it. -/
theorem Executes.eq_jobsSpent {count : Nat}
    (executes : Executes session program events stop after)
    (failed : (session.execute program).1 = some (.jobBudget count)) :
    stop = .jobsSpent ∧ count = session.limits.maxPendingJobs := by
  have report := executes.report_eq failed nofun
  cases stop with
  | jobsSpent => cases report; exact ⟨rfl, rfl⟩
  | quiet | threw | unhandled | timersSpent => exact absurd report nofun

/-- What the job budget means for an execution with the given course. -/
structure JobAccounts (session : Session) (program : Source) (events : List Event) (stop : Stop)
    (after : Machine) : Prop where
  /-- Unless its deadline has passed, an execution fails with the job budget exactly if a drain
  was given up. -/
  answered : (∀ limit, (session.execute program).1 ≠ some (.timedOut limit)) →
    ((session.execute program).1 = some (.jobBudget session.limits.maxPendingJobs) ↔
      stop = .jobsSpent)
  failed : ∀ count, (session.execute program).1 = some (.jobBudget count) →
    stop = .jobsSpent ∧ count = session.limits.maxPendingJobs
  /-- No drain that was not given up has begun more jobs than the budget has room for. -/
  within : stop ≠ .jobsSpent → StaysWithin session.limits.maxPendingJobs [] events
  /-- A drain that is given up has run exactly one job more. -/
  overrun : stop = .jobsSpent →
    Overruns session.limits.maxPendingJobs [] session.prepared events after
  drained : PollsIdle session.prepared events

theorem Executes.jobAccounts (executes : Executes session program events stop after) :
    JobAccounts session program events stop after where
  answered inTime := by
    refine ⟨fun failed => (executes.eq_jobsSpent failed).1, ?_⟩
    rintro rfl
    exact (executes.report_eq rfl inTime).symm
  failed _ := executes.eq_jobsSpent
  within := executes.staysWithin
  overrun := executes.overruns
  drained := executes.pollsIdle

end Courses

/-- A drain fails exactly if a job is waiting once the budget is spent, and that job has run by
then. Whatever a session holds and whatever program it executes, the execution has a course, and on
every course no drain begins more jobs than the budget has room for, except the one that the
execution fails with. -/
theorem execute_jobBudget (session : Session) (program : Source) :
    (∀ budget machine, ∃ jobs waiting, DrainsWithin budget machine jobs waiting) ∧
      (∃ events stop after, Executes session program events stop after) ∧
      ∀ events stop after, Executes session program events stop after →
        JobAccounts session program events stop after :=
  ⟨exists_drainsWithin, exists_executes session program,
    fun _ _ _ executes => executes.jobAccounts⟩

set_option maxRecDepth 4000 in
/-- With no job allowed, the first one still prints its line. -/
theorem execute_prints_past_jobBudget :
    let outcome := (Session.start ⟨none, 10, 0⟩).execute
      (.script [.afterSettled .undefined [.print [.text "late"]]])
    outcome.1 = some (.jobBudget 0) ∧ outcome.2.lines = ["late"] := by
  decide +kernel

end Playground.Script
