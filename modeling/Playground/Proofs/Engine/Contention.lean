import Mathlib.Logic.ExistsUnique
import Mathlib.Logic.Function.Basic
import Playground.Proofs.Engine.Isolation

/-!
# Runs at the same time

Any number of callers run programs on one engine at the same time, in small steps: a caller looks up
the pipeline of its language, tries to enter the run state, runs the pipeline and leaves the run
state. A pipeline may also be left by a panic, and then the run state is left all the same. The
steps are those of the engine, so one after another they make up a run (`Runs.run`).

The run state is running as long as a caller is between entering and leaving, and there is never
more than one (`Entered`). A caller that is turned away changes nothing but itself, so every caller
settles into a refusal or into what its own pipeline comes to (`Contended`).
-/

namespace Playground.Contention

open Console (Sink Panic)

/-- A caller: what it runs, and the console of its thread, which a run puts back. -/
structure Caller where
  request : ExecutionRequest
  sink : Sink

/-- Whether the language of a caller is one that is run. -/
def Caller.isSupported (caller : Caller) : Bool :=
  caller.request.language.pipeline.isSupported

/-- What the pipeline of a caller comes to on an engine. -/
def Caller.ending (caller : Caller) (engine : Engine) : Except Panic Outcome :=
  (engine.runPipeline caller.request.language caller.request.buffers caller.sink).1

/-- How far a caller has come. -/
inductive Phase where
  | waiting
  /-- The language is one that is run, and the run state has not been tried. -/
  | dispatched
  /-- The run state was entered, and the pipeline has not ended. -/
  | inside
  /-- The pipeline has ended, and the run state has not been left. -/
  | leaving (ending : Except Panic Outcome)
  /-- The run has returned, or it was unwound by a panic. -/
  | settled (ending : Except Panic Outcome)

/-- Whether the run state was entered and has not been left. -/
def Phase.isRunning : Phase → Bool
  | .inside | .leaving _ => true
  | .waiting | .dispatched | .settled _ => false

/-- What a caller does in a step. -/
inductive Action where
  /-- The language is not run. -/
  | dismissed
  | dispatched
  | entered
  /-- The run state could not be entered. -/
  | refused
  | ended
  | panicked (panic : Panic)
  | left

/-- An engine and how far its callers have come. -/
structure System (ι : Type) where
  engine : Engine
  phases : ι → Phase

variable {ι : Type} [DecidableEq ι]

namespace System

/-- An idle engine that nobody has called. -/
def quiet (settings : Settings) (scheduler : Preview.Scheduler) : System ι :=
  ⟨⟨settings, .idle, scheduler⟩, fun _ => .waiting⟩

/-- A system in which a caller has gone on to another phase. -/
def withPhase (system : System ι) (caller : ι) (phase : Phase) : System ι :=
  { system with phases := Function.update system.phases caller phase }

/-- A system whose engine is in another run state. -/
def withState (system : System ι) (state : RunState) : System ι :=
  { system with engine := { system.engine with state := state } }

section Parts

variable (system : System ι) (caller : ι) (phase : Phase) (state : RunState)

@[simp] theorem engine_withPhase : (system.withPhase caller phase).engine = system.engine := rfl

@[simp] theorem phases_withPhase_self : (system.withPhase caller phase).phases caller = phase :=
  Function.update_self ..

@[simp] theorem phases_withPhase_of_ne {other : ι} (apart : other ≠ caller) :
    (system.withPhase caller phase).phases other = system.phases other :=
  Function.update_of_ne apart ..

@[simp] theorem withPhase_withPhase (later : Phase) :
    (system.withPhase caller phase).withPhase caller later = system.withPhase caller later := by
  simp [withPhase]

omit [DecidableEq ι] in
@[simp] theorem state_withState : (system.withState state).engine.state = state := rfl

omit [DecidableEq ι] in
@[simp] theorem phases_withState : (system.withState state).phases = system.phases := rfl

end Parts

end System

/-- One step of a caller. -/
inductive Step (callers : ι → Caller) : System ι → ι × Action → System ι → Prop where
  | dismiss {system caller} (waits : system.phases caller = .waiting)
      (unsupported : (callers caller).isSupported = false) :
      Step callers system (caller, .dismissed)
        (system.withPhase caller
          (.settled (.ok (.unsupported (callers caller).request.language.id))))
  | dispatch {system caller} (waits : system.phases caller = .waiting)
      (supported : (callers caller).isSupported = true) :
      Step callers system (caller, .dispatched) (system.withPhase caller .dispatched)
  | enter {system caller entered} (dispatched : system.phases caller = .dispatched)
      (free : system.engine.state.tryBegin? = some entered) :
      Step callers system (caller, .entered)
        ((system.withState entered).withPhase caller .inside)
  | refuse {system caller} (dispatched : system.phases caller = .dispatched)
      (taken : system.engine.state.tryBegin? = none) :
      Step callers system (caller, .refused)
        (system.withPhase caller (.settled (.ok .alreadyRunning)))
  | finish {system caller} (inside : system.phases caller = .inside) :
      Step callers system (caller, .ended)
        (system.withPhase caller (.leaving ((callers caller).ending system.engine)))
  | panic {system caller} (inside : system.phases caller = .inside) (panic : Panic) :
      Step callers system (caller, .panicked panic)
        (system.withPhase caller (.leaving (.error panic)))
  | leave {system caller ending} (leaves : system.phases caller = .leaving ending) :
      Step callers system (caller, .left)
        ((system.withState system.engine.state.finish).withPhase caller (.settled ending))

/-- What callers do from a system on, in some interleaving of their steps. -/
inductive Runs (callers : ι → Caller) (start : System ι) :
    List (ι × Action) → System ι → Prop where
  | start : Runs callers start [] start
  | step {events system event next} (prior : Runs callers start events system)
      (taken : Step callers system event next) : Runs callers start (events ++ [event]) next

variable {callers : ι → Caller} {start system next : System ι} {events : List (ι × Action)}
  {caller : ι} {action : Action}

/-! ## A run is steps of its caller -/

omit [DecidableEq ι] in
/-- What a pipeline comes to is not up to the run state. -/
@[simp] theorem ending_withState (one : Caller) (system : System ι) (state : RunState) :
    one.ending (system.withState state).engine = one.ending system.engine :=
  congrArg Prod.fst (congrFun (runPipeline_congr rfl) _)

/-- A call that nothing interrupts is a run of the engine. -/
theorem Runs.run (runs : Runs callers start events system)
    (waits : system.phases caller = .waiting) :
    let result := system.engine.execute (callers caller).request (callers caller).sink
    ∃ following, Runs callers start (events ++ following)
      ({ system with engine := result.engine }.withPhase caller (.settled result.outcome)) := by
  intro result
  by_cases supported : (callers caller).isSupported
  · have dispatched := runs.step (.dispatch waits supported)
    have tries := System.phases_withPhase_self system caller .dispatched
    cases tried : system.engine.state.tryBegin? with
    | none =>
      have refused := dispatched.step (.refuse tries tried)
      have turnedAway : result =
          ⟨.ok .alreadyRunning, system.engine, (callers caller).sink⟩ := by
        simp_all [result, Engine.execute, Engine.run, Caller.isSupported]
      rw [turnedAway]
      refine ⟨[(caller, .dispatched)] ++ [(caller, .refused)], ?_⟩
      rw [← List.append_assoc]
      simpa using refused
    | some entered =>
      have inside := dispatched.step (.enter tries tried)
      have ended := inside.step (.finish (System.phases_withPhase_self ..))
      have left := ended.step (.leave (System.phases_withPhase_self ..))
      have settled : result = ⟨(callers caller).ending system.engine,
          { system.engine with state := entered.finish }, (callers caller).sink⟩ := by
        simp_all [result, Engine.execute, Engine.run, Caller.isSupported, Caller.ending,
          snd_runPipeline]
      rw [settled]
      refine ⟨[(caller, .dispatched)] ++ [(caller, .entered)] ++ [(caller, .ended)] ++
        [(caller, .left)], ?_⟩
      simp only [← List.append_assoc]
      simp only [System.engine_withPhase, ending_withState] at left
      simpa [System.withState, System.withPhase] using left
  · have dismissed := runs.step (.dismiss waits (by simpa using supported))
    have unsupported : result = ⟨.ok (.unsupported (callers caller).request.language.id),
        system.engine, (callers caller).sink⟩ := run_of_unsupported supported
    rw [unsupported]
    exact ⟨[(caller, .dismissed)], dismissed⟩

/-! ## Who is between entering and leaving -/

/-- The run state tells whether a caller is between entering and leaving, and there is never more
than one. -/
structure Entered (system : System ι) : Prop where
  alone : ∀ {one other}, (system.phases one).isRunning → (system.phases other).isRunning →
    one = other
  running : system.engine.state = .running ↔ ∃ caller, (system.phases caller).isRunning

omit [DecidableEq ι] in
theorem entered_quiet {settings : Settings} {scheduler : Preview.Scheduler} :
    Entered (.quiet settings scheduler : System ι) :=
  ⟨by simp [System.quiet, Phase.isRunning], by simp [System.quiet, Phase.isRunning]⟩

/-- Going on to another phase keeps the invariant, unless it is by entering or leaving. -/
theorem Entered.withPhase (known : Entered system) {phase : Phase}
    (same : phase.isRunning = (system.phases caller).isRunning) :
    Entered (system.withPhase caller phase) := by
  have kept (other : ι) : ((system.withPhase caller phase).phases other).isRunning =
      (system.phases other).isRunning := by
    by_cases own : other = caller
    · rw [own, System.phases_withPhase_self, same]
    · rw [System.phases_withPhase_of_ne _ _ _ own]
  constructor
  case alone =>
    intro one other
    rw [kept, kept]
    exact known.alone
  case running =>
    simp only [kept]
    exact known.running

/-- A caller enters only if no other one is between entering and leaving. -/
theorem Entered.enter (known : Entered system) {entered : RunState}
    (free : system.engine.state.tryBegin? = some entered) :
    Entered ((system.withState entered).withPhase caller .inside) := by
  obtain ⟨idle, rfl⟩ : system.engine.state = .idle ∧ entered = .running := by
    cases state : system.engine.state <;> simp_all [RunState.tryBegin?]
  have nobody (other : ι) : (system.phases other).isRunning = false := by
    by_contra running
    have state := known.running.mpr ⟨other, by simpa using running⟩
    simp [idle] at state
  have only {other : ι} (running : ((((system.withState .running).withPhase caller
      .inside)).phases other).isRunning) : other = caller := by
    by_contra apart
    simp [apart, nobody] at running
  constructor
  case alone => exact fun one other => (only one).trans (only other).symm
  case running => exact ⟨fun _ => ⟨caller, by simp [Phase.isRunning]⟩, fun _ => rfl⟩

/-- The caller that leaves is the only one that is between entering and leaving. -/
theorem Entered.leave (known : Entered system) {ending : Except Panic Outcome}
    (leaves : system.phases caller = .leaving ending) :
    Entered ((system.withState system.engine.state.finish).withPhase caller (.settled ending)) := by
  have own : (system.phases caller).isRunning := by rw [leaves]; rfl
  have nobody (other : ι) : (((system.withState system.engine.state.finish).withPhase caller
      (.settled ending)).phases other).isRunning = false := by
    by_cases same : other = caller
    · rw [same, System.phases_withPhase_self]
      rfl
    · rw [System.phases_withPhase_of_ne _ _ _ same, System.phases_withState]
      exact Bool.eq_false_iff.mpr fun running => same (known.alone running own)
  constructor
  case alone =>
    intro one other running
    simp [nobody] at running
  case running => simp only [nobody]; simp [RunState.finish]

theorem Entered.step (known : Entered system) {event : ι × Action}
    (taken : Step callers system event next) : Entered next := by
  cases taken with
  | dismiss waits | dispatch waits => exact known.withPhase (by rw [waits]; rfl)
  | refuse dispatched => exact known.withPhase (by rw [dispatched]; rfl)
  | finish inside | panic inside => exact known.withPhase (by rw [inside]; rfl)
  | enter dispatched free => exact known.enter free
  | leave leaves => exact known.leave leaves

theorem Entered.runs (known : Entered start) (runs : Runs callers start events system) :
    Entered system := by
  induction runs with
  | start => exact known
  | step _ taken inductionHypothesis => exact inductionHypothesis.step taken

/-! ## What callers come to -/

/-- A caller that was let in ends as its own pipeline does on the engine, or with a panic. -/
def Caller.EndsWith (caller : Caller) (engine : Engine) (ending : Except Panic Outcome) : Prop :=
  ending = caller.ending engine ∨ ∃ panic, ending = .error panic

/-- What a caller may settle into. -/
def Caller.SettlesInto (caller : Caller) (engine : Engine) (ending : Except Panic Outcome) : Prop :=
  if caller.isSupported then ending = .ok .alreadyRunning ∨ caller.EndsWith engine ending
  else ending = .ok (.unsupported caller.request.language.id)

/-- A caller has come this far by its own doing. -/
def Phase.Earned (caller : Caller) (engine : Engine) : Phase → Prop
  | .waiting => True
  | .dispatched | .inside => caller.isSupported
  | .leaving ending => caller.isSupported ∧ caller.EndsWith engine ending
  | .settled ending => caller.SettlesInto engine ending

omit [DecidableEq ι] in
/-- How far a caller may have come is not up to the run state. -/
theorem earned_withState (one : Caller) (system : System ι) (state : RunState) (phase : Phase) :
    phase.Earned one (system.withState state).engine ↔ phase.Earned one system.engine := by
  cases phase <;> simp [Phase.Earned, Caller.SettlesInto, Caller.EndsWith]

theorem earned_withPhase {phase : Phase}
    (known : ∀ one, (system.phases one).Earned (callers one) system.engine)
    (earned : phase.Earned (callers caller) system.engine) (one : ι) :
    ((system.withPhase caller phase).phases one).Earned (callers one) system.engine := by
  by_cases own : one = caller
  · rw [own, System.phases_withPhase_self]
    exact earned
  · rw [System.phases_withPhase_of_ne _ _ _ own]
    exact known one

theorem earned_step {event : ι × Action}
    (known : ∀ one, (system.phases one).Earned (callers one) system.engine)
    (taken : Step callers system event next) (one : ι) :
    (next.phases one).Earned (callers one) next.engine := by
  have own := known event.1
  have moved (state : RunState) (one : ι) : ((system.withState state).phases one).Earned
      (callers one) (system.withState state).engine := (earned_withState ..).mpr (known one)
  cases taken with
  | dismiss waits unsupported =>
    exact earned_withPhase known (by simp [Phase.Earned, Caller.SettlesInto, unsupported]) one
  | dispatch waits supported => exact earned_withPhase known (by exact supported) one
  | refuse dispatched =>
    rw [dispatched] at own
    exact earned_withPhase known (by simp_all [Phase.Earned, Caller.SettlesInto]) one
  | finish inside =>
    rw [inside] at own
    exact earned_withPhase known (by exact ⟨own, .inl rfl⟩) one
  | panic inside panic =>
    rw [inside] at own
    exact earned_withPhase known (by exact ⟨own, .inr ⟨panic, rfl⟩⟩) one
  | enter dispatched =>
    rw [dispatched] at own
    exact earned_withPhase (moved _) (by exact own) one
  | leave leaves =>
    rw [leaves] at own
    refine earned_withPhase (moved _) ((earned_withState ..).mpr ?_) one
    rw [Phase.Earned, Caller.SettlesInto, if_pos own.1]
    exact .inr own.2

theorem earned_runs (known : ∀ one, (start.phases one).Earned (callers one) start.engine)
    (runs : Runs callers start events system) (one : ι) :
    (system.phases one).Earned (callers one) system.engine := by
  induction runs generalizing one with
  | start => exact known one
  | step _ taken inductionHypothesis => exact earned_step inductionHypothesis taken one

/-- What holds of an engine and its callers at every moment. -/
structure Contended (callers : ι → Caller) (system : System ι) : Prop where
  /-- At most one caller is between entering and leaving. -/
  alone : ∀ {one other}, (system.phases one).isRunning → (system.phases other).isRunning →
    one = other
  /-- The run state is running exactly when there is one. -/
  running_iff : system.engine.state = .running ↔ ∃! caller, (system.phases caller).isRunning
  /-- Whoever tries the run state while it is running is refused, which changes nothing else. -/
  refused : ∀ {caller action next}, system.phases caller = .dispatched →
    system.engine.state = .running → Step callers system (caller, action) next →
    next = system.withPhase caller (.settled (.ok .alreadyRunning))
  /-- A caller of a language that is not run leaves the engine alone. -/
  unsupported : ∀ {caller action next}, (callers caller).isSupported = false →
    Step callers system (caller, action) next → next.engine = system.engine
  /-- No step of a caller changes how far another one has come. -/
  apart : ∀ {caller action next other}, Step callers system (caller, action) next →
    other ≠ caller → next.phases other = system.phases other
  /-- Nothing follows after a caller has settled. -/
  final : ∀ {caller ending action next}, system.phases caller = .settled ending →
    ¬Step callers system (caller, action) next
  /-- A caller settles into a refusal, or into what its own run comes to. -/
  settles : ∀ {caller ending}, system.phases caller = .settled ending →
    (callers caller).SettlesInto system.engine ending
  /-- Once all callers have settled, the engine is idle. -/
  idle : (∀ caller, ∃ ending, system.phases caller = .settled ending) →
    system.engine.state = .idle

/-- However many callers run programs on an engine, whatever they run and however their steps
interleave, one of them runs at a time. -/
theorem contended_of_runs {settings : Settings} {scheduler : Preview.Scheduler}
    (runs : Runs callers (.quiet settings scheduler) events system) : Contended callers system := by
  have entered := entered_quiet.runs runs
  have earned := earned_runs (fun _ => by exact trivial) runs
  constructor
  case alone => exact entered.alone
  case running_iff =>
    rw [entered.running]
    constructor
    · rintro ⟨caller, running⟩
      exact ⟨caller, running, fun other otherRunning => entered.alone otherRunning running⟩
    · rintro ⟨caller, running, -⟩
      exact ⟨caller, running⟩
  case refused =>
    intro caller action next dispatched running taken
    cases taken with
    | refuse => rfl
    | enter _ free => simp [running, RunState.tryBegin?] at free
    | dismiss other | dispatch other | finish other | panic other | leave other =>
      simp [dispatched] at other
  case unsupported =>
    intro caller action next unsupported taken
    have own := earned caller
    cases taken with
    | dismiss => rfl
    | dispatch _ supported => simp [unsupported] at supported
    | enter other | refuse other | finish other | panic other | leave other =>
      simp [other, Phase.Earned, unsupported] at own
  case apart =>
    intro caller action next other taken apart
    cases taken <;> simp [apart]
  case final =>
    intro caller ending action next settled taken
    cases taken <;> simp_all
  case settles =>
    intro caller ending settled
    have own := earned caller
    rwa [settled] at own
  case idle =>
    intro settled
    cases state : system.engine.state with
    | idle => rfl
    | running =>
      obtain ⟨caller, running⟩ := entered.running.mp state
      obtain ⟨ending, found⟩ := settled caller
      simp [found, Phase.isRunning] at running

/-- Callers of three languages: the first is unwound by a panic, the second tries meanwhile, and the
third has a language that is not run. -/
theorem contended_of_panic : ∃ scheduler, Preview.Scheduler.ofSettings {} = .ok scheduler ∧
    ∃ (callers : Fin 3 → Caller) (events : List (Fin 3 × Action)) (system : System (Fin 3)),
      Runs callers (.quiet {} scheduler) events system ∧ Contended callers system ∧
        system.phases 0 = .settled (.error .bodyStopped) ∧
        system.phases 1 = .settled (.ok .alreadyRunning) ∧
        system.phases 2 = .settled (.ok (.unsupported "python")) := by
  obtain ⟨scheduler, created⟩ : ∃ scheduler, Preview.Scheduler.ofSettings {} = .ok scheduler :=
    ⟨_, rfl⟩
  let languages : Fin 3 → Language
    | 0 => .javaScript
    | 1 => .typeScript
    | 2 => .python
  let callers : Fin 3 → Caller := fun caller => ⟨⟨languages caller, .empty⟩, .forwarding⟩
  have quiet : Runs callers (.quiet {} scheduler) [] (.quiet {} scheduler) := .start
  have first := quiet.step (@Step.dispatch _ _ _ _ 0 rfl rfl)
  have second := first.step (@Step.dispatch _ _ _ _ 1 rfl rfl)
  have third := second.step (@Step.dismiss _ _ _ _ 2 rfl rfl)
  have entered := third.step (@Step.enter _ _ _ _ 0 _ rfl rfl)
  have refused := entered.step (@Step.refuse _ _ _ _ 1 rfl rfl)
  have unwound := refused.step (@Step.panic _ _ _ _ 0 rfl .bodyStopped)
  have left := unwound.step (@Step.leave _ _ _ _ 0 _ rfl)
  exact ⟨scheduler, created, callers, _, _, left, contended_of_runs left, rfl, rfl, rfl⟩

end Playground.Contention
