import Mathlib.Logic.Function.Basic
import Playground.Preview.Scheduler

/-!
# Edits and renders at the same time

Calls of any number of threads and the tasks that render run at the same time, in small steps. A
call that schedules a render takes the slot of its page, numbers the render, spawns its task and
installs it, and holds the slot all the while; cancelling and claiming need a free slot. A task
wakes up, claims its render and sends the update. A task that was given up may stop at its sleep,
or it goes on and finds out when it claims. The steps are those of the scheduler, so one after
another they make up its operations (`Runs.schedule`, `Runs.publish`).
-/

namespace Playground.Preview

/-- How far a scheduling call has come that holds the slot of its page. -/
inductive Call where
  | entered (sources : PageSources)
  | numbered (sources : PageSources) (generation : Nat)
  /-- The task of the render is spawned and the render is not installed. -/
  | spawned (render : PendingRender)
  deriving DecidableEq, Repr

/-- The generation that a call has drawn. -/
def Call.generation? : Call → Option Nat
  | .entered _ => none
  | .numbered _ generation => some generation
  | .spawned render => some render.generation

/-- How far the task of a render has come. -/
inductive Phase where
  | sleeping
  | woken
  /-- The render is claimed and not sent. -/
  | claimed
  deriving DecidableEq, Repr

/-- The task of a render. -/
structure Task where
  render : PendingRender
  phase : Phase
  deriving DecidableEq, Repr

/-- A scheduler with the calls and tasks that are under way. -/
structure System where
  scheduler : Scheduler
  /-- The call that holds the slot of a page. -/
  calls : String → Option Call
  tasks : List Task

/-- What a step does. -/
inductive Event where
  | entered (target : String)
  | numbered (target : String) (generation : Nat)
  | spawned (render : PendingRender)
  /-- A call installs its render and returns the generation. -/
  | installed (render : PendingRender)
  | cancelled (target : String)
  | woke (render : PendingRender)
  | claimed (render : PendingRender)
  /-- A task finds that its render was given up. -/
  | refused (render : PendingRender)
  | sent (render : PendingRender)
  /-- A task is stopped at its sleep. -/
  | stopped (render : PendingRender)
  | passed (milliseconds : Nat)
  deriving DecidableEq, Repr

namespace System

/-- A scheduler that nobody uses. -/
def quiet (scheduler : Scheduler) : System :=
  ⟨scheduler, fun _ => none, []⟩

/-- A system whose slot of a page is held by a call. -/
def withCall (system : System) (target : String) (call : Option Call) : System :=
  { system with calls := Function.update system.calls target call }

/-- A system in which a task has gone on to another phase. -/
def withTask (system : System) (task : Task) (phase : Phase) : System :=
  { system with tasks := { task with phase := phase } :: system.tasks.erase task }

/-- A system in which a task has ended. -/
def withoutTask (system : System) (task : Task) : System :=
  { system with tasks := system.tasks.erase task }

/-- The render of a call that has drawn a generation. -/
def renderOf (system : System) (target : String) (sources : PageSources) (generation : Nat) :
    PendingRender :=
  ⟨target, generation, system.scheduler.now + system.scheduler.quietPeriod, sources⟩

end System

/-- One step of a call, a task or the clock. -/
inductive Step : System → Event → System → Prop where
  | enter {system target} (sources : PageSources) (free : system.calls target = none) :
      Step system (.entered target) (system.withCall target (some (.entered sources)))
  | number {system target sources} (holds : system.calls target = some (.entered sources)) :
      Step system (.numbered target system.scheduler.number.1)
        ({ system with scheduler := system.scheduler.number.2 }.withCall target
          (some (.numbered sources system.scheduler.number.1)))
  | spawn {system target sources generation}
      (holds : system.calls target = some (.numbered sources generation)) :
      Step system (.spawned (system.renderOf target sources generation))
        ({ system with
            tasks := ⟨system.renderOf target sources generation, .sleeping⟩ :: system.tasks }.withCall
          target (some (.spawned (system.renderOf target sources generation))))
  | install {system target render} (holds : system.calls target = some (.spawned render)) :
      Step system (.installed render)
        ({ system with scheduler := system.scheduler.install render }.withCall target none)
  | cancel {system target} (free : system.calls target = none) :
      Step system (.cancelled target)
        { system with scheduler := (system.scheduler.cancel target).2 }
  | wake {system render} (sleeps : ⟨render, .sleeping⟩ ∈ system.tasks)
      (due : render.due ≤ system.scheduler.now) :
      Step system (.woke render) (system.withTask ⟨render, .sleeping⟩ .woken)
  | claim {system render claimed} (woken : ⟨render, .woken⟩ ∈ system.tasks)
      (free : system.calls render.target = none)
      (found : system.scheduler.claim? render = some claimed) :
      Step system (.claimed render)
        ({ system with scheduler := claimed }.withTask ⟨render, .woken⟩ .claimed)
  | refuse {system render} (woken : ⟨render, .woken⟩ ∈ system.tasks)
      (free : system.calls render.target = none)
      (lost : system.scheduler.claim? render = none) :
      Step system (.refused render) (system.withoutTask ⟨render, .woken⟩)
  | send {system render} (claimed : ⟨render, .claimed⟩ ∈ system.tasks) :
      Step system (.sent render)
        ({ system with
            scheduler := system.scheduler.send (system.scheduler.update render) }.withoutTask
          ⟨render, .claimed⟩)
  | stop {system render} (sleeps : ⟨render, .sleeping⟩ ∈ system.tasks) :
      Step system (.stopped render) (system.withoutTask ⟨render, .sleeping⟩)
  | pass {system} (milliseconds : Nat) :
      Step system (.passed milliseconds)
        { system with
          scheduler := { system.scheduler with now := system.scheduler.now + milliseconds } }

/-- What happens from a system on, in some interleaving of the steps. -/
inductive Runs (start : System) : List Event → System → Prop where
  | start : Runs start [] start
  | step {events system event next} (prior : Runs start events system)
      (taken : Step system event next) : Runs start (events ++ [event]) next

variable {start system : System} {events : List Event}

/-! ## Operations are runs -/

/-- A call that nothing interrupts schedules its render. -/
theorem Runs.schedule (runs : Runs start events system) {target : String}
    (free : system.calls target = none) (sources : PageSources) :
    let render := system.renderOf target sources system.scheduler.number.1
    Runs start
      (events ++ [.entered target] ++ [.numbered target render.generation] ++ [.spawned render] ++
        [.installed render])
      { system with
        scheduler := (system.scheduler.schedule target sources).2
        tasks := ⟨render, .sleeping⟩ :: system.tasks } := by
  intro render
  have entered := runs.step (.enter sources free)
  have numbered := entered.step (@Step.number _ target sources (Function.update_self ..))
  have spawned := numbered.step (@Step.spawn _ target _ _ (Function.update_self ..))
  have installed := spawned.step (@Step.install _ target _ (Function.update_self ..))
  have released : Function.update system.calls target none = system.calls :=
    Function.update_eq_self_iff.mpr free.symm
  simp only [System.withCall, Function.update_idem, released] at installed
  exact installed

/-- A task that nothing interrupts publishes its render, or finds that it was given up. -/
theorem Runs.publish (runs : Runs start events system) {render : PendingRender}
    (woken : ⟨render, .woken⟩ ∈ system.tasks) (free : system.calls render.target = none) :
    ∃ following, Runs start (events ++ following)
      { system.withoutTask ⟨render, .woken⟩ with
        scheduler := system.scheduler.publish render } := by
  cases found : system.scheduler.claim? render with
  | none =>
    refine ⟨[.refused render], ?_⟩
    have unpublished : system.scheduler.publish render = system.scheduler := by
      simp only [Scheduler.publish, found]
    rw [unpublished]
    exact runs.step (.refuse woken free found)
  | some claimed =>
    refine ⟨[.claimed render] ++ [.sent render], ?_⟩
    have sent := (runs.step (.claim woken free found)).step
      (@Step.send _ render List.mem_cons_self)
    rw [← List.append_assoc]
    simpa [Scheduler.publish, found, System.withTask, System.withoutTask] using sent

end Playground.Preview
