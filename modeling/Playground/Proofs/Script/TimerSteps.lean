import Playground.Proofs.Script.Steps

/-!
# What steps do to timers

The timers of a machine change in a few ways only (`TimerStep`), and what they do to the pending
timers and the clock shows in the event. So both follow from what has happened: a timer that was
armed is pending until it is cleared or fires (`live`), and the clock shows when the last timer that
fired was due (`clockAt`).
-/

namespace Playground.Script

/-! ## What events say about timers -/

/-- The timer that a step arms. -/
def Event.armed? : Event → Option (Timer TimerAction)
  | .armed timer => some timer
  | .finished rearmed => rearmed
  | .internal | .cleared _ | .began _ | .polled _ | .fired _ => none

/-- Whether a step takes a pending timer out. -/
def Event.removes (timer : Timer TimerAction) : Event → Bool
  | .cleared id => timer.id == id
  | .fired other => timer.id == other.id
  | .internal | .armed _ | .began _ | .polled _ | .finished _ => false

/-- The timers that were armed and not taken out later, in the order in which they were armed. -/
def live : List Event → List (Timer TimerAction)
  | [] => []
  | event :: later =>
    (event.armed?.toList.filter fun timer => !later.any (·.removes timer)) ++ live later

/-- When the last timer that fired was due; zero before any has fired. -/
def clockAt (events : List Event) : Number :=
  ((firings events).getLast?.map Timer.due).getD .zero

variable {events : List Event} {event : Event} {timer : Timer TimerAction}

theorem clockAt_concat (events : List Event) (event : Event) : clockAt (events ++ [event]) =
    (event.fired?.map Timer.due).getD (clockAt events) := by
  unfold clockAt
  cases fired : event.fired? <;> simp [fired]

/-! ## Steps of timers -/

/-- How the timers of a machine change in a step. -/
inductive TimerStep (timers : Timers TimerAction) : Event → Timers TimerAction → Prop where
  | internal : TimerStep timers .internal timers
  | began (job : Job) : TimerStep timers (.began job) timers
  | polled (earliest : Option (Nat × String)) : TimerStep timers (.polled earliest) timers
  | number : TimerStep timers .internal timers.takeId.2
  | arm {wait : Number} (waits : wait.IsWait) (repeats : Bool) (action : TimerAction) :
      TimerStep timers (.armed (timers.next wait repeats action))
        (timers.start wait repeats action)
  | clear (id : Nat) : TimerStep timers (.cleared id) (timers.clear id)
  | fire {timer : Timer TimerAction} (earliest : timers.earliest? = some timer) :
      TimerStep timers (.fired timer) (timers.fire timer)
  | finish : TimerStep timers (.finished timers.rearmed?) timers.finishFiring
  | abandon : TimerStep timers (.finished none) timers.abandonFiring

theorem Machine.timers_settle (machine : Machine) (key : Nat) (settlement : Settlement) :
    (machine.settle key settlement).timers = machine.timers := by
  unfold Machine.settle
  split
  · rfl
  · split
    · rfl
    · cases settlement with
      | fulfilled => rfl
      | rejected =>
        simp only [Machine.noteSettlement]
        split <;> rfl

theorem Machine.timers_react (machine : Machine) (key : Nat) (reaction : Reaction) :
    (machine.react key reaction).timers = machine.timers := by
  unfold Machine.react
  split
  · rfl
  · split <;> rfl

variable {start machine next : Machine}

theorem Step.timers (taken : Step machine event next) :
    TimerStep machine.timers event next.timers := by
  cases taken with
  | identify | assign | print | promise | enqueue | expire => exact .internal
  | settle key settlement => exact machine.timers_settle key settlement ▸ .internal
  | react key reaction => exact machine.timers_react key reaction ▸ .internal
  | number => exact .number
  | arm waits repeats action => exact .arm waits repeats action
  | clear id => exact .clear id
  | begin => exact .began _
  | poll => exact .polled _
  | fire earliest => exact .fire earliest
  | finish => exact .finish
  | abandon => exact .abandon

/-- A timer that is to be armed again comes last. -/
theorem Timers.finishFiring_eq (timers : Timers TimerAction) : timers.finishFiring =
    { timers with pending := timers.pending ++ timers.rearmed?.toList, firing := none } := by
  obtain ⟨pending, nextId, clock, firing⟩ := timers
  cases firing with
  | none => simp [Timers.finishFiring, Timers.rearmed?]
  | some timer =>
    simp only [Timers.finishFiring, Timers.rearmed?]
    split <;> rfl

/-- A timer is armed again as it was, for as long as before. -/
theorem Timers.of_rearmed?_eq {timers : Timers TimerAction}
    (rearmed : timers.rearmed? = some timer) : ∃ fired, timers.firing = some fired ∧
      timer = { fired with due := timers.clock + fired.wait } := by
  unfold Timers.rearmed? at rearmed
  split at rearmed
  case h_1 => cases rearmed
  case h_2 fired firing =>
    split at rearmed
    · cases rearmed
      exact ⟨fired, firing, rfl⟩
    · cases rearmed

/-- Only a timer that repeats is armed again. -/
theorem Timers.repeats_of_rearmed?_eq {timers : Timers TimerAction}
    (rearmed : timers.rearmed? = some timer) :
    ∃ fired, timers.firing = some fired ∧ fired.repeats = true ∧ fired.id = timer.id := by
  unfold Timers.rearmed? at rearmed
  split at rearmed
  case h_1 => cases rearmed
  case h_2 fired firing =>
    split at rearmed
    case isTrue repeats =>
      cases rearmed
      exact ⟨fired, firing, repeats, rfl⟩
    case isFalse => cases rearmed

namespace TimerStep

variable {timers changed : Timers TimerAction}

theorem pending_eq (taken : TimerStep timers event changed) : changed.pending =
    (timers.pending.filter fun timer => !event.removes timer) ++ event.armed?.toList := by
  have kept : (timers.pending.filter fun _ => !false) = timers.pending :=
    List.filter_eq_self.mpr fun _ _ => rfl
  cases taken with
  | internal | began | polled | number | abandon =>
    change timers.pending = (timers.pending.filter fun _ => !false) ++ []
    rw [kept, List.append_nil]
  | arm =>
    change timers.pending ++ _ = (timers.pending.filter fun _ => !false) ++ _
    rw [kept]
    rfl
  | clear | fire => exact (List.append_nil _).symm
  | finish =>
    rw [Timers.finishFiring_eq]
    change timers.pending ++ _ = (timers.pending.filter fun _ => !false) ++ _
    rw [kept]
    rfl

end TimerStep

end Playground.Script
