import Playground.Number.Basic

/-!
# Timers on a virtual clock

Timers fire in the order of their due times, those with equal due times in the order in
which they were armed. The clock stands still until a timer fires and then shows that
timer's due time. A repeating timer is armed again after its callback has returned,
unless the callback cleared it.
-/

namespace Playground.Script

/-- A pending timer. -/
structure Timer (α : Type) where
  id : Nat
  due : Number
  wait : Number
  repeats : Bool
  payload : α

/-- The timers of one run, in the order in which they were armed. -/
structure Timers (α : Type) where
  pending : List (Timer α)
  nextId : Nat
  clock : Number
  /-- The timer whose callback is running. -/
  firing : Option (Timer α)

namespace Timers

variable {α : Type}

/-- No timers, and a clock at zero. -/
def initial : Timers α := ⟨[], 1, .zero, none⟩

/-- Takes the next identifier. -/
def takeId (timers : Timers α) : Nat × Timers α :=
  (timers.nextId, { timers with nextId := timers.nextId + 1 })

/-- Arms a timer that is due after a wait. -/
def arm (timers : Timers α) (id : Nat) (wait : Number) (repeats : Bool) (payload : α) :
    Timers α :=
  { timers with pending := timers.pending ++ [⟨id, timers.clock + wait, wait, repeats, payload⟩] }

/-- Clears the timer with an identifier. A repeating timer that is being fired is not armed
again. -/
def clear (timers : Timers α) (id : Nat) : Timers α :=
  { timers with
    pending := timers.pending.filter fun timer => timer.id != id
    firing := timers.firing.map fun timer =>
      if timer.id = id then { timer with repeats := false } else timer }

/-- The earliest of `first` and the timers after it: the one that is due first, and the
one armed first among those. -/
def earliestFrom (first : Timer α) : List (Timer α) → Timer α
  | [] => first
  | timer :: rest =>
    if timer.due.less first.due then earliestFrom timer rest else earliestFrom first rest

/-- The timer that fires next. -/
def earliest? (timers : Timers α) : Option (Timer α) :=
  match timers.pending with
  | [] => none
  | first :: rest => some (earliestFrom first rest)

/-- Takes a timer out and sets the clock to its due time. -/
def fire (timers : Timers α) (timer : Timer α) : Timers α :=
  { timers with
    pending := timers.pending.filter fun other => other.id != timer.id
    clock := timer.due
    firing := some timer }

/-- Ends the firing. A repeating timer that was not cleared is armed again. -/
def finishFiring (timers : Timers α) : Timers α :=
  match timers.firing with
  | none => timers
  | some timer =>
    let rearmed : List (Timer α) :=
      if timer.repeats then [{ timer with due := timers.clock + timer.wait }] else []
    { timers with pending := timers.pending ++ rearmed, firing := none }

/-- Ends the firing of a timer whose callback threw. -/
def abandonFiring (timers : Timers α) : Timers α :=
  { timers with firing := none }

end Timers

end Playground.Script
