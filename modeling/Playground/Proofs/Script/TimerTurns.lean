import Playground.Proofs.Script.TimerSteps
import Playground.Proofs.Script.Turns

/-!
# Timers in turns

A driver fires a timer or reads the rejection log only when no callback is under way, and it arms a
repeating timer again when its callback is over. `TimerTurns` are the steps of timers in such an
order. Only a callback that throws breaks it, and then nothing else happens (`Executes.turns`).
-/

namespace Playground.Script

/-- What a driver does to timers in turns. -/
def Event.InTurn (timers : Timers TimerAction) : Event → Prop
  | .fired _ | .polled _ => timers.firing = none
  | .finished rearmed => rearmed = timers.rearmed?
  | .internal | .armed _ | .cleared _ | .began _ => True

/-- Steps of timers, one turn after another. -/
inductive TimerTurns : Timers TimerAction → List Event → Timers TimerAction → Prop where
  | refl {timers} : TimerTurns timers [] timers
  | step {timers event next events after} (taken : TimerStep timers event next)
      (inTurn : event.InTurn timers) (others : TimerTurns next events after) :
      TimerTurns timers (event :: events) after

/-- Turns with nothing behind them, or the end of a callback that threw. -/
inductive InTurns (timers : Timers TimerAction) : List Event → Prop where
  | whole {events after} (turns : TimerTurns timers events after) : InTurns timers events
  | threw {events after} (turns : TimerTurns timers events after) :
      InTurns timers (events ++ [.finished none])

variable {timers next after : Timers TimerAction} {event : Event} {events more : List Event}

namespace TimerTurns

theorem single (taken : TimerStep timers event next) (inTurn : event.InTurn timers) :
    TimerTurns timers [event] next :=
  .step taken inTurn .refl

theorem trans (first : TimerTurns timers events next) (second : TimerTurns next more after) :
    TimerTurns timers (events ++ more) after := by
  induction first with
  | refl => exact second
  | step taken inTurn _ inductionHypothesis => exact .step taken inTurn (inductionHypothesis second)

/-- Turns pass through timers wherever they are split. -/
theorem split (turns : TimerTurns timers (events ++ more) after) :
    ∃ next, TimerTurns timers events next ∧ TimerTurns next more after := by
  induction events generalizing timers with
  | nil => exact ⟨timers, .refl, turns⟩
  | cons event events inductionHypothesis =>
    cases turns with
    | step taken inTurn others =>
      obtain ⟨next, first, second⟩ := inductionHypothesis others
      exact ⟨next, .step taken inTurn first, second⟩

end TimerTurns

theorem TimerStep.firing_eq_none (taken : TimerStep timers event next)
    (idle : timers.firing = none) (unfired : event.fired? = none) : next.firing = none := by
  cases taken with
  | internal | began | polled | number | arm => exact idle
  | clear => exact congrArg (Option.map _) idle
  | fire => cases unfired
  | finish => rw [Timers.finishFiring_eq]
  | abandon => rfl

/-! ## Courses -/

section Courses

variable {session : Session} {program : Source} {limits : Limits} {timer : Timer TimerAction}
  {start machine settled : Machine} {stop : Stop} {ending : Ending} {budget left : Nat}
  {drained : Bool}

theorem Steps.turns (steps : Steps start events machine)
    (scripted : ∀ event ∈ events, event.IsScripted) :
    TimerTurns start.timers events machine.timers ∧
      (start.timers.firing = none → machine.timers.firing = none) := by
  induction steps with
  | refl => exact ⟨.refl, id⟩
  | @step events machine event next prior taken inductionHypothesis =>
    obtain ⟨earlier, last⟩ := List.forall_mem_append.mp scripted
    have byStatement := List.forall_mem_singleton.mp last
    obtain ⟨turns, idle⟩ := inductionHypothesis earlier
    have inTurn : event.InTurn machine.timers := by
      cases event <;> trivial
    have unfired : event.fired? = none := by
      cases event <;> first | rfl | exact byStatement.elim
    exact ⟨turns.trans (.single taken.timers inTurn),
      fun started => taken.timers.firing_eq_none (idle started) unfired⟩

theorem Drains.turns (drains : Drains budget machine events drained settled) :
    TimerTurns machine.timers events settled.timers ∧
      (machine.timers.firing = none → settled.timers.firing = none) := by
  induction drains with
  | done => exact ⟨.refl, id⟩
  | overrun _ ran =>
    obtain ⟨turns, idle⟩ := ran.steps.turns ran.scripted
    exact ⟨.step (.began _) trivial turns, idle⟩
  | next _ ran _ inductionHypothesis =>
    obtain ⟨turns, idle⟩ := ran.steps.turns ran.scripted
    exact ⟨(TimerTurns.step (.began _) trivial turns).trans inductionHypothesis.1,
      inductionHypothesis.2 ∘ idle⟩

/-- The rejection log is read with no callback under way. -/
theorem Drains.turns_polled (drains : Drains budget machine events drained settled)
    (idle : machine.timers.firing = none) (earliest : Option (Nat × String)) :
    TimerTurns machine.timers (events ++ [.polled earliest]) settled.timers :=
  drains.turns.1.trans (.single (.polled earliest) (drains.turns.2 idle))

theorem Rests.turns (rests : Rests limits machine events settled)
    (idle : machine.timers.firing = none) :
    TimerTurns machine.timers events settled.timers ∧ settled.timers.firing = none := by
  cases rests with
  | intro drains => exact ⟨drains.turns_polled idle none, drains.turns.2 idle⟩

theorem Fires.turns (fires : Fires timer machine events .normal settled)
    (idle : machine.timers.firing = none) :
    TimerTurns machine.timers events settled.timers ∧ settled.timers.firing = none := by
  cases fires with
  | @returned _ after earliest ran =>
    have callback := (ran.steps.turns ran.scripted).1
    refine ⟨.step (.fire earliest) idle (callback.trans (.single .finish rfl)), ?_⟩
    exact congrArg Timers.firing (Timers.finishFiring_eq after.timers)

theorem InTurns.behind (first : TimerTurns timers events next) (others : InTurns next more) :
    InTurns timers (events ++ more) := by
  cases others with
  | whole turns => exact .whole (first.trans turns)
  | threw turns =>
    rw [← List.append_assoc]
    exact .threw (first.trans turns)

theorem Settles.turns (settles : Settles limits left machine events stop settled)
    (idle : machine.timers.firing = none) : InTurns machine.timers events := by
  induction settles with
  | jobsSpent drains => exact .whole drains.turns.1
  | unhandled drains => exact .whole (drains.turns_polled idle _)
  | quiet rests | timersSpent rests => exact .whole (rests.turns idle).1
  | threw rests fires =>
    obtain ⟨rested, still⟩ := rests.turns idle
    cases fires with
    | threw earliest ran =>
      have callback := (ran.steps.turns ran.scripted).1
      exact .behind rested (.threw (.step (.fire earliest) still callback))
  | turned rests fires _ inductionHypothesis =>
    obtain ⟨rested, still⟩ := rests.turns idle
    obtain ⟨fired, ended⟩ := fires.turns still
    exact .behind (rested.trans fired) (inductionHypothesis ended)

/-- An execution takes its timers in turns, up to a callback that throws. -/
theorem Executes.turns {after : Machine} (executes : Executes session program events stop after) :
    InTurns .initial events := by
  cases executes with
  | threw body => exact .whole (body.steps.turns body.scripted).1
  | settled body settles =>
    obtain ⟨began, idle⟩ := body.steps.turns body.scripted
    exact .behind began (settles.turns (idle rfl))

end Courses

end Playground.Script
