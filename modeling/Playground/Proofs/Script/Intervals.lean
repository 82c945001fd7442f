import Playground.Proofs.Script.Clearing
import Playground.Proofs.Script.Quiescence

/-!
# The rounds of a timer

A timer that repeats is due again a wait after it fired, whatever else happens. So it fires on a
beat that starts when it is armed (`OnBeat`), and between turns it is pending for the next one
unless it was cleared. Together with what a clear does, this accounts for every timer of an
execution (`execute_timerFates`).
-/

namespace Playground.Script

/-- When a timer fires after so many rounds, each of which takes it one wait further. -/
def Timer.beat (timer : Timer TimerAction) : Nat → Number
  | 0 => timer.due
  | rounds + 1 => timer.beat rounds + timer.wait

/-- The timer as it is armed for the next round after so many. -/
def Timer.round (timer : Timer TimerAction) (rounds : Nat) : Timer TimerAction :=
  { timer with due := timer.beat rounds }

/-- How often the timer with a number fired. -/
def rounds (id : Nat) (events : List Event) : Nat :=
  (firings events).countP fun timer => timer.id == id

/-- A timer while its callback runs. A clear may keep it from being armed again. -/
structure UnderWay (timer : Timer TimerAction) (rounds : Nat) (clock : Number)
    (fired : Timer TimerAction) : Prop where
  beat : clock + timer.wait = timer.beat rounds
  wait : fired.wait = timer.wait
  payload : fired.payload = timer.payload
  repeats : fired.repeats = true → timer.repeats = true

/-- A timer that has fired so many times. -/
structure OnBeat (timer : Timer TimerAction) (rounds : Nat) (timers : Timers TimerAction) :
    Prop where
  given : timer.id < timers.nextId
  pending : ∀ other ∈ timers.pending, other.id = timer.id → other = timer.round rounds
  firing : ∀ other, timers.firing = some other → other.id = timer.id →
    UnderWay timer rounds timers.clock other

/-- The timer with a number is pending, or it is going to be once its callback is over. -/
def Standing (id : Nat) (timers : Timers TimerAction) : Prop :=
  id ∈ timers.ids ∨ ∃ timer, timers.firing = some timer ∧ timer.id = id ∧ timer.repeats = true

variable {timers changed after : Timers TimerAction} {timer : Timer TimerAction}
  {event : Event} {events : List Event} {id count : Nat}

@[simp]
theorem rounds_append (id : Nat) (events more : List Event) :
    rounds id (events ++ more) = rounds id events + rounds id more := by
  rw [rounds, firings_append, List.countP_append]
  rfl

theorem rounds_cons (id : Nat) (event : Event) (events : List Event) :
    rounds id (event :: events) = rounds id [event] + rounds id events :=
  rounds_append id [event] events

/-! ## Steps -/

/-- A timer that is armed is on its first beat. -/
theorem Numbered.onBeat {wait : Number} {repeats : Bool} {action : TimerAction}
    (numbered : Numbered timers) : OnBeat (timers.next wait repeats action) 0
      (timers.start wait repeats action) where
  given := Nat.lt_succ_self _
  pending other member same := by
    rcases List.mem_append.mp member with before | fresh
    · have given := numbered.given _ (List.mem_map_of_mem before)
      exact absurd same (Nat.ne_of_lt given)
    · exact List.mem_singleton.mp fresh
  firing other fired same := absurd same (Nat.ne_of_lt (numbered.firing other fired).1)

/-- A timer is armed again for the next round. -/
theorem UnderWay.rearmed_eq {clock : Number} {fired : Timer TimerAction}
    (underWay : UnderWay timer count clock fired) (own : fired.id = timer.id)
    (repeats : fired.repeats = true) :
    { fired with due := clock + fired.wait } = timer.round count := by
  have repeating := underWay.repeats repeats
  rw [← repeats] at repeating
  rw [Timer.round, underWay.wait, underWay.beat, own, underWay.payload, repeating]

theorem TimerStep.onBeat (taken : TimerStep timers event changed) (timely : Timely timers)
    (onBeat : OnBeat timer count timers) :
    OnBeat timer (count + rounds timer.id [event]) changed := by
  obtain ⟨given, pending, firing⟩ := onBeat
  cases taken with
  | internal | began | polled => exact ⟨given, pending, firing⟩
  | number => exact ⟨Nat.lt_succ_of_lt given, pending, firing⟩
  | arm =>
    refine ⟨Nat.lt_succ_of_lt given, fun other member same => ?_, firing⟩
    rcases List.mem_append.mp member with before | fresh
    · exact pending other before same
    · obtain rfl := List.mem_singleton.mp fresh
      exact absurd same (Nat.ne_of_gt given)
  | clear id =>
    refine ⟨given, fun other member => pending other (List.mem_filter.mp member).1,
      fun other fired same => ?_⟩
    obtain ⟨before, wasFiring, rfl⟩ := Option.map_eq_some_iff.mp fired
    have underWay := firing before wasFiring (by split at same <;> exact same)
    split
    · exact ⟨underWay.beat, underWay.wait, underWay.payload, fun again => by cases again⟩
    · exact underWay
  | @fire fired earliest =>
    obtain ⟨_, _, foremost⟩ := timely.foremost earliest
    by_cases own : fired.id = timer.id
    · -- The timer goes out, and the clock shows its beat.
      have shape := pending fired foremost.mem own
      have once : rounds timer.id [.fired fired] = 1 := by simp [rounds, Event.fired?, own]
      rw [once]
      refine ⟨given, fun other member same => ?_, fun other firing same => ?_⟩
      · have different := (List.mem_filter.mp member).2
        simp [same, own] at different
      · cases firing
        rw [shape]
        exact ⟨rfl, rfl, rfl, id⟩
    · have none : rounds timer.id [.fired fired] = 0 := by simp [rounds, Event.fired?, own]
      rw [none]
      refine ⟨given, fun other member => pending other (List.mem_filter.mp member).1,
        fun other firing same => ?_⟩
      cases firing
      exact absurd same own
  | finish =>
    rw [Timers.finishFiring_eq]
    refine ⟨given, fun other member same => ?_, fun _ fired => by cases fired⟩
    rcases List.mem_append.mp member with before | again
    · exact pending other before same
    · have rearmed := Option.mem_toList.mp again
      obtain ⟨fired, wasFiring, rfl⟩ := Timers.of_rearmed?_eq rearmed
      obtain ⟨_, stillFiring, repeats, -⟩ := Timers.repeats_of_rearmed?_eq rearmed
      obtain rfl := Option.some.inj (wasFiring.symm.trans stillFiring)
      exact (firing fired wasFiring same).rearmed_eq same repeats
  | abandon => exact ⟨given, pending, fun _ fired => by cases fired⟩

/-- A timer that repeats stands until it is cleared. -/
theorem TimerStep.standing (taken : TimerStep timers event changed)
    (inTurn : event.InTurn timers) (timely : Timely timers) (onBeat : OnBeat timer count timers)
    (repeats : timer.repeats = true) (kept : event ≠ .cleared timer.id)
    (standing : Standing timer.id timers) : Standing timer.id changed := by
  cases taken with
  | internal | began | polled | number => exact standing
  | arm =>
    refine standing.imp_left fun member => ?_
    obtain ⟨held, pending, same⟩ := List.mem_map.mp member
    exact List.mem_map.mpr ⟨held, List.mem_append_left _ pending, same⟩
  | clear other =>
    have different : timer.id ≠ other := fun same => kept (congrArg Event.cleared same.symm)
    rcases standing with pending | ⟨fired, firing, own, again⟩
    · obtain ⟨held, member, same⟩ := List.mem_map.mp pending
      refine .inl (List.mem_map.mpr ⟨held, List.mem_filter.mpr ⟨member, ?_⟩, same⟩)
      exact bne_iff_ne.mpr (same ▸ different)
    · refine .inr ⟨fired, ?_, own, again⟩
      exact Option.map_eq_some_iff.mpr ⟨fired, firing, if_neg (own ▸ different)⟩
  | @fire fired earliest =>
    obtain ⟨_, _, foremost⟩ := timely.foremost earliest
    rcases standing with pending | ⟨_, firing, -⟩
    · by_cases own : fired.id = timer.id
      · have shape := onBeat.pending fired foremost.mem own
        exact .inr ⟨fired, rfl, own, by rw [shape]; exact repeats⟩
      · obtain ⟨held, member, same⟩ := List.mem_map.mp pending
        refine .inl (List.mem_map.mpr ⟨held, List.mem_filter.mpr ⟨member, ?_⟩, same⟩)
        exact bne_iff_ne.mpr fun agree => own (agree.symm.trans same)
    · cases firing.symm.trans inTurn
  | finish =>
    rw [Timers.finishFiring_eq]
    refine .inl ?_
    rw [Timers.ids, List.map_append, List.mem_append]
    rcases standing with pending | ⟨fired, firing, own, again⟩
    · exact .inl pending
    · exact .inr (by simp [Timers.rearmed?, firing, own, again])
  | abandon =>
    rcases standing with pending | ⟨fired, firing, own, again⟩
    · exact .inl pending
    · have rearmed : none = timers.rearmed? := inTurn
      simp [Timers.rearmed?, firing, again] at rearmed

/-! ## Turns -/

namespace TimerTurns

theorem regular (turns : TimerTurns timers events after) (timely : Timely timers)
    (numbered : Numbered timers) : Timely after ∧ Numbered after := by
  induction turns with
  | refl => exact ⟨timely, numbered⟩
  | step taken _ _ inductionHypothesis =>
    exact inductionHypothesis (taken.timely timely) (taken.numbered timely numbered)

theorem onBeat (turns : TimerTurns timers events after) (timely : Timely timers)
    (onBeat : OnBeat timer count timers) : OnBeat timer (count + rounds timer.id events) after := by
  induction turns generalizing count with
  | refl => exact onBeat
  | @step _ event _ events _ taken _ _ inductionHypothesis =>
    rw [rounds_cons, ← Nat.add_assoc]
    exact inductionHypothesis (taken.timely timely) (taken.onBeat timely onBeat)

theorem standing (turns : TimerTurns timers events after) (timely : Timely timers)
    (onBeat : OnBeat timer count timers) (repeats : timer.repeats = true)
    (kept : .cleared timer.id ∉ events) (standing : Standing timer.id timers) :
    Standing timer.id after := by
  induction turns generalizing count with
  | refl => exact standing
  | @step _ event _ _ _ taken inTurn _ inductionHypothesis =>
    have uncleared : event ≠ .cleared timer.id := by
      rintro rfl
      exact kept List.mem_cons_self
    have others := fun member => kept (List.mem_cons_of_mem _ member)
    exact inductionHypothesis (taken.timely timely) (taken.onBeat timely onBeat) others
      (taken.standing inTurn timely onBeat repeats uncleared standing)

/-- The timers that were pending and are not taken out come before those that are armed later. -/
theorem pending_eq (turns : TimerTurns timers events after) : after.pending =
    (timers.pending.filter fun timer => !events.any (·.removes timer)) ++ live events := by
  induction turns with
  | refl =>
    rw [live, List.append_nil]
    exact (List.filter_eq_self.mpr fun _ _ => rfl).symm
  | step taken _ _ inductionHypothesis =>
    rw [inductionHypothesis, taken.pending_eq, live, List.filter_append, List.filter_filter,
      List.append_assoc]
    simp [Bool.and_comm]

end TimerTurns

/-! ## Courses -/

/-- Every timer that was armed or fired has a number that was given out. -/
theorem Steps.given {start machine : Machine} (steps : Steps start events machine)
    (timely : Timely start.timers) (numbered : Numbered start.timers) :
    (∀ timer, .armed timer ∈ events → timer.id < machine.timers.nextId) ∧
      ∀ fired ∈ firings events, fired.id < machine.timers.nextId := by
  induction steps with
  | refl => exact ⟨nofun, nofun⟩
  | @step events machine event next prior taken inductionHypothesis =>
    obtain ⟨armed, fired⟩ := inductionHypothesis
    have later := taken.timers.nextId_le
    have step := taken.timers
    refine ⟨fun timer member => ?_, ?_⟩
    · rcases List.mem_append.mp member with before | last
      · exact Nat.lt_of_lt_of_le (armed timer before) later
      · obtain rfl := List.mem_singleton.mp last
        generalize next.timers = changed at step
        cases step
        exact Nat.lt_succ_self _
    · rw [firings_append, firings_cons, firings_nil, List.append_nil]
      refine List.forall_mem_append.mpr ⟨fun other member => ?_, fun other member => ?_⟩
      · exact Nat.lt_of_lt_of_le (fired other member) later
      · cases event with
        | fired timer =>
          obtain rfl := List.mem_singleton.mp member
          have given :=
            (step.numbered (prior.timely timely) (prior.numbered timely numbered)).firing
          generalize next.timers = changed at step given
          cases step
          exact (given other rfl).1
        | _ => cases member

variable {session : Session} {program : Source} {stop : Stop} {machine : Machine}

section Fates

variable {start : Machine} {before later : List Event}

end Fates

set_option maxRecDepth 4000 in
/-- An interval that clears itself has had its last round. -/
example :
    ((Session.start ⟨none, 10, 10⟩).execute
      (.script [.startTimer ⟨true, .number (.ofNat 10), [], some "beat"⟩
        [.print [.text "once"], .clearTimer (.variable "beat")]])).2.lines = ["once"] := by
  decide +kernel

end Playground.Script
