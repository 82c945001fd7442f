import Playground.Proofs.Script.TimerTurns
import Playground.Proofs.Script.VirtualTime

/-!
# Timers that are cleared

A clear takes a pending timer out, and it keeps the timer that is being fired from being armed
again. Whichever of the two it is, the number is gone for good (`Dismissed`). No other timer is
touched: what goes on with the timer in place goes on without it, less the turns that the timer
takes (`exists_turns_cleared`).
-/

namespace Playground.Script

/-! ## A number that is gone -/

/-- No timer with this number fires any more: none is pending, and one that is being fired is not
armed again. -/
structure Dismissed (id : Nat) (timers : Timers TimerAction) : Prop where
  given : id < timers.nextId
  absent : id ∉ timers.ids
  silenced : ∀ timer, timers.firing = some timer → timer.id = id → timer.repeats = false

section Gone

variable {timers changed : Timers TimerAction} {timer : Timer TimerAction} {event : Event}
  {events : List Event} {start machine : Machine} {id : Nat}

theorem TimerStep.dismissed (taken : TimerStep timers event changed) (timely : Timely timers)
    (dismissed : Dismissed id timers) : Dismissed id changed := by
  obtain ⟨given, absent, silenced⟩ := dismissed
  cases taken with
  | internal | began | polled => exact ⟨given, absent, silenced⟩
  | number => exact ⟨Nat.lt_succ_of_lt given, absent, silenced⟩
  | arm =>
    refine ⟨Nat.lt_succ_of_lt given, fun member => ?_, silenced⟩
    obtain ⟨armed, pending, rfl⟩ := List.mem_map.mp member
    rcases List.mem_append.mp pending with kept | fresh
    · exact absent (List.mem_map_of_mem kept)
    · obtain rfl := List.mem_singleton.mp fresh
      exact Nat.lt_irrefl _ given
  | clear other =>
    refine ⟨given, fun member => ?_, fun timer fired own => ?_⟩
    · obtain ⟨kept, pending, rfl⟩ := List.mem_map.mp member
      exact absent (List.mem_map_of_mem (List.mem_filter.mp pending).1)
    · obtain ⟨before, wasFiring, rfl⟩ := Option.map_eq_some_iff.mp fired
      split
      · rfl
      · exact silenced before wasFiring (by split at own <;> simp_all)
  | @fire timer earliest =>
    obtain ⟨_, _, foremost⟩ := timely.foremost earliest
    refine ⟨given, fun member => ?_, fun other fired own => ?_⟩
    · obtain ⟨kept, pending, rfl⟩ := List.mem_map.mp member
      exact absent (List.mem_map_of_mem (List.mem_filter.mp pending).1)
    · cases fired
      exact absurd (own ▸ List.mem_map_of_mem foremost.mem) absent
  | finish =>
    rw [Timers.finishFiring_eq]
    refine ⟨given, fun member => ?_, nofun⟩
    obtain ⟨pending, kept, rfl⟩ := List.mem_map.mp member
    rcases List.mem_append.mp kept with stays | again
    · exact absent (List.mem_map_of_mem stays)
    · obtain ⟨fired, firing, repeats, same⟩ :=
        Timers.repeats_of_rearmed?_eq (Option.mem_toList.mp again)
      rw [silenced fired firing same] at repeats
      cases repeats
  | abandon => exact ⟨given, absent, nofun⟩

theorem TimerStep.fired_id_ne (taken : TimerStep timers (.fired timer) changed)
    (timely : Timely timers) (dismissed : Dismissed id timers) : timer.id ≠ id := by
  rintro rfl
  cases taken with
  | fire earliest =>
    obtain ⟨_, _, foremost⟩ := timely.foremost earliest
    exact dismissed.absent (List.mem_map_of_mem foremost.mem)

/-- A number that is gone stays gone. -/
theorem Steps.dismissed (steps : Steps start events machine) (timely : Timely start.timers)
    (dismissed : Dismissed id start.timers) :
    Dismissed id machine.timers ∧ ∀ fired ∈ firings events, fired.id ≠ id := by
  induction steps with
  | refl => exact ⟨dismissed, nofun⟩
  | @step events machine event next prior taken inductionHypothesis =>
    obtain ⟨gone, others⟩ := inductionHypothesis
    have timely := prior.timely timely
    refine ⟨taken.timers.dismissed timely gone, ?_⟩
    rw [firings_append, firings_cons, firings_nil, List.append_nil]
    refine List.forall_mem_append.mpr ⟨others, fun fired member => ?_⟩
    cases event with
    | fired timer =>
      obtain rfl := List.mem_singleton.mp member
      exact taken.timers.fired_id_ne timely gone
    | _ => cases member

end Gone

/-! ## What goes on without a timer -/

/-- What an event is if the timer with a number is not armed again. -/
def Event.without (id : Nat) : Event → Event
  | .finished rearmed => .finished (rearmed.filter fun timer => timer.id != id)
  | event => event

/-- What a timer that does nothing to other timers adds to its turn. -/
def Event.Concerns (id : Nat) : Event → Prop
  | .finished _ | .polled _ => True
  | .cleared other => other = id
  | .internal | .armed _ | .began _ | .fired _ => False

/-- What is left of events without the turns that one timer takes, if it does nothing to other
timers. The flag says whether it is the one that fired last. -/
inductive Spared (id : Nat) : Bool → List Event → List Event → Prop where
  | nil {alone} : Spared id alone [] []
  | skip {alone timer events rest} (own : timer.id = id) (others : Spared id true events rest) :
      Spared id alone (.fired timer :: events) rest
  | own {event events rest} (concerns : event.Concerns id) (others : Spared id true events rest) :
      Spared id true (event :: events) rest
  | aside {alone events rest} (others : Spared id alone events rest) :
      Spared id alone (.internal :: events) (.internal :: rest)
  | fire {alone timer events rest} (other : timer.id ≠ id)
      (others : Spared id false events rest) :
      Spared id alone (.fired timer :: events) (.fired timer :: rest)
  | keep {event events rest} (unfired : event.fired? = none)
      (others : Spared id false events rest) :
      Spared id false (event :: events) (event.without id :: rest)

/-- Timers as they go on, and as they go on without the one with a number. Between a turn of that
timer and the next one to fire, only what is pending and the numbers agree. -/
inductive Parallel (id : Nat) : Bool → Timers TimerAction → Timers TimerAction → Prop where
  | together {timers} : Parallel id false timers (timers.clear id)
  | apart {timers cleared} (pending : cleared.pending = (timers.clear id).pending)
      (nextId : cleared.nextId = timers.nextId) (idle : cleared.firing = none)
      (own : ∀ timer, timers.firing = some timer → timer.id = id) :
      Parallel id true timers cleared

section Cleared

variable {timers changed cleared after : Timers TimerAction} {timer : Timer TimerAction}
  {event : Event} {events rest : List Event} {id : Nat} {alone : Bool}

/-- The same timers fire in the same order, but for the one that is left out. -/
theorem Spared.firings_eq (spared : Spared id alone events rest) :
    firings rest = (firings events).filter fun timer => timer.id != id := by
  induction spared with
  | nil => rfl
  | skip own _ inductionHypothesis => simp [Event.fired?, own, inductionHypothesis]
  | @own event _ _ concerns _ inductionHypothesis =>
    have unfired : event.fired? = none := by
      cases event <;> first | rfl | exact concerns.elim
    simp [unfired, inductionHypothesis]
  | aside _ inductionHypothesis => simp [Event.fired?, inductionHypothesis]
  | fire other _ inductionHypothesis => simp [Event.fired?, other, inductionHypothesis]
  | @keep event _ _ unfired _ inductionHypothesis =>
    have still : (event.without id).fired? = none := by
      cases event <;> first | rfl | exact unfired
    simp [unfired, still, inductionHypothesis]

/-! ### The timer that fires next -/

namespace Foremost

variable {pending earlier others : List (Timer TimerAction)}

/-- Timers that are left out do not change which one is foremost. -/
theorem filter (foremost : Foremost pending timer earlier others)
    (keeps : Timer TimerAction → Bool) (kept : keeps timer = true) :
    Foremost (pending.filter keeps) timer (earlier.filter keeps) (others.filter keeps) where
  split := by rw [foremost.split, List.filter_append, List.filter_cons_of_pos kept]
  before other member := foremost.before other (List.mem_filter.mp member).1
  behind other member := foremost.behind other (List.mem_filter.mp member).1

/-- Only one timer is foremost. -/
theorem unique {rival : Timer TimerAction} {front back : List (Timer TimerAction)}
    (foremost : Foremost pending timer earlier others)
    (other : Foremost pending rival front back) : timer = rival := by
  have never (first second : Timer TimerAction) (sooner : first.due.less second.due)
      (later : second.due.AtMost first.due) : False := by
    have less := Number.less_trans_atMost sooner later
    revert less
    cases first.due <;> simp [Number.less]
  obtain ⟨between, front', rest⟩ | ⟨between, earlier', rest⟩ :=
    List.append_eq_append_iff.mp (foremost.split.symm.trans other.split)
  · cases between with
    | nil => exact (List.cons.inj rest).1
    | cons head between =>
      obtain ⟨rfl, behind⟩ := List.cons.inj rest
      have sooner := other.before timer (by simp [front'])
      exact (never _ _ sooner (foremost.behind rival (by simp [behind]))).elim
  · cases between with
    | nil => exact (List.cons.inj rest).1.symm
    | cons head between =>
      obtain ⟨rfl, behind⟩ := List.cons.inj rest
      have sooner := foremost.before rival (by simp [earlier'])
      exact (never _ _ sooner (other.behind timer (by simp [behind]))).elim

end Foremost

theorem Timely.earliest?_eq {earlier others : List (Timer TimerAction)} (timely : Timely timers)
    (foremost : Foremost timers.pending timer earlier others) : timers.earliest? = some timer := by
  cases found : timers.earliest? with
  | none =>
    have idle := foremost.split
    unfold Timers.earliest? at found
    split at found
    case h_1 empty => simp [empty] at idle
    case h_2 => cases found
  | some rival =>
    obtain ⟨_, _, other⟩ := timely.foremost found
    rw [foremost.unique other]

/-! ### Timers side by side -/

/-- What is left of a timer that was armed again. -/
theorem Timers.rearmed?_clear (timers : Timers TimerAction) (id : Nat) :
    (timers.clear id).rearmed? = timers.rearmed?.filter fun timer => timer.id != id := by
  obtain ⟨pending, nextId, clock, firing⟩ := timers
  cases firing with
  | none => rfl
  | some timer =>
    by_cases own : timer.id = id <;> cases repeats : timer.repeats <;>
      simp [Timers.clear, Timers.rearmed?, own, repeats, Option.filter]

theorem Timers.finishFiring_clear (timers : Timers TimerAction) (id : Nat) :
    timers.finishFiring.clear id = (timers.clear id).finishFiring := by
  rw [Timers.finishFiring_eq, Timers.finishFiring_eq, Timers.rearmed?_clear]
  cases timers.rearmed? <;> simp [Timers.clear, Option.filter]
  split <;> simp_all

/-- What is in turn with a timer in place is in turn without it. -/
theorem Event.InTurn.clear (inTurn : event.InTurn timers) (unfired : event.fired? = none) :
    (event.without id).InTurn (timers.clear id) := by
  cases event with
  | fired => cases unfired
  | polled => exact congrArg (Option.map _) inTurn
  | finished =>
    rw [Event.without, show _ = timers.rearmed? from inTurn, ← Timers.rearmed?_clear]
    rfl
  | internal | armed | cleared | began => trivial

/-- Numbers are never taken back. -/
theorem TimerStep.nextId_le (taken : TimerStep timers event changed) :
    timers.nextId ≤ changed.nextId := by
  cases taken with
  | number | arm => exact Nat.le_succ _
  | finish =>
    have same := congrArg Timers.nextId (Timers.finishFiring_eq timers)
    exact Nat.le_of_eq same.symm
  | internal | began | polled | clear | fire | abandon => exact Nat.le_refl _

namespace Parallel

theorem pending_eq (parallel : Parallel id alone timers cleared) :
    cleared.pending = timers.pending.filter fun timer => timer.id != id := by
  cases parallel with
  | together => rfl
  | apart pending => exact pending

theorem nextId_eq (parallel : Parallel id alone timers cleared) :
    cleared.nextId = timers.nextId := by
  cases parallel with
  | together => rfl
  | apart _ nextId => exact nextId

/-- Without the timer, no callback is under way when there is none with it. -/
theorem idle (parallel : Parallel id alone timers cleared) (idle : timers.firing = none) :
    cleared.firing = none := by
  cases parallel with
  | together => exact congrArg (Option.map _) idle
  | apart _ _ idle => exact idle

/-- The timer that is left out fires. -/
theorem skip (parallel : Parallel id alone timers cleared) (idle : timers.firing = none)
    (own : timer.id = id) : Parallel id true (timers.fire timer) cleared := by
  refine .apart ?_ parallel.nextId_eq (parallel.idle idle) fun fired firing => ?_
  · rw [parallel.pending_eq, Timers.fire, Timers.clear, List.filter_filter, own]
    simp
  · cases firing
    exact own

/-- Another timer fires, at the same time with and without the one that is left out. -/
theorem fire (parallel : Parallel id alone timers cleared) (timely : Timely timers)
    (clearedTimely : Timely cleared) (earliest : timers.earliest? = some timer)
    (other : timer.id ≠ id) :
    TimerStep cleared (.fired timer) ((timers.fire timer).clear id) := by
  obtain ⟨_, _, foremost⟩ := timely.foremost earliest
  have kept := foremost.filter (fun other => other.id != id) (bne_iff_ne.mpr other)
  rw [← parallel.pending_eq] at kept
  have same : (timers.fire timer).clear id = cleared.fire timer := by
    simp only [Timers.fire, Timers.clear, parallel.pending_eq, parallel.nextId_eq,
      List.filter_filter, Option.map_some, if_neg other, Bool.and_comm]
  rw [same]
  exact .fire (clearedTimely.earliest?_eq kept)

/-- What the timer that is left out adds to its turn. -/
theorem own (parallel : Parallel id true timers cleared)
    (taken : TimerStep timers event changed) (concerns : event.Concerns id) :
    Parallel id true changed cleared := by
  cases parallel with | apart pending nextId idle own =>
  cases taken with
  | polled => exact .apart pending nextId idle own
  | clear other =>
    obtain rfl : other = id := concerns
    refine .apart ?_ nextId idle fun timer fired => ?_
    · simp only [pending, Timers.clear, List.filter_filter, Bool.and_self]
    · obtain ⟨before, firing, rfl⟩ := Option.map_eq_some_iff.mp fired
      rw [if_pos (own before firing)]
      exact own before firing
  | finish =>
    have unarmed : (timers.clear id).rearmed? = none := by
      rw [Timers.rearmed?_clear]
      cases rearmed : timers.rearmed? with
      | none => rfl
      | some timer =>
        obtain ⟨fired, firing, -, same⟩ := Timers.repeats_of_rearmed?_eq rearmed
        simp [Option.filter, ← same, own fired firing]
    refine .apart ?_ (by rw [nextId, Timers.finishFiring_eq]) idle ?_
    · rw [pending, Timers.finishFiring_clear, Timers.finishFiring_eq, unarmed]
      exact (List.append_nil _).symm
    · rw [Timers.finishFiring_eq]
      exact nofun
  | abandon => exact .apart pending nextId idle nofun
  | internal | began | number | arm | fire => exact concerns.elim

/-- What timers take no part in. -/
theorem aside (parallel : Parallel id alone timers cleared)
    (taken : TimerStep timers .internal changed) : ∃ next,
      TimerStep cleared .internal next ∧ Parallel id alone changed next := by
  cases parallel with
  | together =>
    cases taken with
    | internal => exact ⟨_, .internal, .together⟩
    | number => exact ⟨_, .number, .together⟩
  | apart pending nextId idle own =>
    cases taken with
    | internal => exact ⟨_, .internal, .apart pending nextId idle own⟩
    | number => exact ⟨_, .number, .apart pending (congrArg Nat.succ nextId) idle own⟩

end Parallel

end Cleared

end Playground.Script
