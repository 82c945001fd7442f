import Playground.Proofs.Script.TimerSteps
import Playground.Proofs.Script.Turns

/-!
# The order of virtual time

Waits are never negative, a timer is due a wait after the clock, and the clock only moves to the
earliest time that is due. So no timer is ever overdue (`Timely`), the clock never runs backwards, and
timers fire in the order of their due times. Each timer has a number of its own (`Numbered`), so
the one that fires is the one that is taken out.
-/

namespace Playground.Script

open Number (AtMost IsInstant IsWait)

variable {events : List Event} {event : Event} {timer : Timer TimerAction}
  {start machine after : Machine}

/-! ## The timer that fires next -/

/-- Of the timers, this one is due first; the ones that are due at the same time were armed
later. -/
structure Foremost (timers : List (Timer TimerAction)) (timer : Timer TimerAction)
    (earlier others : List (Timer TimerAction)) : Prop where
  split : timers = earlier ++ timer :: others
  before : ∀ other ∈ earlier, timer.due.less other.due
  behind : ∀ other ∈ others, timer.due.AtMost other.due

namespace Foremost

variable {timers earlier others : List (Timer TimerAction)}

theorem mem (foremost : Foremost timers timer earlier others) : timer ∈ timers := by
  rw [foremost.split]
  simp

theorem atMost (foremost : Foremost timers timer earlier others)
    (instant : ∀ timer ∈ timers, timer.due.IsInstant) {other : Timer TimerAction}
    (member : other ∈ timers) : timer.due.AtMost other.due := by
  have own := AtMost.refl (instant timer foremost.mem)
  rw [foremost.split, List.mem_append, List.mem_cons] at member
  rcases member with before | rfl | behind
  · exact .inl (foremost.before other before)
  · exact own
  · exact foremost.behind other behind

end Foremost

/-- The linear search finds the foremost timer. -/
theorem Timers.foremost_earliestFrom (first : Timer TimerAction) (rest : List (Timer TimerAction))
    (instant : ∀ timer ∈ first :: rest, timer.due.IsInstant) : ∃ earlier others,
      Foremost (first :: rest) (earliestFrom first rest) earlier others := by
  induction rest generalizing first with
  | nil => exact ⟨[], [], rfl, by simp, by simp⟩
  | cons timer rest inductionHypothesis =>
    unfold earliestFrom
    split
    case isTrue sooner =>
      -- The timer found is due no later than this one, so it is due sooner than the first.
      have instants : ∀ other ∈ timer :: rest, other.due.IsInstant :=
        fun other member => instant other (List.mem_cons_of_mem _ member)
      obtain ⟨earlier, others, foremost⟩ := inductionHypothesis timer instants
      have least := foremost.atMost instants List.mem_cons_self
      refine ⟨first :: earlier, others, by rw [foremost.split]; rfl, ?_, foremost.behind⟩
      exact List.forall_mem_cons.mpr ⟨least.trans_less sooner, foremost.before⟩
    case isFalse notSooner =>
      have later : first.due.AtMost timer.due :=
        (instant timer (by simp)).atMost_of_not_less (instant first (by simp)) notSooner
      have instants : ∀ other ∈ first :: rest, other.due.IsInstant := by
        intro other member
        exact instant other (by grind)
      obtain ⟨earlier, others, foremost⟩ := inductionHypothesis first instants
      generalize earliestFrom first rest = found at foremost ⊢
      -- This timer goes behind the first, which is the one found or due later than that.
      cases earlier with
      | nil =>
        obtain ⟨rfl, rfl⟩ := List.cons.inj foremost.split
        exact ⟨[], timer :: rest, rfl, by simp,
          List.forall_mem_cons.mpr ⟨later, foremost.behind⟩⟩
      | cons _ earlier =>
        obtain ⟨rfl, tail⟩ := List.cons.inj foremost.split
        obtain ⟨sooner, before⟩ := List.forall_mem_cons.mp foremost.before
        refine ⟨first :: timer :: earlier, others, by rw [tail]; rfl, ?_, foremost.behind⟩
        exact List.forall_mem_cons.mpr ⟨sooner,
          List.forall_mem_cons.mpr ⟨Number.less_trans_atMost sooner later, before⟩⟩

theorem Timers.foremost_of_earliest? {timers : Timers TimerAction}
    (instant : ∀ timer ∈ timers.pending, timer.due.IsInstant)
    (earliest : timers.earliest? = some timer) : ∃ earlier others,
      Foremost timers.pending timer earlier others := by
  unfold Timers.earliest? at earliest
  cases pending : timers.pending with
  | nil =>
    rw [pending] at earliest
    cases earliest
  | cons first rest =>
    rw [pending] at earliest instant
    cases earliest
    exact Timers.foremost_earliestFrom first rest instant

/-! ## Timers are never overdue -/

/-- A timer that is not due before the clock, nor will be once it is armed again. -/
structure Awaits (clock : Number) (timer : Timer TimerAction) : Prop where
  instant : timer.due.IsInstant
  due : clock.AtMost timer.due
  wait : timer.wait.IsWait

/-- A wait from now on. -/
theorem awaits_of_due_eq {clock : Number} (instant : clock.IsInstant) (wait : timer.wait.IsWait)
    (due : timer.due = clock + timer.wait) : Awaits clock timer := by
  obtain ⟨sum, later⟩ := instant.add wait
  rw [← due] at sum later
  exact ⟨sum, later, wait⟩

/-- No timer is overdue. -/
structure Timely (timers : Timers TimerAction) : Prop where
  clock : timers.clock.IsInstant
  pending : ∀ timer ∈ timers.pending, Awaits timers.clock timer
  firing : ∀ timer, timers.firing = some timer → timer.wait.IsWait

theorem Timely.instants {timers : Timers TimerAction} (timely : Timely timers) :
    ∀ timer ∈ timers.pending, timer.due.IsInstant :=
  fun timer member => (timely.pending timer member).instant

/-- The timer that fires next is the foremost one. -/
theorem Timely.foremost {timers : Timers TimerAction} (timely : Timely timers)
    (earliest : timers.earliest? = some timer) : ∃ earlier others,
      Foremost timers.pending timer earlier others :=
  Timers.foremost_of_earliest? timely.instants earliest

namespace TimerStep

variable {timers changed : Timers TimerAction}

theorem timely (taken : TimerStep timers event changed) (timely : Timely timers) :
    Timely changed := by
  cases taken with
  | internal | began | polled => exact timely
  | number => exact ⟨timely.clock, timely.pending, timely.firing⟩
  | arm waits =>
    refine ⟨timely.clock, List.forall_mem_append.mpr ⟨timely.pending, ?_⟩, timely.firing⟩
    exact List.forall_mem_singleton.mpr (awaits_of_due_eq timely.clock waits rfl)
  | clear id =>
    refine ⟨timely.clock, fun timer member => timely.pending timer (List.mem_filter.mp member).1,
      fun timer firing => ?_⟩
    obtain ⟨before, wasFiring, rfl⟩ := Option.map_eq_some_iff.mp firing
    have waits := timely.firing before wasFiring
    split <;> exact waits
  | @fire timer earliest =>
    obtain ⟨_, _, foremost⟩ := timely.foremost earliest
    have own := timely.pending timer foremost.mem
    refine ⟨own.instant, fun other member => ?_, fun other firing => ?_⟩
    · have pending := (List.mem_filter.mp member).1
      have awaited := timely.pending other pending
      exact ⟨awaited.instant, foremost.atMost timely.instants pending, awaited.wait⟩
    · cases firing
      exact own.wait
  | finish =>
    rw [Timers.finishFiring_eq]
    refine ⟨timely.clock, List.forall_mem_append.mpr ⟨timely.pending, fun timer member => ?_⟩,
      nofun⟩
    obtain ⟨fired, firing, rfl⟩ := Timers.of_rearmed?_eq (Option.mem_toList.mp member)
    exact awaits_of_due_eq timely.clock (timely.firing fired firing) rfl
  | abandon => exact ⟨timely.clock, timely.pending, nofun⟩

end TimerStep

/-! ## Timers have numbers of their own -/

/-- The numbers of the timers that are pending. -/
def Timers.ids (timers : Timers TimerAction) : List Nat :=
  timers.pending.map Timer.id

/-- Every timer has a number of its own, which was given out. -/
structure Numbered (timers : Timers TimerAction) : Prop where
  distinct : timers.ids.Nodup
  given : ∀ id ∈ timers.ids, id < timers.nextId
  firing : ∀ timer, timers.firing = some timer → timer.id < timers.nextId ∧ timer.id ∉ timers.ids

namespace Numbered

variable {timers : Timers TimerAction}

/-- Timers may be taken out, and numbers be used up. -/
theorem of_sublist (numbered : Numbered timers) {pending : List (Timer TimerAction)}
    {nextId : Nat} {firing : Option (Timer TimerAction)} (clock : Number)
    (kept : pending.Sublist timers.pending) (given : timers.nextId ≤ nextId)
    (fired : ∀ timer, firing = some timer →
      timer.id < nextId ∧ timer.id ∉ pending.map Timer.id) :
    Numbered ⟨pending, nextId, clock, firing⟩ := by
  have ids := kept.map Timer.id
  refine ⟨ids.nodup numbered.distinct, fun id member => ?_, fired⟩
  exact Nat.lt_of_lt_of_le (numbered.given id (ids.subset member)) given

/-- A timer that is armed has a number that no other timer has. -/
theorem append (numbered : Numbered timers) {nextId : Nat} {firing : Option (Timer TimerAction)}
    (given : timers.nextId ≤ nextId) (own : timer.id < nextId) (fresh : timer.id ∉ timers.ids)
    (others : ∀ other, firing = some other →
      other.id < nextId ∧ other.id ∉ timers.ids ∧ other.id ≠ timer.id) :
    Numbered ⟨timers.pending ++ [timer], nextId, timers.clock, firing⟩ := by
  have ids : (timers.pending ++ [timer]).map Timer.id = timers.ids ++ [timer.id] := by
    simp [Timers.ids]
  refine ⟨?distinct, ?given, ?firing⟩
  case distinct =>
    rw [Timers.ids, ids, List.nodup_append]
    exact ⟨numbered.distinct, by simp, by grind⟩
  case given =>
    rw [Timers.ids, ids]
    refine List.forall_mem_append.mpr ⟨fun id member => ?_, by simpa using own⟩
    exact Nat.lt_of_lt_of_le (numbered.given id member) given
  case firing =>
    intro other fired
    rw [Timers.ids, ids]
    obtain ⟨below, elsewhere, different⟩ := others other fired
    exact ⟨below, by simp [elsewhere, different]⟩

end Numbered

theorem TimerStep.numbered {timers changed : Timers TimerAction}
    (taken : TimerStep timers event changed) (timely : Timely timers)
    (numbered : Numbered timers) : Numbered changed := by
  cases taken with
  | internal | began | polled => exact numbered
  | number =>
    refine numbered.of_sublist _ (.refl _) (Nat.le_succ _) fun timer fired => ?_
    obtain ⟨below, elsewhere⟩ := numbered.firing timer fired
    exact ⟨Nat.lt_succ_of_lt below, elsewhere⟩
  | arm =>
    have fresh : timers.nextId ∉ timers.ids :=
      fun member => Nat.lt_irrefl _ (numbered.given _ member)
    refine numbered.append (Nat.le_succ _) (Nat.lt_succ_self _) fresh fun other fired => ?_
    obtain ⟨below, elsewhere⟩ := numbered.firing other fired
    exact ⟨Nat.lt_succ_of_lt below, elsewhere, Nat.ne_of_lt below⟩
  | clear id =>
    refine numbered.of_sublist _ List.filter_sublist (Nat.le_refl _) fun timer fired => ?_
    obtain ⟨before, wasFiring, rfl⟩ := Option.map_eq_some_iff.mp fired
    obtain ⟨below, elsewhere⟩ := numbered.firing before wasFiring
    have kept : ((timers.pending.filter fun timer => timer.id != id).map Timer.id).Sublist
        timers.ids := List.filter_sublist.map _
    split <;> exact ⟨below, fun member => elsewhere (kept.subset member)⟩
  | @fire timer earliest =>
    refine numbered.of_sublist _ List.filter_sublist (Nat.le_refl _) fun other fired => ?_
    cases fired
    obtain ⟨_, _, foremost⟩ := timely.foremost earliest
    exact ⟨numbered.given _ (List.mem_map_of_mem foremost.mem), by simp⟩
  | finish =>
    rw [Timers.finishFiring_eq]
    cases rearmed : timers.rearmed? with
    | none => exact numbered.of_sublist _ (by simp) (Nat.le_refl _) nofun
    | some timer =>
      obtain ⟨fired, firing, rfl⟩ := Timers.of_rearmed?_eq rearmed
      obtain ⟨below, elsewhere⟩ := numbered.firing fired firing
      exact numbered.append (Nat.le_refl _) below elsewhere nofun
  | abandon => exact numbered.of_sublist _ (.refl _) (Nat.le_refl _) nofun

/-! ## Steps -/

theorem Steps.timely (steps : Steps start events machine) (timely : Timely start.timers) :
    Timely machine.timers := by
  induction steps with
  | refl => exact timely
  | step _ taken inductionHypothesis => exact taken.timers.timely inductionHypothesis

theorem Steps.numbered (steps : Steps start events machine) (timely : Timely start.timers)
    (numbered : Numbered start.timers) : Numbered machine.timers := by
  induction steps with
  | refl => exact numbered
  | step prior taken inductionHypothesis =>
    exact taken.timers.numbered (prior.timely timely) inductionHypothesis

set_option maxRecDepth 4000 in
/-- Due times come before the order in which timers were armed. -/
example :
    let timer (delay : Nat) (line : String) : Statement :=
      .startTimer ⟨false, .number (.ofNat delay), [], none⟩ [.print [.text line]]
    ((Session.start ⟨none, 10, 10⟩).execute
      (.script [timer 20 "last", timer 10 "first", timer 10 "second"])).2.lines =
        ["first", "second", "last"] := by
  decide +kernel

end Playground.Script
