import Mathlib.Data.List.Induction
import Mathlib.Data.List.Nodup
import Mathlib.Data.List.Pairwise
import Mathlib.Data.Nat.Find
import Mathlib.Tactic.Choose
import Playground.Preview.Scheduler

/-!
# What a debounced run publishes

`Publishes` and `Waits` say, from the operations alone, which scheduling calls are
published and which are still pending. `Follows` carries both along a run: every operation
keeps it, so the scheduler, which only replaces, removes and claims pending renders, agrees
with them after any sequence of operations.
-/

namespace Playground.Preview

/-- What an editor asks of its scheduler. -/
inductive Operation where
  | schedule (target : String) (sources : PageSources)
  | cancel (target : String)
  | advance (milliseconds : Nat)
  deriving DecidableEq, Repr

namespace Operation

/-- How far an operation moves the clock. -/
def elapsed : Operation → Nat
  | .advance milliseconds => milliseconds
  | .schedule .. | .cancel _ => 0

/-- Whether time passes. -/
def passesTime : Operation → Bool
  | .advance _ => true
  | .schedule .. | .cancel _ => false

/-- Whether an operation supersedes or cancels what is pending for a page. -/
def disturbs (target : String) : Operation → Bool
  | .schedule other _ | .cancel other => other == target
  | .advance _ => false

@[simp] theorem disturbs_schedule_eq_false {target other : String} {sources : PageSources} :
    disturbs target (.schedule other sources) = false ↔ target ≠ other := by
  rw [disturbs, beq_eq_false_iff_ne, ne_comm]

@[simp] theorem disturbs_cancel_eq_false {target other : String} :
    disturbs target (.cancel other) = false ↔ target ≠ other := by
  rw [disturbs, beq_eq_false_iff_ne, ne_comm]

end Operation

/-- The scheduler after one operation. -/
def Scheduler.perform (scheduler : Scheduler) : Operation → Scheduler
  | .schedule target sources => (scheduler.schedule target sources).2
  | .cancel target => (scheduler.cancel target).2
  | .advance milliseconds => scheduler.advance milliseconds

/-- The scheduler after a sequence of operations. -/
def Scheduler.run (scheduler : Scheduler) (operations : List Operation) : Scheduler :=
  operations.foldl perform scheduler

@[simp] theorem Scheduler.run_concat (scheduler : Scheduler) (operations : List Operation)
    (operation : Operation) :
    scheduler.run (operations ++ [operation]) = (scheduler.run operations).perform operation := by
  simp [run]

section Declarative

variable (operations : List Operation) (quietPeriod : Nat)

/-- The clock before the operation at an index. -/
def clockAt (index : Nat) : Nat :=
  (operations.take index).foldl (fun clock operation => clock + operation.elapsed) 0

/-- The operation at an index schedules a render of a page. -/
def Schedules (call : Nat) (target : String) : Prop :=
  ∃ sources, operations[call]? = some (.schedule target sources)

/-- The operation at `index` lets time pass up to the deadline of the call before it. -/
def Reaches (call index : Nat) : Prop :=
  call < index ∧ (operations[index]?).any Operation.passesTime = true ∧
    clockAt operations call + quietPeriod ≤ clockAt operations (index + 1)

/-- The operation at `index` supersedes or cancels the earlier call for the page. -/
def Disturbs (target : String) (call index : Nat) : Prop :=
  call < index ∧ (operations[index]?).any (Operation.disturbs target) = true

/-- A call for a page is published: nothing disturbs it before the first operation that
reaches its deadline. -/
def Publishes (target : String) (call : Nat) : Prop :=
  Schedules operations call target ∧
    ∃ index, Reaches operations quietPeriod call index ∧
      ∀ earlier, earlier < index →
        ¬Reaches operations quietPeriod call earlier ∧ ¬Disturbs operations target call earlier

/-- A call for a page is pending: it was neither superseded, nor cancelled, nor published. -/
def Waits (target : String) (call : Nat) : Prop :=
  Schedules operations call target ∧ ¬Publishes operations quietPeriod target call ∧
    ∀ index, ¬Disturbs operations target call index

/-- The update that carries a call's page, the generation that the call returned and the
assembly of its sources. -/
def publication (start : Scheduler) (call : Nat) : Option Update :=
  match operations[call]? with
  | some (.schedule target sources) =>
    some ⟨target, ((start.run (operations.take call)).schedule target sources).1,
      start.sentinels.assemble sources⟩
  | _ => none

end Declarative

/-! ## One more operation -/

section Concat

variable {operations : List Operation} {operation : Operation} {quietPeriod : Nat}
  {target : String} {call index : Nat}

theorem Schedules.call_lt (scheduled : Schedules operations call target) :
    call < operations.length := by
  obtain ⟨sources, found⟩ := scheduled
  exact (List.getElem?_eq_some_iff.mp found).1

theorem Reaches.index_lt (reached : Reaches operations quietPeriod call index) :
    index < operations.length := by
  obtain ⟨_, passes, _⟩ := reached
  by_contra outside
  simp [List.getElem?_eq_none (Nat.le_of_not_lt outside)] at passes

theorem Disturbs.index_lt (disturbed : Disturbs operations target call index) :
    index < operations.length := by
  obtain ⟨_, found⟩ := disturbed
  by_contra outside
  simp [List.getElem?_eq_none (Nat.le_of_not_lt outside)] at found

theorem clockAt_concat (inside : index ≤ operations.length) :
    clockAt (operations ++ [operation]) index = clockAt operations index := by
  rw [clockAt, clockAt, List.take_append_of_le_length inside]

theorem clockAt_concat_last :
    clockAt (operations ++ [operation]) (operations.length + 1) =
      clockAt operations operations.length + operation.elapsed := by
  simp [clockAt, List.take_of_length_le]

theorem schedules_concat_iff :
    Schedules (operations ++ [operation]) call target ↔
      Schedules operations call target ∨
        call = operations.length ∧ ∃ sources, operation = .schedule target sources := by
  rcases Nat.lt_trichotomy call operations.length with before | same | after
  · simp [Schedules, List.getElem?_append_left before, Nat.ne_of_lt before]
  · simp [Schedules, same]
  · have past : (operations ++ [operation])[call]? = none := by
      apply List.getElem?_eq_none
      rwa [List.length_append, List.length_singleton]
    simp [Schedules, past, List.getElem?_eq_none (Nat.le_of_lt after), Nat.ne_of_gt after]

theorem reaches_concat_iff :
    Reaches (operations ++ [operation]) quietPeriod call index ↔
      Reaches operations quietPeriod call index ∨
        index = operations.length ∧ call < index ∧ operation.passesTime = true ∧
          clockAt operations call + quietPeriod ≤
            clockAt operations operations.length + operation.elapsed := by
  rcases Nat.lt_trichotomy index operations.length with before | same | after
  · constructor
    · rintro ⟨later, passes, due⟩
      rw [clockAt_concat (by omega), clockAt_concat (by omega)] at due
      rw [List.getElem?_append_left before] at passes
      exact .inl ⟨later, passes, due⟩
    · rintro (⟨later, passes, due⟩ | ⟨same, _⟩)
      · refine ⟨later, by rwa [List.getElem?_append_left before], ?_⟩
        rwa [clockAt_concat (by omega), clockAt_concat (by omega)]
      · omega
  · subst same
    constructor
    · rintro ⟨later, passes, due⟩
      rw [clockAt_concat (Nat.le_of_lt later), clockAt_concat_last] at due
      exact .inr ⟨rfl, later, by simpa using passes, due⟩
    · rintro (reached | ⟨_, later, passes, due⟩)
      · exact absurd reached.index_lt (Nat.lt_irrefl _)
      · refine ⟨later, by simpa using passes, ?_⟩
        rwa [clockAt_concat (Nat.le_of_lt later), clockAt_concat_last]
  · constructor
    · intro reached
      have := reached.index_lt
      simp at this
      omega
    · rintro (reached | ⟨same, _⟩)
      · exact absurd reached.index_lt (by omega)
      · omega

theorem disturbs_concat_iff :
    Disturbs (operations ++ [operation]) target call index ↔
      Disturbs operations target call index ∨
        index = operations.length ∧ call < index ∧ operation.disturbs target = true := by
  rcases Nat.lt_trichotomy index operations.length with before | same | after
  · simp [Disturbs, List.getElem?_append_left before, Nat.ne_of_lt before]
  · subst same
    simp [Disturbs]
  · constructor
    · intro disturbed
      have := disturbed.index_lt
      simp at this
      omega
    · rintro (disturbed | ⟨same, _⟩)
      · exact absurd disturbed.index_lt (by omega)
      · omega

theorem Publishes.call_lt (published : Publishes operations quietPeriod target call) :
    call < operations.length :=
  published.1.call_lt

/-- A pending call has met neither its deadline nor a disturbance: the first operation that
reached its deadline would have published it. -/
theorem waits_iff :
    Waits operations quietPeriod target call ↔
      Schedules operations call target ∧
        ∀ index, ¬Reaches operations quietPeriod call index ∧
          ¬Disturbs operations target call index := by
  classical
  constructor
  · rintro ⟨scheduled, unpublished, undisturbed⟩
    refine ⟨scheduled, fun index => ⟨fun reached => ?_, undisturbed index⟩⟩
    have someReached : ∃ index, Reaches operations quietPeriod call index := ⟨index, reached⟩
    exact unpublished ⟨scheduled, Nat.find someReached, Nat.find_spec someReached,
      fun earlier before => ⟨Nat.find_min someReached before, undisturbed earlier⟩⟩
  · rintro ⟨scheduled, untouched⟩
    refine ⟨scheduled, ?_, fun index => (untouched index).2⟩
    rintro ⟨_, index, reached, _⟩
    exact (untouched index).1 reached

/-- A page has one pending call: a later one would have superseded it. -/
theorem Waits.unique {other : Nat} (waits : Waits operations quietPeriod target call)
    (again : Waits operations quietPeriod target other) : call = other := by
  have notBefore : ∀ {first second : Nat}, Waits operations quietPeriod target first →
      Waits operations quietPeriod target second → ¬first < second := by
    intro first second waitsFirst waitsSecond before
    obtain ⟨sources, found⟩ := waitsSecond.1
    exact waitsFirst.2.2 second ⟨before, by simp [found, Operation.disturbs]⟩
  exact Nat.le_antisymm (Nat.le_of_not_lt (notBefore again waits))
    (Nat.le_of_not_lt (notBefore waits again))

/-- The deadline of a call is met by an operation that follows all others. -/
def MeetsDeadline (operations : List Operation) (operation : Operation) (quietPeriod : Nat)
    (call : Nat) : Prop :=
  operation.passesTime = true ∧
    clockAt operations call + quietPeriod ≤
      clockAt operations operations.length + operation.elapsed

/-- What one more operation publishes: the pending calls whose deadline it meets. -/
theorem publishes_concat_iff :
    Publishes (operations ++ [operation]) quietPeriod target call ↔
      Publishes operations quietPeriod target call ∨
        Waits operations quietPeriod target call ∧
          MeetsDeadline operations operation quietPeriod call := by
  constructor
  · rintro ⟨scheduled, index, reached, first⟩
    have scheduledBefore : Schedules operations call target := by
      have before : call < operations.length := by
        have := reached.index_lt
        have := reached.1
        simp at *
        omega
      rcases schedules_concat_iff.mp scheduled with earlier | ⟨same, _⟩
      · exact earlier
      · omega
    have untouched : ∀ earlier, earlier < index → ¬Reaches operations quietPeriod call earlier ∧
        ¬Disturbs operations target call earlier := fun earlier before =>
      ⟨fun reached => (first earlier before).1 (reaches_concat_iff.mpr (.inl reached)),
        fun disturbed => (first earlier before).2 (disturbs_concat_iff.mpr (.inl disturbed))⟩
    rcases reaches_concat_iff.mp reached with earlier | ⟨same, _, passes, due⟩
    · exact .inl ⟨scheduledBefore, index, earlier, untouched⟩
    · refine .inr ⟨waits_iff.mpr ⟨scheduledBefore, fun other => ?_⟩, passes, due⟩
      exact ⟨fun reached => (untouched other (same ▸ reached.index_lt)).1 reached,
        fun disturbed => (untouched other (same ▸ disturbed.index_lt)).2 disturbed⟩
  · rintro (⟨scheduled, index, reached, first⟩ | ⟨waiting, passes, due⟩)
    · refine ⟨schedules_concat_iff.mpr (.inl scheduled), index,
        reaches_concat_iff.mpr (.inl reached), fun earlier before => ?_⟩
      have inside := Nat.lt_trans before reached.index_lt
      constructor
      · intro again
        rcases reaches_concat_iff.mp again with again | ⟨last, _⟩
        · exact (first earlier before).1 again
        · omega
      · intro disturbed
        rcases disturbs_concat_iff.mp disturbed with disturbed | ⟨last, _⟩
        · exact (first earlier before).2 disturbed
        · omega
    · obtain ⟨scheduled, untouched⟩ := waits_iff.mp waiting
      refine ⟨schedules_concat_iff.mpr (.inl scheduled), operations.length,
        reaches_concat_iff.mpr (.inr ⟨rfl, scheduled.call_lt, passes, due⟩),
        fun earlier before => ?_⟩
      constructor
      · intro reached
        rcases reaches_concat_iff.mp reached with reached | ⟨last, _⟩
        · exact (untouched earlier).1 reached
        · omega
      · intro disturbed
        rcases disturbs_concat_iff.mp disturbed with disturbed | ⟨last, _⟩
        · exact (untouched earlier).2 disturbed
        · omega

/-- What one more operation leaves pending, and the call that it makes pending. -/
theorem waits_concat_iff :
    Waits (operations ++ [operation]) quietPeriod target call ↔
      (Waits operations quietPeriod target call ∧ operation.disturbs target = false ∧
          ¬MeetsDeadline operations operation quietPeriod call) ∨
        call = operations.length ∧ ∃ sources, operation = .schedule target sources := by
  rw [waits_iff, waits_iff, schedules_concat_iff]
  constructor
  · rintro ⟨scheduled | fresh, untouched⟩
    · have call_lt := scheduled.call_lt
      refine .inl ⟨⟨scheduled, fun index => ?_⟩, ?_, fun meets => ?_⟩
      · exact ⟨fun reached => (untouched index).1 (reaches_concat_iff.mpr (.inl reached)),
          fun disturbed => (untouched index).2 (disturbs_concat_iff.mpr (.inl disturbed))⟩
      · by_contra disturbs
        exact (untouched operations.length).2
          (disturbs_concat_iff.mpr (.inr ⟨rfl, call_lt, by simpa using disturbs⟩))
      · exact (untouched operations.length).1
          (reaches_concat_iff.mpr (.inr ⟨rfl, call_lt, meets.1, meets.2⟩))
    · exact .inr fresh
  · rintro (⟨⟨scheduled, untouched⟩, calm, early⟩ | fresh)
    · refine ⟨.inl scheduled, fun index => ⟨fun reached => ?_, fun disturbed => ?_⟩⟩
      · rcases reaches_concat_iff.mp reached with reached | ⟨_, _, passes, due⟩
        · exact (untouched index).1 reached
        · exact early ⟨passes, due⟩
      · rcases disturbs_concat_iff.mp disturbed with disturbed | ⟨_, _, disturbs⟩
        · exact (untouched index).2 disturbed
        · simp [calm] at disturbs
    · refine ⟨.inr fresh, fun index => ⟨fun reached => ?_, fun disturbed => ?_⟩⟩
      · have later := reached.1
        have inside := reached.index_lt
        simp at inside
        omega
      · have later := disturbed.1
        have inside := disturbed.index_lt
        simp at inside
        omega

end Concat

/-! ## The scheduler step by step -/

namespace Scheduler

/-- A pending render is claimed and sent. -/
theorem publish_of_mem {scheduler : Scheduler} {render : PendingRender}
    (pending : render ∈ scheduler.pending) :
    scheduler.publish render =
      { scheduler with
        pending := scheduler.others render.target
        updates := scheduler.updates.send (scheduler.update render) } := by
  have claimed : scheduler.claim? render =
      some { scheduler with pending := scheduler.others render.target } := by
    rw [claim?, if_pos]
    exact List.any_eq_true.mpr ⟨render, pending, by simp⟩
  simp [publish, claimed, send, update]

/-- Pending renders of different pages are all claimed and sent, in order. -/
theorem foldl_publish {scheduler : Scheduler} {renders : List PendingRender}
    (pending : ∀ render ∈ renders, render ∈ scheduler.pending)
    (distinct : renders.Pairwise fun first second => first.target ≠ second.target) :
    renders.foldl publish scheduler =
      { scheduler with
        pending := scheduler.pending.filter fun other =>
          renders.all fun render => other.target != render.target
        updates := { scheduler.updates with
          sent := scheduler.updates.sent ++ renders.map scheduler.update } } := by
  induction renders generalizing scheduler with
  | nil =>
    have kept : scheduler.pending.filter (fun _ => true) = scheduler.pending :=
      List.filter_eq_self.mpr (by simp)
    simp [kept]
  | cons first rest inductionHypothesis =>
    obtain ⟨others, distinctRest⟩ := List.pairwise_cons.mp distinct
    have stillPending : ∀ render ∈ rest, render ∈ (scheduler.publish first).pending := by
      intro render member
      rw [publish_of_mem (pending first (by simp))]
      exact List.mem_filter.mpr
        ⟨pending render (by simp [member]), by simpa using Ne.symm (others render member)⟩
    rw [List.foldl_cons, inductionHypothesis stillPending distinctRest,
      publish_of_mem (pending first (by simp))]
    simp [Channel.send, Scheduler.others, List.filter_filter, update,
      Bool.and_comm]

theorem release_eq (scheduler : Scheduler) :
    ∃ closed, scheduler.release =
      { scheduler with updates := { scheduler.updates with closed := closed } } := by
  unfold release
  split
  · exact ⟨true, rfl⟩
  · exact ⟨scheduler.updates.closed, rfl⟩

/-- Among renders of different pages, the page tells the render. -/
theorem eq_of_target_eq {renders : List PendingRender} {first second : PendingRender}
    (distinct : renders.Pairwise fun first second => first.target ≠ second.target)
    (firstMember : first ∈ renders) (secondMember : second ∈ renders)
    (same : first.target = second.target) : first = second := by
  have : Std.Symm fun first second : PendingRender => first.target ≠ second.target :=
    ⟨fun _ _ => Ne.symm⟩
  by_contra differ
  exact distinct.forall firstMember secondMember differ same

/-- When no two pending renders are of one page, an advance sends exactly the renders that
are due and keeps the others. -/
theorem advance_eq {scheduler : Scheduler} (milliseconds : Nat)
    (distinct : scheduler.pending.Pairwise fun first second => first.target ≠ second.target) :
    ∃ closed, scheduler.advance milliseconds =
      { scheduler with
        now := scheduler.now + milliseconds
        pending := scheduler.pending.filter fun render =>
          !decide (render.due ≤ scheduler.now + milliseconds)
        abandoned := false
        updates := { scheduler.updates with
          sent := scheduler.updates.sent ++
            (scheduler.pending.filter (·.due ≤ scheduler.now + milliseconds)).map
              scheduler.update
          closed := closed } } := by
  let moved : Scheduler := { scheduler with now := scheduler.now + milliseconds }
  have published : moved.publishDue = _ :=
    foldl_publish (fun render member => (List.mem_filter.mp member).1) (distinct.filter _)
  have kept : (scheduler.pending.filter fun other =>
      moved.dueRenders.all fun render => other.target != render.target) =
      scheduler.pending.filter fun render =>
        !decide (render.due ≤ scheduler.now + milliseconds) := by
    refine List.filter_congr fun other member => ?_
    rw [Bool.eq_iff_iff, List.all_eq_true]
    simp only [bne_iff_ne, Bool.not_eq_true', decide_eq_false_iff_not]
    constructor
    · intro differs due
      exact differs other (List.mem_filter.mpr ⟨member, decide_eq_true due⟩) rfl
    · intro early render isDue same
      obtain ⟨renderMember, due⟩ := List.mem_filter.mp isDue
      have equal := eq_of_target_eq distinct member renderMember same
      exact early (equal ▸ of_decide_eq_true due)
  obtain ⟨closed, released⟩ :=
    release_eq { moved.publishDue with abandoned := false }
  refine ⟨closed, released.trans ?_⟩
  rw [published]
  simp only [moved, kept]
  rfl

end Scheduler

/-- A pending render is the one that a call put there. -/
def IsRenderOf (start : Scheduler) (operations : List Operation) (call : Nat)
    (render : PendingRender) : Prop :=
  operations[call]? = some (.schedule render.target render.sources) ∧
    render.generation = (start.run (operations.take call)).lastGeneration + 1 ∧
    render.due = clockAt operations call + start.quietPeriod

/-- The scheduler after a run is what the operations ask for: its pending renders are those
of the calls that wait, one to a page, and its updates those of the calls that were
published, one to a call. -/
structure Follows (start : Scheduler) (operations : List Operation) : Prop where
  now : (start.run operations).now = clockAt operations operations.length
  quietPeriod : (start.run operations).quietPeriod = start.quietPeriod
  sentinels : (start.run operations).sentinels = start.sentinels
  pending : ∀ render, render ∈ (start.run operations).pending ↔
    ∃ call, Waits operations start.quietPeriod render.target call ∧
      IsRenderOf start operations call render
  distinct : (start.run operations).pending.Pairwise
    fun first second => first.target ≠ second.target
  sent : ∃ calls : List Nat, calls.Nodup ∧
    (∀ call, call ∈ calls ↔ ∃ target, Publishes operations start.quietPeriod target call) ∧
    (start.run operations).updates.sent.map some = calls.map (publication operations start)

section Concat

variable {start : Scheduler} {operations : List Operation} {operation : Operation} {call : Nat} {render : PendingRender}

theorem isRenderOf_concat_iff (inside : call < operations.length) :
    IsRenderOf start (operations ++ [operation]) call render ↔
      IsRenderOf start operations call render := by
  rw [IsRenderOf, IsRenderOf, List.getElem?_append_left inside,
    List.take_append_of_le_length (Nat.le_of_lt inside), clockAt_concat (Nat.le_of_lt inside)]

theorem publication_concat (inside : call < operations.length) :
    publication (operations ++ [operation]) start call = publication operations start call := by
  rw [publication, publication, List.getElem?_append_left inside,
    List.take_append_of_le_length (Nat.le_of_lt inside)]

/-- A render of a call is published as the update of that call. -/
theorem IsRenderOf.publication_eq (rendered : IsRenderOf start operations call render) :
    publication operations start call =
      some ⟨render.target, render.generation, start.sentinels.assemble render.sources⟩ := by
  rw [publication, rendered.1]
  simp [Scheduler.schedule, Scheduler.number, rendered.2.1]

/-- A call has one render. -/
theorem IsRenderOf.unique {other : PendingRender}
    (rendered : IsRenderOf start operations call render)
    (again : IsRenderOf start operations call other) : render = other := by
  obtain ⟨found, generation, due⟩ := rendered
  obtain ⟨foundAgain, generationAgain, dueAgain⟩ := again
  rw [found] at foundAgain
  cases render
  cases other
  simp_all

/-- Operations that let no time pass publish nothing. -/
theorem Follows.sent_concat (follows : Follows start operations)
    (still : operation.passesTime = false) :
    ∃ calls : List Nat, calls.Nodup ∧
      (∀ call, call ∈ calls ↔
        ∃ target, Publishes (operations ++ [operation]) start.quietPeriod target call) ∧
      (start.run operations).updates.sent.map some =
        calls.map (publication (operations ++ [operation]) start) := by
  obtain ⟨calls, nodup, published, sent⟩ := follows.sent
  refine ⟨calls, nodup, fun call => ?_, ?_⟩
  · rw [published]
    simp [publishes_concat_iff, MeetsDeadline, still]
  · rw [sent]
    refine List.map_congr_left fun call member => ?_
    obtain ⟨target, publishes⟩ := (published call).mp member
    exact (publication_concat publishes.call_lt).symm

/-- The render of a call that waits after one more operation. -/
theorem exists_waits_concat_iff :
    (∃ call, Waits (operations ++ [operation]) start.quietPeriod render.target call ∧
        IsRenderOf start (operations ++ [operation]) call render) ↔
      (∃ call, Waits operations start.quietPeriod render.target call ∧
        operation.disturbs render.target = false ∧
        ¬MeetsDeadline operations operation start.quietPeriod call ∧
        IsRenderOf start operations call render) ∨
      (operation = .schedule render.target render.sources ∧
        render.generation = (start.run operations).lastGeneration + 1 ∧
        render.due = clockAt operations operations.length + start.quietPeriod) := by
  constructor
  · rintro ⟨call, waiting, rendered⟩
    rcases waits_concat_iff.mp waiting with ⟨before, calm, early⟩ | ⟨rfl, sources, rfl⟩
    · have inside := before.1.call_lt
      exact .inl ⟨call, before, calm, early, (isRenderOf_concat_iff inside).mp rendered⟩
    · obtain ⟨found, generation, due⟩ := rendered
      refine .inr ⟨by simpa using found, by simpa using generation, ?_⟩
      rwa [clockAt_concat (Nat.le_refl _)] at due
  · rintro (⟨call, waiting, calm, early, rendered⟩ | ⟨rfl, generation, due⟩)
    · have inside := waiting.1.call_lt
      exact ⟨call, waits_concat_iff.mpr (.inl ⟨waiting, calm, early⟩),
        (isRenderOf_concat_iff inside).mpr rendered⟩
    · refine ⟨operations.length, waits_concat_iff.mpr (.inr ⟨rfl, _, rfl⟩), by simp,
        by simpa using generation, ?_⟩
      rwa [clockAt_concat (Nat.le_refl _)]

theorem Follows.schedule {target : String} {sources : PageSources}
    (follows : Follows start operations) :
    Follows start (operations ++ [.schedule target sources]) where
  now := by
    rw [Scheduler.run_concat, List.length_append, List.length_singleton, clockAt_concat_last]
    exact follows.now
  quietPeriod := by rw [Scheduler.run_concat]; exact follows.quietPeriod
  sentinels := by rw [Scheduler.run_concat]; exact follows.sentinels
  pending := by
    intro render
    rw [exists_waits_concat_iff, Scheduler.run_concat]
    simp only [Scheduler.perform, Scheduler.schedule, Scheduler.number, Scheduler.install,
      Scheduler.abandon, Scheduler.others, List.mem_append, List.mem_filter, List.mem_singleton,
      follows.pending, follows.now, follows.quietPeriod]
    constructor
    · rintro (⟨⟨call, waiting, rendered⟩, other⟩ | rfl)
      · refine .inl ⟨call, waiting, ?_, by simp [MeetsDeadline, Operation.passesTime], rendered⟩
        simpa using other
      · exact .inr ⟨rfl, rfl, rfl⟩
    · rintro (⟨call, waiting, calm, _, rendered⟩ | ⟨same, generation, due⟩)
      · exact .inl ⟨⟨call, waiting, rendered⟩, by simpa using calm⟩
      · right
        cases render
        simp_all
  distinct := by
    rw [Scheduler.run_concat]
    refine List.pairwise_append.mpr ⟨follows.distinct.filter _, List.pairwise_singleton _ _, ?_⟩
    intro other member render isNew
    have different := (List.mem_filter.mp member).2
    simp only [List.mem_singleton] at isNew
    simpa [isNew] using different
  sent := by rw [Scheduler.run_concat]; exact follows.sent_concat rfl

theorem Follows.cancel {target : String} (follows : Follows start operations) :
    Follows start (operations ++ [.cancel target]) where
  now := by
    rw [Scheduler.run_concat, List.length_append, List.length_singleton, clockAt_concat_last]
    exact follows.now
  quietPeriod := by rw [Scheduler.run_concat]; exact follows.quietPeriod
  sentinels := by rw [Scheduler.run_concat]; exact follows.sentinels
  pending := by
    intro render
    rw [exists_waits_concat_iff, Scheduler.run_concat]
    simp only [Scheduler.perform, Scheduler.cancel, Scheduler.abandon, Scheduler.others,
      List.mem_filter, follows.pending]
    constructor
    · rintro ⟨⟨call, waiting, rendered⟩, other⟩
      refine .inl ⟨call, waiting, ?_, by simp [MeetsDeadline, Operation.passesTime], rendered⟩
      simpa using other
    · rintro (⟨call, waiting, calm, _, rendered⟩ | ⟨same, _⟩)
      · exact ⟨⟨call, waiting, rendered⟩, by simpa using calm⟩
      · contradiction
  distinct := by rw [Scheduler.run_concat]; exact follows.distinct.filter _
  sent := by rw [Scheduler.run_concat]; exact follows.sent_concat rfl

/-- The calls published by an advance: one for each render that is due. -/
theorem Follows.sent_advance (follows : Follows start operations) (milliseconds : Nat) :
    ∃ calls : List Nat, calls.Nodup ∧
      (∀ call, call ∈ calls ↔ ∃ target,
        Waits operations start.quietPeriod target call ∧
          MeetsDeadline operations (.advance milliseconds) start.quietPeriod call) ∧
      (((start.run operations).pending.filter
          (·.due ≤ (start.run operations).now + milliseconds)).map
        (start.run operations).update).map some = calls.map (publication operations start) := by
  have called : ∀ render : {render // render ∈ (start.run operations).pending}, ∃ call,
      Waits operations start.quietPeriod render.1.target call ∧
        IsRenderOf start operations call render.1 := fun render =>
    (follows.pending render.1).mp render.2
  choose callOf waits rendered using called
  let due := (start.run operations).pending.attach.filter
    fun render => render.1.due ≤ (start.run operations).now + milliseconds
  have dueNodup : due.Nodup := by
    have nodup : (start.run operations).pending.Nodup :=
      follows.distinct.imp fun differs same => differs (congrArg PendingRender.target same)
    exact (List.nodup_attach.mpr nodup).filter _
  have injective : Function.Injective callOf := fun first second same =>
    Subtype.ext ((rendered first).unique (same ▸ rendered second))
  refine ⟨due.map callOf, dueNodup.map injective, fun call => ?_, ?_⟩
  · constructor
    · intro member
      obtain ⟨render, isDue, rfl⟩ := List.mem_map.mp member
      have reached := of_decide_eq_true (List.mem_filter.mp isDue).2
      rw [(rendered render).2.2, follows.now] at reached
      exact ⟨render.1.target, waits render, rfl, reached⟩
    · rintro ⟨target, waiting, _, reached⟩
      obtain ⟨sources, found⟩ := waiting.1
      let render : PendingRender := ⟨target, (start.run (operations.take call)).lastGeneration + 1,
        clockAt operations call + start.quietPeriod, sources⟩
      have isRender : IsRenderOf start operations call render := ⟨found, rfl, rfl⟩
      have member : render ∈ (start.run operations).pending :=
        (follows.pending render).mpr ⟨call, waiting, isRender⟩
      refine List.mem_map.mpr ⟨⟨render, member⟩, List.mem_filter.mpr ⟨by simp, ?_⟩, ?_⟩
      · rw [follows.now]
        exact decide_eq_true reached
      · exact (waits _).unique waiting
  · have dueVal : (start.run operations).pending.filter
        (·.due ≤ (start.run operations).now + milliseconds) = due.map Subtype.val := by
      conv => lhs; rw [← List.attach_map_subtype_val (start.run operations).pending]
      rw [List.filter_map]
      rfl
    rw [dueVal, List.map_map, List.map_map, List.map_map]
    refine List.map_congr_left fun render _ => ?_
    simp [(rendered render).publication_eq, Scheduler.update, follows.sentinels]

theorem Follows.advance {milliseconds : Nat} (follows : Follows start operations) :
    Follows start (operations ++ [.advance milliseconds]) := by
  obtain ⟨closed, moved⟩ := Scheduler.advance_eq milliseconds follows.distinct
  have ran : start.run (operations ++ [.advance milliseconds]) = _ :=
    (Scheduler.run_concat ..).trans moved
  constructor
  · rw [ran, List.length_append, List.length_singleton, clockAt_concat_last, ← follows.now]
    rfl
  · rw [ran]
    exact follows.quietPeriod
  · rw [ran]
    exact follows.sentinels
  · intro render
    rw [exists_waits_concat_iff, ran]
    simp only [List.mem_filter, follows.pending, follows.now, Bool.not_eq_true',
      decide_eq_false_iff_not]
    constructor
    · rintro ⟨⟨call, waiting, rendered⟩, early⟩
      refine .inl ⟨call, waiting, rfl, fun meets => early ?_, rendered⟩
      rw [rendered.2.2]
      exact meets.2
    · rintro (⟨call, waiting, _, early, rendered⟩ | ⟨same, _⟩)
      · refine ⟨⟨call, waiting, rendered⟩, fun due => early ⟨rfl, ?_⟩⟩
        rwa [rendered.2.2] at due
      · contradiction
  · rw [ran]
    exact follows.distinct.filter _
  · obtain ⟨earlier, earlierNodup, earlierPublished, earlierSent⟩ := follows.sent
    obtain ⟨fresh, freshNodup, freshPublished, freshSent⟩ :=
      follows.sent_advance milliseconds
    refine ⟨earlier ++ fresh, ?_, fun call => ?_, ?_⟩
    · refine earlierNodup.append freshNodup fun call before now => ?_
      obtain ⟨target, published⟩ := (earlierPublished call).mp before
      obtain ⟨other, waiting, _⟩ := (freshPublished call).mp now
      obtain ⟨sources, found⟩ := published.1
      obtain ⟨otherSources, foundAgain⟩ := waiting.1
      have same : target = other := by simp_all
      exact waiting.2.1 (same ▸ published)
    · simp only [List.mem_append, earlierPublished, freshPublished, publishes_concat_iff,
        exists_or]
    · have publicationBefore : ∀ call ∈ earlier ++ fresh,
          publication (operations ++ [.advance milliseconds]) start call =
            publication operations start call := by
        intro call member
        apply publication_concat
        rcases List.mem_append.mp member with before | now
        · obtain ⟨_, published⟩ := (earlierPublished call).mp before
          exact published.call_lt
        · obtain ⟨_, waiting, _⟩ := (freshPublished call).mp now
          exact waiting.1.call_lt
      rw [ran, List.map_congr_left publicationBefore, List.map_append, List.map_append,
        earlierSent, freshSent]

/-- A new scheduler has nothing pending and has published nothing. -/
theorem exists_of_start {quietPeriod capacity : Nat} {sentinels : Sentinels}
    (started : Scheduler.start quietPeriod capacity sentinels = .ok start) :
    ∃ updates : Channel Update, updates.sent = [] ∧
      start = ⟨sentinels, quietPeriod, 0, 0, [], false, false, updates⟩ := by
  simp only [Scheduler.start, Channel.ofCapacity] at started
  split at started
  · rename_i updates opened
    split at opened
    · cases opened
      cases started
      exact ⟨_, rfl, rfl⟩
    · contradiction
  · contradiction

/-- A scheduler follows its operations through every run. -/
theorem follows_run {quietPeriod capacity : Nat} {sentinels : Sentinels}
    (started : Scheduler.start quietPeriod capacity sentinels = .ok start)
    (operations : List Operation) : Follows start operations := by
  induction operations using List.reverseRecOn with
  | nil =>
    obtain ⟨updates, empty, rfl⟩ := exists_of_start started
    have noCall : ∀ target call, ¬Schedules [] call target := by simp [Schedules]
    constructor
    · rfl
    · rfl
    · rfl
    · intro render
      simp [Scheduler.run, Waits, noCall]
    · exact List.Pairwise.nil
    · exact ⟨[], List.nodup_nil, by simp [Publishes, noCall], by simp [Scheduler.run, empty]⟩
  | append_singleton operations operation inductionHypothesis =>
    cases operation with
    | schedule target sources => exact inductionHypothesis.schedule
    | cancel target => exact inductionHypothesis.cancel
    | advance milliseconds => exact inductionHypothesis.advance

/-- A page has a pending render exactly if one of its calls waits. -/
theorem Follows.exists_pending_iff {target : String} (follows : Follows start operations) :
    (∃ render ∈ (start.run operations).pending, render.target = target) ↔
      ∃ call, Waits operations start.quietPeriod target call := by
  constructor
  · rintro ⟨render, member, rfl⟩
    obtain ⟨call, waiting, _⟩ := (follows.pending render).mp member
    exact ⟨call, waiting⟩
  · rintro ⟨call, waiting⟩
    obtain ⟨sources, found⟩ := waiting.1
    let render : PendingRender := ⟨target, (start.run (operations.take call)).lastGeneration + 1,
      clockAt operations call + start.quietPeriod, sources⟩
    exact ⟨render, (follows.pending render).mpr ⟨call, waiting, found, rfl, rfl⟩, rfl⟩

end Concat

/-- What a scheduler with a quiet period shows after some operations. -/
structure Debounced (quietPeriod : Nat) (start : Scheduler) (operations : List Operation) :
    Prop where
  /-- The updates are those of the calls that are published, one to a call. -/
  published : ∃ calls : List Nat, calls.Nodup ∧
    (∀ call, call ∈ calls ↔ ∃ target, Publishes operations quietPeriod target call) ∧
    (start.run operations).updates.sent.map some = calls.map (publication operations start)
  isPending : ∀ target, (start.run operations).isPending target = true ↔
    ∃ call, Waits operations quietPeriod target call
  /-- The pending count is the number of pages with a call that waits. -/
  pendingCount : ∃ pages : List String, pages.Nodup ∧
    (∀ target, target ∈ pages ↔ ∃ call, Waits operations quietPeriod target call) ∧
    (start.run operations).pendingCount = pages.length

/-- Every run of every scheduler is debounced. -/
theorem debounced_run {quietPeriod capacity : Nat} {sentinels : Sentinels} {start : Scheduler}
    (started : Scheduler.start quietPeriod capacity sentinels = .ok start)
    (operations : List Operation) : Debounced quietPeriod start operations := by
  have follows := follows_run started operations
  have sameQuiet : start.quietPeriod = quietPeriod := by
    obtain ⟨updates, _, rfl⟩ := exists_of_start started
    rfl
  subst sameQuiet
  constructor
  · exact follows.sent
  · intro target
    rw [← follows.exists_pending_iff]
    simp [Scheduler.isPending]
  · refine ⟨(start.run operations).pending.map PendingRender.target,
      List.pairwise_map.mpr follows.distinct, fun target => ?_, by simp [Scheduler.pendingCount]⟩
    rw [← follows.exists_pending_iff]
    simp

/-- An edit that supersedes a pending one, a cancelled page and a page that is edited again
after its render. -/
theorem debounced_run_of_edits :
    ∃ start, Scheduler.start 500 16 .default = .ok start ∧
      Debounced 500 start
        [.schedule "editor" ⟨"one", "", ""⟩, .advance 100, .schedule "editor" ⟨"two", "", ""⟩,
          .schedule "side" ⟨"three", "", ""⟩, .cancel "side", .advance 500,
          .schedule "editor" ⟨"four", "", ""⟩] :=
  ⟨_, rfl, debounced_run (show Scheduler.start 500 16 .default = _ from rfl) _⟩

end Playground.Preview
