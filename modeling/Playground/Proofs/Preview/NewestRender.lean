import Mathlib.Data.List.Nodup
import Mathlib.Data.List.Pairwise
import Playground.Proofs.Preview.Debounce
import Playground.Proofs.Preview.Interleaving

/-!
# Concurrent edits keep the newest render

Whatever the interleaving, the generations that calls return are distinct, a page has one pending
render at most, and that is the newest one installed for it; a render that was superseded or
cancelled is not claimed any more. `Sound` is the invariant: a call has drawn a greater generation
than any that is installed for its page, because it holds the slot since before it drew it.
-/

namespace Playground.Preview

/-- The render that a call has installed. -/
def Event.installed? : Event → Option PendingRender
  | .installed render => some render
  | _ => none

/-- A scheduler with the default settings that nobody has used. -/
def Scheduler.unused : Scheduler :=
  ⟨.default, 500, 0, 0, [], false, false, ⟨16, [], false⟩⟩

/-- What happened gives up the pending render of a page. -/
def Event.Disturbs (target : String) : Event → Prop
  | .installed render => render.target = target
  | .cancelled other => other = target
  | _ => False

/-- Whether a generation was drawn. -/
def Event.isNumbered : Event → Bool
  | .numbered .. => true
  | _ => false

/-- The generations that calls have returned. -/
def returned (events : List Event) : List Nat :=
  (events.filterMap Event.installed?).map PendingRender.generation

/-- A render of a generation was installed, and another was installed for its page later or the
page was cancelled. -/
def GivenUp (events : List Event) (generation : Nat) : Prop :=
  ∃ before event after render, events = before ++ event :: after ∧ .installed render ∈ before ∧
    render.generation = generation ∧ event.Disturbs render.target

/-- What concurrent edits have left after some events. -/
structure KeepsNewest (events : List Event) (system : System) : Prop where
  distinct : (returned events).Nodup
  /-- A page has one pending render at most. -/
  single : system.scheduler.pending.Pairwise fun one other => one.target ≠ other.target
  /-- A pending render was installed, and no newer one was installed for its page. -/
  newest : ∀ render ∈ system.scheduler.pending, .installed render ∈ events ∧
    ∀ other, .installed other ∈ events → other.target = render.target →
      other.generation ≤ render.generation
  /-- A render whose generation was given up is not claimed. -/
  settled : ∀ {before render after}, events = before ++ .claimed render :: after →
    ¬GivenUp before render.generation
  /-- A counter that holds the number of calls holds every generation. -/
  counted : ∀ generation ∈ returned events, generation ≤ events.countP Event.isNumbered

/-! ## The invariant -/

/-- What holds at every moment of a run. -/
structure Sound (events : List Event) (system : System) : Prop where
  counted : system.scheduler.lastGeneration = events.countP Event.isNumbered
  distinct : (returned events).Nodup
  bounded : ∀ generation ∈ returned events, generation ≤ system.scheduler.lastGeneration
  single : system.scheduler.pending.Pairwise fun one other => one.target ≠ other.target
  newest : ∀ render ∈ system.scheduler.pending, .installed render ∈ events ∧
    ∀ other, .installed other ∈ events → other.target = render.target →
      other.generation ≤ render.generation
  /-- A generation that was given up is not pending. -/
  gone : ∀ {generation}, GivenUp events generation → ∀ render ∈ system.scheduler.pending,
    render.generation ≠ generation
  /-- The generation that a call has drawn is not returned. -/
  drawn : ∀ {target call generation}, system.calls target = some call →
    call.generation? = some generation → generation ≤ system.scheduler.lastGeneration ∧
      generation ∉ returned events
  /-- The generation of a call is newer than what is installed for its page. -/
  newer : ∀ {target call generation}, system.calls target = some call →
    call.generation? = some generation → ∀ other, .installed other ∈ events →
      other.target = target → other.generation < generation
  /-- No two calls have drawn the same generation. -/
  apart : ∀ {one other call second generation}, system.calls one = some call →
    system.calls other = some second → call.generation? = some generation →
      second.generation? = some generation → one = other
  /-- A call spawns the task of its own page. -/
  owned : ∀ {target render}, system.calls target = some (.spawned render) →
    render.target = target

section Events

variable {events : List Event} {event : Event} {render : PendingRender}

@[simp] theorem Event.installed?_eq_some_iff :
    event.installed? = some render ↔ event = .installed render := by
  cases event <;> simp [Event.installed?]

theorem mem_installed_iff :
    render ∈ events.filterMap Event.installed? ↔ .installed render ∈ events := by
  simp

theorem generation_mem_returned (installed : .installed render ∈ events) :
    render.generation ∈ returned events :=
  List.mem_map_of_mem (mem_installed_iff.mpr installed)

/-- Generations tell the installed renders apart. -/
theorem eq_of_generation_eq {other : PendingRender} (distinct : (returned events).Nodup)
    (one : .installed render ∈ events) (another : .installed other ∈ events)
    (same : render.generation = other.generation) : render = other :=
  List.inj_on_of_nodup_map distinct (mem_installed_iff.mpr one) (mem_installed_iff.mpr another) same

/-- What one more event gives up. -/
theorem givenUp_concat_iff {generation : Nat} :
    GivenUp (events ++ [event]) generation ↔
      GivenUp events generation ∨ ∃ render, .installed render ∈ events ∧
        render.generation = generation ∧ event.Disturbs render.target := by
  constructor
  · rintro ⟨before, other, after, render, shape, given⟩
    rcases List.eq_nil_or_concat after with rfl | ⟨after, last, rfl⟩
    · obtain ⟨rfl, same⟩ := List.append_inj' shape rfl
      obtain rfl := List.singleton_inj.mp same
      exact .inr ⟨render, given⟩
    · rw [List.concat_eq_append, ← List.cons_append, ← List.append_assoc] at shape
      obtain ⟨rfl, -⟩ := List.append_inj' shape rfl
      exact .inl ⟨before, other, after, render, rfl, given⟩
  · rintro (⟨before, other, after, render, rfl, given⟩ | ⟨render, given⟩)
    · exact ⟨before, other, after ++ [event], render, by simp, given⟩
    · exact ⟨events, event, [], render, rfl, given⟩

theorem returned_concat (silent : event.installed? = none) :
    returned (events ++ [event]) = returned events := by
  simp [returned, silent]

theorem installed_mem_concat_iff (silent : event.installed? = none) :
    .installed render ∈ events ++ [event] ↔ .installed render ∈ events := by
  rw [List.mem_append, or_iff_left]
  intro last
  rw [← List.mem_singleton.mp last] at silent
  contradiction

end Events

section Steps

variable {start system next : System} {events : List Event} {event : Event}

/-- A claimed render was pending, and no render of its page is pending any more. -/
theorem claim?_eq_some_iff {scheduler claimed : Scheduler} {render : PendingRender} :
    scheduler.claim? render = some claimed ↔
      (∃ other ∈ scheduler.pending, other.target = render.target ∧
        other.generation = render.generation) ∧
      claimed = { scheduler with pending := scheduler.others render.target } := by
  unfold Scheduler.claim?
  rw [Option.ite_none_right_eq_some, Option.some.injEq, List.any_eq_true]
  refine and_congr ?_ eq_comm
  simp only [Bool.and_eq_true, beq_iff_eq]

/-- A step that installs nothing and draws no generation keeps the invariant, if what it disturbs
is not pending afterwards. -/
theorem Sound.still (sound : Sound events system) (silent : event.installed? = none)
    (unnumbered : event.isNumbered = false)
    (same : next.scheduler.lastGeneration = system.scheduler.lastGeneration)
    (fewer : next.scheduler.pending.Sublist system.scheduler.pending)
    (cleared : ∀ render ∈ next.scheduler.pending, ¬event.Disturbs render.target)
    (drawn : ∀ {target call generation}, next.calls target = some call →
      call.generation? = some generation →
        ∃ earlier, system.calls target = some earlier ∧ earlier.generation? = some generation)
    (owned : ∀ {target render}, next.calls target = some (.spawned render) →
      render.target = target) : Sound (events ++ [event]) next where
  counted := by
    rw [same, sound.counted, List.countP_append, List.countP_singleton, unnumbered]
    rfl
  distinct := by
    rw [returned_concat silent]
    exact sound.distinct
  bounded := by
    rw [returned_concat silent, same]
    exact sound.bounded
  single := sound.single.sublist fewer
  newest render member := by
    simp only [installed_mem_concat_iff silent]
    exact sound.newest render (fewer.subset member)
  gone {generation} given render member := by
    have before := fewer.subset member
    rcases givenUp_concat_iff.mp given with earlier | ⟨other, installed, rfl, disturbs⟩
    · exact sound.gone earlier render before
    · intro same
      obtain rfl := eq_of_generation_eq sound.distinct (sound.newest render before).1 installed same
      exact cleared render member disturbs
  drawn holds found := by
    obtain ⟨earlier, held, drew⟩ := drawn holds found
    rw [returned_concat silent, same]
    exact sound.drawn held drew
  newer holds found other installed := by
    obtain ⟨earlier, held, drew⟩ := drawn holds found
    exact sound.newer held drew other ((installed_mem_concat_iff silent).mp installed)
  apart one other foundOne foundOther := by
    obtain ⟨_, heldOne, drewOne⟩ := drawn one foundOne
    obtain ⟨_, heldOther, drewOther⟩ := drawn other foundOther
    exact sound.apart heldOne heldOther drewOne drewOther
  owned := owned

/-- Where a slot has changed, a call is the new one or another page has it. -/
theorem withCall_eq_some_iff {target other : String} {call : Option Call} {found : Call} :
    (system.withCall target call).calls other = some found ↔
      (other = target ∧ call = some found) ∨ (other ≠ target ∧ system.calls other = some found) := by
  simp only [System.withCall, Function.update_apply]
  split <;> simp [*]

/-- The counter goes on, and the generation that is drawn is new. -/
theorem Sound.number (sound : Sound events system) {target : String} {sources : PageSources} :
    Sound (events ++ [.numbered target system.scheduler.number.1])
      ({ system with scheduler := system.scheduler.number.2 }.withCall target
        (some (.numbered sources system.scheduler.number.1))) := by
  have silent : (Event.numbered target system.scheduler.number.1).installed? = none := rfl
  have calm : ∀ page, ¬(Event.numbered target system.scheduler.number.1).Disturbs page :=
    fun _ => id
  have advanced : system.scheduler.number.2.lastGeneration =
      system.scheduler.lastGeneration + 1 := rfl
  have ofOther : ∀ {other call generation}, other ≠ target → system.calls other = some call →
      call.generation? = some generation → generation ≤ system.scheduler.lastGeneration :=
    fun _ holds found => (sound.drawn holds found).1
  constructor
  case counted =>
    rw [List.countP_append, ← sound.counted]
    rfl
  case distinct =>
    rw [returned_concat silent]
    exact sound.distinct
  case bounded =>
    rw [returned_concat silent]
    exact fun generation member => Nat.le_succ_of_le (sound.bounded generation member)
  case single => exact sound.single
  case newest =>
    intro render member
    simp only [installed_mem_concat_iff silent]
    exact sound.newest render member
  case gone =>
    intro generation given
    refine sound.gone ((givenUp_concat_iff.mp given).resolve_right ?_)
    rintro ⟨render, _, _, disturbs⟩
    exact calm _ disturbs
  case drawn =>
    intro other call generation holds found
    rw [returned_concat silent]
    rcases withCall_eq_some_iff.mp holds with ⟨-, same⟩ | ⟨-, held⟩
    · cases same
      cases found
      exact ⟨Nat.le_refl _, fun member => Nat.not_succ_le_self _ (sound.bounded _ member)⟩
    · exact (sound.drawn held found).imp_left Nat.le_succ_of_le
  case newer =>
    intro other call generation holds found render installed sameTarget
    rw [installed_mem_concat_iff silent] at installed
    rcases withCall_eq_some_iff.mp holds with ⟨-, same⟩ | ⟨-, held⟩
    · cases same
      cases found
      exact Nat.lt_succ_of_le (sound.bounded _ (generation_mem_returned installed))
    · exact sound.newer held found render installed sameTarget
  case apart =>
    intro one other call second generation holdsOne holdsOther foundOne foundOther
    rcases withCall_eq_some_iff.mp holdsOne with ⟨rfl, sameOne⟩ | ⟨apartOne, heldOne⟩ <;>
      rcases withCall_eq_some_iff.mp holdsOther with ⟨rfl, sameOther⟩ | ⟨apartOther, heldOther⟩
    · rfl
    · cases sameOne
      cases foundOne
      exact absurd (sound.drawn heldOther foundOther).1 (Nat.not_succ_le_self _)
    · cases sameOther
      cases foundOther
      exact absurd (sound.drawn heldOne foundOne).1 (Nat.not_succ_le_self _)
    · exact sound.apart heldOne heldOther foundOne foundOther
  case owned =>
    intro other render holds
    rcases withCall_eq_some_iff.mp holds with ⟨-, same⟩ | ⟨-, held⟩
    · cases same
    · exact sound.owned held

/-- The render that takes the place of a pending one is newer. -/
theorem Sound.install (sound : Sound events system) {target : String} {render : PendingRender}
    (holds : system.calls target = some (.spawned render)) :
    Sound (events ++ [.installed render])
      ({ system with scheduler := system.scheduler.install render }.withCall target none) := by
  have own : render.target = target := sound.owned holds
  obtain ⟨drawn, fresh⟩ := sound.drawn holds rfl
  have newer := sound.newer holds rfl
  have returns : returned (events ++ [.installed render]) = returned events ++ [render.generation] := by
    simp [returned, Event.installed?]
  have pending : ∀ {other}, other ∈ (system.scheduler.install render).pending ↔
      (other ∈ system.scheduler.pending ∧ other.target ≠ render.target) ∨ other = render := by
    intro other
    simp [Scheduler.install, Scheduler.abandon, Scheduler.others]
  have installed : ∀ {other}, .installed other ∈ events ++ [.installed render] ↔
      .installed other ∈ events ∨ other = render := by
    intro other
    simp
  have others : ∀ {page call}, (system.withCall target none).calls page = some call →
      page ≠ target ∧ system.calls page = some call := fun held =>
    (withCall_eq_some_iff.mp held).resolve_left fun same => by cases same.2
  constructor
  case counted =>
    rw [List.countP_append, ← sound.counted]
    rfl
  case distinct =>
    rw [returns]
    exact List.nodup_append.mpr ⟨sound.distinct, List.nodup_singleton _, fun one before other last =>
      fun same => fresh (List.mem_singleton.mp last ▸ same ▸ before)⟩
  case bounded =>
    intro generation member
    rw [returns, List.mem_append, List.mem_singleton] at member
    rcases member with before | rfl
    · exact sound.bounded generation before
    · exact drawn
  case single =>
    refine List.pairwise_append.mpr ⟨sound.single.sublist List.filter_sublist,
      List.pairwise_singleton _ _, fun other member last => ?_⟩
    intro isNew
    rw [List.mem_singleton.mp isNew]
    simpa using (List.mem_filter.mp member).2
  case newest =>
    intro other member
    simp only [installed]
    rcases pending.mp member with ⟨before, apart⟩ | rfl
    · obtain ⟨known, newest⟩ := sound.newest other before
      refine ⟨.inl known, fun third found same => ?_⟩
      rcases found with old | rfl
      · exact newest third old same
      · exact absurd same.symm apart
    · refine ⟨.inr rfl, fun third found same => ?_⟩
      rcases found with old | rfl
      · exact Nat.le_of_lt (newer third old (same.trans own))
      · exact Nat.le_refl _
  case gone =>
    intro generation given other member
    rcases givenUp_concat_iff.mp given with earlier | ⟨superseded, old, rfl, disturbs⟩ <;>
      rcases pending.mp member with ⟨before, apart⟩ | rfl
    · exact sound.gone earlier other before
    · obtain ⟨_, _, _, superseded, rfl, old, rfl, _⟩ := earlier
      intro same
      exact fresh (same ▸ generation_mem_returned (List.mem_append_left _ old))
    · intro same
      obtain rfl := eq_of_generation_eq sound.distinct (sound.newest other before).1 old same
      exact apart disturbs.symm
    · intro same
      exact fresh (same ▸ generation_mem_returned old)
  case drawn =>
    intro page call generation held found
    obtain ⟨apart, before⟩ := others held
    obtain ⟨bounded, unreturned⟩ := sound.drawn before found
    rw [returns, List.mem_append, List.mem_singleton]
    refine ⟨bounded, ?_⟩
    rintro (again | same)
    · exact unreturned again
    · exact apart (sound.apart before holds found (congrArg some same.symm))
  case newer =>
    intro page call generation held found other member same
    obtain ⟨apart, before⟩ := others held
    rcases installed.mp member with old | rfl
    · exact sound.newer before found other old same
    · exact absurd (same.symm.trans own) apart
  case apart =>
    intro one other call second generation holdsOne holdsOther foundOne foundOther
    exact sound.apart (others holdsOne).2 (others holdsOther).2 foundOne foundOther
  case owned => exact fun held => sound.owned (others held).2

/-- A step that changes no slot and neither draws nor installs keeps the invariant. -/
theorem Sound.aside (sound : Sound events system) (silent : event.installed? = none)
    (unnumbered : event.isNumbered = false)
    (same : next.scheduler.lastGeneration = system.scheduler.lastGeneration)
    (fewer : next.scheduler.pending.Sublist system.scheduler.pending)
    (cleared : ∀ render ∈ next.scheduler.pending, ¬event.Disturbs render.target)
    (untouched : next.calls = system.calls) : Sound (events ++ [event]) next := by
  refine sound.still silent unnumbered same fewer cleared ?_ ?_
  · rw [untouched]
    exact fun holds found => ⟨_, holds, found⟩
  · rw [untouched]
    exact sound.owned

/-- A call that only takes the slot has drawn nothing. -/
theorem Sound.enter (sound : Sound events system) {target : String} {sources : PageSources} :
    Sound (events ++ [.entered target]) (system.withCall target (some (.entered sources))) := by
  refine sound.still rfl rfl rfl (.refl _) (fun _ _ => id) ?_ ?_
  · intro other call generation holds found
    rcases withCall_eq_some_iff.mp holds with ⟨-, same⟩ | ⟨-, held⟩
    · cases same
      contradiction
    · exact ⟨call, held, found⟩
  · intro other render holds
    rcases withCall_eq_some_iff.mp holds with ⟨-, same⟩ | ⟨-, held⟩
    · cases same
    · exact sound.owned held

/-- A call that spawns its task keeps its generation. -/
theorem Sound.spawn (sound : Sound events system) {target : String} {sources : PageSources}
    {generation : Nat} (holds : system.calls target = some (.numbered sources generation))
    (tasks : List Task) :
    Sound (events ++ [.spawned (system.renderOf target sources generation)])
      ({ system with tasks := tasks }.withCall target
        (some (.spawned (system.renderOf target sources generation)))) := by
  refine sound.still rfl rfl rfl (.refl _) (fun _ _ => id) ?_ ?_
  · intro other call drawn found same
    rcases withCall_eq_some_iff.mp found with ⟨rfl, spawned⟩ | ⟨-, held⟩
    · cases spawned
      exact ⟨_, holds, same⟩
    · exact ⟨call, held, same⟩
  · intro other render found
    rcases withCall_eq_some_iff.mp found with ⟨rfl, spawned⟩ | ⟨-, held⟩
    · cases spawned
      rfl
    · exact sound.owned held

/-- Every step keeps the invariant. -/
theorem Sound.step (sound : Sound events system) (step : Step system event next) :
    Sound (events ++ [event]) next := by
  cases step with
  | enter => exact sound.enter
  | number => exact sound.number
  | spawn holds => exact sound.spawn holds _
  | install holds => exact sound.install holds
  | @cancel target free =>
    refine sound.aside rfl rfl rfl List.filter_sublist (fun render member => ?_) rfl
    have apart := (List.mem_filter.mp member).2
    intro same
    exact absurd same.symm (by simpa using apart)
  | claim woken free found =>
    obtain ⟨_, rfl⟩ := claim?_eq_some_iff.mp found
    exact sound.aside rfl rfl rfl List.filter_sublist (fun _ _ => id) rfl
  | wake | refuse | send | stop | pass =>
    exact sound.aside rfl rfl rfl (.refl _) (fun _ _ => id) rfl

/-- A scheduler that nobody has used is sound. -/
theorem sound_quiet {scheduler : Scheduler} (unused : scheduler.lastGeneration = 0)
    (empty : scheduler.pending = []) : Sound [] (.quiet scheduler) where
  counted := unused
  distinct := List.nodup_nil
  bounded := nofun
  single := by
    simp [System.quiet, empty]
  newest := by
    simp [System.quiet, empty]
  gone := by
    simp [System.quiet, empty]
  drawn := nofun
  newer := nofun
  apart := nofun
  owned := nofun

/-- Every interleaving keeps the invariant. -/
theorem Sound.runs (sound : Sound [] start) (runs : Runs start events system) :
    Sound events system := by
  induction runs with
  | start => exact sound
  | step _ taken inductionHypothesis => exact inductionHypothesis.step taken

/-- What happened before some event happened in a run of its own. -/
theorem Runs.before {before after : List Event} (runs : Runs start (before ++ event :: after) system) :
    ∃ earlier later, Runs start before earlier ∧ Step earlier event later := by
  generalize shape : before ++ event :: after = events at runs
  induction runs generalizing after with
  | start => simp at shape
  | @step events current last next prior taken inductionHypothesis =>
    rcases List.eq_nil_or_concat after with rfl | ⟨after, final, rfl⟩
    · obtain ⟨rfl, same⟩ := List.append_inj' shape rfl
      obtain rfl := List.singleton_inj.mp same
      exact ⟨_, _, prior, taken⟩
    · rw [List.concat_eq_append, ← List.cons_append, ← List.append_assoc] at shape
      exact inductionHypothesis (List.append_inj' shape rfl).1

end Steps

/-- Concurrent edits keep the newest render, in every interleaving. -/
theorem keepsNewest_of_runs {quietPeriod capacity : Nat} {sentinels : Sentinels}
    {scheduler : Scheduler} {events : List Event} {system : System}
    (started : Scheduler.start quietPeriod capacity sentinels = .ok scheduler)
    (runs : Runs (.quiet scheduler) events system) : KeepsNewest events system := by
  obtain ⟨updates, _, rfl⟩ := exists_of_start started
  have initial : Sound [] (.quiet ⟨sentinels, quietPeriod, 0, 0, [], false, false, updates⟩) :=
    sound_quiet rfl rfl
  have sound := initial.runs runs
  constructor
  case distinct => exact sound.distinct
  case single => exact sound.single
  case newest => exact sound.newest
  case settled =>
    intro before render after shape given
    obtain ⟨earlier, _, prior, claimed⟩ := (shape ▸ runs).before
    cases claimed with
    | claim _ _ found =>
      obtain ⟨⟨other, pending, _, same⟩, _⟩ := claim?_eq_some_iff.mp found
      exact (initial.runs prior).gone given other pending same
  case counted =>
    rw [← sound.counted]
    exact sound.bounded

/-- Calls for two pages overlap, and a call supersedes a render whose task is awake. -/
theorem keepsNewest_of_overlap :
    ∃ events system, Scheduler.start 500 16 .default = .ok .unused ∧
      Runs (.quiet .unused) events system ∧ returned events = [1, 2, 3] ∧ GivenUp events 2 ∧
      KeepsNewest events system := by
  have started : Scheduler.start 500 16 .default = .ok .unused := rfl
  have entered := ((@Runs.start (.quiet .unused)).step (@Step.enter _ "one" ⟨"a", "", ""⟩ rfl)).step
    (@Step.enter _ "two" ⟨"b", "", ""⟩ rfl)
  have numbered := (entered.step (@Step.number _ "two" _ rfl)).step (@Step.number _ "one" _ rfl)
  have spawned := (numbered.step (@Step.spawn _ "one" _ _ rfl)).step (@Step.spawn _ "two" _ _ rfl)
  have installed := (spawned.step (@Step.install _ "two" _ rfl)).step (@Step.install _ "one" _ rfl)
  have woken := (installed.step (.pass 500)).step (.wake (.tail _ (.head _)) (by decide))
  have superseded := @Runs.schedule _ _ _ woken "one" rfl ⟨"c", "", ""⟩
  have refused := superseded.step (.refuse (.tail _ (.head _)) rfl (by decide))
  refine ⟨_, _, started, refused, by decide, ?_, keepsNewest_of_runs started refused⟩
  refine givenUp_concat_iff.mpr (.inl (givenUp_concat_iff.mpr (.inr ?_)))
  exact ⟨⟨"one", 2, 500, ⟨"a", "", ""⟩⟩, by decide, rfl, rfl⟩

end Playground.Preview
