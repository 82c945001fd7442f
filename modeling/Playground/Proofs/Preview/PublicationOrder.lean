import Playground.Proofs.Preview.NewestRender

/-!
# The order of publications

The renders of a page are claimed in the order of their generations: a claim takes the only pending
render of the page, and what is installed later is newer (`Claims`). Sending holds no slot, so a
task may be overtaken between its claim and its update. Updates keep the order of the claims if each
render is sent before the next one of its page is claimed (`Prompt`), as it is where a task runs
from its claim to its end without another in between.
-/

namespace Playground.Preview

/-- The render that a task has claimed. -/
def Event.claimed? : Event → Option PendingRender
  | .claimed render => some render
  | _ => none

/-- The render whose update a task has sent. -/
def Event.sent? : Event → Option PendingRender
  | .sent render => some render
  | _ => none

/-- The renders that were claimed, in order. -/
def claims (events : List Event) : List PendingRender :=
  events.filterMap Event.claimed?

/-- The renders that were sent, in order. -/
def sends (events : List Event) : List PendingRender :=
  events.filterMap Event.sent?

/-- The renders of each page are in the order of their generations. -/
def Ascending (renders : List PendingRender) : Prop :=
  renders.Pairwise fun one other => one.target = other.target → one.generation < other.generation

/-- Before a render is claimed, those of its page that were claimed have been sent. -/
def Prompt (events : List Event) : Prop :=
  ∀ {before other after}, events = before ++ .claimed other :: after →
    ∀ one ∈ claims before, one.target = other.target → one ∈ sends before

/-- What holds of claims and updates at every moment of a run. -/
structure Claims (events : List Event) (system : System) : Prop where
  sound : Sound events system
  /-- A render is claimed under the number of one that was installed. -/
  installed : ∀ render ∈ claims events, ∃ other, .installed other ∈ events ∧
    other.target = render.target ∧ other.generation = render.generation
  /-- What is pending for a page is newer than what was claimed. -/
  newer : ∀ render ∈ claims events, ∀ other ∈ system.scheduler.pending,
    other.target = render.target → render.generation < other.generation
  ascending : Ascending (claims events)
  /-- A claimed render is sent or has a task that will send it. -/
  balanced : ∀ render, system.tasks.count ⟨render, .claimed⟩ + (sends events).count render =
    (claims events).count render
  published : system.scheduler.updates.sent.map (fun update => (update.target, update.generation)) =
    (sends events).map fun render => (render.target, render.generation)

section Lists

variable {events : List Event} {event : Event} {render : PendingRender}

theorem claims_append (events more : List Event) :
    claims (events ++ more) = claims events ++ claims more :=
  List.filterMap_append

theorem sends_append (events more : List Event) :
    sends (events ++ more) = sends events ++ sends more :=
  List.filterMap_append

theorem claims_concat (unclaimed : event.claimed? = none) :
    claims (events ++ [event]) = claims events := by
  simp [claims, unclaimed]

theorem sends_concat (unsent : event.sent? = none) : sends (events ++ [event]) = sends events := by
  simp [sends, unsent]

@[simp] theorem Event.claimed?_eq_some_iff :
    event.claimed? = some render ↔ event = .claimed render := by
  cases event <;> simp [Event.claimed?]

theorem mem_claims_iff : render ∈ claims events ↔ .claimed render ∈ events := by
  simp [claims]

/-- No render is twice in an ascending list. -/
theorem Ascending.nodup {renders : List PendingRender} (ascending : Ascending renders) :
    renders.Nodup := by
  refine List.Pairwise.imp ?_ ascending
  rintro one _ below rfl
  exact Nat.lt_irrefl _ (below rfl)

theorem Ascending.concat {renders : List PendingRender} (ascending : Ascending renders)
    (below : ∀ other ∈ renders, other.target = render.target →
      other.generation < render.generation) : Ascending (renders ++ [render]) := by
  refine List.pairwise_append.mpr ⟨ascending, List.pairwise_singleton _ _, ?_⟩
  intro other member last found
  obtain rfl := List.mem_singleton.mp found
  exact below other member

/-- A beginning of a prompt run is prompt. -/
theorem Prompt.of_concat (prompt : Prompt (events ++ [event])) : Prompt events := by
  intro before other after shape
  exact @prompt before other (after ++ [event]) (by simp [shape])

end Lists

section Steps

variable {start system next : System} {events : List Event} {event : Event}
  {render : PendingRender}

/-- A step that neither claims nor sends keeps the invariant, if what is pending afterwards is
newer than what was claimed. -/
theorem Claims.still (known : Claims events system) (sound : Sound (events ++ [event]) next)
    (unclaimed : event.claimed? = none) (unsent : event.sent? = none)
    (newer : ∀ render ∈ claims events, ∀ other ∈ next.scheduler.pending,
      other.target = render.target → render.generation < other.generation)
    (tasks : ∀ render, next.tasks.count ⟨render, .claimed⟩ = system.tasks.count ⟨render, .claimed⟩)
    (updates : next.scheduler.updates = system.scheduler.updates) :
    Claims (events ++ [event]) next := by
  have sameClaims := @claims_concat events _ unclaimed
  have sameSends := @sends_concat events _ unsent
  constructor
  case sound => exact sound
  case installed =>
    rw [sameClaims]
    intro render claimed
    obtain ⟨other, installed, same⟩ := known.installed render claimed
    exact ⟨other, List.mem_append_left _ installed, same⟩
  case newer => exact sameClaims ▸ newer
  case ascending => exact sameClaims ▸ known.ascending
  case balanced =>
    rw [sameClaims, sameSends]
    exact fun render => tasks render ▸ known.balanced render
  case published =>
    rw [sameSends, updates]
    exact known.published

/-- The render that a call installs is newer than what was claimed for its page. -/
theorem Claims.install (known : Claims events system) {target : String}
    (holds : system.calls target = some (.spawned render)) :
    Claims (events ++ [.installed render])
      ({ system with scheduler := system.scheduler.install render }.withCall target none) := by
  refine known.still (known.sound.step (.install holds)) rfl rfl ?_ (fun _ => rfl) rfl
  intro claimed member other pending same
  rcases List.mem_append.mp pending with before | last
  · exact known.newer claimed member other (List.mem_filter.mp before).1 same
  · obtain rfl := List.mem_singleton.mp last
    obtain ⟨earlier, installed, sameTarget, generation⟩ := known.installed claimed member
    have own := known.sound.owned holds
    exact generation ▸ known.sound.newer holds rfl earlier installed
      (sameTarget.trans (same.symm.trans own))

/-- A claim takes the newest render of its page, and leaves none. -/
theorem Claims.claim (known : Claims events system) {claimed : Scheduler}
    (woken : ⟨render, .woken⟩ ∈ system.tasks) (free : system.calls render.target = none)
    (found : system.scheduler.claim? render = some claimed) :
    Claims (events ++ [.claimed render])
      ({ system with scheduler := claimed }.withTask ⟨render, .woken⟩ .claimed) := by
  have sound := known.sound.step (.claim woken free found)
  obtain ⟨⟨other, pending, target, generation⟩, rfl⟩ := claim?_eq_some_iff.mp found
  have moreClaims : claims (events ++ [.claimed render]) = claims events ++ [render] :=
    claims_append ..
  have sameSends : sends (events ++ [.claimed render]) = sends events := sends_concat rfl
  constructor
  case sound => exact sound
  case installed =>
    intro earlier member
    rw [moreClaims, List.mem_append, List.mem_singleton] at member
    rcases member with before | rfl
    · obtain ⟨first, installed, same⟩ := known.installed earlier before
      exact ⟨first, List.mem_append_left _ installed, same⟩
    · exact ⟨other, List.mem_append_left _ (known.sound.newest other pending).1, target, generation⟩
  case newer =>
    intro earlier member left leftPending same
    obtain ⟨before, apart⟩ := List.mem_filter.mp leftPending
    rw [moreClaims, List.mem_append, List.mem_singleton] at member
    rcases member with old | rfl
    · exact known.newer earlier old left before same
    · exact absurd same (by simpa using apart)
  case ascending =>
    rw [moreClaims]
    refine known.ascending.concat fun earlier member same => ?_
    exact generation ▸ known.newer earlier member other pending (target.trans same.symm)
  case balanced =>
    intro sent
    have balanced := known.balanced sent
    rw [moreClaims, sameSends, List.count_append, ← balanced]
    simp only [System.withTask, List.count_cons]
    rw [List.count_erase_of_ne (by simp)]
    simp
    omega
  case published =>
    rw [sameSends]
    exact known.published

/-- Sending hands over what its task was left with. -/
theorem Claims.send (known : Claims events system)
    (claimed : ⟨render, .claimed⟩ ∈ system.tasks) :
    Claims (events ++ [.sent render])
      ({ system with
          scheduler := system.scheduler.send (system.scheduler.update render) }.withoutTask
        ⟨render, .claimed⟩) := by
  have sameClaims : claims (events ++ [.sent render]) = claims events := claims_concat rfl
  have moreSends : sends (events ++ [.sent render]) = sends events ++ [render] :=
    sends_append ..
  constructor
  case sound => exact known.sound.step (.send claimed)
  case installed =>
    rw [sameClaims]
    intro earlier member
    obtain ⟨other, installed, same⟩ := known.installed earlier member
    exact ⟨other, List.mem_append_left _ installed, same⟩
  case newer =>
    rw [sameClaims]
    exact known.newer
  case ascending =>
    rw [sameClaims]
    exact known.ascending
  case balanced =>
    intro other
    have balanced := known.balanced other
    have left := List.count_pos_iff.mpr claimed
    rw [sameClaims, moreSends, List.count_append, ← balanced]
    simp only [System.withoutTask, List.count_erase, List.count_singleton]
    by_cases same : render = other
    · subst same
      simp
      omega
    · simp [same]
  case published =>
    rw [moreSends, List.map_append, ← known.published]
    exact List.map_append

/-- Every step keeps the invariant. -/
theorem Claims.step (known : Claims events system) (step : Step system event next) :
    Claims (events ++ [event]) next := by
  have sound := known.sound.step step
  cases step with
  | install holds => exact known.install holds
  | claim woken free found => exact known.claim woken free found
  | send claimed => exact known.send claimed
  | cancel =>
    refine known.still sound rfl rfl ?_ (fun _ => rfl) rfl
    exact fun earlier member other pending =>
      known.newer earlier member other (List.mem_filter.mp pending).1
  | enter | number | pass => exact known.still sound rfl rfl known.newer (fun _ => rfl) rfl
  | spawn =>
    refine known.still sound rfl rfl known.newer (fun _ => ?_) rfl
    exact List.count_cons_of_ne (by simp)
  | wake =>
    refine known.still sound rfl rfl known.newer (fun _ => ?_) rfl
    exact (List.count_cons_of_ne (by simp)).trans (List.count_erase_of_ne (by simp))
  | refuse | stop =>
    refine known.still sound rfl rfl known.newer (fun _ => ?_) rfl
    exact List.count_erase_of_ne (by simp)

/-- Every interleaving keeps the invariant. -/
theorem Claims.runs (known : Claims [] start) (runs : Runs start events system) :
    Claims events system := by
  induction runs with
  | start => exact known
  | step _ taken inductionHypothesis => exact inductionHypothesis.step taken

/-- Nothing is claimed from a scheduler that nobody has used. -/
theorem claims_quiet {scheduler : Scheduler} (unused : scheduler.lastGeneration = 0)
    (empty : scheduler.pending = []) (unsent : scheduler.updates.sent = []) :
    Claims [] (.quiet scheduler) where
  sound := sound_quiet unused empty
  installed := by simp [claims]
  newer := by simp [claims]
  ascending := List.Pairwise.nil
  balanced := by simp [claims, sends, System.quiet]
  published := by simp [sends, System.quiet, unsent]

/-- A render that was claimed and not sent is the last one claimed for its page. -/
theorem Claims.generation_lt (known : Claims events system) (prompt : Prompt events)
    (claimed : ⟨render, .claimed⟩ ∈ system.tasks) {earlier : PendingRender}
    (sent : earlier ∈ sends events) (same : earlier.target = render.target) :
    earlier.generation < render.generation := by
  have once := List.nodup_iff_count_le_one.mp known.ascending.nodup render
  have balanced := known.balanced render
  have left := List.count_pos_iff.mpr claimed
  have unsent : render ∉ sends events := List.count_eq_zero.mp (by omega)
  have renderClaimed : render ∈ claims events := List.count_pos_iff.mp (by omega)
  have earlierClaimed : earlier ∈ claims events := by
    have balancedEarlier := known.balanced earlier
    have sentOnce := List.count_pos_iff.mpr sent
    exact List.count_pos_iff.mp (by omega)
  obtain ⟨before, after, rfl⟩ := List.append_of_mem (mem_claims_iff.mp renderClaimed)
  rcases List.mem_append.mp (mem_claims_iff.mp earlierClaimed) with old | rest
  · have ascending := known.ascending
    rw [claims_append] at ascending
    exact (List.pairwise_append.mp ascending).2.2 earlier (mem_claims_iff.mpr old) render
      (mem_claims_iff.mpr List.mem_cons_self) same
  · rcases List.mem_cons.mp rest with itself | later
    · cases itself
      exact absurd sent unsent
    · -- The earlier update would be of a render that was claimed while this one was not sent.
      obtain ⟨between, tail, rfl⟩ := List.append_of_mem later
      have shape : before ++ .claimed render :: (between ++ .claimed earlier :: tail) =
          (before ++ .claimed render :: between) ++ .claimed earlier :: tail := by simp
      have wasSent := prompt shape render (mem_claims_iff.mpr (by simp)) same.symm
      refine absurd ?_ unsent
      rw [shape, sends_append]
      exact List.mem_append_left _ wasSent

/-- In a prompt run the renders of a page are sent in the order of their generations. -/
theorem Claims.sends_ascending (known : Claims [] start) (runs : Runs start events system)
    (prompt : Prompt events) : Ascending (sends events) := by
  induction runs with
  | start => exact List.Pairwise.nil
  | @step events system event next prior taken inductionHypothesis =>
    have earlier := inductionHypothesis prompt.of_concat
    cases taken with
    | @send render claimed =>
      rw [sends_append]
      exact earlier.concat fun other sent same =>
        (known.runs prior).generation_lt prompt.of_concat claimed sent same
    | _ =>
      rw [sends_concat rfl]
      exact earlier

end Steps

/-- In a prompt run a subscriber never receives an update of a page after a newer one. -/
theorem published_ascending_of_prompt {quietPeriod capacity : Nat} {sentinels : Sentinels}
    {scheduler : Scheduler} {events : List Event} {system : System}
    (started : Scheduler.start quietPeriod capacity sentinels = .ok scheduler)
    (runs : Runs (.quiet scheduler) events system) (prompt : Prompt events) :
    system.scheduler.updates.sent.Pairwise fun one other =>
      one.target = other.target → one.generation < other.generation := by
  obtain ⟨updates, unsent, rfl⟩ := exists_of_start started
  have initial : Claims [] (.quiet ⟨sentinels, quietPeriod, 0, 0, [], false, false, updates⟩) :=
    claims_quiet rfl rfl unsent
  have ascending := initial.sends_ascending runs prompt
  have published := (initial.runs runs).published
  have numbered : ((sends events).map fun render => (render.target, render.generation)).Pairwise
      fun one other => one.1 = other.1 → one.2 < other.2 := List.pairwise_map.mpr ascending
  rw [← published] at numbered
  exact List.pairwise_map.mp numbered

/-- Without that, a task that is held up between its claim and its update is overtaken by the task
of a later edit. -/
theorem exists_overtaken_update : ∃ events system, Scheduler.start 500 16 .default = .ok .unused ∧
    Runs (.quiet .unused) events system ∧
    system.scheduler.updates.sent.map (fun update => (update.target, update.generation)) =
      [("page", 2), ("page", 1)] := by
  have first := @Runs.schedule _ _ _ (@Runs.start (.quiet .unused)) "page" rfl ⟨"a", "", ""⟩
  have woken := (first.step (.pass 500)).step (.wake (.head _) (by decide))
  have claimed := woken.step (.claim (.head _) rfl rfl)
  have second := @Runs.schedule _ _ _ claimed "page" rfl ⟨"b", "", ""⟩
  have wokenLater := (second.step (.pass 500)).step (.wake (.head _) (by decide))
  have claimedLater := wokenLater.step (.claim (.head _) rfl rfl)
  have overtaking := claimedLater.step (.send (.head _))
  have overtaken := overtaking.step (.send (.head _))
  exact ⟨_, _, rfl, overtaken, rfl⟩

end Playground.Preview
