import Playground.Command.Watch
import Playground.Proofs.Command.Disk
import Playground.Proofs.Preview.Debounce

/-!
# A watch converges to its files

Files change, ticks look for changes, and time passes, in any order. What a watch has printed, the
updates that it has not yet taken and the render that is pending are together its `promised` pages:
they follow the loads, and end with the page of the last load (`Keeps`). A quiet period after the
last load nothing is left but what is printed, so the last page printed is the page of the files.
-/

namespace Playground.Command

/-- What happens while a watch goes on. -/
inductive WatchEvent where
  | alter (change : FileChange)
  | tick
  /-- Time passes, and the watch does not yet take what is published. -/
  | stall (milliseconds : Nat)
  /-- Time passes, and the watch takes everything that was published. -/
  | advance (milliseconds : Nat)

namespace WatchEvent

/-- The change that an event makes. -/
def change? : WatchEvent → Option FileChange
  | .alter change => some change
  | .tick | .stall _ | .advance _ => none

/-- How far an event moves the clock. -/
def elapsed : WatchEvent → Nat
  | .stall milliseconds | .advance milliseconds => milliseconds
  | .alter _ | .tick => 0

/-- An event leaves the files of a page alone. -/
def Spares (files : PageFiles) (event : WatchEvent) : Prop :=
  ∀ change ∈ event.change?, change.path ∉ files.paths

end WatchEvent

/-- The changes among some events. -/
def changesOf (events : List WatchEvent) : List FileChange :=
  events.filterMap WatchEvent.change?

/-- How far some events move the clock. -/
def elapsedOver (events : List WatchEvent) : Nat :=
  events.foldr (fun event following => event.elapsed + following) 0

/-- Events last a period: once it has passed, the watch takes what was published. -/
def Outlast (period : Nat) (events : List WatchEvent) : Prop :=
  ∃ before milliseconds rest, events = before ++ .advance milliseconds :: rest ∧
    period ≤ elapsedOver before + milliseconds

/-- The page that buffers are printed as. -/
def pageFor (settings : Settings) (frame : Option Viewport) (buffers : Buffers) : String :=
  printedPage frame (settings.markup.assemble buffers.page)

/-- A watch that goes on: the files, the watch, what was loaded and what was printed so far. -/
structure WatchRun where
  disk : Disk
  watch : Watch
  loaded : List Buffers
  printed : List String

namespace WatchRun

/-- Starts a watch on the files of a disk. -/
def start (engine : Engine) (disk : Disk) (files : PageFiles) (frame : Option Viewport) :
    Except ErrorReport WatchRun :=
  match disk.view.loadPage files, Watch.start engine disk.view files frame with
  | .ok buffers, .ok (page, watch) => .ok ⟨disk, watch, [buffers], [page]⟩
  | .error error, _ | _, .error error => .error error

variable (run : WatchRun)

/-- A tick would see other stamps than the last tick. -/
def SeesChange : Prop :=
  run.disk.view.stamps run.watch.files ≠ run.watch.stamps

instance : Decidable run.SeesChange :=
  inferInstanceAs (Decidable (_ ≠ _))

/-- What a tick would load. -/
def toLoad : List Buffers :=
  if run.SeesChange then (run.disk.view.loadPage run.watch.files).toOption.toList else []

/-- A run after an event. -/
def perform : WatchEvent → WatchRun
  | .alter change => { run with disk := run.disk.change change }
  | .tick =>
    { run with watch := run.watch.tick run.disk.view, loaded := run.loaded ++ run.toLoad }
  | .stall milliseconds =>
    { run with watch := { run.watch with engine := run.watch.engine.advance milliseconds } }
  | .advance milliseconds =>
    { run with
      watch := (run.watch.advance milliseconds).2
      printed := run.printed ++ (run.watch.advance milliseconds).1 }

/-- A run after some events. -/
def after (events : List WatchEvent) : WatchRun :=
  events.foldl perform run

/-- No tick among some events sees changed stamps. -/
def SeesNothing (run : WatchRun) : List WatchEvent → Prop
  | [] => True
  | event :: rest => (event = .tick → ¬run.SeesChange) ∧ SeesNothing (run.perform event) rest

end WatchRun

/-- What a started watch prints, in every history. -/
structure Converges (settings : Settings) (files : PageFiles) (frame : Option Viewport)
    (initial : WatchRun) : Prop where
  /-- If a tick that saw changed stamps could read every file and the quiet period has passed since
  then without a change of the files, the last page is that of the files as they are. -/
  settled : ∀ before after loaded, (initial.after before).SeesChange →
    (initial.after before).disk.view.loadPage files = .ok loaded →
    (∀ event ∈ after, event.Spares files) →
    Outlast settings.preview.quietPeriodMs.toNat after →
      ∃ buffers, (initial.after (before ++ .tick :: after)).disk.view.loadPage files = .ok buffers ∧
        (initial.after (before ++ .tick :: after)).printed.getLast? =
          some (pageFor settings frame buffers)
  /-- The same holds whatever changed, as long as no tick has seen it and none would: a change that
  gives a fresh stamp does not go unseen. -/
  caughtUp : ∀ before after loaded,
    initial.disk.Fresh (changesOf (before ++ .tick :: after)) →
    (initial.after before).SeesChange →
    (initial.after before).disk.view.loadPage files = .ok loaded →
    (initial.after (before ++ [.tick])).SeesNothing after →
    ¬(initial.after (before ++ .tick :: after)).SeesChange →
    Outlast settings.preview.quietPeriodMs.toNat after →
      ∃ buffers, (initial.after (before ++ .tick :: after)).disk.view.loadPage files = .ok buffers ∧
        (initial.after (before ++ .tick :: after)).printed.getLast? =
          some (pageFor settings frame buffers)
  /-- A watch that never saw a change and would see none has printed the page of the files. -/
  unchanged : ∀ history, initial.disk.Fresh (changesOf history) → initial.SeesNothing history →
    ¬(initial.after history).SeesChange →
      ∃ buffers, (initial.after history).disk.view.loadPage files = .ok buffers ∧
        (initial.after history).printed.getLast? = some (pageFor settings frame buffers)
  /-- Pages are printed for loads only, in their order and at most once for each. -/
  faithful : ∀ history, (initial.after history).printed.Sublist
    ((initial.after history).loaded.map (pageFor settings frame))

namespace WatchRun

/-! ## What a watch has promised -/

/-- The scheduler of the watch. -/
def scheduler (run : WatchRun) : Preview.Scheduler :=
  run.watch.engine.scheduler

/-- The updates that were published and not yet taken. -/
def untaken (run : WatchRun) : List Preview.Update :=
  run.scheduler.updates.sent.drop run.watch.receiver.next

/-- What is printed, and what will be if nothing more is loaded. -/
def promised (run : WatchRun) : List String :=
  run.printed ++ run.untaken.map (fun update => printedPage run.watch.frame update.document) ++
    run.scheduler.pending.map fun render =>
      printedPage run.watch.frame (run.scheduler.update render).document

/-- What every event keeps: one render at most is pending, and what is promised follows the loads
and ends with the last of them. -/
structure Keeps (settings : Settings) (files : PageFiles) (frame : Option Viewport)
    (run : WatchRun) : Prop where
  sameFiles : run.watch.files = files
  sameFrame : run.watch.frame = frame
  sentinels : run.scheduler.sentinels = settings.markup
  quietPeriod : run.scheduler.quietPeriod = settings.preview.quietPeriodMs.toNat
  capacity : 0 < run.scheduler.updates.capacity
  taken : run.watch.receiver.next ≤ run.scheduler.updates.sent.length
  published : ∀ update ∈ run.scheduler.updates.sent, update.target = files.layout
  pending : ∀ render ∈ run.scheduler.pending, render.target = files.layout
  single : run.scheduler.pending.length ≤ 1
  order : run.promised.Sublist (run.loaded.map (pageFor settings frame))
  last : run.promised.getLast? = (run.loaded.map (pageFor settings frame)).getLast?

/-- A run whose watch takes everything that was published. -/
def take (run : WatchRun) : WatchRun :=
  { run with
    watch := { run.watch with receiver := run.scheduler.updates.subscribe }
    printed := run.printed ++
      (run.scheduler.updates.drain run.watch.receiver).1.items.filterMap run.watch.pageOf? }

theorem perform_advance (run : WatchRun) (milliseconds : Nat) :
    run.perform (.advance milliseconds) = (run.perform (.stall milliseconds)).take := rfl

theorem untaken_take (run : WatchRun) : run.take.untaken = [] := by
  simp [untaken, take, scheduler, Preview.Channel.subscribe]

variable {settings : Settings} {files : PageFiles} {frame : Option Viewport} {run : WatchRun}

/-- Among the pending renders of a watch no two are of one page. -/
theorem Keeps.distinct (keeps : run.Keeps settings files frame) :
    run.scheduler.pending.Pairwise fun first second => first.target ≠ second.target := by
  have single := keeps.single
  match run.scheduler.pending, single with
  | [], _ => exact .nil
  | [_], _ => exact List.pairwise_singleton _ _

/-- The scheduler after time has passed. -/
theorem Keeps.scheduler_stall (keeps : run.Keeps settings files frame) (milliseconds : Nat) :
    ∃ closed, (run.perform (.stall milliseconds)).scheduler =
      { run.scheduler with
        now := run.scheduler.now + milliseconds
        pending := run.scheduler.pending.filter fun render =>
          !decide (render.due ≤ run.scheduler.now + milliseconds)
        abandoned := false
        updates := { run.scheduler.updates with
          sent := run.scheduler.updates.sent ++
            (run.scheduler.pending.filter (·.due ≤ run.scheduler.now + milliseconds)).map
              run.scheduler.update
          closed := closed } } :=
  Preview.Scheduler.advance_eq milliseconds keeps.distinct

/-- When time passes, a render moves from the pending ones to the updates. -/
theorem Keeps.promised_stall (keeps : run.Keeps settings files frame) (milliseconds : Nat) :
    (run.perform (.stall milliseconds)).promised = run.promised := by
  obtain ⟨closed, scheduler⟩ := keeps.scheduler_stall milliseconds
  have single := keeps.single
  unfold promised untaken
  rw [scheduler]
  simp only [perform, List.drop_append_of_le_length keeps.taken]
  match run.scheduler.pending, single with
  | [], _ => simp
  | [render], _ =>
    by_cases due : render.due ≤ run.scheduler.now + milliseconds
    · simp [due, Preview.Scheduler.update]
    · simp [due, Preview.Scheduler.update]

theorem Keeps.stall (keeps : run.Keeps settings files frame) (milliseconds : Nat) :
    (run.perform (.stall milliseconds)).Keeps settings files frame := by
  obtain ⟨closed, scheduler⟩ := keeps.scheduler_stall milliseconds
  constructor
  case sameFiles => exact keeps.sameFiles
  case sameFrame => exact keeps.sameFrame
  case sentinels =>
    rw [scheduler]
    exact keeps.sentinels
  case quietPeriod =>
    rw [scheduler]
    exact keeps.quietPeriod
  case capacity =>
    rw [scheduler]
    exact keeps.capacity
  case taken =>
    rw [scheduler, List.length_append]
    exact Nat.le_add_right_of_le keeps.taken
  case published =>
    rw [scheduler]
    intro update member
    rcases List.mem_append.mp member with earlier | new
    · exact keeps.published update earlier
    · obtain ⟨render, inPending, rfl⟩ := List.mem_map.mp new
      exact keeps.pending render (List.mem_filter.mp inPending).1
  case pending =>
    rw [scheduler]
    exact fun render member => keeps.pending render (List.mem_filter.mp member).1
  case single =>
    rw [scheduler]
    exact Nat.le_trans (List.length_filter_le _ _) keeps.single
  case order =>
    rw [keeps.promised_stall]
    exact keeps.order
  case last =>
    rw [keeps.promised_stall]
    exact keeps.last

/-- The pages that a watch takes: all of the updates that are left, or the newest of them. -/
theorem Keeps.printed_take (keeps : run.Keeps settings files frame) :
    ∃ missed, (missed = 0 ∨ missed < run.untaken.length) ∧
      run.take.printed = run.printed ++
        (run.untaken.drop missed).map fun update => printedPage run.watch.frame update.document := by
  refine ⟨run.scheduler.updates.missed run.watch.receiver, ?_, ?_⟩
  · have capacity := keeps.capacity
    simp only [Preview.Channel.missed, untaken, List.length_drop]
    omega
  · have own : ∀ update ∈ (run.untaken.drop (run.scheduler.updates.missed run.watch.receiver)),
        run.watch.pageOf? (.message update) = some (printedPage run.watch.frame update.document) := by
      intro update member
      have target := keeps.published update (List.mem_of_mem_drop (List.mem_of_mem_drop member))
      simp [Watch.pageOf?, Watch.target, keeps.sameFiles, target]
    have gap : ∀ missed, (if missed = 0 then [] else [Preview.Received.lagged missed]).filterMap
        run.watch.pageOf? = [] := by
      intro missed
      split <;> rfl
    simp only [take, Preview.Channel.drain, List.filterMap_append, gap, List.nil_append,
      ← List.drop_drop, List.filterMap_map, List.append_cancel_left_eq]
    rw [← List.filterMap_eq_map]
    exact List.filterMap_congr own

/-- What a watch takes it has promised, and it ends with the same page. -/
theorem Keeps.promised_take (keeps : run.Keeps settings files frame) :
    run.take.promised.Sublist run.promised ∧ run.take.promised.getLast? = run.promised.getLast? := by
  obtain ⟨missed, bound, printed⟩ := keeps.printed_take
  have shape : run.take.promised = run.printed ++
      (run.untaken.drop missed).map (fun update => printedPage run.watch.frame update.document) ++
        run.scheduler.pending.map fun render =>
          printedPage run.watch.frame (run.scheduler.update render).document := by
    rw [promised, untaken_take, printed]
    simp [WatchRun.take, scheduler]
  rw [shape, promised]
  constructor
  · exact (((List.drop_sublist _ _).map _).append_left _).append_right _
  · have newest : (run.untaken.drop missed).getLast? = run.untaken.getLast? := by
      rcases bound with rfl | fewer
      · rfl
      · rw [List.getLast?_drop, if_neg (Nat.not_le_of_lt fewer)]
    simp only [List.getLast?_append, List.getLast?_map, newest]

theorem Keeps.take (keeps : run.Keeps settings files frame) : run.take.Keeps settings files frame where
  sameFiles := keeps.sameFiles
  sameFrame := keeps.sameFrame
  sentinels := keeps.sentinels
  quietPeriod := keeps.quietPeriod
  capacity := keeps.capacity
  taken := Nat.le_refl _
  published := keeps.published
  pending := keeps.pending
  single := keeps.single
  order := keeps.promised_take.1.trans keeps.order
  last := keeps.promised_take.2.trans keeps.last

/-! ## Ticks -/

/-- What a tick comes to: it sees nothing, or it cannot read the files, or it loads them. -/
inductive Ticked (run : WatchRun) : WatchRun → Prop where
  | unchanged (same : ¬run.SeesChange) : Ticked run run
  | unreadable {error} (changed : run.SeesChange)
      (failed : run.disk.view.loadPage run.watch.files = .error error) :
      Ticked run { run with
        watch := { run.watch with stamps := run.disk.view.stamps run.watch.files } }
  | loaded {buffers} (changed : run.SeesChange)
      (read : run.disk.view.loadPage run.watch.files = .ok buffers) :
      Ticked run { run with
        watch := { run.watch with
          stamps := run.disk.view.stamps run.watch.files
          engine := (run.watch.engine.onEdit run.watch.target buffers).2 }
        loaded := run.loaded ++ [buffers] }

theorem ticked (run : WatchRun) : run.Ticked (run.perform .tick) := by
  by_cases changed : run.SeesChange
  · have differ : run.disk.view.stamps run.watch.files ≠ run.watch.stamps := changed
    cases read : run.disk.view.loadPage run.watch.files with
    | error error =>
      have result := Ticked.unreadable changed read
      simpa [perform, toLoad, changed, Watch.tick, differ, read, Except.toOption] using result
    | ok buffers =>
      have result := Ticked.loaded changed read
      simpa [perform, toLoad, changed, Watch.tick, differ, read, Except.toOption] using result
  · have same : run.disk.view.stamps run.watch.files = run.watch.stamps := not_not.mp changed
    have result := Ticked.unchanged changed
    simpa [perform, toLoad, changed, Watch.tick, same] using result

/-- A tick that sees no change leaves a run as it is. -/
theorem perform_tick_of_current (current : ¬run.SeesChange) : run.perform .tick = run := by
  have result := run.ticked
  generalize run.perform .tick = next at result
  cases result with
  | unchanged => rfl
  | unreadable changed | loaded changed => exact absurd changed current

/-- A tick has seen the files as they are. -/
theorem not_seesChange_tick (run : WatchRun) : ¬(run.perform .tick).SeesChange := by
  have result := run.ticked
  generalize run.perform .tick = next at result
  cases result with
  | unchanged same => exact same
  | unreadable | loaded => exact fun differ => differ rfl

/-- The render of a load, the only one that is pending afterwards. -/
theorem Keeps.pending_loaded (keeps : run.Keeps settings files frame) (buffers : Buffers) :
    (run.watch.engine.onEdit run.watch.target buffers).2.scheduler.pending =
      [⟨files.layout, run.scheduler.lastGeneration + 1,
        run.scheduler.now + settings.preview.quietPeriodMs.toNat, buffers.page⟩] := by
  have none : run.scheduler.others files.layout = [] := by
    simpa [Preview.Scheduler.others] using keeps.pending
  have quiet := keeps.quietPeriod
  simp only [scheduler, Preview.Scheduler.others] at none quiet
  simp [Engine.onEdit, Preview.Scheduler.schedule, Preview.Scheduler.number,
    Preview.Scheduler.install, Preview.Scheduler.abandon, Preview.Scheduler.others, Watch.target,
    keeps.sameFiles, scheduler, none, quiet]

/-- A load takes the place of a render that is pending. -/
theorem Keeps.promised_loaded (keeps : run.Keeps settings files frame) (buffers : Buffers)
    (stamps : List (Option Nat)) (loaded : List Buffers) :
    promised { run with
        watch := { run.watch with
          stamps := stamps
          engine := (run.watch.engine.onEdit run.watch.target buffers).2 }
        loaded := loaded } =
      run.printed ++ run.untaken.map (fun update => printedPage run.watch.frame update.document) ++
        [pageFor settings frame buffers] := by
  have pending := keeps.pending_loaded buffers
  have sentinels := keeps.sentinels
  simp only [promised, untaken, scheduler] at pending sentinels ⊢
  rw [pending]
  simp [Engine.onEdit, Preview.Scheduler.schedule, Preview.Scheduler.number,
    Preview.Scheduler.install, Preview.Scheduler.abandon, Preview.Scheduler.update, pageFor,
    keeps.sameFrame, sentinels]

theorem Keeps.tick (keeps : run.Keeps settings files frame) :
    (run.perform .tick).Keeps settings files frame := by
  have result := run.ticked
  generalize run.perform .tick = next at result
  cases result with
  | unchanged => exact keeps
  | unreadable =>
    exact ⟨keeps.sameFiles, keeps.sameFrame, keeps.sentinels, keeps.quietPeriod, keeps.capacity,
      keeps.taken, keeps.published, keeps.pending, keeps.single, keeps.order, keeps.last⟩
  | @loaded buffers =>
    have pending := keeps.pending_loaded buffers
    have promised := keeps.promised_loaded buffers (run.disk.view.stamps run.watch.files)
      (run.loaded ++ [buffers])
    constructor
    case sameFiles => exact keeps.sameFiles
    case sameFrame => exact keeps.sameFrame
    case sentinels => exact keeps.sentinels
    case quietPeriod => exact keeps.quietPeriod
    case capacity => exact keeps.capacity
    case taken => exact keeps.taken
    case published => exact keeps.published
    case pending =>
      rw [scheduler, pending]
      simp
    case single =>
      rw [scheduler, pending]
      simp
    case order =>
      rw [promised, List.map_append]
      exact ((List.sublist_append_left _ _).trans keeps.order).append (List.Sublist.refl _)
    case last =>
      rw [promised, List.map_append, List.map_singleton, List.getLast?_concat, List.getLast?_concat]

/-- Every event keeps what a watch has promised. -/
theorem Keeps.perform (keeps : run.Keeps settings files frame) (event : WatchEvent) :
    (run.perform event).Keeps settings files frame := by
  cases event with
  | alter =>
    exact ⟨keeps.sameFiles, keeps.sameFrame, keeps.sentinels, keeps.quietPeriod, keeps.capacity,
      keeps.taken, keeps.published, keeps.pending, keeps.single, keeps.order, keeps.last⟩
  | tick => exact keeps.tick
  | stall milliseconds => exact keeps.stall milliseconds
  | advance milliseconds =>
    rw [perform_advance]
    exact (keeps.stall milliseconds).take

theorem Keeps.after (keeps : run.Keeps settings files frame) (events : List WatchEvent) :
    (run.after events).Keeps settings files frame := by
  induction events generalizing run with
  | nil => exact keeps
  | cons event rest inductionHypothesis => exact inductionHypothesis (keeps.perform event)

/-! ## The start -/

/-- Nothing is pending, and nothing is left to take. -/
structure Idle (run : WatchRun) : Prop where
  pending : run.scheduler.pending = []
  untaken : run.untaken = []

theorem Idle.promised_eq (idle : run.Idle) : run.promised = run.printed := by
  simp [promised, idle.pending, idle.untaken]

theorem powerAbove_pos {bound fuel power : Nat} (positive : 0 < power) :
    0 < Preview.powerAbove bound fuel power := by
  induction fuel generalizing power with
  | zero => exact positive
  | succ fuel inductionHypothesis =>
    unfold Preview.powerAbove
    split
    · exact positive
    · exact inductionHypothesis (Nat.mul_pos (by decide) positive)

/-- The scheduler of an engine that was made for settings has done nothing. -/
theorem scheduler_of_ofSettings {engine : Engine} (made : Engine.ofSettings settings = .ok engine) :
    engine.settings = settings ∧ ∃ capacity, 0 < capacity ∧ engine.scheduler =
      ⟨settings.markup, settings.preview.quietPeriodMs.toNat, 0, 0, [], false, false,
        ⟨capacity, [], false⟩⟩ := by
  simp only [Engine.ofSettings, Preview.Scheduler.ofSettings, Preview.Scheduler.start,
    Preview.Channel.ofCapacity] at made
  split at made
  · rename_i scheduler built
    cases made
    refine ⟨rfl, ?_⟩
    split at built
    · rename_i updates bounded
      cases built
      split at bounded
      · cases bounded
        exact ⟨_, powerAbove_pos Nat.one_pos, rfl⟩
      · contradiction
    · contradiction
  · contradiction

/-- A watch that has just started: it has seen the files and printed their page. -/
structure Started (settings : Settings) (files : PageFiles) (frame : Option Viewport)
    (run : WatchRun) : Prop where
  keeps : run.Keeps settings files frame
  idle : run.Idle
  current : ¬run.SeesChange
  read : ∃ buffers, run.disk.view.loadPage files = .ok buffers ∧ run.loaded = [buffers]

theorem started_of_start {engine : Engine} {disk : Disk}
    (made : Engine.ofSettings settings = .ok engine)
    (started : start engine disk files frame = .ok run) : run.Started settings files frame := by
  obtain ⟨same, capacity, positive, scheduler⟩ := scheduler_of_ofSettings made
  cases read : disk.view.loadPage files with
  | error error =>
    simp [start, read] at started
  | ok buffers =>
    simp only [start, Watch.start, read, Except.ok.injEq] at started
    subst started
    refine ⟨⟨rfl, rfl, ?_, ?_, ?_, ?_, ?_, ?_, ?_, ?_, ?_⟩, ⟨?_, ?_⟩, fun differ => differ rfl,
      buffers, read, rfl⟩
    all_goals simp [WatchRun.scheduler, scheduler, promised, untaken, positive,
      Preview.Scheduler.subscribe, Preview.Channel.subscribe, Engine.previewNow, pageFor, same]

/-! ## Quiet -/

theorem after_append (run : WatchRun) (first second : List WatchEvent) :
    run.after (first ++ second) = (run.after first).after second :=
  List.foldl_append

/-- The disk of a run is changed by the changes alone. -/
theorem disk_after (run : WatchRun) (events : List WatchEvent) :
    (run.after events).disk = run.disk.after (changesOf events) := by
  induction events generalizing run with
  | nil => rfl
  | cons event rest inductionHypothesis => cases event <;> exact inductionHypothesis _

theorem seesNothing_append (run : WatchRun) (first second : List WatchEvent) :
    run.SeesNothing (first ++ second) ↔
      run.SeesNothing first ∧ (run.after first).SeesNothing second := by
  induction first generalizing run with
  | nil => exact (true_and _).symm.to_iff
  | cons event rest inductionHypothesis =>
    rw [List.cons_append, SeesNothing, SeesNothing, inductionHypothesis, and_assoc]
    rfl

/-- A later state of a run in which nothing more was loaded. -/
structure Lull (run next : WatchRun) : Prop where
  loaded : next.loaded = run.loaded
  stamps : next.watch.stamps = run.watch.stamps
  pending : next.scheduler.pending ⊆ run.scheduler.pending

theorem Lull.trans {middle last : WatchRun} (first : run.Lull middle) (second : middle.Lull last) :
    run.Lull last where
  loaded := second.loaded.trans first.loaded
  stamps := second.stamps.trans first.stamps
  pending := List.Subset.trans second.pending first.pending

/-- An event that is no tick that sees a change loads nothing. -/
theorem Keeps.lull (keeps : run.Keeps settings files frame) {event : WatchEvent}
    (unseen : event = .tick → ¬run.SeesChange) :
    run.Lull (run.perform event) ∧
      (run.perform event).scheduler.now = run.scheduler.now + event.elapsed := by
  cases event with
  | alter => exact ⟨⟨rfl, rfl, List.Subset.refl _⟩, rfl⟩
  | tick =>
    rw [perform_tick_of_current (unseen rfl)]
    exact ⟨⟨rfl, rfl, List.Subset.refl _⟩, rfl⟩
  | stall milliseconds | advance milliseconds =>
    obtain ⟨closed, scheduler⟩ := keeps.scheduler_stall milliseconds
    have fewer : (run.perform (.stall milliseconds)).scheduler.pending ⊆ run.scheduler.pending := by
      rw [scheduler]
      exact fun render member => (List.mem_filter.mp member).1
    exact ⟨⟨rfl, rfl, fewer⟩, congrArg Preview.Scheduler.now scheduler⟩

theorem Keeps.lull_after (keeps : run.Keeps settings files frame) {events : List WatchEvent}
    (unseen : run.SeesNothing events) :
    run.Lull (run.after events) ∧
      (run.after events).scheduler.now = run.scheduler.now + elapsedOver events := by
  induction events generalizing run with
  | nil => exact ⟨⟨rfl, rfl, List.Subset.refl _⟩, rfl⟩
  | cons event rest inductionHypothesis =>
    obtain ⟨here, clock⟩ := keeps.lull unseen.1
    obtain ⟨later, clockAfter⟩ := inductionHypothesis (keeps.perform event) unseen.2
    refine ⟨here.trans later, ?_⟩
    rw [clock, Nat.add_assoc] at clockAfter
    exact clockAfter

/-- Once every render is due, letting time pass prints them. -/
theorem Keeps.idle_advance (keeps : run.Keeps settings files frame) {milliseconds : Nat}
    (due : ∀ render ∈ run.scheduler.pending, render.due ≤ run.scheduler.now + milliseconds) :
    (run.perform (.advance milliseconds)).Idle := by
  obtain ⟨closed, scheduler⟩ := keeps.scheduler_stall milliseconds
  constructor
  · have pending := congrArg Preview.Scheduler.pending scheduler
    refine pending.trans (List.filter_eq_nil_iff.mpr fun render member => ?_)
    simpa using due render member
  · exact untaken_take (run.perform (.stall milliseconds))

theorem Keeps.idle_perform (keeps : run.Keeps settings files frame) (idle : run.Idle)
    {event : WatchEvent} (unseen : event = .tick → ¬run.SeesChange) : (run.perform event).Idle := by
  have pending := (keeps.lull unseen).1.pending
  rw [idle.pending] at pending
  refine ⟨List.subset_nil.mp pending, ?_⟩
  cases event with
  | alter => exact idle.untaken
  | tick =>
    rw [perform_tick_of_current (unseen rfl)]
    exact idle.untaken
  | stall milliseconds =>
    obtain ⟨closed, scheduler⟩ := keeps.scheduler_stall milliseconds
    have nothing := idle.untaken
    simp only [untaken] at nothing ⊢
    rw [scheduler]
    simpa [idle.pending, WatchRun.perform] using nothing
  | advance milliseconds => exact untaken_take (run.perform (.stall milliseconds))

theorem Keeps.idle_after (keeps : run.Keeps settings files frame) (idle : run.Idle)
    {events : List WatchEvent} (unseen : run.SeesNothing events) : (run.after events).Idle := by
  induction events generalizing run with
  | nil => exact idle
  | cons event rest inductionHypothesis =>
    exact inductionHypothesis (keeps.perform event) (keeps.idle_perform idle unseen.1) unseen.2

/-- Once every render has become due and nothing more is loaded, the page of the last load is the
last that is printed. -/
theorem Keeps.printed_of_outlast (keeps : run.Keeps settings files frame) {period : Nat}
    (due : ∀ render ∈ run.scheduler.pending, render.due ≤ run.scheduler.now + period)
    {events : List WatchEvent} (unseen : run.SeesNothing events) (outlast : Outlast period events) :
    (run.after events).printed.getLast? = (run.loaded.map (pageFor settings frame)).getLast? := by
  have lull := (keeps.lull_after unseen).1
  obtain ⟨before, milliseconds, rest, rfl, long⟩ := outlast
  obtain ⟨unseenBefore, -, unseenRest⟩ := (seesNothing_append run before _).mp unseen
  obtain ⟨earlier, clock⟩ := keeps.lull_after unseenBefore
  have atLength : ((run.after before).perform (.advance milliseconds)).Idle := by
    refine (keeps.after before).idle_advance fun render member => ?_
    have := due render (earlier.pending member)
    omega
  have idle : (run.after (before ++ .advance milliseconds :: rest)).Idle := by
    rw [after_append]
    exact ((keeps.after before).perform _).idle_after atLength unseenRest
  rw [← idle.promised_eq, (keeps.after _).last, lull.loaded]

/-- The page of a load is printed last, once a period has passed in which nothing more is loaded. -/
theorem Keeps.printed_of_tick (keeps : run.Keeps settings files frame) (changed : run.SeesChange)
    {buffers : Buffers} (read : run.disk.view.loadPage files = .ok buffers)
    {events : List WatchEvent} (unseen : (run.perform .tick).SeesNothing events)
    (outlast : Outlast settings.preview.quietPeriodMs.toNat events) :
    ((run.perform .tick).after events).printed.getLast? = some (pageFor settings frame buffers) := by
  have keepsNext := keeps.tick
  have result := run.ticked
  generalize run.perform .tick = next at result keepsNext unseen ⊢
  cases result with
  | unchanged same => exact absurd changed same
  | unreadable _ failed =>
    rw [keeps.sameFiles, read] at failed
    contradiction
  | loaded _ again =>
    rw [keeps.sameFiles, read] at again
    cases again
    refine (keepsNext.printed_of_outlast ?_ unseen outlast).trans (by simp)
    rw [WatchRun.scheduler, keeps.pending_loaded buffers]
    intro render member
    rw [List.mem_singleton.mp member]
    exact Nat.le_refl _

/-! ## Files that did not change -/

/-- With fresh stamps, files of which nothing was seen have not changed. -/
theorem Keeps.agrees_of_seesNothing (keeps : run.Keeps settings files frame) {disk : Disk}
    {earlier : List FileChange} (here : run.disk = disk.after earlier) {events : List WatchEvent}
    (fresh : disk.Fresh (earlier ++ changesOf events)) (current : ¬run.SeesChange)
    (unseen : run.SeesNothing events) (still : ¬(run.after events).SeesChange) :
    Disk.Agrees files (run.after events).disk run.disk := by
  have now := not_not.mp current
  have later := not_not.mp still
  rw [keeps.sameFiles] at now
  rw [(keeps.after events).sameFiles, (keeps.lull_after unseen).1.stamps, ← now] at later
  have there : (run.after events).disk = disk.after (earlier ++ changesOf events) := by
    rw [disk_after, here, Disk.after, Disk.after, Disk.after, List.foldl_append]
  rw [here, there] at later ⊢
  exact Disk.agrees_of_stamps_eq fresh (List.prefix_append _ _) later

theorem agrees_of_spares {event : WatchEvent} (spares : event.Spares files) :
    Disk.Agrees files (run.perform event).disk run.disk := by
  cases event with
  | alter change =>
    intro path listed
    exact Disk.change_of_ne fun about => spares change rfl (about ▸ listed)
  | tick | stall | advance => exact fun _ _ => rfl

/-- While the files are left alone no tick sees a change. -/
theorem Keeps.seesNothing_of_spares (keeps : run.Keeps settings files frame)
    (current : ¬run.SeesChange) {events : List WatchEvent}
    (spared : ∀ event ∈ events, event.Spares files) :
    run.SeesNothing events ∧ Disk.Agrees files (run.after events).disk run.disk := by
  induction events generalizing run with
  | nil => exact ⟨trivial, fun _ _ => rfl⟩
  | cons event rest inductionHypothesis =>
    obtain ⟨spares, sparedRest⟩ := List.forall_mem_cons.mp spared
    have agrees := @agrees_of_spares files run event spares
    have unseen : event = .tick → ¬run.SeesChange := fun _ => current
    have lull := (keeps.lull unseen).1
    have keepsNext := keeps.perform event
    have stillCurrent : ¬(run.perform event).SeesChange := by
      rw [SeesChange, keepsNext.sameFiles, agrees.stamps_eq, lull.stamps, ← keeps.sameFiles]
      exact current
    obtain ⟨nothing, later⟩ := inductionHypothesis keepsNext stillCurrent sparedRest
    exact ⟨⟨unseen, nothing⟩, fun path listed => (later path listed).trans (agrees path listed)⟩

end WatchRun

/-- A started watch converges to its files. -/
theorem converges_of_start {settings : Settings} {engine : Engine} {disk : Disk} {files : PageFiles}
    {frame : Option Viewport} {initial : WatchRun} (made : Engine.ofSettings settings = .ok engine)
    (started : WatchRun.start engine disk files frame = .ok initial) :
    Converges settings files frame initial := by
  have atStart := WatchRun.started_of_start made started
  have keeps : ∀ events, (initial.after events).Keeps settings files frame := atStart.keeps.after
  have split : ∀ before after, initial.after (before ++ .tick :: after) =
      ((initial.after before).perform .tick).after after := fun before after =>
    WatchRun.after_append initial before (.tick :: after)
  constructor
  case settled =>
    intro before after loaded changed read spared outlast
    have seen := (initial.after before).not_seesChange_tick
    obtain ⟨unseen, agrees⟩ := (keeps before).tick.seesNothing_of_spares seen spared
    rw [split]
    refine ⟨loaded, ?_, (keeps before).printed_of_tick changed read unseen outlast⟩
    exact agrees.loadPage_eq.trans read
  case caughtUp =>
    intro before after loaded fresh changed read unseen current outlast
    have changes : changesOf (before ++ .tick :: after) = changesOf before ++ changesOf after :=
      List.filterMap_append
    rw [changes] at fresh
    rw [WatchRun.after_append] at unseen
    rw [split] at current ⊢
    have seen := (initial.after before).not_seesChange_tick
    have agrees := (keeps before).tick.agrees_of_seesNothing (initial.disk_after before) fresh seen
      unseen current
    refine ⟨loaded, ?_, (keeps before).printed_of_tick changed read unseen outlast⟩
    exact agrees.loadPage_eq.trans read
  case unchanged =>
    intro history fresh unseen current
    obtain ⟨buffers, read, loaded⟩ := atStart.read
    have lull := (atStart.keeps.lull_after unseen).1
    have atFirst : initial.disk = initial.disk.after [] := rfl
    have agrees := atStart.keeps.agrees_of_seesNothing atFirst fresh atStart.current unseen current
    refine ⟨buffers, agrees.loadPage_eq.trans read, ?_⟩
    rw [← (atStart.keeps.idle_after atStart.idle unseen).promised_eq, (keeps history).last,
      lull.loaded, loaded]
    rfl
  case faithful =>
    intro history
    have whole := (keeps history).order
    exact ((List.sublist_append_left _ _).trans (List.sublist_append_left _ _)).trans whole

/-- A page that is rewritten while it is watched is printed as it was and as it is. -/
theorem converges_of_rewritten :
    ∃ engine initial, Engine.ofSettings {} = .ok engine ∧
      WatchRun.start engine (Function.update (fun _ => none) "page" (some ⟨.ok (.text "one"), 1⟩))
        ⟨"page", none, none⟩ none = .ok initial ∧
      Converges {} ⟨"page", none, none⟩ none initial ∧
      (initial.after [.alter (.write "page" ⟨.ok (.text "two"), 2⟩), .tick,
        .advance 500]).printed.getLast? = some "two" := by
  obtain ⟨engine, made⟩ : ∃ engine, Engine.ofSettings {} = .ok engine := ⟨_, rfl⟩
  obtain ⟨initial, started⟩ : ∃ initial, WatchRun.start engine
      (Function.update (fun _ => none) "page" (some ⟨.ok (.text "one"), 1⟩))
      ⟨"page", none, none⟩ none = .ok initial := ⟨_, rfl⟩
  have converges := converges_of_start made started
  cases made
  cases started
  refine ⟨_, _, rfl, rfl, converges, ?_⟩
  obtain ⟨buffers, read, printed⟩ := converges.settled
    [.alter (.write "page" ⟨.ok (.text "two"), 2⟩)] [.advance 500]
    (((Buffers.empty.set .layout (.text "two")).set .style (.text "")).set .behavior (.text ""))
    (by decide) rfl (by simp [WatchEvent.Spares, WatchEvent.change?])
    ⟨[], 500, [], rfl, by decide⟩
  cases read
  exact printed

end Playground.Command
