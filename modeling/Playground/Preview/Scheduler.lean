import Playground.Markup.Assembly
import Playground.Preview.Channel
import Playground.Settings

/-!
# Debounced previews

An edit of a page schedules a render, which takes the place of a render of the same page
that is still pending. A render is published once the quiet period has passed without
another edit. Renders are numbered in the order in which they are scheduled, and those
that are due together are published in that order. Scheduling numbers a render and then
installs it; publishing claims a render, which fails if another took its place, and then
sends the update.

A render holds on to the channel until it has been published. One that is given up lets go
only when time next passes, so after the scheduler is dropped the channel may stay open
until then.
-/

namespace Playground.Preview

/-- A rendered page, sent to every subscriber. -/
structure Update where
  target : String
  generation : Nat
  document : Document
  deriving DecidableEq, Repr

/-- A render that is waiting for the quiet period to pass. -/
structure PendingRender where
  target : String
  generation : Nat
  due : Nat
  sources : PageSources
  deriving DecidableEq, Repr

/-- The scheduler of one editor, on a clock that counts milliseconds. Pending renders are
kept in the order of their generations. -/
structure Scheduler where
  sentinels : Sentinels
  quietPeriod : Nat
  now : Nat
  lastGeneration : Nat
  pending : List PendingRender
  /-- Whether renders were given up since time last passed. -/
  abandoned : Bool
  /-- Whether the editor has let go of the scheduler. -/
  dropped : Bool
  updates : Channel Update

namespace Scheduler

/-- A scheduler with nothing pending. -/
def start (quietPeriod capacity : Nat) (sentinels : Sentinels) :
    Except ExcessiveCapacity Scheduler :=
  match Channel.ofCapacity capacity with
  | .ok updates => .ok ⟨sentinels, quietPeriod, 0, 0, [], false, false, updates⟩
  | .error excess => .error excess

/-- The scheduler that settings ask for. -/
def ofSettings (settings : Settings) : Except ExcessiveCapacity Scheduler :=
  start settings.preview.quietPeriodMs.toNat settings.preview.channelCapacity.toNat
    settings.markup

/-- Whether a page has a pending render. -/
def isPending (scheduler : Scheduler) (target : String) : Bool :=
  scheduler.pending.any (·.target == target)

/-- The number of pages with a pending render. -/
def pendingCount (scheduler : Scheduler) : Nat :=
  scheduler.pending.length

/-- The pending renders of all other pages. -/
def others (scheduler : Scheduler) (target : String) : List PendingRender :=
  scheduler.pending.filter (·.target != target)

/-- The number of the next render. -/
def number (scheduler : Scheduler) : Nat × Scheduler :=
  let generation := scheduler.lastGeneration + 1
  (generation, { scheduler with lastGeneration := generation })

/-- Gives up the pending render of a page, if there is one. -/
def abandon (scheduler : Scheduler) (target : String) : Scheduler :=
  { scheduler with
    pending := scheduler.others target
    abandoned := scheduler.abandoned || scheduler.isPending target }

/-- Puts a render in the place of a pending one of the same page. -/
def install (scheduler : Scheduler) (render : PendingRender) : Scheduler :=
  let cleared := scheduler.abandon render.target
  { cleared with pending := cleared.pending ++ [render] }

/-- Schedules a render: its generation, and the scheduler afterwards. -/
def schedule (scheduler : Scheduler) (target : String) (sources : PageSources) :
    Nat × Scheduler :=
  let (generation, numbered) := scheduler.number
  (generation,
    numbered.install ⟨target, generation, numbered.now + numbered.quietPeriod, sources⟩)

/-- Cancels the pending render of a page: whether there was one, and the scheduler
afterwards. -/
def cancel (scheduler : Scheduler) (target : String) : Bool × Scheduler :=
  (scheduler.isPending target, scheduler.abandon target)

/-- The update that publishes a render. -/
def update (scheduler : Scheduler) (render : PendingRender) : Update :=
  ⟨render.target, render.generation, scheduler.sentinels.assemble render.sources⟩

/-- Takes a render out of the pending ones, unless another took its place or it was
cancelled. -/
def claim? (scheduler : Scheduler) (render : PendingRender) : Option Scheduler :=
  if scheduler.pending.any fun other =>
      other.target == render.target && other.generation == render.generation then
    some { scheduler with pending := scheduler.others render.target }
  else none

/-- Sends an update to every subscriber. -/
def send (scheduler : Scheduler) (update : Update) : Scheduler :=
  { scheduler with updates := scheduler.updates.send update }

/-- Publishes a render whose quiet period has passed, if it can be claimed. -/
def publish (scheduler : Scheduler) (render : PendingRender) : Scheduler :=
  match scheduler.claim? render with
  | some claimed => claimed.send (claimed.update render)
  | none => scheduler

/-- The renders that are due. -/
def dueRenders (scheduler : Scheduler) : List PendingRender :=
  scheduler.pending.filter (·.due ≤ scheduler.now)

/-- Publishes every render that is due. -/
def publishDue (scheduler : Scheduler) : Scheduler :=
  scheduler.dueRenders.foldl publish scheduler

/-- Closes the channel once nothing holds on to it. -/
def release (scheduler : Scheduler) : Scheduler :=
  if scheduler.dropped && !scheduler.abandoned then
    { scheduler with updates := scheduler.updates.close }
  else scheduler

/-- Lets time pass: the renders that are due by then are published, and those that were
given up let go of the channel. -/
def advance (scheduler : Scheduler) (milliseconds : Nat) : Scheduler :=
  let published := publishDue { scheduler with now := scheduler.now + milliseconds }
  release { published with abandoned := false }

/-- A subscriber to the updates from now on. -/
def subscribe (scheduler : Scheduler) : Receiver :=
  scheduler.updates.subscribe

/-- Drops the scheduler, which gives up every pending render. -/
def drop (scheduler : Scheduler) : Scheduler :=
  release { scheduler with
    pending := []
    abandoned := scheduler.abandoned || !scheduler.pending.isEmpty
    dropped := true }

end Scheduler

end Playground.Preview
