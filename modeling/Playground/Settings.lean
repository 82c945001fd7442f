import Playground.Json.Basic
import Playground.Json.Record
import Playground.Markup.Assembly

/-!
# Settings

The limits of a run, the pace of previews and the sentinels of assembly. Settings are
read from JSON text as changes to the defaults, and written back with every field in its
place.
-/

namespace Playground

/-- The limits of a run. -/
structure ExecutionSettings where
  /-- The wall-clock budget of one run; zero sets none. -/
  timeoutMs : UInt64 := 5000
  /-- The number of timer callbacks that a run may fire. -/
  maxTimerTurns : UInt32 := 10000
  /-- The number of promise jobs that may run between two timer callbacks. -/
  maxPendingJobs : UInt32 := 100000
  deriving DecidableEq, Repr

/-- The pace of previews. -/
structure PreviewSettings where
  /-- How long a page has to stay unchanged before it is rendered. -/
  quietPeriodMs : UInt64 := 500
  /-- The number of updates kept for a subscriber that does not take them. -/
  channelCapacity : UInt64 := 16
  deriving DecidableEq, Repr

/-- All settings. -/
structure Settings where
  execution : ExecutionSettings := {}
  preview : PreviewSettings := {}
  markup : Sentinels := .default
  deriving DecidableEq, Repr

/-- The budget of a run, if it has one. -/
def ExecutionSettings.timeout? (settings : ExecutionSettings) : Option Nat :=
  if settings.timeoutMs = 0 then none else some settings.timeoutMs.toNat

namespace Settings

/-- An unsigned integer of sixty-four bits. -/
def readWord64 : JsonReader UInt64 := fun input =>
  match JsonReader.natural (Nat.pow 2 64 - 1) input with
  | .error fault => .error fault
  | .ok taken => .ok (taken.map UInt64.ofNat)

/-- An unsigned integer of thirty-two bits. -/
def readWord32 : JsonReader UInt32 := fun input =>
  match JsonReader.natural (Nat.pow 2 32 - 1) input with
  | .error fault => .error fault
  | .ok taken => .ok (taken.map UInt32.ofNat)

/-- The fields of the limits of a run. -/
def executionFields : List (RecordField ExecutionSettings) :=
  [.of "timeout_ms" readWord64 fun value settings => { settings with timeoutMs := value },
    .of "max_timer_turns" readWord32 fun value settings =>
      { settings with maxTimerTurns := value },
    .of "max_pending_jobs" readWord32 fun value settings =>
      { settings with maxPendingJobs := value }]

/-- The fields of the pace of previews. -/
def previewFields : List (RecordField PreviewSettings) :=
  [.of "quiet_period_ms" readWord64 fun value settings => { settings with quietPeriodMs := value },
    .of "channel_capacity" readWord64 fun value settings =>
      { settings with channelCapacity := value }]

/-- The fields of the sentinels. -/
def markupFields : List (RecordField Sentinels) :=
  [.of "stylesheet_sentinel" JsonReader.string fun value sentinels =>
      { sentinels with stylesheet := value },
    .of "script_sentinel" JsonReader.string fun value sentinels =>
      { sentinels with script := value }]

/-- The fields of all settings. -/
def fields : List (RecordField Settings) :=
  [.of "execution" (JsonReader.record executionFields {}) fun value settings =>
      { settings with execution := value },
    .of "preview" (JsonReader.record previewFields {}) fun value settings =>
      { settings with preview := value },
    .of "markup" (JsonReader.record markupFields .default) fun value settings =>
      { settings with markup := value }]

/-- The settings that a JSON text holds. -/
def ofJsonText (text : String) : Except JsonFault Settings :=
  JsonReader.whole (JsonReader.record fields {}) text

/-- The JSON form, with every field in its place. -/
def toJson (settings : Settings) : Json :=
  .object [
    ("execution", .object [
      ("timeout_ms", .number settings.execution.timeoutMs.toNat),
      ("max_timer_turns", .number settings.execution.maxTimerTurns.toNat),
      ("max_pending_jobs", .number settings.execution.maxPendingJobs.toNat)]),
    ("preview", .object [
      ("quiet_period_ms", .number settings.preview.quietPeriodMs.toNat),
      ("channel_capacity", .number settings.preview.channelCapacity.toNat)]),
    ("markup", .object [
      ("stylesheet_sentinel", .string settings.markup.stylesheet),
      ("script_sentinel", .string settings.markup.script)])]

/-- The JSON form in which every record is the list of its fields. -/
def toJsonList (settings : Settings) : Json :=
  .array [
    .array [.number settings.execution.timeoutMs.toNat,
      .number settings.execution.maxTimerTurns.toNat,
      .number settings.execution.maxPendingJobs.toNat],
    .array [.number settings.preview.quietPeriodMs.toNat,
      .number settings.preview.channelCapacity.toNat],
    .array [.string settings.markup.stylesheet, .string settings.markup.script]]

end Settings

end Playground
