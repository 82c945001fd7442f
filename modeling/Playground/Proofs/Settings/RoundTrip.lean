import Playground.Proofs.Json.Records
import Playground.Settings

/-!
# Settings survive being written and read

Every number of the settings fits the reader of its field, and every sentinel is a text, so the
members of each record fill its fields. Records are read in either of their written forms, and
their changes together make up the settings that were written (`ofJsonText_compact`).
-/

namespace Playground.Settings

open JsonReader

/-! ## Fields -/

theorem readsAs_word64 (word : UInt64) : ReadsAs readWord64 (.number word.toNat) word := by
  have bounded := word.toNat_lt
  have reads : ReadsAs (natural (Nat.pow 2 64 - 1)) (.number word.toNat) word.toNat :=
    readsAs_natural (by simp; omega) (Nat.le_refl _)
  have mapped : ReadsAs readWord64 (.number word.toNat) (UInt64.ofNat word.toNat) :=
    reads.map fun read => by simp only [readWord64, read]
  rwa [UInt64.ofNat_toNat] at mapped

theorem readsAs_word32 (word : UInt32) : ReadsAs readWord32 (.number word.toNat) word := by
  have bounded := word.toNat_lt
  have reads : ReadsAs (natural (Nat.pow 2 32 - 1)) (.number word.toNat) word.toNat :=
    readsAs_natural (by simp; omega) (by decide)
  have mapped : ReadsAs readWord32 (.number word.toNat) (UInt32.ofNat word.toNat) :=
    reads.map fun read => by simp only [readWord32, read]
  rwa [UInt32.ofNat_toNat] at mapped

/-- The members of the limits of a run. -/
def executionMembers (settings : ExecutionSettings) : List (Member ExecutionSettings) :=
  [⟨"timeout_ms", .number settings.timeoutMs.toNat, fun other =>
      { other with timeoutMs := settings.timeoutMs }⟩,
    ⟨"max_timer_turns", .number settings.maxTimerTurns.toNat, fun other =>
      { other with maxTimerTurns := settings.maxTimerTurns }⟩,
    ⟨"max_pending_jobs", .number settings.maxPendingJobs.toNat, fun other =>
      { other with maxPendingJobs := settings.maxPendingJobs }⟩]

/-- The members of the pace of previews. -/
def previewMembers (settings : PreviewSettings) : List (Member PreviewSettings) :=
  [⟨"quiet_period_ms", .number settings.quietPeriodMs.toNat, fun other =>
      { other with quietPeriodMs := settings.quietPeriodMs }⟩,
    ⟨"channel_capacity", .number settings.channelCapacity.toNat, fun other =>
      { other with channelCapacity := settings.channelCapacity }⟩]

/-- The members of the sentinels. -/
def markupMembers (sentinels : Sentinels) : List (Member Sentinels) :=
  [⟨"stylesheet_sentinel", .string sentinels.stylesheet, fun other =>
      { other with stylesheet := sentinels.stylesheet }⟩,
    ⟨"script_sentinel", .string sentinels.script, fun other =>
      { other with script := sentinels.script }⟩]

/-- The members of all settings, whose records have given written forms. -/
def members (settings : Settings) (execution preview markup : Json) : List (Member Settings) :=
  [⟨"execution", execution, fun other => { other with execution := settings.execution }⟩,
    ⟨"preview", preview, fun other => { other with preview := settings.preview }⟩,
    ⟨"markup", markup, fun other => { other with markup := settings.markup }⟩]

theorem fills_execution (settings : ExecutionSettings) :
    Fills executionFields (executionMembers settings) :=
  .cons ⟨rfl, (readsAs_word64 _).field _ _⟩ <| .cons ⟨rfl, (readsAs_word32 _).field _ _⟩ <|
    .cons ⟨rfl, (readsAs_word32 _).field _ _⟩ .nil

theorem fills_preview (settings : PreviewSettings) :
    Fills previewFields (previewMembers settings) :=
  .cons ⟨rfl, (readsAs_word64 _).field _ _⟩ <| .cons ⟨rfl, (readsAs_word64 _).field _ _⟩ .nil

theorem fills_markup (sentinels : Sentinels) : Fills markupFields (markupMembers sentinels) :=
  .cons ⟨rfl, (readsAs_string _).field _ _⟩ <| .cons ⟨rfl, (readsAs_string _).field _ _⟩ .nil

theorem fills_members (settings : Settings) {execution preview markup : Json}
    (readsExecution : ReadsAs (record executionFields {}) execution settings.execution)
    (readsPreview : ReadsAs (record previewFields {}) preview settings.preview)
    (readsMarkup : ReadsAs (record markupFields .default) markup settings.markup) :
    Fills fields (members settings execution preview markup) :=
  .cons ⟨rfl, readsExecution.field _ _⟩ <| .cons ⟨rfl, readsPreview.field _ _⟩ <|
    .cons ⟨rfl, readsMarkup.field _ _⟩ .nil

/-! ## Written forms -/

/-- Settings are read from either written form of every record. -/
theorem ofJsonText_of_forms (settings : Settings) {execution preview markup : Json}
    (readsExecution : ReadsAs (record executionFields {}) execution settings.execution)
    (readsPreview : ReadsAs (record previewFields {}) preview settings.preview)
    (readsMarkup : ReadsAs (record markupFields .default) markup settings.markup) :
    ofJsonText (objectOf (members settings execution preview markup)).compact = .ok settings ∧
      ofJsonText (arrayOf (members settings execution preview markup)).compact = .ok settings :=
  have reads := readsAs_either (fills_members settings readsExecution readsPreview readsMarkup)
    (by decide) ({} : Settings)
  ⟨whole_compact reads.1, whole_compact reads.2⟩

/-- Reading what was written gives the settings back, whether records are written as objects or as
the lists of their fields. -/
theorem ofJsonText_compact (settings : Settings) :
    ofJsonText settings.toJson.compact = .ok settings ∧
      ofJsonText settings.toJsonList.compact = .ok settings := by
  have execution := readsAs_either (fills_execution settings.execution) (by decide) {}
  have preview := readsAs_either (fills_preview settings.preview) (by decide) {}
  have markup := readsAs_either (fills_markup settings.markup) (by decide) .default
  exact ⟨(ofJsonText_of_forms settings execution.1 preview.1 markup.1).1,
    (ofJsonText_of_forms settings execution.2 preview.2 markup.2).2⟩

end Playground.Settings
