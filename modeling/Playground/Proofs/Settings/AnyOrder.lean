import Playground.Proofs.Json.Members
import Playground.Settings

/-!
# Settings in any order

A text gives some of the settings. What it gives may stand in any order and with any blanks, among
members of unknown names with values of any kind; the settings that come out have the given values,
and the defaults for the rest (`ofJsonText_of_given`). A field that stands twice in one object is
refused, whether it belongs to all settings or to one of their records.
-/

namespace Playground.Settings

open JsonReader

/-! ## Given settings -/

/-- Limits of a run that are given. -/
structure GivenExecution where
  timeoutMs : Option UInt64
  maxTimerTurns : Option UInt32
  maxPendingJobs : Option UInt32

/-- What is given of the pace of previews. -/
structure GivenPreview where
  quietPeriodMs : Option UInt64
  channelCapacity : Option UInt64

/-- Sentinels that are given. -/
structure GivenMarkup where
  stylesheet : Option String
  script : Option String

/-- Settings that are given, with what is given of each. -/
structure Given where
  execution : Option GivenExecution
  preview : Option GivenPreview
  markup : Option GivenMarkup

/-- The given limits, and the defaults for the others. -/
def GivenExecution.settings (given : GivenExecution) : ExecutionSettings where
  timeoutMs := given.timeoutMs.getD ({} : ExecutionSettings).timeoutMs
  maxTimerTurns := given.maxTimerTurns.getD ({} : ExecutionSettings).maxTimerTurns
  maxPendingJobs := given.maxPendingJobs.getD ({} : ExecutionSettings).maxPendingJobs

def GivenPreview.settings (given : GivenPreview) : PreviewSettings where
  quietPeriodMs := given.quietPeriodMs.getD ({} : PreviewSettings).quietPeriodMs
  channelCapacity := given.channelCapacity.getD ({} : PreviewSettings).channelCapacity

def GivenMarkup.settings (given : GivenMarkup) : Sentinels where
  stylesheet := given.stylesheet.getD Sentinels.default.stylesheet
  script := given.script.getD Sentinels.default.script

/-- The given settings, and the defaults for everything else. -/
def Given.settings (given : Given) : Settings where
  execution := (given.execution.map GivenExecution.settings).getD {}
  preview := (given.preview.map GivenPreview.settings).getD {}
  markup := (given.markup.map GivenMarkup.settings).getD .default

/-! ## Written forms -/

/-- A number is written as its digits. -/
def DigitsOf (number : Nat) (text : List Char) : Prop :=
  text = Nat.toDigits 10 number

/-- The names of the limits of a run. -/
def executionNames : List String :=
  ["timeout_ms", "max_timer_turns", "max_pending_jobs"]

/-- The names of what makes up the pace of previews. -/
def previewNames : List String :=
  ["quiet_period_ms", "channel_capacity"]

/-- The names of the sentinels. -/
def markupNames : List String :=
  ["stylesheet_sentinel", "script_sentinel"]

/-- The names of the records of all settings. -/
def names : List String :=
  ["execution", "preview", "markup"]

/-- The fields that given limits make up. Those that are not given have no field. -/
def GivenExecution.fields (given : GivenExecution) : List (GivenField ExecutionSettings) :=
  GivenField.ofOption "timeout_ms" (fun value => DigitsOf value.toNat)
      (fun value settings => { settings with timeoutMs := value }) given.timeoutMs ++
    (GivenField.ofOption "max_timer_turns" (fun value => DigitsOf value.toNat)
      (fun value settings => { settings with maxTimerTurns := value }) given.maxTimerTurns ++
    GivenField.ofOption "max_pending_jobs" (fun value => DigitsOf value.toNat)
      (fun value settings => { settings with maxPendingJobs := value }) given.maxPendingJobs)

def GivenPreview.fields (given : GivenPreview) : List (GivenField PreviewSettings) :=
  GivenField.ofOption "quiet_period_ms" (fun value => DigitsOf value.toNat)
      (fun value settings => { settings with quietPeriodMs := value }) given.quietPeriodMs ++
    GivenField.ofOption "channel_capacity" (fun value => DigitsOf value.toNat)
      (fun value settings => { settings with channelCapacity := value }) given.channelCapacity

def GivenMarkup.fields (given : GivenMarkup) : List (GivenField Sentinels) :=
  GivenField.ofOption "stylesheet_sentinel" StringText
      (fun value sentinels => { sentinels with stylesheet := value }) given.stylesheet ++
    GivenField.ofOption "script_sentinel" StringText
      (fun value sentinels => { sentinels with script := value }) given.script

/-- The fields that given settings make up, each written as an object in any order. -/
def Given.fields (given : Given) : List (GivenField Settings) :=
  GivenField.ofOption "execution" (fun value => ObjectText executionNames value.fields)
      (fun value settings => { settings with execution := value.settings }) given.execution ++
    (GivenField.ofOption "preview" (fun value => ObjectText previewNames value.fields)
      (fun value settings => { settings with preview := value.settings }) given.preview ++
    GivenField.ofOption "markup" (fun value => ObjectText markupNames value.fields)
      (fun value settings => { settings with markup := value.settings }) given.markup)

/-- An object in which a field of the settings or of one of their records stands for the second
time, and nothing is wrong before. -/
inductive RepeatsField : List Char → Prop where
  | outside {given : Given} {text : List Char} (repeats : Repeats names given.fields text) :
      RepeatsField text
  | execution {given : Given} {nested : GivenExecution} {text : List Char}
      (repeats : RepeatsInside names given.fields "execution"
        (Repeats executionNames nested.fields) text) : RepeatsField text
  | preview {given : Given} {nested : GivenPreview} {text : List Char}
      (repeats : RepeatsInside names given.fields "preview"
        (Repeats previewNames nested.fields) text) : RepeatsField text
  | markup {given : Given} {nested : GivenMarkup} {text : List Char}
      (repeats : RepeatsInside names given.fields "markup"
        (Repeats markupNames nested.fields) text) : RepeatsField text

/-! ## Fields -/

theorem accepts_word64 (word : UInt64) :
    Accepts readWord64 (Nat.toDigits 10 word.toNat) word := by
  have bounded := word.toNat_lt
  have accepts : Accepts (natural (Nat.pow 2 64 - 1)) (Nat.toDigits 10 word.toNat) word.toNat :=
    accepts_natural (by simp; omega) (Nat.le_refl _)
  have mapped : Accepts readWord64 (Nat.toDigits 10 word.toNat) (UInt64.ofNat word.toNat) :=
    accepts.map fun read => by simp only [readWord64, read]
  rwa [UInt64.ofNat_toNat] at mapped

theorem accepts_word32 (word : UInt32) :
    Accepts readWord32 (Nat.toDigits 10 word.toNat) word := by
  have bounded := word.toNat_lt
  have accepts : Accepts (natural (Nat.pow 2 32 - 1)) (Nat.toDigits 10 word.toNat) word.toNat :=
    accepts_natural (by simp; omega) (by decide)
  have mapped : Accepts readWord32 (Nat.toDigits 10 word.toNat) (UInt32.ofNat word.toNat) :=
    accepts.map fun read => by simp only [readWord32, read]
  rwa [UInt32.ofNat_toNat] at mapped

theorem suits_execution (given : GivenExecution) : Suits executionFields given.fields where
  offered := by
    simp only [GivenExecution.fields, List.forall_mem_append]
    refine ⟨offers_ofOption rfl ?_ _, offers_ofOption rfl ?_ _, offers_ofOption rfl ?_ _⟩
    · rintro value _ rfl
      exact (accepts_word64 value).field _ _
    · rintro value _ rfl
      exact (accepts_word32 value).field _ _
    · rintro value _ rfl
      exact (accepts_word32 value).field _ _
  distinct := by
    rcases given with ⟨_ | _, _ | _, _ | _⟩ <;> simp [GivenExecution.fields]
  commutes := by
    rcases given with ⟨_ | _, _ | _, _ | _⟩ <;> simp [GivenExecution.fields, GivenField.Commute]

theorem suits_preview (given : GivenPreview) : Suits previewFields given.fields where
  offered := by
    simp only [GivenPreview.fields, List.forall_mem_append]
    refine ⟨offers_ofOption rfl ?_ _, offers_ofOption rfl ?_ _⟩
    · rintro value _ rfl
      exact (accepts_word64 value).field _ _
    · rintro value _ rfl
      exact (accepts_word64 value).field _ _
  distinct := by
    rcases given with ⟨_ | _, _ | _⟩ <;> simp [GivenPreview.fields]
  commutes := by
    rcases given with ⟨_ | _, _ | _⟩ <;> simp [GivenPreview.fields, GivenField.Commute]

theorem suits_markup (given : GivenMarkup) : Suits markupFields given.fields where
  offered := by
    simp only [GivenMarkup.fields, List.forall_mem_append]
    refine ⟨offers_ofOption rfl ?_ _, offers_ofOption rfl ?_ _⟩
    · intro value _ written
      exact (accepts_string written).field _ _
    · intro value _ written
      exact (accepts_string written).field _ _
  distinct := by
    rcases given with ⟨_ | _, _ | _⟩ <;> simp [GivenMarkup.fields]
  commutes := by
    rcases given with ⟨_ | _, _ | _⟩ <;> simp [GivenMarkup.fields, GivenField.Commute]

theorem accepts_execution (given : GivenExecution) {text : List Char}
    (written : ObjectText executionNames given.fields text) :
    Accepts (record executionFields {}) text given.settings :=
  accepts_of_objectText (suits_execution given) written <| by
    rcases given with ⟨_ | _, _ | _, _ | _⟩ <;> rfl

theorem accepts_preview (given : GivenPreview) {text : List Char}
    (written : ObjectText previewNames given.fields text) :
    Accepts (record previewFields {}) text given.settings :=
  accepts_of_objectText (suits_preview given) written <| by
    rcases given with ⟨_ | _, _ | _⟩ <;> rfl

theorem accepts_markup (given : GivenMarkup) {text : List Char}
    (written : ObjectText markupNames given.fields text) :
    Accepts (record markupFields .default) text given.settings :=
  accepts_of_objectText (suits_markup given) written <| by
    rcases given with ⟨_ | _, _ | _⟩ <;> rfl

theorem suits_given (given : Given) : Suits Settings.fields given.fields where
  offered := by
    simp only [Given.fields, List.forall_mem_append]
    refine ⟨offers_ofOption rfl ?_ _, offers_ofOption rfl ?_ _, offers_ofOption rfl ?_ _⟩
    · intro value _ written
      exact (accepts_execution value written).field _ _
    · intro value _ written
      exact (accepts_preview value written).field _ _
    · intro value _ written
      exact (accepts_markup value written).field _ _
  distinct := by
    rcases given with ⟨_ | _, _ | _, _ | _⟩ <;> simp [Given.fields]
  commutes := by
    rcases given with ⟨_ | _, _ | _, _ | _⟩ <;> simp [Given.fields, GivenField.Commute]

theorem accepts_given (given : Given) {text : List Char}
    (written : ObjectText names given.fields text) :
    Accepts (record Settings.fields {}) text given.settings :=
  accepts_of_objectText (suits_given given) written <| by
    rcases given with ⟨_ | _, _ | _, _ | _⟩ <;> rfl

/-! ## Texts -/

theorem RepeatsField.refused {text : List Char} (repeats : RepeatsField text) :
    Refuses (record Settings.fields {}) text := by
  cases repeats with
  | @outside given _ repeats => exact repeats.refused (suits_given given) {}
  | @execution given nested _ repeats =>
    exact repeats.refused (suits_given given) rfl
      (fun _ inside => (inside.refused (suits_execution nested) {}).field _ _) {}
  | @preview given nested _ repeats =>
    exact repeats.refused (suits_given given) rfl
      (fun _ inside => (inside.refused (suits_preview nested) {}).field _ _) {}
  | @markup given nested _ repeats =>
    exact repeats.refused (suits_given given) rfl
      (fun _ inside => (inside.refused (suits_markup nested) .default).field _ _) {}

/-- Settings are read whatever the order in which a text gives them and whatever other members it
has: they have the given values, and the defaults for the rest. A field that stands twice in one
object is refused. -/
theorem ofJsonText_of_given (text : String) :
    (∀ (given : Given) (before object after : List Char), Blanks before → Blanks after →
      ObjectText names given.fields object → text.toList = before ++ (object ++ after) →
        ofJsonText text = .ok given.settings) ∧
    (∀ before object : List Char, Blanks before → RepeatsField object →
      text.toList = before ++ object → ofJsonText text = .error .mismatched) := by
  constructor
  · intro given before object after blank blankAfter written whole
    exact whole_of_accepts (accepts_given given written) blank blankAfter whole
  · intro before object blank repeats whole
    exact whole_of_refuses repeats.refused blank whole

theorem ofJsonText_of_shuffled :
    ofJsonText ("\x7b\"mode\":[1],\"preview\":\x7b\"channel_capacity\":4\x7d," ++
          "\"execution\":\x7b\x7d\x7d") = .ok { preview := { channelCapacity := 4 } } ∧
      ofJsonText "\x7b\"preview\":\x7b\x7d,\"preview\":1\x7d" = .error .mismatched := by
  have nothing : Blanks [] := by simp [Blanks]
  have one : WellFormed .value _ :=
    .number (@NumberText.mk [] ['1'] [] [] (by simp) ⟨by simp, by simp⟩ (by simp) .absent .absent)
  have mode : MemberText names ([] : List (GivenField Settings)) _ :=
    .other (by decide) (nameText_quoted "mode") nothing (.list (.lastItem nothing one nothing))
      nothing
  have capacity : MemberText previewNames (⟨none, some 4⟩ : GivenPreview).fields _ :=
    .given (nameText_quoted _) nothing rfl nothing
  have preview : MemberText names (⟨none, some ⟨none, some 4⟩, none⟩ : Given).fields _ :=
    .given (nameText_quoted _) nothing (.filled .none capacity (.refl _)) nothing
  have execution : MemberText names (⟨some ⟨none, none, none⟩, none, none⟩ : Given).fields _ :=
    .given (nameText_quoted _) nothing (.empty nothing) nothing
  have shuffled :
      ObjectText names (⟨some ⟨none, none, none⟩, some ⟨none, some 4⟩, none⟩ : Given).fields _ :=
    .filled (.more mode (.more preview .none)) execution (.swap _ _ [])
  have bare : MemberText names (⟨none, some ⟨none, none⟩, none⟩ : Given).fields _ :=
    .given (nameText_quoted _) nothing (.empty nothing) nothing
  have repeated : Repeats names (⟨none, some ⟨none, none⟩, none⟩ : Given).fields _ :=
    .mk (.more bare .none) (.refl _) (.head _) nothing (stringText_quoted _) [':', '1', '\x7d']
  exact ⟨(ofJsonText_of_given _).1 _ [] _ [] nothing nothing shuffled (by decide +kernel),
    (ofJsonText_of_given _).2 [] _ nothing (.outside repeated) (by decide +kernel)⟩

end Playground.Settings
