import Playground.Script.Rejections

/-!
# What a rejection log reports

A log hears of rejections, of handlers and of takes. A rejection *stands* as long as no take and no
handler of its promise has followed it, and the notes of a log are the rejections that stand, in
order (`entries_after`). So a take reports the earliest of them, whatever happened to other
promises, and the log starts afresh behind it (`answers_earliest`).
-/

namespace Playground.Script

/-- What happens to a rejection log. -/
inductive RejectionEvent where
  /-- A promise that nothing handles is rejected. -/
  | rejected (key : Nat) (reason : String)
  /-- A handler is attached to a promise. -/
  | handled (key : Nat)
  /-- The log is asked for the earliest reason. -/
  | taken
  deriving DecidableEq

namespace RejectionLog

/-- The log after an event. -/
def record (log : RejectionLog) : RejectionEvent → RejectionLog
  | .rejected key reason => log.note key reason
  | .handled key => log.strike key
  | .taken => log.take.2

/-- The log after events, one after another. -/
def after (log : RejectionLog) (events : List RejectionEvent) : RejectionLog :=
  events.foldl record log

/-- What the takes among events answer, in order. -/
def answers (log : RejectionLog) : List RejectionEvent → List (Option String)
  | [] => []
  | .rejected key reason :: events => answers (log.note key reason) events
  | .handled key :: events => answers (log.strike key) events
  | .taken :: events => log.take.1 :: answers log.take.2 events

/-- The reasons of the rejections among events, in order. -/
def reasons : List RejectionEvent → List String
  | [] => []
  | .rejected _ reason :: events => reason :: reasons events
  | .handled _ :: events | .taken :: events => reasons events

/-! ## Rejections that stand -/

/-- A rejection still counts after the events that followed it: no take reported or dropped it, and
its promise was not handled. -/
def Stands (key : Nat) (since : List RejectionEvent) : Prop :=
  .taken ∉ since ∧ .handled key ∉ since

instance (key : Nat) (since : List RejectionEvent) : Decidable (Stands key since) :=
  inferInstanceAs (Decidable (_ ∧ _))

/-- A rejection among events that stands after them. -/
def Outstanding (events : List RejectionEvent) (key : Nat) (reason : String) : Prop :=
  ∃ earlier later, events = earlier ++ .rejected key reason :: later ∧ Stands key later

/-- The earliest rejection that stands after events. -/
inductive Earliest : List RejectionEvent → Nat → String → Prop where
  | intro (earlier : List RejectionEvent) {later : List RejectionEvent} {key : Nat}
      {reason : String} (stands : Stands key later)
      (first : ∀ before other cause since, earlier = before ++ .rejected other cause :: since →
        ¬Stands other (since ++ .rejected key reason :: later)) :
      Earliest (earlier ++ .rejected key reason :: later) key reason

/-- What a take has to answer after events. -/
inductive Reports (events : List RejectionEvent) : Option String → Prop where
  | reason {key : Nat} {reason : String} (earliest : Earliest events key reason) :
      Reports events (some reason)
  | nothing (quiet : ∀ key reason, ¬Outstanding events key reason) : Reports events none

/-- The rejections that stand after events, with their promises, in order. -/
def standing : List RejectionEvent → List (Nat × String)
  | [] => []
  | .rejected key reason :: since =>
    if Stands key since then (key, reason) :: standing since else standing since
  | .handled _ :: since | .taken :: since => standing since

variable {log : RejectionLog} {events more earlier later since : List RejectionEvent}
  {key other : Nat} {reason cause : String} {notes : List (Nat × String)}

@[simp]
theorem stands_nil : Stands key [] := by
  simp [Stands]

@[simp]
theorem stands_rejected : Stands key (.rejected other reason :: since) ↔ Stands key since := by
  simp [Stands]

@[simp]
theorem stands_handled :
    Stands key (.handled other :: since) ↔ key ≠ other ∧ Stands key since := by
  simp [Stands, and_left_comm]

@[simp]
theorem not_stands_taken : ¬Stands key (.taken :: since) := by
  simp [Stands]

@[simp]
theorem stands_append : Stands key (events ++ more) ↔ Stands key events ∧ Stands key more := by
  simp [Stands, and_and_and_comm]

theorem mem_standing : (key, reason) ∈ standing events ↔ Outstanding events key reason := by
  induction events with
  | nil => simp [standing, Outstanding]
  | cons event events inductionHypothesis =>
    -- a rejection among the events stands in front of them, or later
    have split : Outstanding (event :: events) key reason ↔
        (event = .rejected key reason ∧ Stands key events) ∨ Outstanding events key reason := by
      constructor
      · rintro ⟨_ | ⟨_, earlier⟩, later, same, stands⟩
        · obtain ⟨rfl, rfl⟩ := List.cons.inj same
          exact .inl ⟨rfl, stands⟩
        · obtain ⟨rfl, rfl⟩ := List.cons.inj same
          exact .inr ⟨earlier, later, rfl, stands⟩
      · rintro (⟨rfl, stands⟩ | ⟨earlier, later, rfl, stands⟩)
        · exact ⟨[], events, rfl, stands⟩
        · exact ⟨event :: earlier, later, rfl, stands⟩
    rw [split, ← inductionHypothesis]
    cases event with
    | rejected other cause =>
      by_cases stands : Stands other events
      · simp only [standing, stands, if_true, List.mem_cons, Prod.mk.injEq,
          RejectionEvent.rejected.injEq]
        grind
      · simp only [standing, stands, if_false, RejectionEvent.rejected.injEq]
        grind
    | handled | taken => simp [standing]

/-- The notes of a log after events: those of the old ones that still stand, and then the rejections
that stand among the events. -/
theorem entries_after (log : RejectionLog) (events : List RejectionEvent) :
    (log.after events).entries =
      log.entries.filter (fun entry => Stands entry.1 events) ++ standing events := by
  induction events generalizing log with
  | nil =>
    rw [standing, List.append_nil]
    exact (List.filter_eq_self.mpr (by simp)).symm
  | cons event events inductionHypothesis =>
    change ((log.record event).after events).entries = _
    rw [inductionHypothesis]
    cases event with
    | rejected key reason =>
      by_cases stands : Stands key events <;> simp [record, note, standing, stands]
    | handled key =>
      simp only [record, strike, standing, List.filter_filter, stands_handled]
      congr 2
      funext entry
      by_cases same : entry.1 = key <;> simp [same]
    | taken => simp [record, take, empty, standing]

theorem entries_after_empty (events : List RejectionEvent) :
    (empty.after events).entries = standing events := by
  rw [entries_after]
  rfl

/-- An event in front of the earliest rejection that stands, unless it is one that stands too. -/
theorem Earliest.cons (earliest : Earliest events key reason) {event : RejectionEvent}
    (fallen : ∀ other cause, event = .rejected other cause → ¬Stands other events) :
    Earliest (event :: events) key reason := by
  obtain ⟨earlier, stands, first⟩ := earliest
  refine .intro (event :: earlier) stands ?_
  intro before other cause since split
  cases before with
  | nil =>
    obtain ⟨rfl, rfl⟩ := List.cons.inj split
    exact fallen other cause rfl
  | cons _ before => exact first before other cause since (List.cons.inj split).2

theorem earliest_of_standing (left : standing events = (key, reason) :: notes) :
    Earliest events key reason := by
  induction events with
  | nil => simp [standing] at left
  | cons event events inductionHypothesis =>
    cases event with
    | rejected other cause =>
      by_cases stands : Stands other events
      · simp only [standing, stands, if_true, List.cons.injEq, Prod.mk.injEq] at left
        obtain ⟨⟨rfl, rfl⟩, -⟩ := left
        exact .intro [] stands (by simp)
      · simp only [standing, stands, if_false] at left
        refine (inductionHypothesis left).cons ?_
        rintro _ _ ⟨⟩
        exact stands
    | handled | taken => exact (inductionHypothesis left).cons nofun

/-- A take answers the earliest rejection that stands. -/
theorem reports_take (events : List RejectionEvent) :
    Reports events (empty.after events).take.1 := by
  rw [take, entries_after_empty]
  cases left : standing events with
  | nil =>
    refine .nothing fun key reason outstanding => ?_
    rw [← mem_standing, left] at outstanding
    cases outstanding
  | cons entry notes => exact .reason (earliest_of_standing left)

/-! ## Handlers -/

theorem standing_append (events more : List RejectionEvent) :
    standing (events ++ more) =
      (standing events).filter (fun entry => Stands entry.1 more) ++ standing more := by
  rw [← entries_after_empty, after, List.foldl_append]
  exact (entries_after (empty.after events) more).trans (by rw [entries_after_empty])

/-- Handling a promise leaves the rejections of the others outstanding, and makes no other so. -/
theorem outstanding_handled (different : other ≠ key) :
    Outstanding (earlier ++ .handled key :: later) other reason ↔
      Outstanding (earlier ++ later) other reason := by
  simp [← mem_standing, standing_append, standing, different]

theorem Earliest.exists_standing (earliest : Earliest events key reason) :
    ∃ notes, standing events = (key, reason) :: notes := by
  obtain @⟨earlier, later, _, _, stands, first⟩ := earliest
  have fallen : (standing earlier).filter
      (fun entry => Stands entry.1 (.rejected key reason :: later)) = [] := by
    rw [List.filter_eq_nil_iff]
    rintro ⟨other, cause⟩ member
    obtain ⟨before, since, rfl, standsBefore⟩ := mem_standing.mp member
    have falls := first before other cause since rfl
    rw [stands_append] at falls
    simpa using fun standsAfter => falls ⟨standsBefore, stands_rejected.mpr standsAfter⟩
  refine ⟨standing later, ?_⟩
  rw [standing_append, fallen, List.nil_append, standing, if_pos stands]

/-- Handling a promise does not keep a take from reporting another. -/
theorem Earliest.handled (earliest : Earliest (earlier ++ later) other reason)
    (different : other ≠ key) : Earliest (earlier ++ .handled key :: later) other reason := by
  obtain ⟨notes, left⟩ := earliest.exists_standing
  have narrowed : (standing earlier).filter
        (fun entry => Stands entry.1 (.handled key :: later)) =
      ((standing earlier).filter fun entry => Stands entry.1 later).filter (·.1 ≠ key) := by
    rw [List.filter_filter]
    simp
  rw [standing_append] at left
  have kept :
      ∃ others, standing (earlier ++ .handled key :: later) = (other, reason) :: others := by
    rw [standing_append, narrowed, standing]
    generalize (standing earlier).filter (fun entry => Stands entry.1 later) = old at left ⊢
    cases old with
    | nil => exact ⟨notes, left⟩
    | cons entry old =>
      obtain ⟨rfl, -⟩ := List.cons.inj left
      exact ⟨_, by rw [List.filter_cons_of_pos (by simpa using different), List.cons_append]⟩
  obtain ⟨_, left⟩ := kept
  exact earliest_of_standing left

/-- Handling a promise that was not rejected changes nothing. -/
theorem strike_after_empty (absent : ∀ reason, .rejected key reason ∉ events) :
    (empty.after events).strike key = empty.after events := by
  rw [strike, RejectionLog.mk.injEq, List.filter_eq_self, entries_after_empty]
  rintro ⟨other, reason⟩ member
  obtain ⟨earlier, later, rfl, -⟩ := mem_standing.mp member
  rw [bne_iff_ne]
  rintro rfl
  exact absent reason (by simp)

/-! ## Takes -/

theorem answers_append (log : RejectionLog) (events more : List RejectionEvent) :
    answers log (events ++ more) = answers log events ++ answers (log.after events) more := by
  induction events generalizing log with
  | nil => rfl
  | cons event events inductionHypothesis =>
    cases event with
    | taken => exact congrArg (log.take.1 :: ·) (inductionHypothesis log.take.2)
    | rejected key reason => exact inductionHypothesis (log.note key reason)
    | handled key => exact inductionHypothesis (log.strike key)

/-- A take starts the log afresh. -/
theorem answers_taken (before more : List RejectionEvent) :
    answers empty (before ++ .taken :: more) =
      answers empty before ++ (empty.after before).take.1 :: answers empty more :=
  answers_append empty before (.taken :: more)

/-- The reasons that takes report are those of different rejections, in order. -/
theorem reported_sublist (log : RejectionLog) (events : List RejectionEvent) :
    ((answers log events).filterMap id).Sublist
      (log.entries.map Prod.snd ++ reasons events) := by
  induction events generalizing log with
  | nil => exact List.nil_sublist _
  | cons event events inductionHypothesis =>
    cases event with
    | rejected key reason =>
      have noted := inductionHypothesis (log.note key reason)
      rwa [note, List.map_append, List.append_assoc] at noted
    | handled key =>
      have struck := inductionHypothesis (log.strike key)
      exact struck.trans ((List.filter_sublist.map _).append_right _)
    | taken =>
      have rest := inductionHypothesis empty
      rw [answers, reasons, take]
      cases log.entries with
      | nil => exact rest
      | cons entry entries => exact (rest.trans (List.sublist_append_right _ _)).cons_cons entry.2

/-- Every take reports the earliest rejection that stands since the take before it, or nothing if
none does. Handling a promise takes no other out of account, and handling it after the take that
followed its rejection changes no answer. No rejection is reported twice. -/
theorem answers_earliest :
    (∀ before more, ∃ answer, Reports before answer ∧
      answers empty (before ++ .taken :: more) =
        answers empty before ++ answer :: answers empty more) ∧
    (∀ earlier later key other reason, other ≠ key →
      (Outstanding (earlier ++ .handled key :: later) other reason ↔
        Outstanding (earlier ++ later) other reason) ∧
      (Earliest (earlier ++ later) other reason →
        Earliest (earlier ++ .handled key :: later) other reason)) ∧
    (∀ before between more key, (∀ reason, .rejected key reason ∉ between) →
      answers empty (before ++ .taken :: (between ++ .handled key :: more)) =
        answers empty (before ++ .taken :: (between ++ more))) ∧
    ∀ events, ((answers empty events).filterMap id).Sublist (reasons events) := by
  refine ⟨fun before more => ⟨_, reports_take before, answers_taken before more⟩,
    fun earlier later key other reason different =>
      ⟨outstanding_handled different, fun earliest => earliest.handled different⟩,
    fun before between more key absent => ?_, reported_sublist empty⟩
  have late :
      answers empty (between ++ .handled key :: more) = answers empty (between ++ more) := by
    rw [answers_append, answers_append, answers, strike_after_empty absent]
  rw [answers_taken, answers_taken, late]

end RejectionLog

end Playground.Script
