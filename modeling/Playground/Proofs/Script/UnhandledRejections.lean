import Playground.Proofs.Script.Turns

/-!
# What the rejection log says

Each entry of the rejection log is about a promise that was rejected and that nothing handles, and
has the message of the reason (`LogSound`). A promise is settled once, so an entry stays true until
a handler is attached, and then it is struck out. Executions leave a sound log to the next one,
so an execution that an entry stops is stopped by a rejection that is still unhandled.
-/

namespace Playground.Script

/-- A promise was rejected with a reason, and nothing handles it. -/
def Unhandled (promises : Array Promise) (key : Nat) (reason : Value) : Prop :=
  ∃ reactions, promises[key]? = some ⟨some (.rejected reason), reactions, false⟩

/-- An entry of the log is about a rejection that nothing handles. -/
def Notes (promises : Array Promise) (entry : Nat × String) : Prop :=
  ∃ reason, Unhandled promises entry.1 reason ∧ entry.2 = reason.rejectionMessage

/-- Every entry of the log is about a rejection that nothing handles. -/
def Machine.LogSound (machine : Machine) : Prop :=
  ∀ entry ∈ machine.rejections.entries, Notes machine.promises entry

/-- A promise has one reason. -/
theorem Unhandled.reason_eq {promises : Array Promise} {key : Nat} {reason other : Value}
    (unhandled : Unhandled promises key reason) (again : Unhandled promises key other) :
    reason = other := by
  obtain ⟨_, held⟩ := unhandled
  obtain ⟨_, same⟩ := again
  rw [held] at same
  cases same
  rfl

/-- What is known of a promise is known of another table that holds it as well. -/
theorem Notes.of_getElem?_eq {promises others : Array Promise} {entry : Nat × String}
    (notes : Notes promises entry) (same : others[entry.1]? = promises[entry.1]?) :
    Notes others entry := by
  obtain ⟨reason, ⟨reactions, held⟩, message⟩ := notes
  exact ⟨reason, ⟨reactions, same.trans held⟩, message⟩

namespace Machine

variable {machine : Machine}

/-- No entry is about a promise that is pending. -/
theorem LogSound.ne_of_pending (sound : machine.LogSound) {key : Nat} {promise : Promise}
    (held : machine.promises[key]? = some promise) (pending : promise.settlement = none)
    {entry : Nat × String} (member : entry ∈ machine.rejections.entries) : key ≠ entry.1 := by
  rintro rfl
  obtain ⟨reason, ⟨reactions, rejected⟩, -⟩ := sound entry member
  rw [held] at rejected
  cases rejected
  cases pending

/-- Entries about other promises stay true. -/
theorem LogSound.notes_set (sound : machine.LogSound) {key : Nat} (promise : Promise)
    {entry : Nat × String} (member : entry ∈ machine.rejections.entries)
    (different : key ≠ entry.1) : Notes (machine.promises.setIfInBounds key promise) entry :=
  (sound entry member).of_getElem?_eq (Array.getElem?_setIfInBounds_ne different)

theorem LogSound.push (sound : machine.LogSound) (promise : Promise) :
    LogSound { machine with promises := machine.promises.push promise } := by
  intro entry member
  obtain ⟨reason, ⟨reactions, held⟩, message⟩ := sound entry member
  have old : entry.1 < machine.promises.size := (Array.getElem?_eq_some_iff.mp held).1
  refine (sound entry member).of_getElem?_eq ?_
  rw [Array.getElem?_push, if_neg (Nat.ne_of_lt old)]

/-- Settling a promise notes it if it is rejected and nothing handles it. -/
theorem LogSound.settle (sound : machine.LogSound) (key : Nat) (settlement : Settlement) :
    (machine.settle key settlement).LogSound := by
  unfold Machine.settle
  split
  case h_1 => exact sound
  case h_2 promise held =>
    split
    case isTrue => exact sound
    case isFalse unsettled =>
      have pending : promise.settlement = none := by simpa using unsettled
      have kept (settled : Promise) : ∀ entry ∈ machine.rejections.entries,
          Notes (machine.promises.setIfInBounds key settled) entry :=
        fun entry member => sound.notes_set settled member (sound.ne_of_pending held pending member)
      cases settlement with
      | fulfilled value => exact kept _
      | rejected reason =>
        simp only [noteSettlement]
        split
        case isTrue => exact kept _
        case isFalse unhandled =>
          have inBounds := (Array.getElem?_eq_some_iff.mp held).1
          refine List.forall_mem_append.mpr ⟨kept _, List.forall_mem_singleton.mpr ?_⟩
          refine ⟨reason, ⟨[], ?_⟩, rfl⟩
          rw [Array.getElem?_setIfInBounds_self_of_lt inBounds, Bool.not_eq_true _ |>.mp unhandled]

/-- Attaching a reaction strikes the entries of the promise out. -/
theorem LogSound.react (sound : machine.LogSound) (key : Nat) (reaction : Reaction) :
    (machine.react key reaction).LogSound := by
  unfold Machine.react
  split
  case h_1 => exact sound
  case h_2 promise held =>
    split
    case h_1 pending =>
      exact fun entry member =>
        sound.notes_set _ member (sound.ne_of_pending held pending member)
    case h_2 settlement settled =>
      intro entry member
      obtain ⟨noted, different⟩ := List.mem_filter.mp member
      exact sound.notes_set _ noted (bne_iff_ne.mp different).symm

end Machine

variable {start machine next after : Machine} {event : Event} {events : List Event}

theorem Step.logSound (taken : Step machine event next) (sound : machine.LogSound) :
    next.LogSound := by
  cases taken with
  | promise => exact sound.push .fresh
  | settle key settlement => exact sound.settle key settlement
  | react key reaction => exact sound.react key reaction
  | poll => exact nofun
  | identify | assign | print | enqueue | expire | number | arm | clear | begin | fire | finish
  | abandon => exact sound

theorem Steps.logSound (steps : Steps start events machine) (sound : start.LogSound) :
    machine.LogSound := by
  induction steps with
  | refl => exact sound
  | step _ taken inductionHypothesis => exact taken.logSound inductionHypothesis

/-! ## Executions -/

variable {session : Session} {program : Source} {limits : Limits} {stop : Stop} {left : Nat}

/-- An execution that an entry stops is stopped by a rejection that nothing handles. -/
theorem Settles.notes (settles : Settles limits left machine events stop after)
    (sound : machine.LogSound) :
    ∀ key message, stop = .unhandled key message → Notes after.promises (key, message) := by
  induction settles with
  | jobsSpent | quiet | timersSpent | threw => exact nofun
  | unhandled drains earliest =>
    rintro key message ⟨⟩
    exact drains.steps.logSound sound _ (List.mem_of_head? earliest)
  | turned rests fires _ inductionHypothesis =>
    exact inductionHypothesis ((rests.steps.trans fires.steps).logSound sound)

theorem Executes.notes {key : Nat} {message : String}
    (executes : Executes session program events (.unhandled key message) after)
    (sound : session.machine.LogSound) : Notes after.promises (key, message) := by
  cases executes with
  | settled body settles => exact settles.notes (body.steps.logSound sound) key message rfl

/-- Making up a message changes a machine by steps of statements only. -/
theorem scripted_faultMessage (value : Value) : Scripted (Run.faultMessage value) := by
  unfold Run.faultMessage
  split
  · exact .pure _
  · exact .pure _
  · split
    · exact .pure _
    · exact (scripted_conversionError _).bind fun _ => .pure _

theorem Stop.scripted_report (limits : Limits) (stop : Stop) : Scripted (stop.report limits) := by
  cases stop with
  | threw thrower value => exact (scripted_faultMessage value).bind fun _ => .pure _
  | quiet | unhandled | timersSpent | jobsSpent => exact .pure _

/-- An execution leaves a sound log. -/
theorem Session.logSound_execute (session : Session) (program : Source)
    (sound : session.machine.LogSound) : (session.execute program).2.machine.LogSound := by
  obtain ⟨events, stop, after, executes⟩ := exists_executes session program
  obtain ⟨more, reports⟩ := (stop.scripted_report session.limits).performs after
  have final := (executes.steps.trans reports.steps).logSound sound
  rw [Session.execute, executes.outcome]
  exact final

/-- A session in which programs were executed one after another. -/
def Session.ofPrograms (limits : Limits) (programs : List Source) : Session :=
  programs.foldl (fun session program => (session.execute program).2) (.start limits)

theorem Session.logSound_ofPrograms (limits : Limits) (programs : List Source) :
    (Session.ofPrograms limits programs).machine.LogSound := by
  have initial : (Session.start limits).machine.LogSound := nofun
  unfold Session.ofPrograms
  generalize Session.start limits = session at initial
  induction programs generalizing session with
  | nil => exact initial
  | cons program programs inductionHypothesis =>
    exact inductionHypothesis _ (session.logSound_execute program initial)

end Playground.Script
