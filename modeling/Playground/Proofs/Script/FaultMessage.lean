import Playground.Proofs.Script.Quiescence
import Playground.Proofs.Script.UnhandledRejections

/-!
# The messages of faults

A value that stops an execution is reported by its message: an error's own, or else the text that
the value is shown as (`Value.message?`). Values that were thrown and reasons of rejections are
described by two functions, which agree on all values with such a message except symbols. A symbol
is shown, but it does not convert, so as a reason it is an uncaught exception.
-/

namespace Playground.Script

/-! ## Values and their messages -/

namespace Value

def isSymbol : Value → Bool
  | .symbol _ _ => true
  | _ => false

/-- An error's own message, or the text that another value is shown as. There is none if showing
the value throws. -/
def message? : Value → Option String
  | .error _ _ message => some message
  | .interruption _ => some interruptionMessage
  | value => value.display.toOption

variable {value : Value} {text : String}

/-- Of values with a message, only symbols have another one as a reason. -/
theorem rejectionMessage_of_message?_eq_some (described : value.message? = some text) :
    value.rejectionMessage = if value.isSymbol then "uncaught exception" else text := by
  cases value with
  | error | interruption => cases described; rfl
  | symbol => rfl
  | undefined | null | boolean | number | text | bigInteger | list | object | unprintable | function
  | promise =>
    simp only [message?, display] at described
    simp only [rejectionMessage, isSymbol, Bool.false_eq_true, if_false]
    split
    case h_1 shown => rw [shown] at described; exact Option.some.inj described
    case h_2 failed => rw [failed] at described; cases described

theorem rejectionMessage_of_message?_eq_none (undescribed : value.message? = none) :
    value.rejectionMessage = "uncaught exception" := by
  cases value with
  | error | interruption | symbol => cases undescribed
  | undefined | null | boolean | number | text | bigInteger | list | object | unprintable | function
  | promise =>
    simp only [message?, display] at undescribed
    simp only [rejectionMessage]
    split
    case h_1 shown => rw [shown] at undescribed; cases undescribed
    case h_2 => rfl

/-- A symbol has a message that is not the one of uncaught exceptions. -/
theorem ne_uncaught_of_isSymbol (symbol : value.isSymbol) (described : value.message? = some text) :
    text ≠ "uncaught exception" := by
  cases value with
  | symbol identity description =>
    cases described
    intro same
    have first := congrArg (·.toList.head?) same
    simp at first
  | _ => cases symbol

end Value

/-- A thrown value is reported by its message. -/
theorem faultMessage_of_message?_eq_some {value : Value} {text : String}
    (described : value.message? = some text) (machine : Machine) :
    (Run.faultMessage value).run machine = (text, machine) := by
  cases value with
  | error | interruption => cases described; rfl
  | _ =>
    simp only [Value.message?] at described
    simp only [Run.faultMessage]
    split
    case h_1 shown => rw [shown] at described; cases described; rfl
    case h_2 failed => rw [failed] at described; cases described

theorem faultMessage_of_display_eq_error {value : Value} {fault : ConversionFault}
    (failed : value.display = .error fault) (machine : Machine) :
    (Run.faultMessage value).run machine =
      (((Run.conversionError fault).run machine).1.rejectionMessage,
        ((Run.conversionError fault).run machine).2) := by
  cases value with
  | error | interruption => cases failed
  | _ =>
    simp only [Run.faultMessage, failed]
    rfl

/-! ## Executions that a value stops -/

/-- Whether a rejection that nothing handles stopped the execution. -/
def Stop.IsRejection : Stop → Prop
  | .unhandled _ _ => True
  | .quiet | .threw _ _ | .timersSpent | .jobsSpent => False

/-- The value that stopped an execution: it was thrown, or a promise was rejected with it that
nothing handles. -/
inductive Stop.Raised (after : Machine) : Stop → Value → Prop where
  | threw (thrower : Thrower) (value : Value) : Raised after (.threw thrower value) value
  | unhandled {key : Nat} {reason : Value} (message : String)
      (unhandled : Unhandled after.promises key reason) :
      Raised after (.unhandled key message) reason

/-- How an execution that a value stopped reports it. -/
structure Reports (value : Value) (session : Session) (program : Source) (stop : Stop)
    (after : Machine) : Prop where
  /-- The message of a value is reported, unless the value is a symbol and a reason. -/
  described : ∀ text, value.message? = some text →
    ((session.execute program).1 = some (.raised text) ↔
      (stop.IsRejection → value.isSymbol = false))
  /-- Other reasons are uncaught exceptions. -/
  uncaught : stop.IsRejection → (value.isSymbol ∨ value.message? = none) →
    (session.execute program).1 = some (.raised "uncaught exception")
  /-- A thrown value that cannot be shown is reported by what showing it threw, like a reason. -/
  unshown : ∀ fault, ¬stop.IsRejection → value.display = .error fault →
    (session.execute program).1 =
      some (.raised ((Run.conversionError fault).run after).1.rejectionMessage)

section Reports

variable {session : Session} {program : Source} {events : List Event} {stop : Stop}
  {machine after : Machine} {value : Value}

theorem Session.verdict_of_inTime (session : Session) (fault : Option RunFault)
    (inTime : machine.expired = false) : session.verdict machine fault = fault := by
  unfold Session.verdict
  split
  · exact if_neg (by rw [inTime]; exact Bool.false_ne_true)
  · rfl

/-- An execution that ends before the deadline is not reported as timed out. -/
theorem Executes.ne_timedOut (executes : Executes session program events stop after)
    (inTime : ((stop.report session.limits).run after).2.expired = false) (limit : Nat) :
    (session.execute program).1 ≠ some (.timedOut limit) := by
  rw [executes.verdict_eq, session.verdict_of_inTime _ inTime]
  cases stop <;> exact nofun

/-- Messages are those of values that stopped the execution. -/
theorem Executes.exists_raised {message : String}
    (executes : Executes session program events stop after) (sound : session.machine.LogSound)
    (answer : (session.execute program).1 = some (.raised message)) :
    ∃ value, stop.Raised after value := by
  have report := executes.report_eq answer nofun
  cases stop with
  | threw thrower value => exact ⟨value, .threw thrower value⟩
  | unhandled key message =>
    obtain ⟨reason, noted, -⟩ := executes.notes sound
    exact ⟨reason, .unhandled message noted⟩
  | quiet | timersSpent | jobsSpent => cases report

section Answers

variable (inTime : ∀ limit, (session.execute program).1 ≠ some (.timedOut limit))

include inTime

theorem Executes.answer_of_threw {thrower : Thrower}
    (executes : Executes session program events (.threw thrower value) after) :
    (session.execute program).1 = some (.raised ((Run.faultMessage value).run after).1) := by
  rw [← executes.report_eq rfl inTime]
  rfl

/-- A rejection that stops an execution is reported by the message of its reason. -/
theorem Executes.answer_of_unhandled {key : Nat} {message : String}
    (executes : Executes session program events (.unhandled key message) after)
    (sound : session.machine.LogSound) (unhandled : Unhandled after.promises key value) :
    (session.execute program).1 = some (.raised value.rejectionMessage) := by
  obtain ⟨reason, noted, same⟩ := executes.notes sound
  rw [noted.reason_eq unhandled] at same
  rw [← executes.report_eq rfl inTime, ← same]
  rfl

theorem Executes.reports (executes : Executes session program events stop after)
    (sound : session.machine.LogSound) (raised : stop.Raised after value) :
    Reports value session program stop after := by
  cases raised with
  | threw thrower =>
    have answer := executes.answer_of_threw inTime
    refine ⟨fun text described => ?_, fun rejection => rejection.elim, fun fault _ failed => ?_⟩
    · rw [answer, faultMessage_of_message?_eq_some described]
      exact ⟨fun _ => nofun, fun _ => rfl⟩
    · rw [answer, faultMessage_of_display_eq_error failed]
  | unhandled message unhandled =>
    have answer := executes.answer_of_unhandled inTime sound unhandled
    refine ⟨fun text described => ?_, fun _ undescribed => ?_,
      fun _ thrown => absurd trivial thrown⟩
    · rw [answer, Value.rejectionMessage_of_message?_eq_some described]
      cases symbol : value.isSymbol with
      | false => exact ⟨fun _ _ => rfl, fun _ => rfl⟩
      | true =>
        have different := Value.ne_uncaught_of_isSymbol symbol described
        refine ⟨fun same => ?_, fun kept => absurd (kept trivial) nofun⟩
        exact absurd (RunFault.raised.inj (Option.some.inj same)).symm different
    · rw [answer]
      cases described : value.message? with
      | none => rw [Value.rejectionMessage_of_message?_eq_none described]
      | some text =>
        have symbol : value.isSymbol := by simpa [described] using undescribed
        rw [Value.rejectionMessage_of_message?_eq_some described, if_pos symbol]

end Answers

end Reports

/-! ## The ways of raising a value -/

/-- Where a value comes from that stops an execution. -/
inductive Way where
  | body
  | callback
  | asynchronous
  | rejection
  deriving DecidableEq, Repr

/-- Raises the value of a name. -/
def Way.program (way : Way) (name : String) : List Statement :=
  match way with
  | .body => [.throw (.variable name)]
  | .callback => [.startTimer ⟨false, .undefined, [], none⟩ [.throw (.variable name)]]
  | .asynchronous => [.spawn none [.throw (.variable name)]]
  | .rejection => [.reject none (.variable name)]

/-- Whether the value becomes a reason. -/
def Way.Rejects : Way → Prop
  | .body | .callback => False
  | .asynchronous | .rejection => True

/-- A session in which nothing is left over from earlier programs. -/
structure Session.Quiet (session : Session) : Prop where
  jobs : session.machine.jobs = []
  rejections : session.machine.rejections = .empty
  inTime : session.machine.expired = false
  fires : 0 < session.limits.maxTimerTurns

theorem Session.Quiet.handled {session : Session} (quiet : session.Quiet) :
    session.prepared.rejections.entries = [] := by
  have empty : session.prepared.rejections = .empty := quiet.rejections
  rw [empty]
  rfl

section Ways

variable {session : Session} {machine after : Machine} {body : List Statement}
  {arguments : List Value}

/-- A function ends as its body does. -/
theorem callFunction_eq (completion : Completion)
    (ran : (Statement.runAll (fun more => callBody 429 (0 + more)) arguments body).run machine =
      (completion, after)) :
    (callFunction 0 body arguments).run machine = (completion.ending, after) := by
  change (callBody (429 + 1) 0 body arguments).run machine = _
  rw [callBody, if_neg (Nat.not_lt_zero _), run_bind_of_eq ran]
  rfl

theorem exists_performs {α : Type} {run : Run α} {result : α} (scripted : Scripted run)
    (outcome : run.run machine = (result, after)) :
    ∃ events, Performs run machine events result after := by
  obtain ⟨events, performs⟩ := scripted.performs machine
  rw [outcome] at performs
  exact ⟨events, performs⟩

/-- Rejecting a promise that is new notes it. -/
theorem settle_fresh (machine : Machine) (reason : Value) :
    ({ machine with promises := machine.promises.push .fresh }).settle machine.promises.size
        (.rejected reason) =
      { machine with
        promises := machine.promises.push ⟨some (.rejected reason), [], false⟩
        rejections := machine.rejections.note machine.promises.size reason.rejectionMessage } := by
  simp [Machine.settle, Machine.enqueueAll, Machine.noteSettlement, Promise.fresh,
    Array.setIfInBounds, Array.set_push]

/-- Throwing in an asynchronous body rejects its promise, like rejecting one at once. -/
theorem Way.run_of_rejects (way : Way) (rejects : way.Rejects) (name : String)
    (machine : Machine) : (callFunction 0 (way.program name) []).run machine = (.normal,
      ({ machine with promises := machine.promises.push .fresh }).settle machine.promises.size
        (.rejected (machine.valueOf name))) := by
  cases way with
  | body | callback => exact rejects.elim
  | asynchronous | rejection => exact callFunction_eq (.ended .normal) rfl

theorem throw_run (name : String) (arguments : List Value) (machine : Machine) :
    (callFunction 0 [.throw (.variable name)] arguments).run machine =
      (.thrown (machine.valueOf name), machine) :=
  callFunction_eq (.ended (.thrown _)) rfl

/-- The log is read in the first turn. -/
theorem Way.exists_executes_of_rejects (way : Way) (rejects : way.Rejects) (name : String)
    (quiet : session.Quiet) :
    ∃ events stop after, Executes session (.script (way.program name)) events stop after ∧
      stop.Raised after (session.machine.valueOf name) ∧ (stop.IsRejection ↔ way.Rejects) ∧
        after.expired = false := by
  have ran := way.run_of_rejects rejects name session.prepared
  rw [settle_fresh] at ran
  obtain ⟨events, body⟩ := exists_performs (scripted_callFunction 0 _ []) ran
  have earliest : (session.prepared.rejections.note session.prepared.promises.size
      (session.machine.valueOf name).rejectionMessage).entries.head? =
      some (session.prepared.promises.size, (session.machine.valueOf name).rejectionMessage) := by
    rw [RejectionLog.note, quiet.handled]
    rfl
  exact ⟨_, _, _, .settled body (.unhandled (.done quiet.jobs) earliest),
    .unhandled _ ⟨[], Array.getElem?_push_size⟩, iff_of_true trivial rejects, quiet.inTime⟩

/-- Each way raises the value. -/
theorem Way.exists_executes (way : Way) (name : String) (quiet : session.Quiet) :
    ∃ events stop after, Executes session (.script (way.program name)) events stop after ∧
      stop.Raised after (session.machine.valueOf name) ∧ (stop.IsRejection ↔ way.Rejects) ∧
        after.expired = false := by
  cases way with
  | body =>
    obtain ⟨events, body⟩ :=
      exists_performs (scripted_callFunction 0 _ []) (throw_run name [] session.prepared)
    exact ⟨_, _, _, .threw body, .threw _ _, .rfl, quiet.inTime⟩
  | callback =>
    -- The only timer fires in the first turn, for which there is room.
    let action : TimerAction :=
      ⟨.function session.prepared.nextIdentity [.throw (.variable name)], []⟩
    let timer : Timer TimerAction := Timers.initial.next .zero false action
    let armed : Machine :=
      ({ session.prepared with
          nextIdentity := session.prepared.nextIdentity + 1 }).changeTimers
        (·.start .zero false action)
    have ran : (callFunction 0 (Way.program .callback name) []).run session.prepared =
        (.normal, armed) := callFunction_eq (.ended .normal) rfl
    obtain ⟨events, body⟩ := exists_performs (scripted_callFunction 0 _ []) ran
    have rests : Rests session.limits armed ([] ++ [.polled none])
        { armed with rejections := .empty } := .intro (.done quiet.jobs) quiet.handled
    obtain ⟨firing, callback⟩ := exists_performs (scripted_timerAction action)
      (throw_run name [] (({ armed with rejections := .empty }).changeTimers (·.fire timer)))
    have fires : Fires timer { armed with rejections := .empty } _ (.thrown _) _ :=
      .threw rfl callback
    obtain ⟨left, room⟩ : ∃ left, session.limits.maxTimerTurns = left + 1 :=
      Nat.exists_eq_succ_of_ne_zero (Nat.ne_of_gt quiet.fires)
    have settles : Settles session.limits (left + 1) armed _ (.threw .callback _) _ :=
      .threw rests fires
    rw [← room] at settles
    exact ⟨_, _, _, .settled body settles, .threw _ _, .rfl, quiet.inTime⟩
  | asynchronous | rejection =>
    exact Way.exists_executes_of_rejects _ (by exact trivial) name quiet

/-- A way reports the message of a value, unless the value is a symbol and becomes a reason. -/
theorem Session.Quiet.way_iff (quiet : session.Quiet) (way : Way) (name : String) {text : String}
    (described : (session.machine.valueOf name).message? = some text) :
    (session.execute (.script (way.program name))).1 = some (.raised text) ↔
      (way.Rejects → (session.machine.valueOf name).isSymbol = false) := by
  have sound : session.machine.LogSound := by
    intro entry noted
    rw [quiet.rejections] at noted
    exact absurd noted nofun
  obtain ⟨events, stop, after, executes, raised, rejects, inTime⟩ :=
    way.exists_executes name quiet
  have final : ((stop.report session.limits).run after).2 = after := by
    cases raised with
    | threw =>
      rw [Stop.report, run_bind_of_eq (faultMessage_of_message?_eq_some described after)]
      rfl
    | unhandled => rfl
  have answered := executes.ne_timedOut (by rw [final]; exact inTime)
  rw [← rejects]
  exact (executes.reports answered sound raised).described text described

end Ways

/-! ## One message -/

/-- The four ways of raising a value all report its message if and only if the value is no symbol;
and in every execution, after whatever its session has executed, a value that stops it is reported
by its message, unless it is a symbol and the reason of a rejection. -/
theorem raised_iff_not_isSymbol (value : Value) :
    (∀ (session : Session) (name : String) (text : String), session.Quiet →
      session.machine.valueOf name = value → value.message? = some text →
      ((∀ way : Way, (session.execute (.script (way.program name))).1 = some (.raised text)) ↔
        value.isSymbol = false)) ∧
    ∀ limits earlier program events stop after,
      Executes (Session.ofPrograms limits earlier) program events stop after →
        stop.Raised after value →
          (∀ limit, ((Session.ofPrograms limits earlier).execute program).1 ≠
            some (.timedOut limit)) →
            Reports value (Session.ofPrograms limits earlier) program stop after := by
  refine ⟨?_, fun limits earlier _ _ _ _ executes raised inTime =>
    executes.reports inTime (Session.logSound_ofPrograms limits earlier) raised⟩
  rintro session name text quiet rfl described
  constructor
  · exact fun all => (quiet.way_iff .rejection name described).mp (all .rejection) trivial
  · exact fun noSymbol way => (quiet.way_iff way name described).mpr fun _ => noSymbol

/-- A text has one message. -/
theorem text_has_one_message : ∀ way : Way,
    (Session.execute ⟨.ofSettings {}, { Machine.initial with names := [("reason", .text "stop")] }⟩
      (.script (way.program "reason"))).1 = some (.raised "stop") :=
  ((raised_iff_not_isSymbol (.text "stop")).1 _ "reason" "stop" ⟨rfl, rfl, rfl, by decide⟩ rfl
    rfl).mpr rfl

/-- A symbol that is thrown and one that a promise is rejected with. -/
theorem symbol_has_two_messages :
    ((Session.start (.ofSettings {})).execute (.script [.throw (.symbol "s")])).1 =
        some (.raised "Symbol(s)") ∧
      ((Session.start (.ofSettings {})).execute (.script [.reject none (.symbol "s")])).1 =
        some (.raised "uncaught exception") :=
  ⟨by decide +kernel, by decide +kernel⟩

end Playground.Script
