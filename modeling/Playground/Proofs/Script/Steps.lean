import Playground.Proofs.Number.TimeLine
import Playground.Script.Session

/-!
# What statements do to a machine

Everything that changes a machine is one of a few operations, each of which is a step here
(`Step`). Statements take the steps that need no driver: names, lines, promises and jobs, and timers
that are armed or cleared. The rest is up to the driver that takes jobs, reads the rejection log and
fires timers. A step is labelled by what it does to jobs, rejections and timers.

A body, a job's reaction or a call is `Scripted`: from any machine it takes steps of statements
only. What holds of machines is then shown of single steps.
-/

namespace Playground.Script

/-! ## Timers that are armed -/

namespace Timers

variable {α : Type}

/-- The timer that the next identifier is given to. -/
def next (timers : Timers α) (wait : Number) (repeats : Bool) (payload : α) : Timer α :=
  ⟨timers.nextId, timers.clock + wait, wait, repeats, payload⟩

/-- Takes the next identifier and arms a timer with it. -/
def start (timers : Timers α) (wait : Number) (repeats : Bool) (payload : α) : Timers α :=
  timers.takeId.2.arm timers.takeId.1 wait repeats payload

/-- What the timer that is being fired is armed as again, if it is. -/
def rearmed? (timers : Timers α) : Option (Timer α) :=
  match timers.firing with
  | none => none
  | some timer =>
    if timer.repeats then some { timer with due := timers.clock + timer.wait } else none

end Timers

/-- A machine with its timers changed. -/
def Machine.changeTimers (machine : Machine)
    (change : Timers TimerAction → Timers TimerAction) : Machine :=
  { machine with timers := change machine.timers }

/-! ## Steps -/

/-- What a step does to jobs, rejections and timers. -/
inductive Event where
  /-- Timers stand as they stood, and no job or rejection is taken. -/
  | internal
  | armed (timer : Timer TimerAction)
  | cleared (id : Nat)
  /-- A job is taken from the queue. -/
  | began (job : Job)
  /-- The rejection log is read and cleared. -/
  | polled (earliest : Option (Nat × String))
  | fired (timer : Timer TimerAction)
  /-- The callback of the timer that was fired is over. -/
  | finished (rearmed : Option (Timer TimerAction))

/-- The timer that a step fires. -/
def Event.fired? : Event → Option (Timer TimerAction)
  | .fired timer => some timer
  | _ => none

/-- The timers that fired, in order. -/
def firings (events : List Event) : List (Timer TimerAction) :=
  events.filterMap Event.fired?

@[simp]
theorem firings_append (events more : List Event) :
    firings (events ++ more) = firings events ++ firings more :=
  List.filterMap_append

@[simp]
theorem firings_cons (event : Event) (events : List Event) :
    firings (event :: events) = event.fired?.toList ++ firings events := by
  cases event <;> rfl

@[simp]
theorem firings_nil : firings [] = [] := rfl

/-- Whether statements can do it. -/
def Event.IsScripted : Event → Prop
  | .internal | .armed _ | .cleared _ => True
  | .began _ | .polled _ | .fired _ | .finished _ => False

/-- One step of a machine. -/
inductive Step : Machine → Event → Machine → Prop where
  | identify {machine} :
      Step machine .internal { machine with nextIdentity := machine.nextIdentity + 1 }
  | assign {machine} (name : String) (value : Value) :
      Step machine .internal (machine.assign name value)
  | print {machine} (line : String) : Step machine .internal (machine.print line)
  | promise {machine} :
      Step machine .internal { machine with promises := machine.promises.push .fresh }
  | settle {machine} (key : Nat) (settlement : Settlement) :
      Step machine .internal (machine.settle key settlement)
  | react {machine} (key : Nat) (reaction : Reaction) :
      Step machine .internal (machine.react key reaction)
  | enqueue {machine} (job : Job) : Step machine .internal (machine.enqueue job)
  | expire {machine} : Step machine .internal { machine with expired := true }
  /-- An identifier is used up by a timer whose delay is no number. -/
  | number {machine} : Step machine .internal (machine.changeTimers fun timers => timers.takeId.2)
  | arm {machine wait} (waits : wait.IsWait) (repeats : Bool) (action : TimerAction) :
      Step machine (.armed (machine.timers.next wait repeats action))
        (machine.changeTimers (·.start wait repeats action))
  | clear {machine} (id : Nat) : Step machine (.cleared id) (machine.changeTimers (·.clear id))
  | begin {machine job rest} (first : machine.jobs = job :: rest) :
      Step machine (.began job) { machine with jobs := rest }
  | poll {machine} :
      Step machine (.polled machine.rejections.entries.head?) { machine with rejections := .empty }
  | fire {machine timer} (earliest : machine.timers.earliest? = some timer) :
      Step machine (.fired timer) (machine.changeTimers (·.fire timer))
  | finish {machine} :
      Step machine (.finished machine.timers.rearmed?) (machine.changeTimers (·.finishFiring))
  /-- The callback threw. -/
  | abandon {machine} : Step machine (.finished none) (machine.changeTimers (·.abandonFiring))

/-- Steps from one machine to another. -/
inductive Steps (start : Machine) : List Event → Machine → Prop where
  | refl : Steps start [] start
  | step {events machine event next} (prior : Steps start events machine)
      (taken : Step machine event next) : Steps start (events ++ [event]) next

variable {start machine after : Machine} {events : List Event}

theorem Steps.single {event : Event} (taken : Step machine event after) :
    Steps machine [event] after :=
  Steps.refl.step taken

theorem Steps.trans {more : List Event} (first : Steps start events machine)
    (second : Steps machine more after) : Steps start (events ++ more) after := by
  induction second with
  | refl => simpa using first
  | step _ taken inductionHypothesis =>
    rw [← List.append_assoc]
    exact inductionHypothesis.step taken

/-- Each event is that of a step on the way. -/
theorem Steps.exists_step {event : Event} {before later : List Event}
    (steps : Steps start (before ++ event :: later) after) : ∃ machine next,
      Steps start before machine ∧ Step machine event next ∧ Steps next later after := by
  generalize whole : before ++ event :: later = events at steps
  induction steps generalizing later with
  | refl => simp at whole
  | @step events machine last next prior taken inductionHypothesis =>
    rcases List.eq_nil_or_concat later with rfl | ⟨later, final, rfl⟩
    · obtain ⟨rfl, same⟩ := List.append_inj' whole rfl
      cases same
      exact ⟨machine, next, prior, taken, .refl⟩
    · have split : (before ++ event :: later) ++ [final] = events ++ [last] := by simpa using whole
      obtain ⟨front, same⟩ := List.append_inj' split rfl
      cases same
      obtain ⟨earlier, reached, first, step, rest⟩ := inductionHypothesis front
      exact ⟨earlier, reached, first, step, by simpa using rest.step taken⟩

/-- Steps pass through a machine wherever they are split. -/
theorem Steps.split {before later : List Event} (steps : Steps start (before ++ later) after) :
    ∃ machine, Steps start before machine ∧ Steps machine later after := by
  cases later with
  | nil => exact ⟨after, by simpa using steps, .refl⟩
  | cons event later =>
    obtain ⟨machine, next, first, step, rest⟩ := steps.exists_step
    exact ⟨machine, first, (Steps.single step).trans rest⟩

/-! ## Computations of statements -/

/-- A computation comes to a result by steps of statements. -/
structure Performs {α : Type} (run : Run α) (machine : Machine) (events : List Event) (result : α)
    (after : Machine) : Prop where
  outcome : run.run machine = (result, after)
  steps : Steps machine events after
  scripted : ∀ event ∈ events, event.IsScripted

/-- From any machine, a computation takes steps of statements only. -/
structure Scripted {α : Type} (run : Run α) : Prop where
  performs : ∀ machine, ∃ events,
    Performs run machine events (run.run machine).1 (run.run machine).2

namespace Scripted

variable {α β : Type} {run : Run α}

theorem pure (value : α) : Scripted (Pure.pure value : Run α) where
  performs machine := ⟨[], rfl, .refl, by simp⟩

theorem bind (first : Scripted run) {next : α → Run β} (second : ∀ value, Scripted (next value)) :
    Scripted (run >>= next) where
  performs machine := by
    obtain ⟨events, earlier⟩ := first.performs machine
    obtain ⟨more, later⟩ := (second (run.run machine).1).performs (run.run machine).2
    refine ⟨events ++ more, rfl, earlier.steps.trans later.steps, fun event member => ?_⟩
    exact (List.mem_append.mp member).elim (earlier.scripted event) (later.scripted event)

/-- A computation that is one step. -/
theorem of_step
    (taken : ∀ machine, ∃ event, event.IsScripted ∧ Step machine event (run.run machine).2) :
    Scripted run where
  performs machine := by
    obtain ⟨event, scripted, step⟩ := taken machine
    exact ⟨[event], rfl, .single step, by simpa using scripted⟩

/-- A step that timers take no part in. -/
theorem of_internal (taken : ∀ machine, Step machine .internal (run.run machine).2) :
    Scripted run :=
  of_step fun machine => ⟨.internal, trivial, taken machine⟩

theorem get : Scripted (MonadState.get : Run Machine) where
  performs machine := ⟨[], rfl, .refl, by simp⟩

end Scripted

/-! ## Operations -/

section Operations

open Scripted (of_internal)

variable (name : Option String) (value : Value) (body : List Statement)

theorem scripted_freshIdentity : Scripted Run.freshIdentity :=
  of_internal fun _ => .identify

theorem scripted_freshPromise : Scripted Run.freshPromise :=
  of_internal fun _ => .promise

theorem scripted_assign (name : String) : Scripted (modify (·.assign name value) : Run Unit) :=
  of_internal fun _ => .assign name value

theorem scripted_settle (key : Nat) (settlement : Settlement) :
    Scripted (modify (·.settle key settlement) : Run Unit) :=
  of_internal fun _ => .settle key settlement

theorem scripted_bindName : Scripted (Run.bindName name value) := by
  cases name with
  | none => exact .pure ()
  | some name => exact scripted_assign value name

theorem scripted_typeError (message : String) : Scripted (Run.typeError message) :=
  scripted_freshIdentity.bind fun _ => .pure _

theorem scripted_reactTo (reaction : Reaction) : Scripted (Run.reactTo value reaction) := by
  cases value with
  | promise key => exact of_internal fun _ => .react key reaction
  | _ => exact of_internal fun _ => .enqueue _

/-! ### Expressions and conversions -/

theorem scripted_evaluate (arguments : List Value) :
    (∀ expression : Expression, Scripted (expression.evaluate arguments)) ∧
      ∀ expressions, Scripted (Expression.evaluateAll arguments expressions) := by
  refine Expression.evaluate.mutual_induct _ _ ?_ ?_ ?_ ?_ ?_ ?_ ?symbol ?list ?object ?error
    ?unprintable ?_ ?name ?_ ?cons
  case list =>
    intro items inductionHypothesis
    exact inductionHypothesis.bind fun _ => scripted_freshIdentity.bind fun _ => .pure _
  case cons =>
    intro expression rest first others
    exact first.bind fun _ => others.bind fun _ => .pure _
  case name => exact fun name => Scripted.get.bind fun _ => .pure _
  case object => exact scripted_freshIdentity.bind fun _ => .pure _
  case symbol | unprintable => exact fun _ => scripted_freshIdentity.bind fun _ => .pure _
  case error => exact fun _ _ => scripted_freshIdentity.bind fun _ => .pure _
  all_goals
    intros
    exact .pure _

theorem scripted_conversionError (fault : ConversionFault) :
    Scripted (Run.conversionError fault) := by
  cases fault with
  | thrown reason arguments => exact (scripted_evaluate arguments).1 reason
  | symbolToText | symbolToNumber | numberToBigInteger => exact scripted_typeError _

theorem scripted_throwConversion (fault : ConversionFault) :
    Scripted (Run.throwConversion fault) :=
  (scripted_conversionError fault).bind fun _ => .pure _

/-! ### Simple statements -/

theorem scripted_printValues (values : List Value) : Scripted (Run.printValues values) := by
  unfold Run.printValues
  cases Value.lineText values with
  | error fault => exact scripted_throwConversion fault
  | ok line => exact (of_internal fun _ => .print line).bind fun _ => .pure _

/-- Numbering and arming a timer is one step, since nothing happens in between. -/
theorem scripted_startTimer (request : TimerRequest) (callback delay : Value)
    (arguments : List Value) :
    Scripted (Run.startTimer request callback delay arguments) := by
  cases converted : delay.toDelay with
  | error fault =>
    have shape : Run.startTimer request callback delay arguments =
        (Run.takeTimerId >>= fun _ => Run.throwConversion fault) := by
      simp only [Run.startTimer, converted]
    rw [shape]
    exact (of_internal fun _ => .number).bind fun _ => scripted_throwConversion fault
  | ok wait =>
    let arms : Run Nat := do
      let id ← Run.takeTimerId
      Run.modifyTimers (·.arm id wait request.repeats ⟨callback, arguments⟩)
      return id
    have shape : Run.startTimer request callback delay arguments =
        (arms >>= fun id => Run.bindName request.name (.number (.ofNat id)) >>= fun _ =>
          Run.done) := by
      simp only [Run.startTimer, converted]
      rfl
    have waits : wait.IsWait := by
      unfold Value.toDelay at converted
      split at converted
      · cases converted
        exact Number.isWait_clampAtZero _
      · cases converted
    have armed : Scripted arms :=
      .of_step fun _ => ⟨.armed _, trivial, .arm waits request.repeats ⟨callback, arguments⟩⟩
    rw [shape]
    exact armed.bind fun id => (scripted_bindName _ _).bind fun _ => .pure _

theorem scripted_clearTimer : Scripted (Run.clearTimer value) := by
  unfold Run.clearTimer
  cases value.toTimerId? with
  | none => exact .pure _
  | some id =>
    exact (Scripted.of_step fun _ => ⟨.cleared id, trivial, .clear id⟩).bind fun _ => .pure _

theorem scripted_afterSettled : Scripted (Run.afterSettled value body) :=
  scripted_freshPromise.bind fun _ => (scripted_reactTo value _).bind fun _ => .pure _

theorem scripted_rejectAs : Scripted (Run.rejectAs name value) :=
  scripted_freshPromise.bind fun _ => (scripted_settle _ _).bind fun _ =>
    (scripted_bindName name _).bind fun _ => .pure _

theorem scripted_recoverFrom : Scripted (Run.recoverFrom value body) := by
  cases value with
  | promise key =>
    exact scripted_freshPromise.bind fun derived =>
      (of_internal fun _ => .react key (.recover body derived)).bind fun _ => .pure _
  | _ => exact (scripted_typeError _).bind fun _ => .pure _

theorem scripted_countName (name : String) : Scripted (Run.countName name) := by
  refine Scripted.get.bind fun machine => ?_
  cases (machine.valueOf name).increment with
  | error fault => exact scripted_throwConversion fault
  | ok value => exact (scripted_assign value name).bind fun _ => .pure _

theorem scripted_expire : Scripted Run.expire :=
  (of_internal fun _ => .expire).bind fun _ => scripted_freshIdentity.bind fun _ => .pure _

theorem scripted_finishBody (promise : Nat) (completion : Completion) :
    Scripted (Run.finishBody promise completion) := by
  cases completion with
  | ended ending => exact scripted_settle promise ending.settlement
  | waiting wait => exact scripted_reactTo wait.value _

/-! ### Attempts -/

variable {handler closing next : Run Completion}

theorem scripted_closeWith (closes : Scripted closing) (ending : Ending) :
    Scripted (Run.closeWith ending closing) := by
  cases ending with
  | normal =>
    refine closes.bind fun completion => ?_
    cases completion <;> exact .pure _
  | thrown value =>
    cases interrupted : value.isInterruption with
    | true =>
      simp only [Run.closeWith, interrupted, if_true]
      exact .pure _
    | false =>
      simp only [Run.closeWith, interrupted, Bool.false_eq_true, if_false]
      refine closes.bind fun completion => ?_
      rcases completion with (_ | _) | _ <;> exact .pure _

theorem scripted_afterHandler (closes : Scripted closing) (completion : Completion)
    (closingPart : List Statement) :
    Scripted (Run.afterHandler completion closingPart closing) := by
  cases completion with
  | ended ending => exact scripted_closeWith closes ending
  | waiting wait => exact .pure _

theorem scripted_afterBody (handles : Scripted handler) (closes : Scripted closing)
    (completion : Completion) (handlerPart closingPart : List Statement) :
    Scripted (Run.afterBody completion handlerPart closingPart handler closing) := by
  rcases completion with (_ | value) | wait
  · exact scripted_closeWith closes .normal
  · cases interrupted : value.isInterruption with
    | true =>
      simp only [Run.afterBody, Run.handle, interrupted, if_true]
      exact .pure _
    | false =>
      simp only [Run.afterBody, Run.handle, interrupted, Bool.false_eq_true, if_false]
      exact (scripted_assign value "error").bind fun _ => handles.bind fun completion =>
        scripted_afterHandler closes completion closingPart
  · exact .pure _

theorem scripted_afterStatement (goesOn : Scripted next) (completion : Completion)
    (rest : List Statement) : Scripted (Run.afterStatement completion rest next) := by
  rcases completion with (_ | value) | wait
  · exact goesOn
  · exact .pure _
  · exact .pure _

end Operations

/-! ## Statements, calls and jobs -/

/-- Every call takes steps of statements. -/
def Caller.Scripted (call : Caller) : Prop :=
  ∀ taken body arguments, Script.Scripted (call taken body arguments)

theorem Caller.Scripted.inside {call : Caller} (calls : call.Scripted) : call.inside.Scripted :=
  fun taken => calls (taken + asynchronousRoom)

theorem scripted_callValue {call : Caller} (calls : call.Scripted) (value : Value)
    (arguments : List Value) : Scripted (Run.callValue call value arguments) := by
  cases value with
  | function _ body => exact (calls 0 body arguments).bind fun _ => .pure _
  | _ => exact (scripted_typeError _).bind fun _ => .pure _

theorem scripted_statements :
    (∀ (call : Caller) (arguments : List Value) (statement : Statement), call.Scripted →
        Scripted (statement.run call arguments)) ∧
      ∀ (call : Caller) (arguments : List Value) (statements : List Statement), call.Scripted →
        Scripted (Statement.runAll call arguments statements) := by
  refine Statement.run.mutual_induct _ _ ?print ?throw ?startTimer ?startTimerWith ?clearTimer
    ?afterSettled ?reject ?recover ?spawn ?await ?attempt ?define ?call ?count ?when ?assign
    ?forever ?nil ?cons
  case print =>
    intro call arguments expressions _
    exact ((scripted_evaluate arguments).2 expressions).bind fun _ => scripted_printValues _
  case throw =>
    intro call arguments value _
    exact ((scripted_evaluate arguments).1 value).bind fun _ => .pure _
  case startTimer =>
    intro call arguments request body _
    exact scripted_freshIdentity.bind fun _ =>
      ((scripted_evaluate arguments).1 request.delay).bind fun _ =>
        ((scripted_evaluate arguments).2 request.arguments).bind fun _ => scripted_startTimer ..
  case startTimerWith =>
    intro call arguments request callback _
    exact ((scripted_evaluate arguments).1 callback).bind fun _ =>
      ((scripted_evaluate arguments).1 request.delay).bind fun _ =>
        ((scripted_evaluate arguments).2 request.arguments).bind fun _ => scripted_startTimer ..
  case clearTimer =>
    intro call arguments timer _
    exact ((scripted_evaluate arguments).1 timer).bind fun _ => scripted_clearTimer _
  case afterSettled =>
    intro call arguments value body _
    exact ((scripted_evaluate arguments).1 value).bind fun _ => scripted_afterSettled _ body
  case reject =>
    intro call arguments name reason _
    exact ((scripted_evaluate arguments).1 reason).bind fun _ => scripted_rejectAs name _
  case recover =>
    intro call arguments name body _
    exact Scripted.get.bind fun _ => scripted_recoverFrom _ body
  case spawn =>
    intro call arguments name body inductionHypothesis calls
    exact scripted_freshPromise.bind fun _ => (inductionHypothesis calls.inside).bind fun _ =>
      (scripted_finishBody _ _).bind fun _ => (scripted_bindName name _).bind fun _ => .pure _
  case await =>
    intro call arguments name value _
    exact ((scripted_evaluate arguments).1 value).bind fun _ => .pure _
  case attempt =>
    intro call arguments body handler closing runs handles closes calls
    exact (runs calls).bind fun _ => scripted_afterBody (handles calls) (closes calls) ..
  case define =>
    intro call arguments name body _
    exact scripted_freshIdentity.bind fun _ => (scripted_assign _ name).bind fun _ => .pure _
  case call =>
    intro call arguments name expressions calls
    exact ((scripted_evaluate arguments).2 expressions).bind fun _ =>
      Scripted.get.bind fun _ => scripted_callValue calls ..
  case count => exact fun call arguments name _ => scripted_countName name
  case when =>
    intro call arguments name expected body inductionHypothesis calls
    refine Scripted.get.bind fun _ => ((scripted_evaluate arguments).1 expected).bind fun _ => ?_
    split
    · exact inductionHypothesis calls
    · exact .pure _
  case assign =>
    intro call arguments name value _
    exact ((scripted_evaluate arguments).1 value).bind fun _ =>
      (scripted_assign _ name).bind fun _ => .pure _
  case forever => exact fun call arguments _ => scripted_expire
  case nil => exact fun call arguments _ => .pure _
  case cons =>
    intro call arguments statement rest first others calls
    exact (first calls).bind fun _ => scripted_afterStatement (others calls) ..

theorem scripted_resumeFrames {call : Caller} (calls : call.Scripted) (ending : Ending)
    (frames : List Frame) : Scripted (resumeFrames call ending frames) := by
  have runs := fun body => scripted_statements.2 call [] body calls
  induction frames generalizing ending with
  | nil => exact .pure _
  | cons frame outer inductionHypothesis =>
    cases frame
    case' statements rest => refine (scripted_afterStatement (runs rest) ..).bind ?_
    case' guarded handler closing =>
      refine (scripted_afterBody (runs handler) (runs closing) ..).bind ?_
    case' closing closing => refine (scripted_afterHandler (runs closing) ..).bind ?_
    case' pending kept => refine (scripted_closeWith (.pure _) kept).bind ?_
    -- Whatever the frame was, what it comes to goes on to the outer frames or waits.
    all_goals
      rintro (next | wait)
      · exact inductionHypothesis next
      · exact .pure _

theorem scripted_resumeBody {call : Caller} (calls : call.Scripted) (name : Option String)
    (frames : List Frame) (settlement : Settlement) :
    Scripted (resumeBody call name frames settlement) := by
  cases settlement with
  | fulfilled value =>
    exact (scripted_bindName name value).bind fun _ => scripted_resumeFrames calls ..
  | rejected reason => exact scripted_resumeFrames calls ..

theorem scripted_refuseCall : Scripted refuseCall :=
  scripted_freshIdentity.bind fun _ => .pure _

theorem scripted_callBody (depth : Nat) : (callBody depth).Scripted := by
  induction depth with
  | zero => exact fun _ _ _ => scripted_refuseCall
  | succ depth inductionHypothesis =>
    intro taken body arguments
    unfold callBody
    split
    · exact scripted_refuseCall
    · have nested : Caller.Scripted fun more => callBody depth (taken + more) :=
        fun more => inductionHypothesis (taken + more)
      exact (scripted_statements.2 _ arguments body nested).bind fun _ => .pure _

theorem scripted_callFunction : callFunction.Scripted :=
  scripted_callBody callDepth

theorem scripted_job (job : Job) : Scripted (job.run callFunction) := by
  obtain ⟨reaction, settlement⟩ := job
  cases reaction with
  | proceed body derived =>
    cases settlement with
    | fulfilled value =>
      exact (scripted_callFunction 0 body [value]).bind fun _ => scripted_settle derived _
    | rejected reason => exact scripted_settle derived _
  | recover body derived =>
    cases settlement with
    | fulfilled value => exact scripted_settle derived _
    | rejected reason =>
      exact (scripted_callFunction 0 body [reason]).bind fun _ => scripted_settle derived _
  | resume name frames promise =>
    exact (scripted_resumeBody scripted_callFunction name frames settlement).bind fun _ =>
      scripted_finishBody promise _

theorem scripted_timerAction (action : TimerAction) : Scripted action.run := by
  unfold TimerAction.run
  split
  · exact scripted_callFunction 0 _ _
  · exact .pure _

end Playground.Script
