import Playground.Script.Machine

/-!
# Running statements

A block runs until it ends, throws or awaits. Only an asynchronous body can be resumed;
a wait anywhere else ends the body there. Calls of named functions go through a parameter,
so that the statements themselves are run by structural recursion, and `callBody` ties the
knot with a bound on nested calls. The start of an asynchronous body uses up some of the
bound as well.
-/

namespace Playground.Script

/-- Runs the body of a function on its arguments. The number is the room that the
asynchronous bodies around the call have taken up. -/
abbrev Caller := Nat → List Statement → List Value → Run Ending

/-- The room that the start of an asynchronous body takes up, in nested calls. -/
def asynchronousRoom : Nat := 2

/-- Calls from inside an asynchronous body. -/
def Caller.inside (call : Caller) : Caller := fun taken =>
  call (taken + asynchronousRoom)

/-! ## Expressions -/

namespace Expression

mutual

/-- The value of an expression. -/
def evaluate (arguments : List Value) : Expression → Run Value
  | .undefined => pure .undefined
  | .null => pure .null
  | .boolean value => pure (.boolean value)
  | .number value => pure (.number value)
  | .text value => pure (.text value)
  | .bigInteger value => pure (.bigInteger value)
  | .symbol description => do
    return .symbol (← Run.freshIdentity) description
  | .list items => do
    let values ← evaluateAll arguments items
    return .list (← Run.freshIdentity) values
  | .object => do
    return .object (← Run.freshIdentity)
  | .error className message => do
    return .error (← Run.freshIdentity) className message
  | .unprintable reason => do
    return .unprintable (← Run.freshIdentity) reason arguments
  | .argument index => pure (arguments[index]?.getD .undefined)
  | .variable name => do
    return (← get).valueOf name

/-- The values of expressions, from left to right. -/
def evaluateAll (arguments : List Value) : List Expression → Run (List Value)
  | [] => pure []
  | expression :: rest => do
    let value ← evaluate arguments expression
    let values ← evaluateAll arguments rest
    return value :: values

end

end Expression

namespace Run

/-! ## Failed conversions -/

/-- The value that a failed conversion throws. What an unprintable object throws is
evaluated anew each time. -/
def conversionError : ConversionFault → Run Value
  | .thrown reason arguments => reason.evaluate arguments
  | fault => typeError (fault.message?.getD "")

/-- The message of a value thrown by a body or a timer: an error's own message, or else
the text that the value is shown as. If it cannot be shown, what that throws is reported
like a rejection. -/
def faultMessage : Value → Run String
  | .error _ _ message => pure message
  | .interruption _ => pure Value.interruptionMessage
  | value =>
    match value.display with
    | .ok shown => pure shown
    | .error fault => do
      return (← conversionError fault).rejectionMessage

/-! ## Simple statements -/

/-- The block ends normally. -/
def done : Run Completion :=
  pure (.ended .normal)

/-- The block throws. -/
def throwing (value : Value) : Run Completion :=
  pure (.ended (.thrown value))

/-- Throws what a failed conversion throws. -/
def throwConversion (fault : ConversionFault) : Run Completion := do
  throwing (← conversionError fault)

/-- Prints values as one line. -/
def printValues (values : List Value) : Run Completion :=
  match Value.lineText values with
  | .error fault => throwConversion fault
  | .ok line => do
    modify (·.print line)
    done

/-- Starts a timer. Its identifier is taken before the delay is converted. -/
def startTimer (request : TimerRequest) (callback delay : Value) (arguments : List Value) :
    Run Completion := do
  let id ← takeTimerId
  match delay.toDelay with
  | .error fault => throwConversion fault
  | .ok wait =>
    modifyTimers (·.arm id wait request.repeats ⟨callback, arguments⟩)
    bindName request.name (.number (.ofNat id))
    done

/-- Clears the timer that a value identifies, if there is one. -/
def clearTimer (value : Value) : Run Completion := do
  match value.toTimerId? with
  | none => done
  | some id =>
    modifyTimers (·.clear id)
    done

/-- Attaches a reaction to a value: to the promise that it is, or to one that is fulfilled
with it. -/
def reactTo (value : Value) (reaction : Reaction) : Run Unit :=
  match value with
  | .promise key => modify (·.react key reaction)
  | other => modify (·.enqueue ⟨reaction, .fulfilled other⟩)

/-- Runs a body once a value is settled. -/
def afterSettled (value : Value) (body : List Statement) : Run Completion := do
  let derived ← freshPromise
  reactTo value (.proceed body derived)
  done

/-- Names a new promise that is rejected with a reason. -/
def rejectAs (name : Option String) (reason : Value) : Run Completion := do
  let key ← freshPromise
  modify (·.settle key (.rejected reason))
  bindName name (.promise key)
  done

/-- Runs a body when the promise that a value is gets rejected. -/
def recoverFrom (value : Value) (body : List Statement) : Run Completion := do
  match value with
  | .promise key =>
    let derived ← freshPromise
    modify (·.react key (.recover body derived))
    done
  | other =>
    let message :=
      if other.isMissing then
        "cannot read property 'catch' of " ++
          (match other with
          | .null => "null"
          | _ => "undefined")
      else "not a function"
    throwing (← typeError message)

/-- Calls the function that a value is. -/
def callValue (call : Caller) (value : Value) (arguments : List Value) : Run Completion := do
  match value with
  | .function _ body =>
    let ending ← call 0 body arguments
    return .ended ending
  | _ => throwing (← typeError "not a function")

/-- Adds one to a name. -/
def countName (name : String) : Run Completion := do
  match ((← get).valueOf name).increment with
  | .error fault => throwConversion fault
  | .ok value =>
    modify (·.assign name value)
    done

/-- Waits for a value. -/
def awaitValue (name : Option String) (value : Value) : Run Completion :=
  pure (.waiting ⟨value, name, []⟩)

/-- Lets the deadline pass. -/
def expire : Run Completion := do
  modify fun machine => { machine with expired := true }
  throwing (.interruption (← freshIdentity))

/-- Settles the promise of an asynchronous body that has ended, or resumes the body when
the value that it waits for is settled. -/
def finishBody (promise : Nat) : Completion → Run Unit
  | .ended ending => modify (·.settle promise ending.settlement)
  | .waiting wait => reactTo wait.value (.resume wait.name wait.frames promise)

/-! ## Attempts -/

/-- Runs a closing part after a block that ended. The ending stands unless the closing part
throws; the deadline is not held up. -/
def closeWith (ending : Ending) (closing : Run Completion) : Run Completion := do
  match ending with
  | .thrown value =>
    if value.isInterruption then throwing value
    else
      match ← closing with
      | .ended .normal => throwing value
      | .ended (.thrown other) => throwing other
      | .waiting wait => return .waiting (wait.within (.pending (.thrown value)))
  | .normal =>
    match ← closing with
    | .ended other => return .ended other
    | .waiting wait => return .waiting (wait.within (.pending .normal))

/-- Runs the closing part after a handler. -/
def afterHandler (completion : Completion) (closingPart : List Statement)
    (closing : Run Completion) : Run Completion :=
  match completion with
  | .ended ending => closeWith ending closing
  | .waiting wait => pure (.waiting (wait.within (.closing closingPart)))

/-- Runs the handler of a thrown value, which the name `error` holds, and the closing
part. -/
def handle (value : Value) (closingPart : List Statement) (handler closing : Run Completion) :
    Run Completion := do
  if value.isInterruption then throwing value
  else
    modify (·.assign "error" value)
    let completion ← handler
    afterHandler completion closingPart closing

/-- Runs the handler and the closing part of a block that has stopped. -/
def afterBody (completion : Completion) (handlerPart closingPart : List Statement)
    (handler closing : Run Completion) : Run Completion :=
  match completion with
  | .ended .normal => closeWith .normal closing
  | .ended (.thrown value) => handle value closingPart handler closing
  | .waiting wait => pure (.waiting (wait.within (.guarded handlerPart closingPart)))

/-- Runs the rest of a block after a statement that has stopped. -/
def afterStatement (completion : Completion) (rest : List Statement) (next : Run Completion) :
    Run Completion :=
  match completion with
  | .ended .normal => next
  | .ended (.thrown value) => throwing value
  | .waiting wait => pure (.waiting (wait.within (.statements rest)))

end Run

/-! ## Statements and blocks -/

mutual

/-- Runs a statement of a body that was called with the given arguments. -/
def Statement.run (call : Caller) (arguments : List Value) : Statement → Run Completion
  | .print expressions => do
    Run.printValues (← Expression.evaluateAll arguments expressions)
  | .throw value => do
    Run.throwing (← value.evaluate arguments)
  | .startTimer request body => do
    let callback := Value.function (← Run.freshIdentity) body
    let delay ← request.delay.evaluate arguments
    let extra ← Expression.evaluateAll arguments request.arguments
    Run.startTimer request callback delay extra
  | .startTimerWith request callback => do
    let callback ← callback.evaluate arguments
    let delay ← request.delay.evaluate arguments
    let extra ← Expression.evaluateAll arguments request.arguments
    Run.startTimer request callback delay extra
  | .clearTimer timer => do
    Run.clearTimer (← timer.evaluate arguments)
  | .afterSettled value body => do
    Run.afterSettled (← value.evaluate arguments) body
  | .reject name reason => do
    Run.rejectAs name (← reason.evaluate arguments)
  | .recover name body => do
    Run.recoverFrom ((← get).valueOf name) body
  | .spawn name body => do
    let promise ← Run.freshPromise
    let completion ← Statement.runAll (Caller.inside call) [] body
    Run.finishBody promise completion
    Run.bindName name (.promise promise)
    Run.done
  | .await name value => do
    Run.awaitValue name (← value.evaluate arguments)
  | .attempt body handler closing => do
    let completion ← Statement.runAll call arguments body
    Run.afterBody completion handler closing (Statement.runAll call arguments handler)
      (Statement.runAll call arguments closing)
  | .define name body => do
    let function := Value.function (← Run.freshIdentity) body
    modify (·.assign name function)
    Run.done
  | .call name expressions => do
    let values ← Expression.evaluateAll arguments expressions
    Run.callValue call ((← get).valueOf name) values
  | .count name => Run.countName name
  | .when name expected body => do
    let value := (← get).valueOf name
    if value.strictlyEquals (← expected.evaluate arguments) then
      Statement.runAll call arguments body
    else Run.done
  | .assign name value => do
    let value ← value.evaluate arguments
    modify (·.assign name value)
    Run.done
  | .forever => Run.expire

/-- Runs the statements of a block in order. -/
def Statement.runAll (call : Caller) (arguments : List Value) : List Statement → Run Completion
  | [] => Run.done
  | statement :: rest => do
    let completion ← Statement.run call arguments statement
    Run.afterStatement completion rest (Statement.runAll call arguments rest)

end

/-! ## Resuming -/

/-- Goes on with the frames of a suspended body after its innermost block has ended. -/
def resumeFrames (call : Caller) (ending : Ending) : List Frame → Run Completion
  | [] => pure (.ended ending)
  | frame :: outer => do
    let completion ←
      match frame with
      | .statements rest =>
        Run.afterStatement (.ended ending) rest (Statement.runAll call [] rest)
      | .guarded handler closing =>
        Run.afterBody (.ended ending) handler closing (Statement.runAll call [] handler)
          (Statement.runAll call [] closing)
      | .closing closing =>
        Run.afterHandler (.ended ending) closing (Statement.runAll call [] closing)
      | .pending kept => Run.closeWith kept (pure (.ended ending))
    match completion with
    | .ended next => resumeFrames call next outer
    | .waiting wait => return .waiting { wait with frames := wait.frames ++ outer }

/-- Resumes a suspended body with the settlement of the value that it waited for. -/
def resumeBody (call : Caller) (name : Option String) (frames : List Frame) :
    Settlement → Run Completion
  | .fulfilled value => do
    Run.bindName name value
    resumeFrames call .normal frames
  | .rejected reason => resumeFrames call (.thrown reason) frames

/-! ## Calls -/

/-- How a body ends that cannot be resumed. -/
def Completion.ending : Completion → Ending
  | .ended ending => ending
  | .waiting _ => .normal

/-- A call for which no room is left. -/
def refuseCall : Run Ending := do
  return .thrown (.error (← Run.freshIdentity) "InternalError" "stack overflow")

/-- Runs the body of a function, with a bound on the calls that may be nested in it. -/
def callBody : Nat → Caller
  | 0, _, _, _ => refuseCall
  | depth + 1, taken, body, arguments => do
    if depth < taken then refuseCall
    else
      let nested : Caller := fun more => callBody depth (taken + more)
      let completion ← Statement.runAll nested arguments body
      return completion.ending

/-- The number of calls that may be nested. -/
def callDepth : Nat := 430

/-- Runs the body of a function. -/
def callFunction : Caller := callBody callDepth

/-! ## Jobs -/

/-- Runs a job. -/
def Job.run (call : Caller) (job : Job) : Run Unit := do
  match job.reaction, job.settlement with
  | .proceed body derived, .fulfilled value =>
    let ending ← call 0 body [value]
    modify (·.settle derived ending.settlement)
  | .recover body derived, .rejected reason =>
    let ending ← call 0 body [reason]
    modify (·.settle derived ending.settlement)
  | .proceed _ derived, .rejected reason => modify (·.settle derived (.rejected reason))
  | .recover _ derived, .fulfilled value => modify (·.settle derived (.fulfilled value))
  | .resume name frames promise, settlement =>
    let completion ← resumeBody call name frames settlement
    Run.finishBody promise completion

end Playground.Script
