import Playground.Script.Promise
import Playground.Script.Rejections
import Playground.Script.Timers

/-!
# The state of a script

One machine holds everything that outlives a statement: global names, promises, jobs,
unhandled rejections, timers and the lines printed so far. Every operation below changes
one of these parts.
-/

namespace Playground.Script

/-- What a timer does when it fires. -/
structure TimerAction where
  callback : Value
  arguments : List Value

/-- The state of a script. -/
structure Machine where
  names : List (String × Value)
  nextIdentity : Nat
  promises : Array Promise
  jobs : List Job
  rejections : RejectionLog
  timers : Timers TimerAction
  lines : Array String
  /-- Whether the deadline has passed. -/
  expired : Bool

/-- A computation on the state of a script. -/
abbrev Run := StateM Machine

namespace Machine

/-- A machine on which nothing has run. -/
def initial : Machine where
  names := []
  nextIdentity := 0
  promises := #[]
  jobs := []
  rejections := .empty
  timers := .initial
  lines := #[]
  expired := false

/-- The value of a name; a name that was never set is undefined. -/
def valueOf (machine : Machine) (name : String) : Value :=
  ((machine.names.find? (·.1 == name)).map Prod.snd).getD .undefined

/-- Bindings with one name set. -/
def setName (name : String) (value : Value) : List (String × Value) → List (String × Value)
  | [] => [(name, value)]
  | (other, held) :: rest =>
    if other = name then (name, value) :: rest else (other, held) :: setName name value rest

/-- Sets a name. -/
def assign (machine : Machine) (name : String) (value : Value) : Machine :=
  { machine with names := setName name value machine.names }

/-- Prints a line. -/
def print (machine : Machine) (line : String) : Machine :=
  { machine with lines := machine.lines.push line }

/-- Appends a job. -/
def enqueue (machine : Machine) (job : Job) : Machine :=
  { machine with jobs := machine.jobs ++ [job] }

/-- Appends the jobs of reactions to a settlement. -/
def enqueueAll (machine : Machine) (reactions : List Reaction) (settlement : Settlement) :
    Machine :=
  { machine with jobs := machine.jobs ++ reactions.map fun reaction => ⟨reaction, settlement⟩ }

/-- Notes a settlement with the rejection log if it is a rejection that nothing handles. -/
def noteSettlement (machine : Machine) (key : Nat) (handled : Bool) (settlement : Settlement) :
    Machine :=
  match settlement with
  | .fulfilled _ => machine
  | .rejected reason =>
    if handled then machine
    else { machine with rejections := machine.rejections.note key reason.rejectionMessage }

/-- Settles a pending promise: its reactions become jobs, and a rejection that nothing
handles is noted. A promise that is settled stays as it is. -/
def settle (machine : Machine) (key : Nat) (settlement : Settlement) : Machine :=
  match machine.promises[key]? with
  | none => machine
  | some promise =>
    if promise.settlement.isSome then machine
    else
      let settled : Promise := ⟨some settlement, [], promise.handled⟩
      { (machine.enqueueAll promise.reactions settlement).noteSettlement key promise.handled
          settlement with
        promises := machine.promises.setIfInBounds key settled }

/-- Attaches a reaction to a promise. If the promise is settled the reaction is due at
once, and the note of its rejection is struck out. -/
def react (machine : Machine) (key : Nat) (reaction : Reaction) : Machine :=
  match machine.promises[key]? with
  | none => machine
  | some promise =>
    match promise.settlement with
    | none =>
      { machine with
        promises := machine.promises.setIfInBounds key
          ⟨none, promise.reactions ++ [reaction], true⟩ }
    | some settlement =>
      { machine.enqueue ⟨reaction, settlement⟩ with
        promises := machine.promises.setIfInBounds key { promise with handled := true }
        rejections := machine.rejections.strike key }

end Machine

namespace Run

/-- A fresh identity. -/
def freshIdentity : Run Nat :=
  modifyGet fun machine =>
    (machine.nextIdentity, { machine with nextIdentity := machine.nextIdentity + 1 })

/-- A fresh pending promise. -/
def freshPromise : Run Nat :=
  modifyGet fun machine =>
    (machine.promises.size, { machine with promises := machine.promises.push .fresh })

/-- Sets a name, if there is one. -/
def bindName (name : Option String) (value : Value) : Run Unit :=
  match name with
  | none => pure ()
  | some name => modify (·.assign name value)

/-- A new type error. -/
def typeError (message : String) : Run Value := do
  return .error (← freshIdentity) "TypeError" message

/-- The next job, taken from the queue. -/
def nextJob? : Run (Option Job) :=
  modifyGet fun machine =>
    match machine.jobs with
    | [] => (none, machine)
    | job :: rest => (some job, { machine with jobs := rest })

/-- Takes the earliest unhandled rejection and clears the log. -/
def takeRejection : Run (Option String) :=
  modifyGet fun machine =>
    let (message, rejections) := machine.rejections.take
    (message, { machine with rejections := rejections })

/-- Changes the timers. -/
def modifyTimers (change : Timers TimerAction → Timers TimerAction) : Run Unit :=
  modify fun machine => { machine with timers := change machine.timers }

/-- Takes the next timer identifier. -/
def takeTimerId : Run Nat :=
  modifyGet fun machine =>
    let (id, timers) := machine.timers.takeId
    (id, { machine with timers := timers })

end Run

end Playground.Script
