import Playground.Number.Basic

/-!
# Scripts

A script is a list of statements over one table of global names. Every body of a
function, a timer or a promise handler is a list of statements of its own; the body of a
conditional or of an attempt belongs to the function that it stands in.
-/

namespace Playground.Script

/-- An expression. Evaluating one cannot fail; its only effect is to use up identities. -/
inductive Expression where
  | undefined
  | null
  | boolean (value : Bool)
  | number (value : Number)
  | text (value : String)
  | bigInteger (value : Int)
  | symbol (description : String)
  | list (items : List Expression)
  | object
  /-- A new error of a class. -/
  | error (className message : String)
  /-- An object whose conversion to text or to a number evaluates `reason` and throws it. -/
  | unprintable (reason : Expression)
  /-- The argument of the enclosing function at a position. -/
  | argument (index : Nat)
  /-- The value of a global name. -/
  | variable (name : String)

/-- How a timer is started: when it is due, what its callback is given, and the name that
receives its identifier. -/
structure TimerRequest where
  repeats : Bool
  delay : Expression
  arguments : List Expression
  name : Option String

/-- A statement. -/
inductive Statement where
  /-- Writes one console line. -/
  | print (arguments : List Expression)
  | throw (value : Expression)
  /-- Starts a timer that runs a body. -/
  | startTimer (request : TimerRequest) (body : List Statement)
  /-- Starts a timer whose callback is a value. -/
  | startTimerWith (request : TimerRequest) (callback : Expression)
  /-- Clears the timer with an identifier. -/
  | clearTimer (timer : Expression)
  /-- Runs a body with a value once the value is settled. -/
  | afterSettled (value : Expression) (body : List Statement)
  /-- Names a promise that is rejected from the start. -/
  | reject (name : Option String) (reason : Expression)
  /-- Runs a body with the reason when the named promise is rejected. -/
  | recover (name : String) (body : List Statement)
  /-- Starts an asynchronous body and names its promise. -/
  | spawn (name : Option String) (body : List Statement)
  /-- Suspends the asynchronous body until a value is settled, and names the result. -/
  | await (name : Option String) (value : Expression)
  /-- Runs a body, a handler if the body throws, and a closing part in either case. -/
  | attempt (body handler closing : List Statement)
  /-- Names a function. -/
  | define (name : String) (body : List Statement)
  | call (name : String) (arguments : List Expression)
  /-- Adds one to a name, taking a falsy value as zero. -/
  | count (name : String)
  /-- Runs a body if a name is strictly equal to a value. -/
  | when (name : String) (expected : Expression) (body : List Statement)
  | assign (name : String) (value : Expression)
  /-- Runs until the deadline. -/
  | forever

/-- A program: source text, or a script. -/
inductive Source where
  | text (source : String)
  | script (statements : List Statement)

/-- The text of a source; a script has none. -/
def Source.plainText : Source → String
  | .text source => source
  | .script _ => ""

end Playground.Script
