import Playground.Number.DigitRun
import Playground.Number.Format
import Playground.Script.Statement
import Playground.Text.Blank

/-!
# Values of a script

Values are immutable, so a list or an object is its contents together with an identity;
strict equality compares identities where a value has one. Conversions to text and to
numbers follow the rules of the scripting language and say why they fail, if they do.
-/

namespace Playground.Script

/-- A value. -/
inductive Value where
  | undefined
  | null
  | boolean (value : Bool)
  | number (value : Number)
  | text (value : String)
  | bigInteger (value : Int)
  | symbol (identity : Nat) (description : String)
  | list (identity : Nat) (items : List Value)
  | object (identity : Nat)
  | error (identity : Nat) (className message : String)
  /-- The error of the deadline, which no handler catches. -/
  | interruption (identity : Nat)
  /-- An object whose conversion to text or to a number throws the value that `reason` then
  has, in a function with the given arguments. -/
  | unprintable (identity : Nat) (reason : Expression) (arguments : List Value)
  | function (identity : Nat) (body : List Statement)
  | promise (key : Nat)

/-- Why a conversion fails. -/
inductive ConversionFault where
  | symbolToText
  | symbolToNumber
  | numberToBigInteger
  /-- The value of `reason` is thrown, in a function with the given arguments. -/
  | thrown (reason : Expression) (arguments : List Value)

/-- The message of the error that a failed conversion throws, if it throws an error of its
own. -/
def ConversionFault.message? : ConversionFault → Option String
  | .symbolToText => some "cannot convert symbol to string"
  | .symbolToNumber => some "cannot convert symbol to number"
  | .numberToBigInteger => some "cannot convert to bigint"
  | .thrown _ _ => none

namespace Value

/-- The class name of the deadline's error. -/
def interruptionClass : String := "InternalError"

/-- The message of the deadline's error. -/
def interruptionMessage : String := "interrupted"

/-- Whether a value is missing: undefined or null. -/
def isMissing : Value → Bool
  | .undefined | .null => true
  | _ => false

/-- Whether a value counts as false. -/
def isFalsy : Value → Bool
  | .undefined | .null => true
  | .boolean value => !value
  | .number value => value.isFalsy
  | .text value => value.isEmpty
  | .bigInteger value => value == 0
  | _ => false

/-- Whether no handler catches a value. -/
def isInterruption : Value → Bool
  | .interruption _ => true
  | _ => false

/-- Strict equality: equal contents, or the same identity where there is one. -/
def strictlyEquals : Value → Value → Bool
  | .undefined, .undefined => true
  | .null, .null => true
  | .boolean left, .boolean right => left == right
  | .number left, .number right => left.equals right
  | .text left, .text right => left == right
  | .bigInteger left, .bigInteger right => left == right
  | .symbol left _, .symbol right _ => left == right
  | .list left _, .list right _ => left == right
  | .object left, .object right => left == right
  | .error left _ _, .error right _ _ => left == right
  | .interruption left, .interruption right => left == right
  | .unprintable left _ _, .unprintable right _ _ => left == right
  | .function left _, .function right _ => left == right
  | .promise left, .promise right => left == right
  | _, _ => false

/-! ## Text -/

/-- The text of an error: its class and its message, or the class alone. -/
def errorText (className message : String) : String :=
  if message.isEmpty then className
  else if className.isEmpty then message
  else className ++ ": " ++ message

mutual

/-- The text that a value converts to. The items of a list are joined by commas, missing
ones being empty. -/
def toText : Value → Except ConversionFault String
  | .undefined => .ok "undefined"
  | .null => .ok "null"
  | .boolean value => .ok (if value then "true" else "false")
  | .number value => .ok (value.format .console)
  | .text value => .ok value
  | .bigInteger value => .ok (toString value)
  | .symbol _ _ => .error .symbolToText
  | .list _ items =>
    match itemTexts items with
    | .ok texts => .ok (",".intercalate texts)
    | .error fault => .error fault
  | .object _ => .ok "[object Object]"
  | .error _ className message => .ok (errorText className message)
  | .interruption _ => .ok (errorText interruptionClass interruptionMessage)
  | .unprintable _ reason arguments => .error (.thrown reason arguments)
  | .function _ _ => .ok "function"
  | .promise _ => .ok "[object Promise]"

/-- The texts of the items of a list. -/
def itemTexts : List Value → Except ConversionFault (List String)
  | [] => .ok []
  | item :: rest =>
    match if item.isMissing then .ok "" else toText item with
    | .error fault => .error fault
    | .ok first =>
      match itemTexts rest with
      | .error fault => .error fault
      | .ok texts => .ok (first :: texts)

end

/-- The text that a value is shown as. A symbol is shown, though it does not convert. -/
def display : Value → Except ConversionFault String
  | .symbol _ description => .ok ("Symbol(" ++ description ++ ")")
  | value => value.toText

/-- The text of a console line: the values as they are shown, with spaces between. -/
def lineText (values : List Value) : Except ConversionFault String := do
  return " ".intercalate (← values.mapM display)

/-! ## Numbers -/

/-- The characters that do not count around the notation of a number. -/
def isNumberBlank (character : Char) : Bool :=
  character == '\ufeff' || (character != '\x85' && Text.isBlank character)

/-- Characters without the ones that do not count at both ends. -/
def trimNumber (characters : List Char) : List Char :=
  ((characters.dropWhile isNumberBlank).reverse.dropWhile isNumberBlank).reverse

/-- The number of unsigned decimal notation, or of the name of infinity. Digits alone are
read as a run; with a fraction or an exponent the decimal is rounded once. -/
def readMagnitude (characters : List Char) : Number :=
  if characters = "Infinity".toList then .infinite false
  else
    match DigitRun.read? 10 characters, Decimal.read? characters with
    | some run, _ => run.toNumber 10
    | none, some decimal => decimal.toNumber false
    | none, none => .nan

/-- Whether characters are nothing but a fraction and a binary exponent, both of which may
be left out. -/
def isScale (radix : Nat) (characters : List Char) : Bool :=
  let afterFraction :=
    match characters with
    | '.' :: rest => rest.dropWhile fun character => (digitValue? radix character).isSome
    | rest => rest
  match afterFraction with
  | [] => true
  | mark :: rest => (mark == 'p' || mark == 'P') && (Decimal.readExponent? rest).isSome

/-- The number of a notation with a radix: the run of digits at its front. A fraction and a
binary exponent may follow it, but do not count. -/
def readPrefixed (radix : Nat) (characters : List Char) : Number :=
  let isDigit (character : Char) : Bool := (digitValue? radix character).isSome
  match DigitRun.read? radix (characters.takeWhile isDigit) with
  | some run =>
    if isScale radix (characters.dropWhile isDigit) then run.toNumber radix else .nan
  | none => .nan

/-- The number that a text converts to. A blank text is zero, and a text that is no
notation of a number is not a number. -/
def numberOfText (text : String) : Number :=
  match trimNumber text.toList with
  | [] => .zero
  | '0' :: 'x' :: digits | '0' :: 'X' :: digits => readPrefixed 16 digits
  | '0' :: 'o' :: digits | '0' :: 'O' :: digits => readPrefixed 8 digits
  | '0' :: 'b' :: digits | '0' :: 'B' :: digits => readPrefixed 2 digits
  | '-' :: magnitude => (readMagnitude magnitude).neg
  | '+' :: magnitude => readMagnitude magnitude
  | magnitude => readMagnitude magnitude

/-- The number that a value converts to. -/
def toNumber (value : Value) : Except ConversionFault Number :=
  match value with
  | .undefined => .ok .nan
  | .null => .ok .zero
  | .boolean value => .ok (if value then .ofNat 1 else .zero)
  | .number value => .ok value
  | .bigInteger value => .ok (.ofInt value)
  | .symbol _ _ => .error .symbolToNumber
  | other =>
    match other.toText with
    | .ok shown => .ok (numberOfText shown)
    | .error fault => .error fault

/-- A delay in milliseconds: the number that a value converts to, or zero if that is
negative or not a number. -/
def toDelay (value : Value) : Except ConversionFault Number :=
  match value.toNumber with
  | .ok wait => .ok wait.clampAtZero
  | .error fault => .error fault

/-- The value plus one, taking a falsy value as zero. Whatever is not a number is joined to
the digit as text. -/
def increment (value : Value) : Except ConversionFault Value :=
  if value.isFalsy then .ok (.number (.ofNat 1))
  else
    match value with
    | .number amount => .ok (.number (amount + .ofNat 1))
    | .boolean _ => .ok (.number (.ofNat 2))
    | .bigInteger _ => .error .numberToBigInteger
    | .symbol _ _ => .error .symbolToNumber
    | other =>
      match other.toText with
      | .ok shown => .ok (.text (shown ++ "1"))
      | .error fault => .error fault

/-- The timer identifier that a value is equal to, if it is one. -/
def toTimerId? : Value → Option Nat
  | .number amount => amount.toNat?
  | _ => none

/-! ## Messages -/

/-- The message of a rejection that nothing handles: an error's own message, or else the
text that the reason converts to. -/
def rejectionMessage : Value → String
  | .error _ _ message => message
  | .interruption _ => interruptionMessage
  | value =>
    match value.toText with
    | .ok shown => shown
    | .error _ => "uncaught exception"

end Value

end Playground.Script
