import Playground.Number.Basic

/-!
# Reading decimal and radix notation

`Decimal.read?` accepts digits with an optional fraction and an optional exponent, at
least one digit standing before the exponent. The exact decimal is rounded once.
-/

namespace Playground

/-- The exact value `digits · 10^exponent`. -/
structure Decimal where
  digits : Nat
  exponent : Int
  deriving DecidableEq, Repr

/-- The value of a digit in a radix of at most thirty-six. -/
def digitValue? (radix : Nat) (character : Char) : Option Nat :=
  let value :=
    if character.isDigit then some (character.toNat - '0'.toNat)
    else if character.isLower then some (character.toNat - 'a'.toNat + 10)
    else if character.isUpper then some (character.toNat - 'A'.toNat + 10)
    else none
  value.filter (· < radix)

/-- The natural number written by a run of digits, read on from `start`. -/
def readDigitsFrom? (radix : Nat) (start : Nat) : List Char → Option Nat
  | [] => some start
  | character :: rest => do
    let value ← digitValue? radix character
    readDigitsFrom? radix (start * radix + value) rest

/-- The natural number written by a non-empty run of digits. -/
def readRadix? (radix : Nat) : List Char → Option Nat
  | [] => none
  | digits => readDigitsFrom? radix 0 digits

namespace Decimal

/-- The exponent after an `e`: an optional sign and at least one digit. -/
def readExponent? : List Char → Option Int
  | '-' :: digits => (readRadix? 10 digits).map fun value => -(value : Int)
  | '+' :: digits => (readRadix? 10 digits).map fun value => (value : Int)
  | digits => (readRadix? 10 digits).map fun value => (value : Int)

/-- What may follow the digits: nothing, or an exponent. -/
def readScale? : List Char → Option Int
  | [] => some 0
  | mark :: rest => if mark = 'e' ∨ mark = 'E' then readExponent? rest else none

/-- Reads unsigned decimal notation that spans the whole list. -/
def read? (characters : List Char) : Option Decimal :=
  let whole := characters.takeWhile Char.isDigit
  let afterWhole := characters.dropWhile Char.isDigit
  let (fraction, afterFraction) :=
    match afterWhole with
    | '.' :: rest => (rest.takeWhile Char.isDigit, rest.dropWhile Char.isDigit)
    | rest => ([], rest)
  do
    let digits ← readRadix? 10 (whole ++ fraction)
    let scale ← readScale? afterFraction
    return ⟨digits, scale - fraction.length⟩

/-- The number nearest to a decimal. Exponents far outside the range of numbers are
settled without computing the power of ten. -/
def toNumber (negative : Bool) (decimal : Decimal) : Number :=
  let position : Int := decimal.exponent + (Nat.toDigits 10 decimal.digits).length
  if decimal.digits = 0 then .zero
  else if 400 < position then .infinite negative
  else if position < -400 then .zero
  else if 0 ≤ decimal.exponent then
    .ofQuotient negative
      (decimal.digits * Nat.pow 10 decimal.exponent.toNat * Number.unitsPerOne) 1
  else
    .ofQuotient negative (decimal.digits * Number.unitsPerOne)
      (Nat.pow 10 (-decimal.exponent).toNat)

end Decimal

end Playground
