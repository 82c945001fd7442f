/-!
# Numbers with fifty-three significant bits

Every finite number is an exact integer multiple of the least positive magnitude,
so sums, products, comparisons and conversions are integer arithmetic followed by one rounding
step. `roundQuotient` is the only place where precision is lost; it rounds to the
nearest representable magnitude and sends a tie to the even significand.
-/

namespace Playground

/-- A double precision number. Zero carries no sign: no observer of a script or of an
enumeration can tell the two zeros apart. -/
inductive Number where
  | nan
  | infinite (negative : Bool)
  /-- The number `units · 2^(-1074)`. -/
  | finite (units : Int)
  deriving DecidableEq, Repr

namespace Number

/-- How many units make the number one. -/
def unitsPerOne : Nat := Nat.pow 2 1074

/-- Magnitudes from here on overflow to infinity. -/
def overflowUnits : Nat := Nat.pow 2 2098

/-- Distance between neighbouring representable magnitudes near `units`. -/
def spacing (units : Nat) : Nat :=
  Nat.pow 2 (units.log2 + 1 - 53)

/-- The representable magnitude nearest to `numerator / denominator` units; a tie goes
to the even significand. -/
def roundQuotient (numerator denominator : Nat) : Nat :=
  let step := spacing (numerator / denominator)
  let significand := numerator / (denominator * step)
  let remainder := numerator % (denominator * step)
  if 2 * remainder < denominator * step ∨
      (2 * remainder = denominator * step ∧ significand % 2 = 0) then
    significand * step
  else
    (significand + 1) * step

/-- The number with the given sign and representable magnitude. -/
def ofMagnitude (negative : Bool) (units : Nat) : Number :=
  if overflowUnits ≤ units then .infinite negative
  else .finite (if negative then -(units : Int) else units)

/-- The number nearest to a quotient of units. -/
def ofQuotient (negative : Bool) (numerator denominator : Nat) : Number :=
  ofMagnitude negative (roundQuotient numerator denominator)

/-- The number nearest to an exact count of units. -/
def ofUnits (units : Int) : Number :=
  ofQuotient (units < 0) units.natAbs 1

/-- The number nearest to an integer. -/
def ofInt (value : Int) : Number :=
  ofUnits (value * unitsPerOne)

/-- The number nearest to a natural number. -/
def ofNat (value : Nat) : Number :=
  ofInt value

/-- Zero. -/
def zero : Number := .finite 0

/-- The number with the opposite sign. -/
def neg : Number → Number
  | .nan => .nan
  | .infinite negative => .infinite (!negative)
  | .finite units => .finite (-units)

/-- The rounded sum of two numbers. -/
def add : Number → Number → Number
  | .nan, _ => .nan
  | _, .nan => .nan
  | .infinite left, .infinite right => if left = right then .infinite left else .nan
  | .infinite left, .finite _ => .infinite left
  | .finite _, .infinite right => .infinite right
  | .finite left, .finite right => ofUnits (left + right)

instance : Add Number := ⟨add⟩

/-- The rounded product of two numbers. -/
def mul : Number → Number → Number
  | .nan, _ => .nan
  | _, .nan => .nan
  | .infinite left, .infinite right => .infinite (left != right)
  | .infinite negative, .finite units =>
    if units = 0 then .nan else .infinite (negative != decide (units < 0))
  | .finite units, .infinite negative =>
    if units = 0 then .nan else .infinite (negative != decide (units < 0))
  | .finite left, .finite right =>
    ofQuotient (decide (left < 0) != decide (right < 0)) (left.natAbs * right.natAbs) unitsPerOne

instance : Mul Number := ⟨mul⟩

/-- Numeric order; nothing is less than or greater than a NaN. -/
def less : Number → Number → Bool
  | .nan, _ => false
  | _, .nan => false
  | .infinite left, .infinite right => left && !right
  | .infinite left, .finite _ => left
  | .finite _, .infinite right => !right
  | .finite left, .finite right => left < right

/-- Numeric equality; a NaN equals nothing. -/
def equals : Number → Number → Bool
  | .nan, _ => false
  | left, right => left == right

/-- Whether the number is a NaN or zero. -/
def isFalsy : Number → Bool
  | .nan => true
  | .infinite _ => false
  | .finite units => units == 0

/-- The larger of zero and a number, with zero for a NaN. -/
def clampAtZero (number : Number) : Number :=
  if less zero number then number else zero

/-- The natural number that a number is exactly, if it is one. -/
def toNat? : Number → Option Nat
  | .finite units =>
    if 0 ≤ units ∧ units % unitsPerOne = 0 then some (units / unitsPerOne).toNat else none
  | _ => none

/-- The integer that a number is exactly, if it is one. -/
def toInt? : Number → Option Int
  | .finite units => if units % unitsPerOne = 0 then some (units / unitsPerOne) else none
  | _ => none

end Number

end Playground
