import Playground.Number.Basic

/-!
# The fewest digits that read back

A positive magnitude is written with the fewest decimal digits that round to it again.
For one, two, ... digits the magnitude's neighbours on that decimal grid are tested against
the interval of values that round to it, and the first grid with a hit wins. The interval
reaches only half as far down as up at a power of two, so that there the nearest point of a
grid may lie outside and the other neighbour inside; a `DigitChoice` says whether that other
one counts.
-/

namespace Playground

/-- The decimal `0.d₁d₂… · 10^point`, with `digits` the characters of `d₁d₂…`. -/
structure DigitText where
  digits : List Char
  point : Int
  deriving DecidableEq, Repr

namespace Number

/-- The values that round to a magnitude, in quarter units. The ends belong to the
interval when the significand is even. -/
structure RoundingInterval where
  lower : Nat
  value : Nat
  upper : Nat
  closed : Bool

/-- The interval of values that round to a representable magnitude. -/
def roundingInterval (units : Nat) : RoundingInterval :=
  let step := spacing units
  let significand := units / step
  let below := if significand = Nat.pow 2 52 ∧ 1 < step then step else 2 * step
  ⟨4 * units - below, 4 * units, 4 * units + 2 * step, significand % 2 == 0⟩

/-- Whether a grid point, scaled like the interval times `scale`, lies in the
interval. -/
def RoundingInterval.contains (interval : RoundingInterval) (scale point : Nat) : Bool :=
  let lower := interval.lower * scale
  let upper := interval.upper * scale
  (lower < point && point < upper) || (interval.closed && (lower == point || point == upper))

/-- Which point of a decimal grid may stand for a magnitude. -/
inductive DigitChoice where
  /-- The nearest point, if it reads back; a tie goes to the even one. -/
  | nearest
  /-- Either neighbour that reads back; of two the nearer one, and a tie goes up. -/
  | anyNeighbour
  deriving DecidableEq, Repr

/-- The multiple of `10^exponent` that stands for the magnitude, counted in powers of ten,
if there is one. -/
def RoundingInterval.hit? (choice : DigitChoice) (interval : RoundingInterval)
    (exponent : Int) : Option Nat :=
  let scale := Nat.pow 10 (-exponent).toNat
  let grid := 4 * unitsPerOne * Nat.pow 10 exponent.toNat
  let value := interval.value * scale
  let floor := value / grid
  let toFloor := value - floor * grid
  let toCeiling := (floor + 1) * grid - value
  let low := interval.contains scale (floor * grid)
  let high := interval.contains scale ((floor + 1) * grid)
  match choice with
  | .nearest =>
    if toFloor < toCeiling ∨ (toFloor = toCeiling ∧ floor % 2 = 0) then
      if low then some floor else none
    else if high then some (floor + 1)
    else none
  | .anyNeighbour =>
    if low && high then
      if toFloor < toCeiling then some floor else some (floor + 1)
    else if low then some floor
    else if high then some (floor + 1)
    else none

/-- Position of the leading digit of a positive magnitude: `10^p ≤ value < 10^(p + 1)`. -/
def leadingPosition (units : Nat) : Int :=
  (Nat.toDigits 10 (units * Nat.pow 10 324 / unitsPerOne)).length - 1 - 324

/-- Tries grids of more and more digits; `remaining` counts those still to try. -/
def searchDigits (choice : DigitChoice) (interval : RoundingInterval) (position : Int) :
    Nat → Nat → Nat × Int
  | _, 0 => (interval.value / (4 * unitsPerOne), 0)
  | tried, remaining + 1 =>
    match interval.hit? choice (position - tried) with
    | some digits => (digits, position - tried)
    | none => searchDigits choice interval position (tried + 1) remaining

/-- The fewest digits that read back as the positive magnitude. Seventeen always do. -/
def shortestDigits (choice : DigitChoice) (units : Nat) : DigitText :=
  let (value, exponent) :=
    searchDigits choice (roundingInterval units) (leadingPosition units) 0 17
  let digits := Nat.toDigits 10 value
  let kept := (digits.reverse.dropWhile (· == '0')).reverse
  ⟨kept, exponent + digits.length⟩

end Number

end Playground
