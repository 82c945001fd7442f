import Playground.Number.Shortest

/-!
# Number text

A number is written with its shortest digits. A `NumberFormat` says which digits these are,
where positional notation ends and how the values without digits are spelled.
-/

namespace Playground

/-- The choices of one number notation. -/
structure NumberFormat where
  digits : Number.DigitChoice
  /-- Least and greatest position of the point that is written without an exponent;
  `none` never writes an exponent. -/
  positional : Option (Int × Int)
  infinity : String
  notANumber : String

/-- The notation of console output: an exponent from `1e21` on and below `0.000001`. -/
def NumberFormat.console : NumberFormat := ⟨.nearest, some (-5, 21), "Infinity", "NaN"⟩

/-- The notation without exponents. -/
def NumberFormat.plain : NumberFormat := ⟨.anyNeighbour, none, "inf", "NaN"⟩

namespace DigitText

/-- Digits with the point at its place, padded with zeros where it lies outside. -/
def positional (text : DigitText) : List Char :=
  let count : Int := text.digits.length
  if text.point ≤ 0 then
    '0' :: '.' :: List.replicate (-text.point).toNat '0' ++ text.digits
  else if count ≤ text.point then
    text.digits ++ List.replicate (text.point - count).toNat '0'
  else
    text.digits.take text.point.toNat ++ '.' :: text.digits.drop text.point.toNat

/-- One digit, the rest after a point, and the exponent with its sign. -/
def scientific (text : DigitText) : List Char :=
  let exponent := text.point - 1
  let sign := if exponent < 0 then '-' else '+'
  let mantissa :=
    match text.digits with
    | [] => []
    | [digit] => [digit]
    | digit :: rest => digit :: '.' :: rest
  mantissa ++ 'e' :: sign :: Nat.toDigits 10 exponent.natAbs

/-- The characters of a positive number. -/
def format (style : NumberFormat) (text : DigitText) : List Char :=
  match style.positional with
  | none => text.positional
  | some (least, greatest) =>
    if least ≤ text.point ∧ text.point ≤ greatest then text.positional else text.scientific

end DigitText

/-- The text of a number. -/
def Number.format (style : NumberFormat) : Number → String
  | .nan => style.notANumber
  | .infinite negative => (if negative then "-" else "") ++ style.infinity
  | .finite units =>
    if units = 0 then "0"
    else
      (if units < 0 then "-" else "") ++
        String.ofList ((shortestDigits style.digits units.natAbs).format style)

end Playground
