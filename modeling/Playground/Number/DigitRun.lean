import Playground.Number.Decimal

/-!
# Reading long runs of digits

The digits of a run are gathered in a word of sixty-four bits. Digits that no longer fit
are only counted, and the word is multiplied by the power of the radix that they stand
for. Word, power and product are each rounded to a number, so a long run may come out
next to the number nearest to it.
-/

namespace Playground

/-- What has been read of a run of digits. -/
structure DigitRun where
  /-- The natural number written by the digits that fit. -/
  word : Nat
  /-- The number of digits after them. -/
  passed : Nat
  deriving DecidableEq, Repr

namespace DigitRun

/-- A run of which nothing has been read. -/
def empty : DigitRun := ⟨0, 0⟩

/-- The largest word that has room for another digit, whichever it is. -/
def largestExtensible (radix : Nat) : Nat :=
  (Nat.pow 2 64 - radix) / radix

/-- Reads one more digit. -/
def push (radix : Nat) (run : DigitRun) (digit : Nat) : DigitRun :=
  if run.word ≤ largestExtensible radix then ⟨run.word * radix + digit, run.passed⟩
  else ⟨run.word, run.passed + 1⟩

/-- The run that spans a non-empty list of characters. -/
def read? (radix : Nat) (characters : List Char) : Option DigitRun :=
  if characters.isEmpty then none
  else do
    let digits ← characters.mapM (digitValue? radix)
    return digits.foldl (push radix) empty

/-- The exponents of ten whose powers are rounded up although the number below is as near
or nearer. Both powers stand so close to the middle between two numbers that the platform's
power function, which carries a few bits more than a number holds, takes the upper one. -/
def raisedExponents : List Nat := [23, 210]

/-- A power of a radix, as the platform's power function rounds it. -/
def power (radix exponent : Nat) : Number :=
  if 1024 ≤ exponent then .infinite false
  else
    let exact := Nat.pow radix exponent
    if radix = 10 ∧ exponent ∈ raisedExponents then .ofNat (exact + exact / Nat.pow 2 60)
    else .ofNat exact

/-- The number that a run stands for. -/
def toNumber (radix : Nat) (run : DigitRun) : Number :=
  if run.passed = 0 then .ofNat run.word
  else .ofNat run.word * power radix run.passed

end DigitRun

end Playground
