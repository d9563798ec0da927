import CoflowSim.Lib.FormattedInput
import Mathlib.Data.Int.Log
import Mathlib.Data.Rat.Floor
import Mathlib.Data.List.DropRight

namespace Lib

/-- The nearest integer, halves going to the even one. -/
def roundHalfEven (q : Rat) : Int :=
  let below := q.floor
  let part := q - below
  if part < 1 / 2 then below
  else if 1 / 2 < part then below + 1
  else if below % 2 = 0 then below else below + 1

/-- The six significant digits of a positive number as one integer, and the
exponent of the first of them. -/
def significantDigits (q : Rat) : Nat × Int :=
  let exponent := Int.log 10 q
  let digits := (roundHalfEven (q * (10 : Rat) ^ (5 - exponent))).toNat
  if digits = 1000000 then (100000, exponent + 1) else (digits, exponent)

def digitZero : UInt8 := 48
def point : UInt8 := 46

/-- A fraction without its trailing zeros, and without its point if nothing is
left of it. -/
def showFraction (digits : List UInt8) : List UInt8 :=
  let kept := digits.rdropWhile (· == digitZero)
  if kept.isEmpty then [] else point :: kept

/-- A positive number as an output stream writes it by default: six
significant digits, in fixed notation for the exponents from -4 to 5. -/
def showPositive (q : Rat) : List UInt8 :=
  let (value, exponent) := significantDigits q
  let digits := showNat value
  if exponent < -4 ∨ 6 ≤ exponent then
    let magnitude := showNat exponent.natAbs
    digits.take 1 ++ showFraction (digits.drop 1) ++
      [101, if exponent < 0 then minus else plus] ++
      (if magnitude.length < 2 then digitZero :: magnitude else magnitude)
  else if exponent < 0 then
    digitZero :: showFraction (List.replicate (exponent.natAbs - 1) digitZero ++ digits)
  else
    digits.take (exponent.toNat + 1) ++ showFraction (digits.drop (exponent.toNat + 1))

/-- `stream << double` in the default format. -/
def showDouble (q : Rat) : List UInt8 :=
  if q = 0 then [digitZero] else if q < 0 then minus :: showPositive (-q) else showPositive q

end Lib
