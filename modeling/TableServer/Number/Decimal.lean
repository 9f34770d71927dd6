import TableServer.Number.Double
import TableServer.Text.Ascii

/-! Decimal numbers as written: a sign, the digits read as one natural number, and a power of ten.
Rounding to a double is exact for every digit count and every exponent. -/

namespace TableServer

structure Decimal where
  negative : Bool
  coefficient : Nat
  exponent : Int
deriving DecidableEq

def digitsValue (digits : List Char) : Nat :=
  digits.foldl (fun value digit => value * 10 + digitValue digit) 0

def digitsOf (value : Nat) : List Char :=
  Nat.toDigits 10 value

namespace Decimal

/-- The number `whole.fraction * 10 ^ exponent`. -/
def ofDigits (negative : Bool) (whole fraction : List Char) (exponent : Int) : Decimal :=
  ⟨negative, digitsValue (whole ++ fraction), exponent - fraction.length⟩

/-- Past either end of the range the answer is known without the quotient: `10 ^ 401` is more than
every finite double, and a coefficient below `2 ^ (k + 1)` with an exponent below `-400 - k` is
less than half the smallest one. -/
def toDouble (value : Decimal) : Double :=
  if value.coefficient = 0 then .finite (.zero value.negative)
  else if 400 < value.exponent then .infinite value.negative
  else if value.exponent + value.coefficient.log2 < -400 then .finite (.zero value.negative)
  else
    .ofRatio value.negative (value.coefficient * tenTo value.exponent.toNat)
      (tenTo (-value.exponent).toNat)

end Decimal

end TableServer
