import TableServer.Number.Double

/-! Doubles from a whole number and a power of ten, in steps: the whole number is rounded, so is
the power, and so is their product or quotient. Where every step is exact the result is the double
nearest to the scaled number; else it may be a neighbour of that one. The largest power of ten that
is finite as a double is `10 ^ 308`. -/

namespace TableServer

namespace Double

def nearestPower (exponent : Nat) : Double := .ofRatio false (tenTo exponent) 1

def magnified (value : FiniteDouble) (exponent : Nat) : Double :=
  match nearestPower exponent with
  | .finite power => .ofRatio value.negative (value.units * power.units) (twoTo 2148)
  | other => other

def reduced (value : FiniteDouble) (exponent : Nat) : Double :=
  match nearestPower exponent with
  | .finite power => .ofRatio value.negative value.units power.units
  | _ => .finite (.zero value.negative)

/-- A larger power of ten is divided by in portions of `10 ^ 308`, until nothing is left. -/
def reducedStepwise (value : Double) (exponent : Nat) : Double :=
  match value with
  | .finite part =>
    if part.significand = 0 then value
    else if exponent ≤ 308 then reduced part exponent
    else reducedStepwise (reduced part 308) (exponent - 308)
  | other => other
termination_by exponent
decreasing_by omega

def scaled (negative : Bool) (significand : Nat) (exponent : Int) : Double :=
  match ofRatio negative significand 1 with
  | .finite value =>
    if value.significand = 0 then .finite value
    else if exponent < 0 then reducedStepwise (.finite value) exponent.natAbs
    else if exponent ≤ 308 then magnified value exponent.natAbs
    else .infinite negative
  | other => other

end Double

end TableServer
