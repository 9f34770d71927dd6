import TableServer.Number.Power

/-! Binary floating point with 53 significant bits, as exact numbers. A finite double is a
significand and a scale: its magnitude is `significand * 2 ^ scale` in units of `2 ^ -1074`, the
smallest positive double. Every magnitude is therefore a natural number of units, and comparison
and rounding are exact arithmetic on natural numbers. -/

namespace TableServer

/-- The invariants make the representation unique: two finite doubles are the same bits exactly
when they are equal. Zero keeps its sign. -/
structure FiniteDouble where
  negative : Bool
  significand : Nat
  scale : Nat
  significand_lt : significand < twoTo 53
  scale_le : scale ≤ 2045
  normal : scale = 0 ∨ twoTo 52 ≤ significand
deriving DecidableEq

inductive Double where
  | nan
  | infinite (negative : Bool)
  | finite (value : FiniteDouble)
deriving DecidableEq

namespace FiniteDouble

def ofParts? (negative : Bool) (significand scale : Nat) : Option FiniteDouble :=
  if valid : significand < twoTo 53 ∧ scale ≤ 2045 ∧ (scale = 0 ∨ twoTo 52 ≤ significand) then
    some ⟨negative, significand, scale, valid.1, valid.2.1, valid.2.2⟩
  else
    none

def zero (negative : Bool) : FiniteDouble :=
  ⟨negative, 0, 0, by decide, by decide, Or.inl rfl⟩

def one : FiniteDouble :=
  ⟨false, twoTo 52, 1022, by decide, by decide, Or.inr (Nat.le_refl _)⟩

def units (value : FiniteDouble) : Nat :=
  value.significand * twoTo value.scale

def signedUnits (value : FiniteDouble) : Int :=
  if value.negative then -(value.units : Int) else value.units

end FiniteDouble

/-- The natural number nearest to a quotient; a half goes to the even neighbour. -/
def roundHalfEven (numerator denominator : Nat) : Nat :=
  let quotient := numerator / denominator
  let twice := 2 * (numerator % denominator)
  if twice < denominator then quotient
  else if denominator < twice then quotient + 1
  else quotient + quotient % 2

namespace Double

def zero : Double := .finite (.zero false)

def one : Double := .finite .one

/-- The scale that leaves a magnitude 53 significant bits, or 0 where it is too small to have that
many. -/
def scaleOf (units : Nat) : Nat := units.log2 - 52

/-- A magnitude beyond the largest finite double is infinite. -/
def ofParts (negative : Bool) (significand scale : Nat) : Double :=
  match FiniteDouble.ofParts? negative significand scale with
  | some value => .finite value
  | none => .infinite negative

/-- Rounding up can make a significand one bit longer, and that one is a power of two. -/
def ofRounded (negative : Bool) (rounded scale : Nat) : Double :=
  if rounded = twoTo 53 then ofParts negative (twoTo 52) (scale + 1)
  else ofParts negative rounded scale

/-- The double nearest to a quotient of units, a half going to the even significand. -/
def ofUnits (negative : Bool) (numerator denominator : Nat) : Double :=
  let scale := scaleOf (numerator / denominator)
  ofRounded negative (roundHalfEven numerator (denominator * twoTo scale)) scale

/-- The double nearest to the quotient of two natural numbers. -/
def ofRatio (negative : Bool) (numerator denominator : Nat) : Double :=
  ofUnits negative (numerator * twoTo 1074) denominator

def ofInt (value : Int) : Double :=
  ofRatio (decide (value < 0)) value.natAbs 1

def order : Double → Double → Option Ordering
  | .nan, _ => none
  | _, .nan => none
  | .infinite left, .infinite right => some (compare right left)
  | .infinite left, .finite _ => some (if left then .lt else .gt)
  | .finite _, .infinite right => some (if right then .gt else .lt)
  | .finite left, .finite right => some (compare left.signedUnits right.signedUnits)

/-- Equality of the numbers: the two zeros are equal and not-a-number equals nothing. -/
def sameNumber (left right : Double) : Bool :=
  left.order right == some .eq

end Double

end TableServer
