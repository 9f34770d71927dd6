import TableServer.Number.Decimal

/-! The shortest decimal that reads back as a given double. The multiples of a power of ten form a
grid; the coarsest grid with a point that rounds to the double gives the fewest digits, and of its
points the one nearest to the double gives the digits. -/

namespace TableServer

/-- How a double exactly halfway between two grid points chooses. -/
inductive Tie where
  | even
  | up
deriving DecidableEq

namespace FiniteDouble

/-- Four times the distance from a double to the lower end of the interval that rounds to it, in
units of the last place of its scale. Below a power of two the doubles lie twice as close. -/
def lowerGap (value : FiniteDouble) : Nat :=
  if value.significand = twoTo 52 ∧ 0 < value.scale then 1 else 2

/-- A double and the interval that rounds to it, in steps of a common denominator in which the
grid `10 ^ exponent` is a whole number of steps. The ends belong to the interval exactly when the
significand is even. -/
structure Window where
  lower : Nat
  middle : Nat
  upper : Nat
  closed : Bool
  grid : Nat

def window (value : FiniteDouble) (exponent : Int) : Window :=
  let unit := twoTo value.scale * tenTo (-exponent).toNat
  ⟨(4 * value.significand - value.lowerGap) * unit,
    4 * value.significand * unit,
    (4 * value.significand + 2) * unit,
    value.significand % 2 == 0,
    twoTo 1076 * tenTo exponent.toNat⟩

def Window.holds (window : Window) (coefficient : Nat) : Bool :=
  let point := coefficient * window.grid
  if window.closed then decide (window.lower ≤ point) && decide (point ≤ window.upper)
  else decide (window.lower < point) && decide (point < window.upper)

/-- The grid point of the interval that is nearest to the double, if the grid has one. -/
def Window.nearest? (window : Window) (tie : Tie) : Option Nat :=
  let below := window.middle / window.grid
  let above := below + 1
  match window.holds below, window.holds above with
  | false, false => none
  | true, false => some below
  | false, true => some above
  | true, true =>
    match compare (2 * window.middle) ((below + above) * window.grid), tie with
    | .lt, _ => some below
    | .gt, _ => some above
    | .eq, .up => some above
    | .eq, .even => some (if below % 2 = 0 then below else above)

/-- Grids from coarse to fine: `steps + 1` stands for the grid `10 ^ (steps - 324)`. The finest
grid is below half the smallest double, so each interval has a point on it. -/
def coarsest (value : FiniteDouble) (tie : Tie) : Nat → Nat × Int
  | 0 => (0, 0)
  | steps + 1 =>
    let exponent : Int := (steps : Int) - 324
    match (value.window exponent).nearest? tie with
    | some coefficient => (coefficient, exponent)
    | none => value.coarsest tie steps

/-- A grid from which the search may start: a power of ten above twice the magnitude. -/
def startExponent (value : FiniteDouble) : Int :=
  let bits := value.units.log2 + 2
  if 1074 ≤ bits then ((bits - 1074) * 30103 / 100000 + 1 : Nat)
  else -((1074 - bits) * 30102 / 100000 : Nat)

def shortest (value : FiniteDouble) (tie : Tie) : Decimal :=
  let found := value.coarsest tie (value.startExponent + 325).toNat
  ⟨value.negative, found.1, found.2⟩

end FiniteDouble

end TableServer
