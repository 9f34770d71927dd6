import TableServer.Number.Shortest
import TableServer.Proofs.Number.Nearest

/-! The shortest digits of a double stand for a number between the middles to the two neighbouring doubles.
Rounding takes every number there to the double, so the digits read back as it. -/

namespace TableServer

theorem tenTo_pos (exponent : ℕ) : 0 < tenTo exponent := Nat.pow_pos (by decide)

theorem twoTo_succ (exponent : ℕ) : twoTo (exponent + 1) = 2 * twoTo exponent := Nat.pow_succ'

theorem twoTo_add_two (exponent : ℕ) : twoTo (exponent + 2) = 4 * twoTo exponent := by
  rw [twoTo_succ, twoTo_succ, ← Nat.mul_assoc]

theorem twoTo_le_tenTo (exponent : ℕ) : twoTo (3 * exponent) ≤ tenTo exponent := by
  have eight : twoTo (3 * exponent) = 8 ^ exponent := Nat.pow_mul 2 3 exponent
  rw [eight]
  exact Nat.pow_le_pow_left (by decide) exponent

namespace FiniteDouble

/-- The magnitudes that round to a double, in steps of its scale: they reach half a step up, and half
a step down or a quarter below a power of two. The ends belong to an even significand. -/
structure Catches (value : FiniteDouble) (steps : ℚ) : Prop where
  lower : ((4 * value.significand - value.lowerGap : ℕ) : ℚ) ≤ 4 * steps
  upper : 4 * steps ≤ (4 * value.significand + 2 : ℕ)
  inside : value.significand % 2 = 1 →
    ((4 * value.significand - value.lowerGap : ℕ) : ℚ) < 4 * steps ∧
      4 * steps < (4 * value.significand + 2 : ℕ)

theorem lowerGap_cases (value : FiniteDouble) :
    value.significand = twoTo 52 ∧ 0 < value.scale ∧ value.lowerGap = 1 ∨
      ¬(value.significand = twoTo 52 ∧ 0 < value.scale) ∧ value.lowerGap = 2 := by
  unfold lowerGap
  split
  · rename_i power
    exact Or.inl ⟨power.1, power.2, rfl⟩
  · rename_i noPower
    exact Or.inr ⟨noPower, rfl⟩

theorem lowerGap_le (value : FiniteDouble) : value.lowerGap ≤ 2 := by
  rcases value.lowerGap_cases with ⟨_, _, gap⟩ | ⟨_, gap⟩ <;> omega

theorem gap_le (value : FiniteDouble) : (4 * value.significand : ℚ) ≤
    ((4 * value.significand - value.lowerGap : ℕ) : ℚ) + value.lowerGap := by
  exact_mod_cast (by omega :
    4 * value.significand ≤ 4 * value.significand - value.lowerGap + value.lowerGap)

theorem roundsTo_of_catches {value : FiniteDouble} {steps : ℚ} (caught : value.Catches steps) :
    RoundsTo steps value.significand := by
  have gap := value.gap_le
  have small : (value.lowerGap : ℚ) ≤ 2 := by exact_mod_cast value.lowerGap_le
  have lower := caught.lower
  have upper := caught.upper
  push_cast at upper
  constructor
  · exact abs_le.mpr ⟨by linarith, by linarith⟩
  · intro half
    by_contra odd
    obtain ⟨low, high⟩ := caught.inside (by omega)
    push_cast at high
    have less : |(value.significand : ℚ) - steps| < 1 / 2 := abs_lt.mpr ⟨by linarith, by linarith⟩
    linarith

theorem carry_of_catches {value : FiniteDouble} {steps : ℚ} (caught : value.Catches steps)
    (short : value.scale ≠ 0 ∧ steps < twoTo 52) :
    value.significand = twoTo 52 ∧ RoundsTo (2 * steps) (twoTo 53) ∧ (twoTo 52 : ℚ) ≤ 2 * steps := by
  have gap := value.gap_le
  have lower := caught.lower
  have double : (twoTo 53 : ℚ) = 2 * twoTo 52 := by exact_mod_cast (rfl : twoTo 53 = 2 * twoTo 52)
  have large : (1 : ℚ) ≤ twoTo 52 := by exact_mod_cast twoTo_pos 52
  have long := value.normal.resolve_left short.1
  rcases value.lowerGap_cases with ⟨bits, _, one⟩ | ⟨noPower, two⟩
  · rw [one, bits] at gap
    rw [one, bits] at lower
    push_cast at gap
    refine ⟨bits, ⟨?_, fun _ => rfl⟩, by linarith⟩
    rw [double]
    exact abs_le.mpr ⟨by linarith, by linarith⟩
  · rw [two] at gap lower
    push_cast at gap
    have less : (value.significand : ℚ) < twoTo 52 + 1 := by linarith
    have less : value.significand < twoTo 52 + 1 := by exact_mod_cast less
    exact absurd ⟨by omega, by omega⟩ noPower

theorem ofUnits_of_catches {value : FiniteDouble} {numerator denominator : ℕ}
    (positive : 0 < denominator)
    (caught : value.Catches ((numerator : ℚ) / denominator / twoTo value.scale)) :
    Double.ofUnits value.negative numerator denominator = .finite value := by
  have power := cast_twoTo_pos value.scale
  have upper := caught.upper
  push_cast at upper
  have bits : (value.significand : ℚ) + 1 ≤ twoTo 53 := by exact_mod_cast value.significand_lt
  have below : (numerator : ℚ) / denominator < twoTo 53 * twoTo value.scale := by
    rw [← div_lt_iff₀ power]
    linarith
  by_cases long : value.scale = 0 ∨
      (twoTo 52 : ℚ) ≤ (numerator : ℚ) / denominator / twoTo value.scale
  · have rounds : Rounding ((numerator : ℚ) / denominator) value.significand value.scale :=
      ⟨⟨below, long.imp_right (le_div_iff₀ power).mp⟩, roundsTo_of_catches caught⟩
    rw [Double.ofUnits_eq value.negative positive rounds, Double.ofRounded_eq_finite_iff]
    exact ⟨rfl, Or.inl ⟨rfl, rfl⟩⟩
  · rw [not_or, not_le] at long
    obtain ⟨isPower, rounded, above⟩ := carry_of_catches caught long
    obtain ⟨scale, next⟩ := Nat.exists_eq_succ_of_ne_zero long.1
    have half := cast_twoTo_pos scale
    have double : (twoTo value.scale : ℚ) = 2 * twoTo scale := by
      rw [next, Nat.succ_eq_add_one, Nat.add_comm, twoTo_add]
      exact_mod_cast rfl
    have steps : 2 * ((numerator : ℚ) / denominator / twoTo value.scale) =
        (numerator : ℚ) / denominator / twoTo scale := by
      rw [double]
      field_simp
    rw [steps] at rounded above
    have less := (div_lt_iff₀ power).mp long.2
    have rounds : Rounding ((numerator : ℚ) / denominator) (twoTo 53) scale := by
      refine ⟨⟨?_, Or.inr ((le_div_iff₀ half).mp above)⟩, rounded⟩
      have pair : (twoTo 53 : ℚ) = 2 * twoTo 52 := by
        exact_mod_cast (rfl : twoTo 53 = 2 * twoTo 52)
      rw [double] at less
      rw [pair]
      linarith
    rw [Double.ofUnits_eq value.negative positive rounds, Double.ofRounded_eq_finite_iff]
    exact ⟨rfl, Or.inr ⟨rfl, isPower, next⟩⟩

end FiniteDouble

namespace Decimal

def magnitude (value : Decimal) : ℚ := value.coefficient * 10 ^ value.exponent

def toRat (value : Decimal) : ℚ := signed value.negative value.magnitude

def numerator (value : Decimal) : ℕ := value.coefficient * tenTo value.exponent.toNat

def denominator (value : Decimal) : ℕ := tenTo (-value.exponent).toNat

theorem denominator_pos (value : Decimal) : 0 < value.denominator := tenTo_pos _

theorem magnitude_eq (value : Decimal) :
    value.magnitude = (value.numerator : ℚ) / value.denominator := by
  have power (exponent : ℕ) : (tenTo exponent : ℚ) = 10 ^ exponent := Nat.cast_pow 10 exponent
  rw [magnitude, numerator, denominator, Nat.cast_mul, power, power]
  obtain ⟨exponent, same | same⟩ := value.exponent.eq_nat_or_neg
  · rw [same, Int.toNat_natCast, Int.toNat_neg_natCast, pow_zero, div_one, zpow_natCast]
  · rw [same, Int.toNat_neg_natCast, neg_neg, Int.toNat_natCast, pow_zero, mul_one, zpow_neg,
      zpow_natCast, div_eq_mul_inv]

theorem units_eq (value : Decimal) : value.magnitude * twoTo 1074 =
    ((value.numerator * twoTo 1074 : ℕ) : ℚ) / value.denominator := by
  rw [magnitude_eq, Nat.cast_mul, div_mul_eq_mul_div]

section Caught

variable {decimal : Decimal} {value : FiniteDouble} (nonzero : 0 < value.significand)
  (caught : value.Catches (decimal.magnitude * twoTo 1074 / twoTo value.scale))

include nonzero caught

theorem denominator_le_of_caught : decimal.denominator ≤ 2 * (decimal.numerator * twoTo 1074) := by
  have power : (1 : ℚ) ≤ twoTo value.scale := by exact_mod_cast twoTo_pos value.scale
  have lower : (2 : ℚ) ≤ ((4 * value.significand - value.lowerGap : ℕ) : ℚ) := by
    have gap := value.lowerGap_le
    exact_mod_cast (by omega : 2 ≤ 4 * value.significand - value.lowerGap)
  have half := lower.trans caught.lower
  have half : 1 / 2 ≤ decimal.magnitude * twoTo 1074 / twoTo value.scale := by linarith
  rw [le_div_iff₀ (by linarith)] at half
  have half : 1 / 2 ≤ decimal.magnitude * twoTo 1074 := by linarith
  have positive : (0 : ℚ) < decimal.denominator := by exact_mod_cast decimal.denominator_pos
  rw [units_eq, le_div_iff₀ positive] at half
  have whole : (decimal.denominator : ℚ) ≤ 2 * (decimal.numerator * twoTo 1074 : ℕ) := by linarith
  exact_mod_cast whole

omit nonzero in
theorem numerator_lt_of_caught : decimal.numerator * twoTo 1074 < twoTo 2098 * decimal.denominator := by
  have power := cast_twoTo_pos value.scale
  have bits : (value.significand : ℚ) + 1 ≤ twoTo 53 := by exact_mod_cast value.significand_lt
  have upper := caught.upper
  push_cast at upper
  have below : decimal.magnitude * twoTo 1074 / twoTo value.scale < twoTo 53 := by linarith
  rw [div_lt_iff₀ power] at below
  have widest : (twoTo 53 : ℚ) * twoTo value.scale ≤ twoTo 2098 := by
    have widest := Nat.mul_le_mul_left (twoTo 53) (twoTo_le value.scale_le)
    rw [← twoTo_add 53 2045] at widest
    exact_mod_cast widest
  have positive : (0 : ℚ) < decimal.denominator := by exact_mod_cast decimal.denominator_pos
  have below := below.trans_le widest
  rw [units_eq, div_lt_iff₀ positive] at below
  exact_mod_cast below

theorem coefficient_ne_zero_of_caught : decimal.coefficient ≠ 0 := by
  intro zero
  have large := denominator_le_of_caught nonzero caught
  have positive := decimal.denominator_pos
  rw [numerator, zero, Nat.zero_mul, Nat.zero_mul] at large
  omega

theorem exponent_le_of_caught : decimal.exponent ≤ 400 := by
  by_contra! huge
  have small := numerator_lt_of_caught caught
  have nonzero := Nat.pos_of_ne_zero (coefficient_ne_zero_of_caught nonzero caught)
  have whole : (-decimal.exponent).toNat = 0 := by omega
  have tens := twoTo_le_tenTo decimal.exponent.toNat
  have bits : twoTo 1203 ≤ decimal.numerator := calc
    twoTo 1203 ≤ twoTo (3 * decimal.exponent.toNat) := twoTo_le (by omega)
    _ ≤ tenTo decimal.exponent.toNat := tens
    _ ≤ decimal.numerator := Nat.le_mul_of_pos_left _ nonzero
  have large := Nat.mul_le_mul_right (twoTo 1074) bits
  rw [← twoTo_add] at large
  have one : decimal.denominator = 1 := by
    rw [denominator, whole]
    rfl
  rw [one, Nat.mul_one] at small
  have powers := (twoTo_lt_iff _ _).mp (large.trans_lt small)
  omega

theorem exponent_ge_of_caught : -400 ≤ decimal.exponent + decimal.coefficient.log2 := by
  by_contra! tiny
  have large := denominator_le_of_caught nonzero caught
  have fraction : decimal.exponent.toNat = 0 := by omega
  have bits : decimal.coefficient < twoTo (decimal.coefficient.log2 + 1) := Nat.lt_log2_self
  have tens := twoTo_le_tenTo (-decimal.exponent).toNat
  have same : decimal.numerator = decimal.coefficient := by
    rw [numerator, fraction]
    exact Nat.mul_one _
  have longer := Nat.mul_lt_mul_of_pos_right bits (twoTo_pos 1074)
  rw [← twoTo_add] at longer
  have doubled := twoTo_succ (decimal.coefficient.log2 + 1 + 1074)
  have small : 2 * (decimal.numerator * twoTo 1074) <
      twoTo (decimal.coefficient.log2 + 1 + 1074 + 1) := by
    rw [same]
    omega
  have powers := (twoTo_lt_iff _ _).mp ((tens.trans large).trans_lt small)
  omega

omit nonzero in
theorem isNearest_of_caught (sameSign : decimal.negative = value.negative) :
    value.IsNearest decimal.toRat := by
  have found : Double.ofRatio value.negative decimal.numerator decimal.denominator = .finite value :=
    FiniteDouble.ofUnits_of_catches decimal.denominator_pos (units_eq decimal ▸ caught)
  have nearest := Double.isNearest_of_ofRatio decimal.denominator_pos found
  rwa [← magnitude_eq, ← sameSign] at nearest

/-- A decimal that a double catches is read as that double. -/
theorem toDouble_of_caught (sameSign : decimal.negative = value.negative) :
    decimal.toDouble = .finite value := by
  have found := FiniteDouble.ofUnits_of_catches decimal.denominator_pos (units_eq decimal ▸ caught)
  have notHuge := exponent_le_of_caught nonzero caught
  have notTiny := exponent_ge_of_caught nonzero caught
  rw [toDouble, if_neg (coefficient_ne_zero_of_caught nonzero caught), if_neg (by omega),
    if_neg (by omega), sameSign]
  exact found

end Caught

end Decimal

namespace FiniteDouble

theorem Window.holds_iff (window : Window) (coefficient : ℕ) :
    window.holds coefficient = true ↔
      window.lower ≤ coefficient * window.grid ∧ coefficient * window.grid ≤ window.upper ∧
        (window.closed = false →
          window.lower < coefficient * window.grid ∧ coefficient * window.grid < window.upper) := by
  simp only [Window.holds]
  cases window.closed with
  | true => simp
  | false =>
    simp only [Bool.false_eq_true, if_false, Bool.and_eq_true, decide_eq_true_eq, forall_const]
    omega

theorem Window.holds_of_nearest? {window : Window} {tie : Tie} {coefficient : ℕ}
    (found : window.nearest? tie = some coefficient) : window.holds coefficient = true := by
  simp only [Window.nearest?] at found
  split at found
  · cases found
  · rename_i below _
    cases found
    exact below
  · rename_i _ above
    cases found
    exact above
  · rename_i below above
    split at found <;> cases found
    · exact below
    · exact above
    · exact above
    · split
      · exact below
      · exact above

theorem Window.nearest?_ne_none {window : Window} {tie : Tie}
    (above : window.holds (window.middle / window.grid + 1) = true) :
    window.nearest? tie ≠ none := by
  intro absent
  cases below : window.holds (window.middle / window.grid) with
  | false => simp [Window.nearest?, above, below] at absent
  | true =>
    simp only [Window.nearest?, above, below] at absent
    split at absent <;> cases absent

theorem catches_of_window {value : FiniteDouble} {exponent : ℤ} {coefficient : ℕ} (negative : Bool)
    (held : (value.window exponent).holds coefficient = true) :
    value.Catches
      ((⟨negative, coefficient, exponent⟩ : Decimal).magnitude * twoTo 1074 / twoTo value.scale) := by
  have unit : 0 < twoTo value.scale * tenTo (-exponent).toNat :=
    Nat.mul_pos (twoTo_pos _) (tenTo_pos _)
  have unit : (0 : ℚ) < (twoTo value.scale * tenTo (-exponent).toNat : ℕ) := by exact_mod_cast unit
  have steps : 4 * ((⟨negative, coefficient, exponent⟩ : Decimal).magnitude * twoTo 1074 /
      twoTo value.scale) = ((coefficient * (twoTo 1076 * tenTo exponent.toNat) : ℕ) : ℚ) /
        (twoTo value.scale * tenTo (-exponent).toNat : ℕ) := by
    have four : twoTo 1076 = 4 * twoTo 1074 := twoTo_add_two 1074
    rw [Decimal.units_eq, Decimal.numerator, Decimal.denominator, four, div_div, mul_div_assoc']
    generalize twoTo 1074 = one
    push_cast
    ring
  obtain ⟨lower, upper, inside⟩ := (Window.holds_iff _ _).mp held
  simp only [window] at lower upper inside
  constructor
  · rw [steps, le_div_iff₀ unit]
    exact_mod_cast lower
  · rw [steps, div_le_iff₀ unit]
    exact_mod_cast upper
  · intro odd
    obtain ⟨below, above⟩ := inside (by simp [odd])
    rw [steps, lt_div_iff₀ unit, div_lt_iff₀ unit]
    exact ⟨by exact_mod_cast below, by exact_mod_cast above⟩

theorem finest_holds (value : FiniteDouble) :
    (value.window (-324)).holds
      ((value.window (-324)).middle / (value.window (-324)).grid + 1) = true := by
  have fine : twoTo 1076 < tenTo 324 := by decide +kernel
  have step : 0 < twoTo value.scale * tenTo 324 := Nat.mul_pos (twoTo_pos _) (tenTo_pos _)
  have finer : twoTo 1076 < twoTo value.scale * tenTo 324 :=
    fine.trans_le (Nat.le_mul_of_pos_left _ (twoTo_pos _))
  have grid : (value.window (-324)).grid = twoTo 1076 := by
    have one : tenTo (-324 : ℤ).toNat = 1 := rfl
    rw [window, one, Nat.mul_one]
  have middle : (value.window (-324)).middle =
      4 * value.significand * (twoTo value.scale * tenTo 324) := rfl
  have upper : (value.window (-324)).upper =
      (4 * value.significand + 2) * (twoTo value.scale * tenTo 324) := rfl
  have lower : (value.window (-324)).lower =
      (4 * value.significand - value.lowerGap) * (twoTo value.scale * tenTo 324) := rfl
  have beyond := Nat.lt_mul_div_succ (value.window (-324)).middle (twoTo_pos 1076)
  have within := Nat.mul_div_le (value.window (-324)).middle (twoTo 1076)
  rw [Window.holds_iff, grid, Nat.mul_comm _ (twoTo 1076), upper, lower]
  rw [middle] at beyond within ⊢
  generalize twoTo value.scale * tenTo 324 = unit at *
  have notAbove := Nat.mul_le_mul_right unit (Nat.sub_le (4 * value.significand) value.lowerGap)
  rw [Nat.add_mul, Nat.mul_succ] at *
  omega

theorem holds_of_coarsest (value : FiniteDouble) (tie : Tie) (steps : ℕ) :
    (value.window (value.coarsest tie (steps + 1)).2).holds
      (value.coarsest tie (steps + 1)).1 = true := by
  induction steps with
  | zero =>
    rw [coarsest]
    split
    · rename_i found
      exact Window.holds_of_nearest? found
    · rename_i absent
      exact absurd absent (Window.nearest?_ne_none value.finest_holds)
  | succ steps ih =>
    rw [coarsest]
    split
    · rename_i found
      exact Window.holds_of_nearest? found
    · exact ih

theorem startExponent_ge (value : FiniteDouble) : -324 ≤ value.startExponent := by
  simp only [startExponent]
  split <;> omega

theorem catches_shortest (value : FiniteDouble) (tie : Tie) :
    value.Catches ((value.shortest tie).magnitude * twoTo 1074 / twoTo value.scale) := by
  have begin := value.startExponent_ge
  obtain ⟨steps, enough⟩ : ∃ steps, (value.startExponent + 325).toNat = steps + 1 :=
    Nat.exists_eq_succ_of_ne_zero (by omega)
  have held := value.holds_of_coarsest tie steps
  rw [← enough] at held
  exact catches_of_window value.negative held

/-- The shortest digits of a double read back as that double. -/
theorem toDouble_shortest {value : FiniteDouble} (nonzero : 0 < value.significand) (tie : Tie) :
    (value.shortest tie).toDouble = .finite value :=
  Decimal.toDouble_of_caught nonzero (value.catches_shortest tie) rfl

end FiniteDouble

end TableServer
