import TableServer.Proofs.Number.Rounding

/-! The double next to a number: none is nearer, and of two as near it is the even one. Rounding gives
it, it keeps the order of the numbers, and it is the number itself where that is a double. -/

namespace TableServer

theorem twoTo_lt_iff (first second : ℕ) : twoTo first < twoTo second ↔ first < second :=
  Nat.pow_lt_pow_iff_right (by decide)

def signed (negative : Bool) (magnitude : ℚ) : ℚ :=
  if negative then -magnitude else magnitude

theorem abs_signed (negative : Bool) (magnitude : ℚ) : |signed negative magnitude| = |magnitude| := by
  cases negative with
  | false => rfl
  | true => exact abs_neg magnitude

theorem abs_signed_sub (negative : Bool) (first second : ℚ) :
    |signed negative first - signed negative second| = |first - second| := by
  cases negative with
  | false => rfl
  | true =>
    simp only [signed, if_true]
    rw [neg_sub_neg, abs_sub_comm]

theorem abs_signed_sub_of_ne {first second : Bool} (different : first ≠ second) (left right : ℚ) :
    |signed first left - signed second right| = |left + right| := by
  cases first <;> cases second <;> simp only [ne_eq, not_true_eq_false] at different
  · simp [signed]
  · simp only [signed]
    rw [← abs_neg]
    congr 1
    simp
    ring

theorem signed_zero (negative : Bool) : signed negative 0 = 0 := by
  cases negative with
  | false => rfl
  | true => exact neg_zero

theorem signed_natAbs (whole : ℤ) : signed (decide (whole < 0)) whole.natAbs = whole := by
  by_cases below : whole < 0
  · have magnitude : -(whole.natAbs : ℤ) = whole := by omega
    rw [signed, if_pos (decide_eq_true below), ← Int.cast_natCast, ← Int.cast_neg, magnitude]
  · have magnitude : (whole.natAbs : ℤ) = whole := by omega
    rw [signed, if_neg (by simp [below]), ← Int.cast_natCast, magnitude]

namespace FiniteDouble

theorem units_zero (negative : Bool) : (zero negative).units = 0 := Nat.zero_mul _

def smallest : ℚ := 2 ^ (-1074 : ℤ)

theorem smallest_pos : 0 < smallest := zpow_pos (by decide) _

theorem smallest_mul : smallest * twoTo 1074 = 1 := by
  have inverse (exponent : ℕ) : (2 : ℚ) ^ (-(exponent : ℤ)) * twoTo exponent = 1 := by
    have power : (twoTo exponent : ℚ) = 2 ^ exponent := Nat.cast_pow 2 exponent
    rw [power, zpow_neg, zpow_natCast, inv_mul_cancel₀ (by positivity)]
  exact inverse 1074

theorem toRat_eq_signed (value : FiniteDouble) :
    value.toRat = signed value.negative (value.units * smallest) := by
  have multiple : value.toRat = value.signedUnits * smallest := value.toRat_eq
  rw [multiple, signedUnits]
  cases value.negative with
  | false => rfl
  | true =>
    rw [if_pos rfl, signed, if_pos rfl, Int.cast_neg, neg_mul]
    rfl

theorem abs_toRat (value : FiniteDouble) : |value.toRat| = value.units * smallest := by
  have notNegative : 0 ≤ value.units * smallest := mul_nonneg (Nat.cast_nonneg _) smallest_pos.le
  rw [toRat_eq_signed, abs_signed, abs_of_nonneg notNegative]

theorem toRat_nonneg {value : FiniteDouble} (positive : value.negative = false) : 0 ≤ value.toRat := by
  rw [toRat_eq_signed, positive]
  exact mul_nonneg (Nat.cast_nonneg _) smallest_pos.le

/-- No double is nearer to the number, and where another one is as near the significand is even. -/
structure IsNearest (value : FiniteDouble) (exact : ℚ) : Prop where
  nearest : ∀ other : FiniteDouble, |value.toRat - exact| ≤ |other.toRat - exact|
  even_of_tie : ∀ other : FiniteDouble, |other.toRat - exact| = |value.toRat - exact| →
    other.toRat = value.toRat ∨ value.significand % 2 = 0

theorem isNearest_of_rounding {negative : Bool} {units : ℚ} {rounded scale : ℕ}
    {value : FiniteDouble} (notNegative : 0 ≤ units) (rounds : Rounding units rounded scale)
    (found : Double.ofRounded negative rounded scale = .finite value) :
    value.IsNearest (signed negative (units * smallest)) := by
  obtain ⟨sameUnits, even⟩ := Double.units_of_ofRounded found
  have sameSign := ((Double.ofRounded_eq_finite_iff _ _ _ _).mp found).1
  have scaled (other : FiniteDouble) : |other.units * smallest - units * smallest| =
      |(other.units : ℚ) - units| * smallest := by
    rw [← sub_mul, abs_mul, abs_of_pos smallest_pos]
  have own : |value.toRat - signed negative (units * smallest)| =
      |(value.units : ℚ) - units| * smallest := by
    rw [toRat_eq_signed, sameSign, abs_signed_sub, scaled]
  have apart (other : FiniteDouble) : |(other.units : ℚ) - units| * smallest ≤
      |other.toRat - signed negative (units * smallest)| := by
    have magnitudes := abs_abs_sub_abs_le other.toRat (signed negative (units * smallest))
    rw [abs_toRat, abs_signed, abs_of_nonneg (mul_nonneg notNegative smallest_pos.le),
      scaled] at magnitudes
    exact magnitudes
  have closest (other : FiniteDouble) := rounds.nearest other
  rw [← sameUnits] at closest
  constructor
  · intro other
    rw [own]
    exact (mul_le_mul_of_nonneg_right (closest other).1 smallest_pos.le).trans (apart other)
  · intro other tie
    rw [own] at tie
    by_cases sign : other.negative = negative
    · rw [toRat_eq_signed other, sign, abs_signed_sub, scaled] at tie
      rcases (closest other).2 (mul_right_cancel₀ smallest_pos.ne' tie) with same | isEven
      · exact Or.inl (by rw [toRat_eq_signed, toRat_eq_signed, same, sign, sameSign])
      · exact Or.inr (even isEven)
    · rw [toRat_eq_signed other, abs_signed_sub_of_ne sign, ← add_mul, abs_mul,
        abs_of_pos smallest_pos] at tie
      have tie := mul_right_cancel₀ smallest_pos.ne' tie
      have noFurther := (closest (.zero false)).1
      have zero : ((FiniteDouble.zero false).units : ℚ) = 0 := by rw [units_zero, Nat.cast_zero]
      have notLess : (0 : ℚ) ≤ other.units := Nat.cast_nonneg _
      rw [zero, zero_sub, abs_neg, abs_of_nonneg notNegative, ← tie,
        abs_of_nonneg (by linarith)] at noFurther
      have isZero : (other.units : ℚ) = 0 := by linarith
      rw [isZero, zero_add] at tie
      rcases (closest other).2 (by rw [isZero, zero_sub, abs_neg, tie]) with same | isEven
      · refine Or.inl ?_
        rw [toRat_eq_signed, toRat_eq_signed value, ← same, isZero, zero_mul, signed_zero, signed_zero]
      · exact Or.inr (even isEven)

theorem IsNearest.mono {first second : FiniteDouble} {less more : ℚ} (firstNearest : first.IsNearest less)
    (secondNearest : second.IsNearest more) (smaller : less < more) : first.toRat ≤ second.toRat := by
  by_contra! inverted
  have lessSide := firstNearest.nearest second
  have moreSide := secondNearest.nearest first
  have beyond : first.toRat + second.toRat ≤ 2 * less := by
    by_contra! early
    have farther : |second.toRat - less| < first.toRat - less :=
      abs_lt.mpr ⟨by linarith, by linarith⟩
    have own := le_abs_self (first.toRat - less)
    linarith
  have within : 2 * more ≤ first.toRat + second.toRat := by
    by_contra! late
    have farther : |first.toRat - more| < more - second.toRat :=
      abs_lt.mpr ⟨by linarith, by linarith⟩
    have own := neg_le_abs (second.toRat - more)
    linarith
  linarith

theorem isNearest_toRat (value : FiniteDouble) : value.IsNearest value.toRat := by
  constructor
  · intro other
    rw [sub_self, abs_zero]
    exact abs_nonneg _
  · intro other tie
    rw [sub_self, abs_zero, abs_eq_zero] at tie
    exact Or.inl (sub_eq_zero.mp tie)

theorem IsNearest.eq_of_exact {value exactly : FiniteDouble} {exact : ℚ} (nearest : value.IsNearest exact)
    (same : exactly.toRat = exact) : value.toRat = exact := by
  have close := nearest.nearest exactly
  rw [same, sub_self, abs_zero] at close
  exact sub_eq_zero.mp (abs_nonpos_iff.mp close)

theorem IsNearest.le_of_le {value bound : FiniteDouble} {exact : ℚ} (nearest : value.IsNearest exact)
    (within : exact ≤ bound.toRat) : value.toRat ≤ bound.toRat := by
  rcases within.lt_or_eq with less | same
  · exact nearest.mono bound.isNearest_toRat less
  · exact (nearest.eq_of_exact same.symm).trans_le same.le

theorem hasScale (value : FiniteDouble) : HasScale value.units value.scale := by
  rw [units_eq]
  constructor
  · have short := Nat.mul_lt_mul_of_pos_right value.significand_lt (twoTo_pos value.scale)
    exact_mod_cast short
  · refine value.normal.imp_right ?_
    intro long
    exact_mod_cast Nat.mul_le_mul_right (twoTo value.scale) long

theorem parts_of_units {first second : FiniteDouble} (same : first.units = second.units) :
    first.significand = second.significand ∧ first.scale = second.scale := by
  have sameScale := first.hasScale.unique (same ▸ second.hasScale)
  rw [units_eq, units_eq, sameScale] at same
  exact ⟨Nat.eq_of_mul_eq_mul_right (twoTo_pos _) same, sameScale⟩

theorem eq_of_units {first second : FiniteDouble} (sameSign : first.negative = second.negative)
    (same : first.units = second.units) : first = second := by
  obtain ⟨sameBits, sameScale⟩ := parts_of_units same
  cases first
  cases second
  simp only at sameSign sameBits sameScale
  subst sameSign sameBits sameScale
  rfl

theorem eq_of_toRat {first second : FiniteDouble} (sameSign : first.negative = second.negative)
    (same : first.toRat = second.toRat) : first = second := by
  refine eq_of_units sameSign ?_
  have magnitudes : |first.toRat| = |second.toRat| := congrArg abs same
  rw [abs_toRat, abs_toRat] at magnitudes
  exact_mod_cast mul_right_cancel₀ smallest_pos.ne' magnitudes

/-- Behind a double with an even significand there is another one before the next of these. -/
theorem exists_between {value other : FiniteDouble} (even : value.significand % 2 = 0)
    (otherEven : other.significand % 2 = 0) (less : value.units < other.units) :
    ∃ between : FiniteDouble, between.negative = value.negative ∧
      value.units < between.units ∧ between.units < other.units := by
  have room : value.significand + 1 < twoTo 53 := by
    have short := value.significand_lt
    have evenBound : twoTo 53 % 2 = 0 := rfl
    omega
  let above : FiniteDouble := ⟨value.negative, value.significand + 1, value.scale, room,
    value.scale_le, value.normal.imp_right fun long => long.trans (Nat.le_succ _)⟩
  have unit := twoTo_pos value.scale
  have next : above.units = value.units + twoTo value.scale := by
    rw [units_eq, units_eq, Nat.add_one_mul]
  have coarser : value.scale ≤ other.scale := value.hasScale.mono other.hasScale (by exact_mod_cast less.le)
  have multiple : other.units =
      other.significand * twoTo (other.scale - value.scale) * twoTo value.scale := by
    rw [units_eq, mul_assoc, ← twoTo_add, Nat.sub_add_cancel coarser]
  have further : above.units ≤ other.units := by
    rw [units_eq value, multiple] at less
    rw [units_eq above, multiple]
    exact Nat.mul_le_mul_right _ (Nat.lt_of_mul_lt_mul_right less)
  have different : above.units ≠ other.units := by
    intro same
    have odd : other.significand = value.significand + 1 := (parts_of_units same).1.symm
    omega
  exact ⟨above, rfl, by omega, lt_of_le_of_ne further different⟩

theorem toRat_between {first between second : FiniteDouble}
    (sign : between.negative = first.negative) (otherSign : second.negative = first.negative)
    (above : first.units < between.units) (below : between.units < second.units) :
    min first.toRat second.toRat < between.toRat ∧ between.toRat < max first.toRat second.toRat := by
  have above := mul_lt_mul_of_pos_right (Nat.cast_lt.mpr above : (first.units : ℚ) < _) smallest_pos
  have below := mul_lt_mul_of_pos_right (Nat.cast_lt.mpr below : (between.units : ℚ) < _) smallest_pos
  rw [toRat_eq_signed, toRat_eq_signed between, toRat_eq_signed second, sign, otherSign]
  cases first.negative with
  | false => exact ⟨min_lt_of_left_lt above, lt_max_of_lt_right below⟩
  | true =>
    exact ⟨min_lt_of_right_lt (neg_lt_neg below), lt_max_of_lt_left (neg_lt_neg above)⟩

theorem IsNearest.units_le {first second : FiniteDouble} {exact : ℚ}
    (firstNearest : first.IsNearest exact) (secondNearest : second.IsNearest exact)
    (sameSign : second.negative = first.negative) : second.units ≤ first.units := by
  by_contra! less
  have tie : |first.toRat - exact| = |second.toRat - exact| :=
    le_antisymm (firstNearest.nearest second) (secondNearest.nearest first)
  have different : first.toRat ≠ second.toRat := fun same =>
    less.ne (congrArg units (eq_of_toRat sameSign.symm same))
  have even := (firstNearest.even_of_tie second tie.symm).resolve_left different.symm
  have otherEven := (secondNearest.even_of_tie first tie).resolve_left different
  obtain ⟨between, sign, above, below⟩ := exists_between even otherEven less
  obtain ⟨above, below⟩ := toRat_between sign sameSign above below
  have closest := firstNearest.nearest between
  have firstWithin := abs_le.mp (le_refl |first.toRat - exact|)
  have secondWithin := abs_le.mp tie.ge
  have nearer : |between.toRat - exact| < |first.toRat - exact| := by
    refine abs_lt.mpr ⟨?_, ?_⟩
    · rcases min_lt_iff.mp above with after | after <;> linarith
    · rcases lt_max_iff.mp below with before | before <;> linarith
  linarith

/-- No number of either sign lies in the middle between two doubles that could both be taken for it. -/
theorem IsNearest.unique {first second : FiniteDouble} {exact : ℚ}
    (firstNearest : first.IsNearest exact) (secondNearest : second.IsNearest exact)
    (sameSign : first.negative = second.negative) : first = second :=
  eq_of_units sameSign (le_antisymm (secondNearest.units_le firstNearest sameSign)
    (firstNearest.units_le secondNearest sameSign.symm))

theorem exists_units (whole : ℕ) (small : whole ≤ twoTo 53) (negative : Bool) :
    ∃ value : FiniteDouble, value.negative = negative ∧ value.units = whole * twoTo 1074 := by
  rcases Nat.eq_zero_or_pos whole with rfl | positive
  · exact ⟨.zero negative, rfl, by rw [units_zero, Nat.zero_mul]⟩
  rcases Nat.eq_or_lt_of_le small with rfl | short
  · refine ⟨⟨negative, twoTo 52, 1075, by decide, by decide, Or.inr (Nat.le_refl _)⟩, rfl, ?_⟩
    rw [units_eq, ← twoTo_add, ← twoTo_add]
    exact congrArg twoTo (rfl : 52 + 1075 = 53 + 1074)
  · -- The significand is the number with as many zeros behind it as make up 53 bits.
    have log_lt : whole.log2 < 53 := (Nat.log2_lt positive.ne').mpr short
    have bits_lt : whole * twoTo (52 - whole.log2) < twoTo 53 := by
      have above : whole < twoTo (whole.log2 + 1) := Nat.lt_log2_self
      have longer := Nat.mul_lt_mul_of_pos_right above (twoTo_pos (52 - whole.log2))
      rw [← twoTo_add] at longer
      have total : whole.log2 + 1 + (52 - whole.log2) = 53 := by omega
      rwa [total] at longer
    have bits_ge : twoTo 52 ≤ whole * twoTo (52 - whole.log2) := by
      have below : twoTo whole.log2 ≤ whole := Nat.log2_self_le positive.ne'
      have longer := Nat.mul_le_mul_right (twoTo (52 - whole.log2)) below
      rw [← twoTo_add] at longer
      have total : whole.log2 + (52 - whole.log2) = 52 := by omega
      rwa [total] at longer
    refine ⟨⟨negative, whole * twoTo (52 - whole.log2), 1022 + whole.log2, bits_lt, by omega,
      Or.inr bits_ge⟩, rfl, ?_⟩
    rw [units_eq, mul_assoc, ← twoTo_add]
    congr 2
    dsimp only
    omega

theorem exists_toRat_eq (whole : ℤ) (small : whole.natAbs ≤ twoTo 53) :
    ∃ value : FiniteDouble, value.toRat = whole := by
  obtain ⟨value, sameSign, sameUnits⟩ := exists_units whole.natAbs small (decide (whole < 0))
  refine ⟨value, ?_⟩
  rw [toRat_eq_signed, sameSign, sameUnits, Nat.cast_mul, mul_assoc, mul_comm (twoTo 1074 : ℚ),
    smallest_mul, mul_one, signed_natAbs]

end FiniteDouble

namespace Double

theorem exists_ofRounded (negative : Bool) {units : ℚ} {rounded scale : ℕ}
    (rounds : Rounding units rounded scale) (small : scale < 2045) :
    ∃ value, ofRounded negative rounded scale = .finite value := by
  rcases Nat.eq_or_lt_of_le rounds.le with full | short
  · refine ⟨⟨negative, twoTo 52, scale + 1, by decide, by omega, Or.inr (Nat.le_refl _)⟩, ?_⟩
    rw [ofRounded_eq_finite_iff]
    exact ⟨rfl, Or.inr ⟨full, rfl, rfl⟩⟩
  · refine ⟨⟨negative, rounded, scale, short, by omega, rounds.normal⟩, ?_⟩
    rw [ofRounded_eq_finite_iff]
    exact ⟨rfl, Or.inl ⟨rfl, rfl⟩⟩

theorem isNearest_of_ofRatio {negative : Bool} {numerator denominator : ℕ} {value : FiniteDouble}
    (positive : 0 < denominator) (found : ofRatio negative numerator denominator = .finite value) :
    value.IsNearest (signed negative (numerator / denominator)) := by
  obtain ⟨rounded, scale, rounds, same⟩ :=
    exists_rounding negative (numerator * twoTo 1074) positive
  have notNegative := div_nonneg (Nat.cast_nonneg' (α := ℚ) (numerator * twoTo 1074))
    (Nat.cast_nonneg' (α := ℚ) denominator)
  have nearest := FiniteDouble.isNearest_of_rounding notNegative rounds (same.symm.trans found)
  have exact : ((numerator * twoTo 1074 : ℕ) : ℚ) / denominator * FiniteDouble.smallest =
      numerator / denominator := by
    rw [Nat.cast_mul, div_mul_eq_mul_div, mul_assoc, mul_comm (twoTo 1074 : ℚ),
      FiniteDouble.smallest_mul, mul_one]
  rwa [exact] at nearest

theorem exists_isNearest (negative : Bool) {numerator denominator : ℕ} (positive : 0 < denominator)
    (small : numerator < twoTo 1023 * denominator) :
    ∃ value, ofRatio negative numerator denominator = .finite value ∧ value.negative = negative ∧
      value.IsNearest (signed negative (numerator / denominator)) := by
  obtain ⟨rounded, scale, rounds, same⟩ :=
    exists_rounding negative (numerator * twoTo 1074) positive
  have below : (0 : ℚ) < denominator := by exact_mod_cast positive
  have inRange : scale < 2045 := by
    rcases rounds.hasScale.above with zero | above
    · omega
    · rw [le_div_iff₀ below] at above
      have above : twoTo 52 * twoTo scale * denominator ≤ numerator * twoTo 1074 := by
        exact_mod_cast above
      have room := Nat.mul_lt_mul_of_pos_right small (twoTo_pos 1074)
      have room : twoTo 52 * twoTo scale * denominator < twoTo 1023 * twoTo 1074 * denominator := by
        calc twoTo 52 * twoTo scale * denominator
            ≤ numerator * twoTo 1074 := above
          _ < twoTo 1023 * denominator * twoTo 1074 := room
          _ = twoTo 1023 * twoTo 1074 * denominator := Nat.mul_right_comm ..
      have powers := Nat.lt_of_mul_lt_mul_right room
      rw [← twoTo_add, ← twoTo_add, twoTo_lt_iff] at powers
      omega
  obtain ⟨value, found⟩ := exists_ofRounded negative rounds inRange
  have sameSign := ((ofRounded_eq_finite_iff _ _ _ _).mp found).1
  exact ⟨value, same.trans found, sameSign, isNearest_of_ofRatio positive (same.trans found)⟩

theorem exists_ofInt {whole : ℤ} (small : whole.natAbs < twoTo 1023) :
    ∃ value, ofInt whole = .finite value ∧ value.negative = decide (whole < 0) ∧
      value.IsNearest whole := by
  rw [← Nat.mul_one (twoTo 1023)] at small
  obtain ⟨value, found, sameSign, nearest⟩ :=
    exists_isNearest (decide (whole < 0)) Nat.one_pos small
  rw [Nat.cast_one, div_one, signed_natAbs] at nearest
  exact ⟨value, found, sameSign, nearest⟩

end Double

end TableServer
