import Mathlib.Algebra.Order.Field.Basic
import Mathlib.Tactic.Linarith
import Mathlib.Tactic.Positivity
import Mathlib.Tactic.FieldSimp
import Mathlib.Tactic.Ring
import TableServer.Proofs.Number.ExactValue

/-! Rounding to a double in two steps: the scale that leaves 53 significant bits, and the whole number
next to what is left. Each step is stated by what its result satisfies and shown to have one result, so
that a double with the same properties is the one that rounding gives. -/

namespace TableServer

theorem twoTo_pos (exponent : ℕ) : 0 < twoTo exponent := Nat.two_pow_pos exponent

theorem cast_twoTo_pos (exponent : ℕ) : (0 : ℚ) < twoTo exponent := Nat.cast_pos.mpr (twoTo_pos exponent)

theorem twoTo_add (first second : ℕ) : twoTo (first + second) = twoTo first * twoTo second :=
  Nat.pow_add 2 first second

theorem twoTo_le {first second : ℕ} (small : first ≤ second) : twoTo first ≤ twoTo second :=
  Nat.pow_le_pow_right (by decide) small

/-- A number rounds to a whole one within a half of it, and to an even one if it is a half away. -/
structure RoundsTo (exact : ℚ) (whole : ℕ) : Prop where
  close : |(whole : ℚ) - exact| ≤ 1 / 2
  even_of_half : |(whole : ℚ) - exact| = 1 / 2 → whole % 2 = 0

namespace RoundsTo

theorem of_fraction (whole : ℕ) {part : ℚ} (notNegative : 0 ≤ part) (proper : part < 1) :
    RoundsTo (whole + part)
      (if part < 1 / 2 then whole else if 1 / 2 < part then whole + 1 else whole + whole % 2) := by
  split
  · rename_i less
    refine ⟨abs_le.mpr ⟨by linarith, by linarith⟩, ?_⟩
    intro half
    rw [abs_of_nonpos (by linarith)] at half
    linarith
  · split
    · rename_i more
      refine ⟨abs_le.mpr ⟨by push_cast; linarith, by push_cast; linarith⟩, ?_⟩
      intro half
      rw [abs_of_nonneg (by push_cast; linarith)] at half
      push_cast at half
      linarith
    · have isHalf : part = 1 / 2 := by linarith
      refine ⟨?_, fun _ => by omega⟩
      rcases Nat.mod_two_eq_zero_or_one whole with even | odd
      · rw [even, isHalf, abs_le]
        constructor <;> push_cast <;> linarith
      · rw [odd, isHalf, abs_le]
        constructor <;> push_cast <;> linarith

theorem le {exact : ℚ} {first second : ℕ} (rounds : RoundsTo exact first)
    (other : RoundsTo exact second) : first ≤ second := by
  by_contra! more
  obtain ⟨_, high⟩ := abs_le.mp rounds.close
  obtain ⟨low, _⟩ := abs_le.mp other.close
  have apart : (second : ℚ) + 1 ≤ first := by exact_mod_cast more
  have evenFirst := rounds.even_of_half (by rw [abs_of_nonneg (by linarith)]; linarith)
  have evenSecond := other.even_of_half (by rw [abs_of_nonpos (by linarith)]; linarith)
  have next : (first : ℚ) = (second + 1 : ℕ) := by
    push_cast
    linarith
  have next : first = second + 1 := by exact_mod_cast next
  omega

theorem unique {exact : ℚ} {first second : ℕ} (rounds : RoundsTo exact first)
    (other : RoundsTo exact second) : first = second :=
  Nat.le_antisymm (rounds.le other) (other.le rounds)

theorem apart (exact : ℚ) {whole other : ℕ} (different : other ≠ whole) :
    1 ≤ |(other : ℚ) - exact| + |(whole : ℚ) - exact| := by
  have distance : (1 : ℤ) ≤ |(other : ℤ) - whole| := Int.one_le_abs (by omega)
  have distance : (1 : ℚ) ≤ |(other : ℚ) - whole| := by exact_mod_cast distance
  have triangle := abs_sub_le (other : ℚ) exact whole
  rw [abs_sub_comm exact] at triangle
  linarith

theorem nearest {exact : ℚ} {whole : ℕ} (rounds : RoundsTo exact whole) (other : ℕ) :
    |(whole : ℚ) - exact| ≤ |(other : ℚ) - exact| := by
  by_cases same : other = whole
  · rw [same]
  · have distances := apart exact same
    have close := rounds.close
    linarith

theorem even_of_tie {exact : ℚ} {whole other : ℕ} (rounds : RoundsTo exact whole)
    (different : other ≠ whole) (tie : |(other : ℚ) - exact| = |(whole : ℚ) - exact|) :
    whole % 2 = 0 := by
  have distances := apart exact different
  have close := rounds.close
  exact rounds.even_of_half (by linarith)

end RoundsTo

theorem roundsTo_roundHalfEven (numerator : ℕ) {denominator : ℕ} (positive : 0 < denominator) :
    RoundsTo ((numerator : ℚ) / denominator) (roundHalfEven numerator denominator) := by
  have below : (0 : ℚ) < denominator := by exact_mod_cast positive
  have division : (denominator : ℚ) * (numerator / denominator : ℕ) +
      (numerator % denominator : ℕ) = numerator := by
    exact_mod_cast Nat.div_add_mod numerator denominator
  have quotient : (numerator : ℚ) / denominator =
      (numerator / denominator : ℕ) + ((numerator % denominator : ℕ) : ℚ) / denominator := by
    field_simp
    linarith
  have remainder := Nat.mod_lt numerator positive
  simp only [roundHalfEven]
  rw [quotient]
  have less : ((numerator % denominator : ℕ) : ℚ) / denominator < 1 / 2 ↔
      2 * (numerator % denominator) < denominator := by
    rw [div_lt_iff₀ below, ← @Nat.cast_lt ℚ]
    push_cast
    constructor <;> intro <;> linarith
  have more : 1 / 2 < ((numerator % denominator : ℕ) : ℚ) / denominator ↔
      denominator < 2 * (numerator % denominator) := by
    rw [lt_div_iff₀ below, ← @Nat.cast_lt ℚ]
    push_cast
    constructor <;> intro <;> linarith
  have proper : ((numerator % denominator : ℕ) : ℚ) / denominator < 1 := by
    rw [div_lt_one below]
    exact_mod_cast remainder
  simpa only [less, more] using
    RoundsTo.of_fraction (numerator / denominator) (by positivity) proper

/-- The scale at which a magnitude, in units of the smallest double, has 53 significant bits, or 0. -/
structure HasScale (units : ℚ) (scale : ℕ) : Prop where
  below : units < twoTo 53 * twoTo scale
  above : scale = 0 ∨ (twoTo 52 : ℚ) * twoTo scale ≤ units

theorem HasScale.mono {less more : ℚ} {first second : ℕ} (scaled : HasScale less first)
    (other : HasScale more second) (small : less ≤ more) : first ≤ second := by
  by_contra! coarser
  have further : twoTo 53 * twoTo second ≤ twoTo 52 * twoTo first := by
    rw [← twoTo_add, ← twoTo_add]
    exact twoTo_le (by omega)
  have further : (twoTo 53 : ℚ) * twoTo second ≤ twoTo 52 * twoTo first := by exact_mod_cast further
  rcases scaled.above with zero | above
  · omega
  · have below := other.below
    linarith

theorem HasScale.unique {units : ℚ} {first second : ℕ} (scaled : HasScale units first)
    (other : HasScale units second) : first = second :=
  Nat.le_antisymm (scaled.mono other le_rfl) (other.mono scaled le_rfl)

theorem hasScale_scaleOf (numerator : ℕ) {denominator : ℕ} (positive : 0 < denominator) :
    HasScale ((numerator : ℚ) / denominator) (Double.scaleOf (numerator / denominator)) := by
  have below : (0 : ℚ) < denominator := by exact_mod_cast positive
  rw [Double.scaleOf]
  constructor
  · rw [div_lt_iff₀ below]
    have bits : numerator / denominator < twoTo ((numerator / denominator).log2 + 1) :=
      Nat.lt_log2_self
    have fits : twoTo ((numerator / denominator).log2 + 1) ≤
        twoTo 53 * twoTo ((numerator / denominator).log2 - 52) := by
      rw [← twoTo_add]
      exact twoTo_le (by omega)
    have small := (Nat.div_lt_iff_lt_mul positive).mp (Nat.lt_of_lt_of_le bits fits)
    exact_mod_cast small
  · rcases Nat.eq_zero_or_pos ((numerator / denominator).log2 - 52) with zero | more
    · exact Or.inl zero
    · refine Or.inr ?_
      rw [le_div_iff₀ below]
      have nonzero : numerator / denominator ≠ 0 := by
        intro zero
        rw [zero, Nat.log2_zero] at more
        omega
      have bits : twoTo (numerator / denominator).log2 ≤ numerator / denominator :=
        Nat.log2_self_le nonzero
      have same : twoTo (numerator / denominator).log2 =
          twoTo 52 * twoTo ((numerator / denominator).log2 - 52) := by
        rw [← twoTo_add]
        congr 1
        omega
      have large := (Nat.le_div_iff_mul_le positive).mp (same ▸ bits)
      exact_mod_cast large

structure Rounding (units : ℚ) (rounded scale : ℕ) : Prop where
  hasScale : HasScale units scale
  roundsTo : RoundsTo (units / twoTo scale) rounded

namespace Double

theorem exists_rounding (negative : Bool) (numerator : ℕ) {denominator : ℕ}
    (positive : 0 < denominator) :
    ∃ rounded scale, Rounding ((numerator : ℚ) / denominator) rounded scale ∧
      ofUnits negative numerator denominator = ofRounded negative rounded scale := by
  refine ⟨_, _, ⟨hasScale_scaleOf numerator positive, ?_⟩, rfl⟩
  rw [div_div]
  exact_mod_cast roundsTo_roundHalfEven numerator (Nat.mul_pos positive (twoTo_pos _))

theorem ofUnits_eq (negative : Bool) {numerator denominator rounded scale : ℕ}
    (positive : 0 < denominator) (rounds : Rounding ((numerator : ℚ) / denominator) rounded scale) :
    ofUnits negative numerator denominator = ofRounded negative rounded scale := by
  obtain ⟨rounded', scale', rounds', same⟩ := exists_rounding negative numerator positive
  have sameScale := rounds'.hasScale.unique rounds.hasScale
  rw [sameScale] at rounds' same
  rw [same, rounds'.roundsTo.unique rounds.roundsTo]

end Double

namespace Rounding

variable {units : ℚ} {rounded scale : ℕ}

theorem le (rounds : Rounding units rounded scale) : rounded ≤ twoTo 53 := by
  have power := cast_twoTo_pos scale
  have small := (div_lt_iff₀ power).mpr rounds.hasScale.below
  obtain ⟨_, high⟩ := abs_le.mp rounds.roundsTo.close
  by_contra! more
  have more : (twoTo 53 : ℚ) + 1 ≤ rounded := by exact_mod_cast more
  linarith

theorem normal (rounds : Rounding units rounded scale) : scale = 0 ∨ twoTo 52 ≤ rounded := by
  have power := cast_twoTo_pos scale
  rcases rounds.hasScale.above with zero | above
  · exact Or.inl zero
  · have large := (le_div_iff₀ power).mpr above
    obtain ⟨low, _⟩ := abs_le.mp rounds.roundsTo.close
    by_contra! less
    have less : (rounded : ℚ) + 1 ≤ twoTo 52 := by exact_mod_cast less.2
    linarith

end Rounding

theorem FiniteDouble.units_eq (value : FiniteDouble) :
    value.units = value.significand * twoTo value.scale := rfl

namespace Double

theorem ofParts_eq_finite_iff (negative : Bool) (significand scale : ℕ) (value : FiniteDouble) :
    ofParts negative significand scale = .finite value ↔
      value.negative = negative ∧ value.significand = significand ∧ value.scale = scale := by
  obtain ⟨sign, bits, power, bits_lt, power_le, normal⟩ := value
  simp only [ofParts, FiniteDouble.ofParts?]
  constructor
  · intro found
    split at found
    · rename_i other valid
      split at valid
      · cases valid
        cases found
        exact ⟨rfl, rfl, rfl⟩
      · cases valid
    · cases found
  · rintro ⟨rfl, rfl, rfl⟩
    have valid : bits < twoTo 53 ∧ power ≤ 2045 ∧ (power = 0 ∨ twoTo 52 ≤ bits) :=
      ⟨bits_lt, power_le, normal⟩
    simp only [dif_pos valid]

theorem ofRounded_eq_finite_iff (negative : Bool) (rounded scale : ℕ) (value : FiniteDouble) :
    ofRounded negative rounded scale = .finite value ↔ value.negative = negative ∧
      (value.significand = rounded ∧ value.scale = scale ∨
        rounded = twoTo 53 ∧ value.significand = twoTo 52 ∧ value.scale = scale + 1) := by
  rw [ofRounded]
  split
  · rename_i full
    have short := value.significand_lt
    rw [ofParts_eq_finite_iff]
    constructor
    · rintro ⟨sign, bits, power⟩
      exact ⟨sign, Or.inr ⟨full, bits, power⟩⟩
    · rintro ⟨sign, ⟨bits, _⟩ | ⟨_, bits, power⟩⟩
      · omega
      · exact ⟨sign, bits, power⟩
  · rename_i fits
    rw [ofParts_eq_finite_iff]
    constructor
    · rintro ⟨sign, bits, power⟩
      exact ⟨sign, Or.inl ⟨bits, power⟩⟩
    · rintro ⟨sign, ⟨bits, power⟩ | ⟨full, _⟩⟩
      · exact ⟨sign, bits, power⟩
      · exact absurd full fits

theorem units_of_ofRounded {negative : Bool} {rounded scale : ℕ} {value : FiniteDouble}
    (found : ofRounded negative rounded scale = .finite value) :
    value.units = rounded * twoTo scale ∧ (rounded % 2 = 0 → value.significand % 2 = 0) := by
  rw [FiniteDouble.units_eq]
  rcases ((ofRounded_eq_finite_iff _ _ _ _).mp found).2 with ⟨bits, power⟩ | ⟨full, bits, power⟩
  · rw [bits, power]
    exact ⟨rfl, id⟩
  · rw [full, bits, power, ← twoTo_add, ← twoTo_add]
    exact ⟨congrArg twoTo (by omega), fun _ => rfl⟩

end Double

/-- No double is nearer to a magnitude than what it is rounded to, and where another is as near, the
significand is even. -/
theorem Rounding.nearest {units : ℚ} {rounded scale : ℕ} (rounds : Rounding units rounded scale)
    (other : FiniteDouble) :
    |((rounded * twoTo scale : ℕ) : ℚ) - units| ≤ |(other.units : ℚ) - units| ∧
      (|(other.units : ℚ) - units| = |((rounded * twoTo scale : ℕ) : ℚ) - units| →
        other.units = rounded * twoTo scale ∨ rounded % 2 = 0) := by
  have power := cast_twoTo_pos scale
  have distance (whole : ℕ) : |((whole * twoTo scale : ℕ) : ℚ) - units| =
      |(whole : ℚ) - units / twoTo scale| * twoTo scale := by
    rw [← abs_of_pos power, ← abs_mul, sub_mul, abs_of_pos power, div_mul_cancel₀ _ power.ne']
    push_cast
    rfl
  by_cases coarse : scale ≤ other.scale
  · have multiple : other.units = other.significand * twoTo (other.scale - scale) * twoTo scale := by
      rw [FiniteDouble.units_eq, mul_assoc, ← twoTo_add, Nat.sub_add_cancel coarse]
    rw [multiple, distance, distance]
    refine ⟨mul_le_mul_of_nonneg_right (rounds.roundsTo.nearest _) power.le, ?_⟩
    intro tie
    by_cases same : other.significand * twoTo (other.scale - scale) = rounded
    · exact Or.inl (by rw [same])
    · exact Or.inr (rounds.roundsTo.even_of_tie same (mul_right_cancel₀ power.ne' tie))
  · -- A double on a finer scale is below the power of two that begins this one.
    have below : other.units < twoTo 52 * twoTo scale := by
      have finer : twoTo 53 * twoTo other.scale ≤ twoTo 52 * twoTo scale := by
        rw [← twoTo_add, ← twoTo_add]
        exact twoTo_le (by omega)
      have short := Nat.mul_lt_mul_of_pos_right other.significand_lt (twoTo_pos other.scale)
      rw [FiniteDouble.units_eq]
      omega
    have below : (other.units : ℚ) < (twoTo 52 : ℚ) * twoTo scale := by exact_mod_cast below
    have above := rounds.hasScale.above.resolve_left (by omega)
    have nearer := mul_le_mul_of_nonneg_right (rounds.roundsTo.nearest (twoTo 52)) power.le
    rw [← distance, ← distance] at nearer
    push_cast at nearer ⊢
    rw [abs_of_nonpos (by linarith : (twoTo 52 : ℚ) * twoTo scale - units ≤ 0)] at nearer
    rw [abs_of_nonpos (by linarith : (other.units : ℚ) - units ≤ 0)]
    refine ⟨by linarith, ?_⟩
    intro tie
    linarith

end TableServer
