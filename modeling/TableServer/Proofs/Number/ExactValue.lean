import Mathlib.Algebra.Order.Field.Rat
import Mathlib.Algebra.Order.Field.Power
import Mathlib.Order.Compare
import Mathlib.Order.WithBot
import TableServer.Number.Double

/-! Doubles as exact numbers: rational numbers and the two infinities. Comparing two doubles is
comparing these, and a double without such a number compares with nothing. The two zeros have the
same one. -/

namespace TableServer

def FiniteDouble.toRat (value : FiniteDouble) : ℚ :=
  (if value.negative then -1 else 1) * value.significand * 2 ^ ((value.scale : ℤ) - 1074)

def Double.exactValue? : Double → Option (WithBot (WithTop ℚ))
  | .nan => none
  | .infinite true => some ⊥
  | .infinite false => some ((⊤ : WithTop ℚ) : WithBot (WithTop ℚ))
  | .finite value => some ((value.toRat : WithTop ℚ) : WithBot (WithTop ℚ))

namespace FiniteDouble

theorem toRat_eq (value : FiniteDouble) :
    value.toRat = value.signedUnits * 2 ^ (-1074 : ℤ) := by
  have scaled : (2 : ℚ) ^ ((value.scale : ℤ) - 1074) = 2 ^ value.scale * 2 ^ (-1074 : ℤ) := by
    rw [sub_eq_add_neg, zpow_add₀ (by decide), zpow_natCast]
  have units : (value.units : ℚ) = value.significand * 2 ^ value.scale := by
    have whole : value.units = value.significand * 2 ^ value.scale := rfl
    rw [whole]
    push_cast
    rfl
  rw [toRat, scaled, signedUnits]
  generalize (2 : ℚ) ^ (-1074 : ℤ) = smallest
  split
  · push_cast
    rw [units, neg_one_mul, neg_mul, neg_mul, mul_assoc]
  · push_cast
    rw [units, one_mul, mul_assoc]

theorem compare_toRat (left right : FiniteDouble) :
    compare ((left.toRat : WithTop ℚ) : WithBot (WithTop ℚ)) (right.toRat : WithTop ℚ) =
      compare left.signedUnits right.signedUnits := by
  have smallest : (0 : ℚ) < 2 ^ (-1074 : ℤ) := zpow_pos (by decide) _
  have increasing : StrictMono fun units : ℤ =>
      ((((units : ℚ) * 2 ^ (-1074 : ℤ) : ℚ) : WithTop ℚ) : WithBot (WithTop ℚ)) := by
    intro first second smaller
    rw [WithBot.coe_lt_coe, WithTop.coe_lt_coe]
    exact mul_lt_mul_of_pos_right (Int.cast_lt.mpr smaller) smallest
  have kept := increasing.cmp_map_eq left.signedUnits right.signedUnits
  rw [cmp_eq_compare, cmp_eq_compare] at kept
  rw [toRat_eq, toRat_eq]
  exact kept

end FiniteDouble

namespace Double

theorem order_eq (left right : Double) :
    left.order right = Option.map₂ compare left.exactValue? right.exactValue? := by
  cases left with
  | nan => rfl
  | infinite leftNegative =>
    cases right with
    | nan => cases leftNegative <;> rfl
    | infinite rightNegative =>
      cases leftNegative <;> cases rightNegative <;> refine congrArg some ?_ <;> symm
      · exact compare_eq_iff_eq.mpr rfl
      · exact compare_gt_iff_gt.mpr (WithBot.bot_lt_coe _)
      · exact compare_lt_iff_lt.mpr (WithBot.bot_lt_coe _)
      · exact compare_eq_iff_eq.mpr rfl
    | finite right =>
      cases leftNegative <;> refine congrArg some ?_ <;> symm
      · exact compare_gt_iff_gt.mpr (WithBot.coe_lt_coe.mpr (WithTop.coe_lt_top _))
      · exact compare_lt_iff_lt.mpr (WithBot.bot_lt_coe _)
  | finite left =>
    cases right with
    | nan => rfl
    | infinite rightNegative =>
      cases rightNegative <;> refine congrArg some ?_ <;> symm
      · exact compare_lt_iff_lt.mpr (WithBot.coe_lt_coe.mpr (WithTop.coe_lt_top _))
      · exact compare_gt_iff_gt.mpr (WithBot.bot_lt_coe _)
    | finite right =>
      exact congrArg some (FiniteDouble.compare_toRat left right).symm

theorem order_swap (left right : Double) :
    right.order left = (left.order right).map Ordering.swap := by
  rw [order_eq, order_eq]
  cases left.exactValue? with
  | none => cases right.exactValue? <;> rfl
  | some first =>
    cases right.exactValue? with
    | none => rfl
    | some second =>
      have swapped := cmp_swap first second
      rw [cmp_eq_compare, cmp_eq_compare] at swapped
      exact congrArg some swapped.symm

theorem order_eq_eq_iff (left right : Double) :
    left.order right = some .eq ↔ ∃ value, left.exactValue? = some value ∧ right.exactValue? = some value := by
  rw [order_eq]
  cases left.exactValue? with
  | none => simp
  | some first =>
    cases right.exactValue? with
    | none => simp
    | some second =>
      rw [Option.map₂_some_some, Option.some_inj, compare_eq_iff_eq]
      constructor
      · rintro rfl
        exact ⟨first, rfl, rfl⟩
      · rintro ⟨value, sameFirst, sameSecond⟩
        rw [Option.some_inj.mp sameFirst, Option.some_inj.mp sameSecond]

theorem order_finite (left right : FiniteDouble) :
    (finite left).order (finite right) = some (compare left.toRat right.toRat) := by
  have embedding : StrictMono fun value : ℚ => ((value : WithTop ℚ) : WithBot (WithTop ℚ)) :=
    WithBot.coe_strictMono.comp WithTop.coe_strictMono
  have kept := embedding.cmp_map_eq left.toRat right.toRat
  rw [cmp_eq_compare, cmp_eq_compare] at kept
  rw [order_eq]
  exact congrArg some kept

theorem sameNumber_finite (left right : FiniteDouble) :
    (finite left).sameNumber (.finite right) = decide (left.toRat = right.toRat) := by
  rw [sameNumber, order_finite, Bool.eq_iff_iff, beq_iff_eq, Option.some_inj, compare_eq_iff_eq,
    decide_eq_true_eq]

theorem exactValue?_zero : zero.exactValue? = some 0 := by
  simp [zero, exactValue?, FiniteDouble.toRat, FiniteDouble.zero]

theorem exactValue?_one : one.exactValue? = some 1 := by
  have value : FiniteDouble.one.toRat = 1 := by
    have significand : ((twoTo 52 : ℕ) : ℚ) = 2 ^ (52 : ℤ) := by
      norm_num [twoTo]
    simp only [FiniteDouble.toRat, FiniteDouble.one, significand]
    norm_num
  rw [one, exactValue?, value]
  rfl

end Double

end TableServer
