import TableServer.Proofs.Number.Nearest
import TableServer.Proofs.Where.Coherence

/-! Comparisons between whole numbers of JSON. Each is compared as the double next to it, so two of them
never come out in the wrong order, are equal when they have that double in common, and up to 53 bits
compare as they are. -/

namespace TableServer

abbrev JsonInteger.toJson (whole : JsonInteger) : Json := .number (.integer whole)

theorem JsonInteger.natAbs_le (whole : JsonInteger) : whole.value.natAbs ≤ twoTo 64 := by
  have bound : twoTo 64 = 18446744073709551616 := by decide
  have lower := whole.lower
  have upper := whole.upper
  omega

theorem JsonInteger.exists_toDouble (whole : JsonInteger) :
    ∃ value, (JsonNumber.integer whole).toDouble = .finite value ∧
      value.negative = decide (whole.value < 0) ∧ value.IsNearest whole.value :=
  Double.exists_ofInt (whole.natAbs_le.trans_lt ((twoTo_lt_iff 64 1023).mpr (by decide)))

theorem JsonNumber.exists_toDouble (number : JsonNumber) : ∃ value, number.toDouble = .finite value := by
  cases number with
  | integer whole =>
    obtain ⟨value, found, _⟩ := whole.exists_toDouble
    exact ⟨value, found⟩
  | double value => exact ⟨value, rfl⟩

namespace Condition

section Numbers

variable {first second : JsonNumber} {x y : FiniteDouble}

theorem looseOrder_numbers (foundFirst : first.toDouble = .finite x)
    (foundSecond : second.toDouble = .finite y) :
    (Operand.ofField (some (.number first))).looseOrder (.ofJson (.number second)) =
      some (compare x.toRat y.toRat) := by
  have asNumbers : (Operand.ofField (some (.number first))).looseOrder (.ofJson (.number second)) =
      first.toDouble.order second.toDouble := rfl
  rw [asNumbers, foundFirst, foundSecond, Double.order_finite]

theorem compare?_numbers (foundFirst : first.toDouble = .finite x)
    (foundSecond : second.toDouble = .finite y) :
    compare? .equal (.ofField (some (.number first))) (.number second) =
      some (decide (x.toRat = y.toRat)) ∧
    compare? .greater (.ofField (some (.number first))) (.number second) =
      some (decide (x.toRat > y.toRat)) ∧
    compare? .greaterOrEqual (.ofField (some (.number first))) (.number second) =
      some (decide (x.toRat ≥ y.toRat)) ∧
    compare? .less (.ofField (some (.number first))) (.number second) =
      some (decide (x.toRat < y.toRat)) ∧
    compare? .lessOrEqual (.ofField (some (.number first))) (.number second) =
      some (decide (x.toRat ≤ y.toRat)) ∧
    compare? .within (.ofField (some (.array [.number first]))) (.number second) =
      some (decide (x.toRat = y.toRat)) := by
  have equal : first.toDouble.sameNumber second.toDouble = decide (x.toRat = y.toRat) := by
    rw [foundFirst, foundSecond, Double.sameNumber_finite]
  have contained : (Operand.ofField (some (.array [.number first]))).contains? (.number second) =
      some (first.toDouble.sameNumber second.toDouble || false) := rfl
  refine ⟨congrArg some equal, ?_, ?_, ?_, ?_, by rw [compare?, contained, Bool.or_false, equal]⟩
  all_goals
    rw [compare?, looseOrder_numbers foundFirst foundSecond]
    refine congrArg some (Bool.eq_iff_iff.mpr ?_)
    simp only [Bool.or_eq_true, beq_iff_eq, Option.some.injEq, compare_gt_iff_gt, compare_lt_iff_lt,
      compare_eq_iff_eq, decide_eq_true_eq]
  · rw [ge_iff_le, le_iff_lt_or_eq, eq_comm]
  · rw [le_iff_lt_or_eq]

end Numbers

end Condition

namespace JsonInteger

open Condition (Answers compare? compare?_numbers)

variable {first second : JsonInteger} {x y : FiniteDouble}

theorem toRat_lt_zero (xNearest : x.IsNearest first.value) (below : first.value < 0) : x.toRat < 0 := by
  obtain ⟨minusOne, exact⟩ := FiniteDouble.exists_toRat_eq (-1) (by decide)
  have within : (first.value : ℚ) ≤ minusOne.toRat := by
    rw [exact]
    exact_mod_cast (by omega : first.value ≤ -1)
  have rounded := xNearest.le_of_le within
  rw [exact] at rounded
  exact rounded.trans_lt (by norm_num)

theorem toRat_eq_iff (xSign : x.negative = decide (first.value < 0))
    (ySign : y.negative = decide (second.value < 0)) (xNearest : x.IsNearest first.value)
    (yNearest : y.IsNearest second.value) : x.toRat = y.toRat ↔ x = y := by
  constructor
  · intro same
    refine FiniteDouble.eq_of_toRat ?_ same
    rw [xSign, ySign, decide_eq_decide]
    constructor
    · intro below
      by_contra notBelow
      have above := FiniteDouble.toRat_nonneg (ySign.trans (decide_eq_false notBelow))
      exact absurd (toRat_lt_zero xNearest below) (not_lt.mpr (same ▸ above))
    · intro below
      by_contra notBelow
      have above := FiniteDouble.toRat_nonneg (xSign.trans (decide_eq_false notBelow))
      exact absurd (toRat_lt_zero yNearest below) (not_lt.mpr (same ▸ above))
  · exact congrArg FiniteDouble.toRat

theorem toRat_le (foundFirst : (JsonNumber.integer first).toDouble = .finite x)
    (foundSecond : (JsonNumber.integer second).toDouble = .finite y)
    (xNearest : x.IsNearest first.value) (yNearest : y.IsNearest second.value)
    (ordered : first.value ≤ second.value) : x.toRat ≤ y.toRat := by
  rcases ordered.lt_or_eq with smaller | same
  · exact xNearest.mono yNearest (Int.cast_lt.mpr smaller)
  · rw [JsonNumber.toDouble, same] at foundFirst
    cases foundFirst.symm.trans foundSecond
    exact le_rfl

theorem toRat_of_small (xNearest : x.IsNearest first.value) (small : |first.value| ≤ 2 ^ 53) :
    x.toRat = first.value := by
  have bits : twoTo 53 = 2 ^ 53 := rfl
  rw [Int.abs_eq_natAbs] at small
  obtain ⟨exactly, exact⟩ := FiniteDouble.exists_toRat_eq first.value (by omega)
  exact xNearest.eq_of_exact exact

/-- Two whole numbers, each taken as its nearest double, never compare the wrong way round. They are
equal, and the one is in an array of the other, when they have that double in common. Numbers of up to
53 bits compare as whole numbers do. -/
theorem comparisons_of_integers (first second : JsonInteger) :
    ∃ x y : FiniteDouble,
      ((JsonNumber.integer first).toDouble = .finite x ∧ x.IsNearest first.value) ∧
      ((JsonNumber.integer second).toDouble = .finite y ∧ y.IsNearest second.value) ∧
      (first.value ≤ second.value →
        Answers .lessOrEqual (some first.toJson) second.toJson ∧
        ¬Answers .greater (some first.toJson) second.toJson) ∧
      (Answers .equal (some first.toJson) second.toJson ↔ x = y) ∧
      compare? .within (.ofField (some (.array [first.toJson]))) second.toJson =
        compare? .equal (.ofField (some first.toJson)) second.toJson ∧
      (|first.value| ≤ 2 ^ 53 → |second.value| ≤ 2 ^ 53 →
        compare? .equal (.ofField (some first.toJson)) second.toJson =
          some (decide (first.value = second.value)) ∧
        compare? .greater (.ofField (some first.toJson)) second.toJson =
          some (decide (first.value > second.value)) ∧
        compare? .greaterOrEqual (.ofField (some first.toJson)) second.toJson =
          some (decide (first.value ≥ second.value)) ∧
        compare? .less (.ofField (some first.toJson)) second.toJson =
          some (decide (first.value < second.value)) ∧
        compare? .lessOrEqual (.ofField (some first.toJson)) second.toJson =
          some (decide (first.value ≤ second.value)) ∧
        compare? .within (.ofField (some (.array [first.toJson]))) second.toJson =
          some (decide (first.value = second.value))) := by
  obtain ⟨x, foundFirst, xSign, xNearest⟩ := first.exists_toDouble
  obtain ⟨y, foundSecond, ySign, yNearest⟩ := second.exists_toDouble
  obtain ⟨equal, greater, greaterOrEqual, less, lessOrEqual, within⟩ :=
    compare?_numbers foundFirst foundSecond
  refine ⟨x, y, ⟨foundFirst, xNearest⟩, ⟨foundSecond, yNearest⟩, ?_, ?_, within.trans equal.symm, ?_⟩
  · intro ordered
    have rounded := toRat_le foundFirst foundSecond xNearest yNearest ordered
    rw [Answers, Answers, lessOrEqual, greater]
    simp [rounded]
  · rw [Answers, equal, Option.some_inj, decide_eq_true_eq]
    exact toRat_eq_iff xSign ySign xNearest yNearest
  · intro smallFirst smallSecond
    rw [equal, greater, greaterOrEqual, less, lessOrEqual, within, toRat_of_small xNearest smallFirst,
      toRat_of_small yNearest smallSecond]
    simp

end JsonInteger

end TableServer
