import TableServer.Text.Units

/-! The order of texts by their 16-bit units. It is the order of the unit sequences, first
difference first, and since different texts have different units, only equal texts are level. -/

namespace TableServer

theorem not_surrogate (c : Char) : ¬(0xD800 ≤ c.toNat ∧ c.toNat < 0xE000) := by
  intro surrogate
  rcases c.valid with low | ⟨high, _⟩
  · have below : c.toNat < 0xD800 := low
    omega
  · have above : 0xDFFF < c.toNat := high
    omega

theorem toNat_lt (c : Char) : c.toNat < 0x110000 := by
  rcases c.valid with low | ⟨_, high⟩
  · have below : c.toNat < 0xD800 := low
    omega
  · exact high

theorem unitsOf_append_inj {first second : Char} {before after : List Nat}
    (same : unitsOf first ++ before = unitsOf second ++ after) :
    first = second ∧ before = after := by
  have firstValid := not_surrogate first
  have secondValid := not_surrogate second
  have firstBound := toNat_lt first
  have secondBound := toNat_lt second
  simp only [unitsOf] at same
  split at same <;> split at same <;>
    simp only [List.cons_append, List.nil_append, List.cons.injEq] at same
  · exact ⟨Char.toNat_inj.mp same.1, same.2⟩
  · omega
  · omega
  · obtain ⟨high, low, rest⟩ := same
    exact ⟨Char.toNat_inj.mp (by omega), rest⟩

theorem textUnits_inj {left right : List Char} (same : textUnits left = textUnits right) :
    left = right := by
  induction left generalizing right with
  | nil =>
    cases right with
    | nil => rfl
    | cons c rest =>
      simp only [textUnits, List.flatMap_nil, List.flatMap_cons, unitsOf] at same
      split at same <;> cases same
  | cons first lefts ih =>
    cases right with
    | nil =>
      simp only [textUnits, List.flatMap_nil, List.flatMap_cons, unitsOf] at same
      split at same <;> cases same
    | cons second rights =>
      obtain ⟨sameFirst, sameRest⟩ := unitsOf_append_inj same
      rw [sameFirst, ih sameRest]

theorem compareUnits_eq_compare (left right : List Nat) :
    compareUnits left right = compare left right := by
  induction left generalizing right with
  | nil => cases right <;> rfl
  | cons first lefts ih =>
    cases right with
    | nil => rfl
    | cons second rights =>
      rw [compareUnits, List.compare_cons_cons, ← ih]
      cases compare first second <;> rfl

theorem compareUnits_eq_lt_iff (left right : List Nat) :
    compareUnits left right = .lt ↔ left < right := by
  induction left generalizing right with
  | nil => cases right <;> simp [compareUnits]
  | cons first lefts ih =>
    cases right with
    | nil => simp [compareUnits]
    | cons second rights =>
      rw [compareUnits, List.cons_lt_cons_iff, ← ih]
      rcases Nat.lt_trichotomy first second with smaller | same | greater
      · simp [Nat.compare_eq_lt.mpr smaller, smaller]
      · simp [same]
      · have notSmaller : ¬first < second := by omega
        have different : first ≠ second := by omega
        simp [Nat.compare_eq_gt.mpr greater, notSmaller, different]

theorem compareText_swap (left right : String) :
    compareText right left = (compareText left right).swap := by
  simp only [compareText, compareUnits_eq_compare]
  exact Std.OrientedOrd.eq_swap

theorem compareText_eq_eq_iff (left right : String) :
    compareText left right = .eq ↔ left = right := by
  rw [compareText, compareUnits_eq_compare, Std.LawfulEqOrd.compare_eq_iff_eq]
  constructor
  · intro same
    exact String.toList_inj.mp (textUnits_inj same)
  · rintro rfl
    rfl

theorem compareText_eq_lt_iff (left right : String) :
    compareText left right = .lt ↔ textUnits left.toList < textUnits right.toList :=
  compareUnits_eq_lt_iff _ _

end TableServer
