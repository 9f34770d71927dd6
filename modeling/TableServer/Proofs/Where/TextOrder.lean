import TableServer.Proofs.Where.Coherence

/-! The order of texts, character by character. Two texts are ordered by their first different characters,
and characters are ordered by their code points, except that the characters from `U+E000` to `U+FFFF` come
behind those above them, whose units are surrogates. -/

namespace TableServer

theorem textUnits_append (first second : List Char) :
    textUnits (first ++ second) = textUnits first ++ textUnits second :=
  List.flatMap_append

theorem textUnits_ne_nil {text : List Char} (someText : text ≠ []) : textUnits text ≠ [] := by
  obtain ⟨first, rest, rfl⟩ := List.exists_cons_of_ne_nil someText
  rw [textUnits, List.flatMap_cons, unitsOf]
  split <;> simp

theorem append_lt_append_iff (common first second : List ℕ) :
    common ++ first < common ++ second ↔ first < second := by
  induction common with
  | nil => rfl
  | cons unit rest ih => rw [List.cons_append, List.cons_append, List.cons_lt_cons_iff]; simp [ih]

/-- One of two characters is a single unit that comes behind the surrogates, and the other is a pair of
these. -/
def Crosses (first second : Char) : Prop :=
  (0xE000 ≤ first.toNat ∧ first.toNat ≤ 0xFFFF ∧ 0xFFFF < second.toNat) ∨
    (0xE000 ≤ second.toNat ∧ second.toNat ≤ 0xFFFF ∧ 0xFFFF < first.toNat)

theorem unitsOf_append_lt_iff {first second : Char} (different : first ≠ second) (after rest : List ℕ) :
    unitsOf first ++ after < unitsOf second ++ rest ↔
      (first.toNat < second.toNat ↔ ¬Crosses first second) := by
  have firstValid := not_surrogate first
  have secondValid := not_surrogate second
  have firstBound := toNat_lt first
  have secondBound := toNat_lt second
  have apart : first.toNat ≠ second.toNat := mt Char.toNat_inj.mp different
  rw [Crosses]
  simp only [unitsOf]
  split <;> split <;> simp only [List.cons_append, List.nil_append, List.cons_lt_cons_iff]
  · omega
  · omega
  · omega
  · omega

section Texts

variable {a b : String}

theorem compareText_of_difference {common restA restB : List Char} {x y : Char}
    (splitA : a.toList = common ++ x :: restA) (splitB : b.toList = common ++ y :: restB)
    (different : x ≠ y) : compareText a b = .lt ↔ (x.toNat < y.toNat ↔ ¬Crosses x y) := by
  rw [compareText_eq_lt_iff, splitA, splitB, textUnits_append, textUnits_append, append_lt_append_iff]
  exact unitsOf_append_lt_iff different _ _

theorem compareText_of_prefix (beginning : a.toList <+: b.toList) (proper : a ≠ b) :
    compareText a b = .lt := by
  obtain ⟨rest, split⟩ := beginning
  have someRest : rest ≠ [] := by
    rintro rfl
    rw [List.append_nil] at split
    exact proper (String.toList_inj.mp split)
  obtain ⟨unit, units, found⟩ := List.exists_cons_of_ne_nil (textUnits_ne_nil someRest)
  rw [compareText_eq_lt_iff, ← split, textUnits_append, found]
  have longer := (append_lt_append_iff (textUnits a.toList) [] (unit :: units)).mpr
    (List.nil_lt_cons unit units)
  rwa [List.append_nil] at longer

theorem compareText_trans {c : String} (first : compareText a b = .lt) (second : compareText b c = .lt) :
    compareText a c = .lt := by
  rw [compareText_eq_lt_iff] at *
  exact List.lt_trans first second

end Texts

namespace Condition

def asking : Ordering → Operator
  | .lt => .less
  | .eq => .equal
  | .gt => .greater

theorem answers_asking_iff (a b : String) (order : Ordering) :
    Answers (asking order) (some (.string a)) (.string b) ↔ compareText a b = order := by
  have ordered : (Operand.ofField (some (.string a))).looseOrder (.ofJson (.string b)) =
      some (compareText a b) := rfl
  cases order with
  | lt => rw [asking, answers_less_iff, ordered, Option.some_inj]
  | gt => rw [asking, answers_greater_iff, ordered, Option.some_inj]
  | eq =>
    have equal : (Operand.ofField (some (.string a))).looselyEqual (.ofJson (.string b)) = (a == b) := rfl
    rw [asking, answers_equal_iff, equal, beq_iff_eq, compareText_eq_eq_iff]

theorem answers_less_strings_iff (a b : String) :
    Answers .less (some (.string a)) (.string b) ↔ compareText a b = .lt :=
  answers_asking_iff a b .lt

/-- The strings are in strict total order, each equal to itself alone. Where two of them first differ
the code points decide, the other way round if one is from `U+E000` to `U+FFFF` and the other above; a
beginning is less than what it begins. -/
theorem strings_are_ordered :
    (∀ a b : String, ∃! order, Answers (asking order) (some (.string a)) (.string b)) ∧
    (∀ a b : String, Answers .equal (some (.string a)) (.string b) ↔ a = b) ∧
    (∀ a b c : String, Answers .less (some (.string a)) (.string b) →
      Answers .less (some (.string b)) (.string c) → Answers .less (some (.string a)) (.string c)) ∧
    (∀ (a b : String) (common restA restB : List Char) (x y : Char),
      a.toList = common ++ x :: restA → b.toList = common ++ y :: restB → x ≠ y →
      (Answers .less (some (.string a)) (.string b) ↔
        (x.toNat < y.toNat ↔ ¬Crosses x y))) ∧
    ∀ a b : String, a.toList <+: b.toList → a ≠ b → Answers .less (some (.string a)) (.string b) := by
  refine ⟨?_, ?_, ?_, ?_, ?_⟩
  · intro a b
    refine ⟨compareText a b, (answers_asking_iff a b _).mpr rfl, ?_⟩
    intro order answers
    exact ((answers_asking_iff a b order).mp answers).symm
  · intro a b
    exact (answers_asking_iff a b .eq).trans (compareText_eq_eq_iff a b)
  · intro a b c first second
    rw [answers_less_strings_iff] at *
    exact compareText_trans first second
  · intro a b common restA restB x y splitA splitB different
    rw [answers_less_strings_iff]
    exact compareText_of_difference splitA splitB different
  · intro a b beginning proper
    rw [answers_less_strings_iff]
    exact compareText_of_prefix beginning proper

end Condition

end TableServer
