import TableServer.Proofs.Where.AbstractComparison

/-! How the five comparison operators hang together. The four that order two values always answer in
one of four patterns. Equality and the level pattern go together, but for null beside a value that
converts to 0, for containers with the same text, and for a missing field beside null. -/

namespace TableServer

/-- How `>`, `>=`, `<` and `<=` answer together. -/
inductive Pattern where
  | greater
  | less
  | level
  | unordered

namespace Pattern

def answers : Pattern → List Bool
  | greater => [true, true, false, false]
  | less => [false, false, true, true]
  | level => [false, true, false, true]
  | unordered => [false, false, false, false]

def ofOrder : Option Ordering → Pattern
  | some .gt => greater
  | some .lt => less
  | some .eq => level
  | none => unordered

theorem ofOrder_injective : Function.Injective ofOrder := by
  intro first second same
  cases first with
  | none =>
    cases second with
    | none => rfl
    | some order => cases order <;> cases same
  | some order =>
    cases second with
    | none => cases order <;> cases same
    | some other => cases order <;> cases other <;> first | rfl | cases same

end Pattern

def Json.ConvertsToZero (value : Json) : Prop :=
  (Operand.ofJson value).primitive.toNumber.exactValue? = some 0

def Json.IsContainer (value : Json) : Prop :=
  (Operand.ofJson value).isContainer = true

namespace Condition

def Answers (operator : Operator) (left : Option Json) (right : Json) : Prop :=
  compare? operator (.ofField left) right = some true

def Shows (left : Option Json) (right : Json) (pattern : Pattern) : Prop :=
  [Operator.greater, .greaterOrEqual, .less, .lessOrEqual].map
      (fun operator => compare? operator (.ofField left) right) =
    pattern.answers.map some

/-- Two values that are level without being equal. -/
def LevelApart (left right : Json) : Prop :=
  (left = .null ∧ right ≠ .null ∧ right.ConvertsToZero) ∨
    (right = .null ∧ left ≠ .null ∧ left.ConvertsToZero) ∨
    (left.IsContainer ∧ right.IsContainer ∧ left.text = right.text)

theorem shows_iff (left : Option Json) (right : Json) (pattern : Pattern) :
    Shows left right pattern ↔
      Pattern.ofOrder ((Operand.ofField left).looseOrder (.ofJson right)) = pattern := by
  simp only [Shows, List.map_cons, List.map_nil, compare?]
  cases (Operand.ofField left).looseOrder (.ofJson right) with
  | none => cases pattern <;> simp [Pattern.ofOrder, Pattern.answers]
  | some order => cases order <;> cases pattern <;> simp [Pattern.ofOrder, Pattern.answers]

theorem shows_ofOrder_iff (left : Option Json) (right : Json) (order : Option Ordering) :
    Shows left right (.ofOrder order) ↔
      (Operand.ofField left).looseOrder (.ofJson right) = order := by
  rw [shows_iff, Pattern.ofOrder_injective.eq_iff]

theorem shows_level_iff (left : Option Json) (right : Json) :
    Shows left right .level ↔ (Operand.ofField left).looseOrder (.ofJson right) = some .eq :=
  shows_ofOrder_iff left right (some .eq)

theorem shows_unordered_iff (left : Option Json) (right : Json) :
    Shows left right .unordered ↔ (Operand.ofField left).looseOrder (.ofJson right) = none :=
  shows_ofOrder_iff left right none

theorem answers_equal_iff (left : Option Json) (right : Json) :
    Answers .equal left right ↔ (Operand.ofField left).looselyEqual (.ofJson right) = true := by
  simp [Answers, compare?]

theorem answers_greater_iff (left : Option Json) (right : Json) :
    Answers .greater left right ↔
      (Operand.ofField left).looseOrder (.ofJson right) = some .gt := by
  simp [Answers, compare?]

theorem answers_less_iff (left : Option Json) (right : Json) :
    Answers .less left right ↔
      (Operand.ofField left).looseOrder (.ofJson right) = some .lt := by
  simp [Answers, compare?]

end Condition

namespace Primitive

def order : Primitive → Primitive → Option Ordering
  | .string left, .string right => some (compareText left right)
  | left, right => left.toNumber.order right.toNumber

def IsSomething : Primitive → Prop
  | .missing => False
  | .null => False
  | _ => True

theorem exactValue?_toNumber_bool (value : Bool) :
    (bool value).toNumber.exactValue? = some (if value then 1 else 0) := by
  cases value with
  | true => exact Double.exactValue?_one
  | false => exact Double.exactValue?_zero

theorem equal_iff_order {left right : Primitive} (leftThere : left.IsSomething)
    (rightThere : right.IsSomething) :
    left.equal right = true ↔ left.order right = some .eq := by
  cases left with
  | missing | null => exact leftThere.elim
  | number first =>
    cases right with
    | missing | null => exact rightThere.elim
    | bool | number | string => exact beq_iff_eq
  | bool first =>
    cases right with
    | missing | null => exact rightThere.elim
    | number | string => exact beq_iff_eq
    | bool second =>
      have asNumbers : (bool first).order (bool second) =
          (bool first).toNumber.order (bool second).toNumber := rfl
      rw [asNumbers, equal, Double.order_eq_eq_iff, exactValue?_toNumber_bool, exactValue?_toNumber_bool]
      cases first <;> cases second <;> simp
  | string first =>
    cases right with
    | missing | null => exact rightThere.elim
    | bool | number => exact beq_iff_eq
    | string second => rw [equal, order, beq_iff_eq, Option.some_inj, compareText_eq_eq_iff]

theorem order_null_left_iff (right : Primitive) :
    null.order right = some .eq ↔ right.toNumber.exactValue? = some 0 := by
  have asNumbers : null.order right = Double.zero.order right.toNumber := rfl
  rw [asNumbers, Double.order_eq_eq_iff, Double.exactValue?_zero]
  simp

theorem order_null_right_iff (left : Primitive) :
    left.order null = some .eq ↔ left.toNumber.exactValue? = some 0 := by
  have asNumbers : left.order null = left.toNumber.order Double.zero := by
    cases left <;> rfl
  rw [asNumbers, Double.order_eq_eq_iff, Double.exactValue?_zero]
  simp

theorem equal_null_left {right : Primitive} (there : right.IsSomething) :
    null.equal right = false := by
  cases right <;> first | rfl | exact there.elim

theorem equal_null_right {left : Primitive} (there : left.IsSomething) :
    left.equal null = false := by
  cases left <;> first | rfl | exact there.elim

theorem isSomething_of_ne {value : Primitive} (there : value ≠ missing) (notNull : value ≠ null) :
    value.IsSomething := by
  cases value with
  | missing => exact there rfl
  | null => exact notNull rfl
  | bool | number | string => trivial

theorem level_iff {left right : Primitive} (leftThere : left ≠ missing)
    (rightThere : right ≠ missing) :
    left.order right = some .eq ↔
      left.equal right = true ∨
        (left = null ∧ right ≠ null ∧ right.toNumber.exactValue? = some 0) ∨
        (right = null ∧ left ≠ null ∧ left.toNumber.exactValue? = some 0) := by
  by_cases leftNull : left = null
  · subst leftNull
    rw [order_null_left_iff]
    by_cases rightNull : right = null
    · subst rightNull
      exact iff_of_true Double.exactValue?_zero (Or.inl rfl)
    · have unequal := equal_null_left (isSomething_of_ne rightThere rightNull)
      simp [unequal, rightNull]
  · have leftSomething := isSomething_of_ne leftThere leftNull
    by_cases rightNull : right = null
    · subst rightNull
      have unequal := equal_null_right leftSomething
      rw [order_null_right_iff]
      simp [unequal, leftNull]
    · have rightSomething := isSomething_of_ne rightThere rightNull
      rw [equal_iff_order leftSomething rightSomething]
      simp [leftNull, rightNull]

end Primitive

theorem Operand.looseOrder_eq (left right : Operand) :
    left.looseOrder right = left.primitive.order right.primitive := rfl

theorem Json.primitive_eq_null_iff (value : Json) :
    (Operand.ofJson value).primitive = .null ↔ value = .null := by
  cases value <;> simp [Operand.ofJson, Operand.primitive]

theorem Json.primitive_ne_missing (value : Json) :
    (Operand.ofJson value).primitive ≠ .missing := by
  cases value <;> simp [Operand.ofJson, Operand.primitive]

theorem Json.isSomething_primitive {value : Json} (there : value ≠ .null) :
    (Operand.ofJson value).primitive.IsSomething :=
  Primitive.isSomething_of_ne value.primitive_ne_missing
    (mt (Json.primitive_eq_null_iff value).mp there)

theorem Json.primitive_of_isContainer {value : Json} (container : value.IsContainer) :
    (Operand.ofJson value).primitive = .string (String.ofList value.text) := by
  cases value with
  | null | bool | number | string => cases container
  | array items => rw [Operand.ofJson, Operand.primitive, Json.text]
  | object members => rw [Operand.ofJson, Operand.primitive]

namespace Condition

theorem not_equal_of_containers {left right : Json}
    (both : left.IsContainer ∧ right.IsContainer) :
    (Operand.ofJson left).looselyEqual (.ofJson right) = false := by
  rw [Operand.looselyEqual, both.1, both.2]
  rfl

theorem equal_of_not_containers {left right : Json}
    (notBoth : ¬(left.IsContainer ∧ right.IsContainer)) :
    (Operand.ofJson left).looselyEqual (.ofJson right) =
      (Operand.ofJson left).primitive.equal (Operand.ofJson right).primitive := by
  rw [Operand.looselyEqual, if_neg]
  rw [Bool.and_eq_true]
  exact notBoth

theorem level_iff (left right : Json) :
    (Operand.ofJson left).looseOrder (.ofJson right) = some .eq ↔
      (Operand.ofJson left).looselyEqual (.ofJson right) = true ∨ LevelApart left right := by
  rw [Operand.looseOrder_eq]
  by_cases both : left.IsContainer ∧ right.IsContainer
  · have leftThere : left ≠ .null := by
      rintro rfl
      cases both.1
    have rightThere : right ≠ .null := by
      rintro rfl
      cases both.2
    rw [not_equal_of_containers both, Json.primitive_of_isContainer both.1,
      Json.primitive_of_isContainer both.2, Primitive.order, Option.some_inj,
      compareText_eq_eq_iff, String.ofList_inj]
    simp [LevelApart, leftThere, rightThere, both]
  · have noContainers : ¬(left.IsContainer ∧ right.IsContainer ∧ left.text = right.text) :=
      fun found => both ⟨found.1, found.2.1⟩
    rw [equal_of_not_containers both, Primitive.level_iff (Json.primitive_ne_missing left)
      (Json.primitive_ne_missing right)]
    simp [LevelApart, Json.ConvertsToZero, Json.primitive_eq_null_iff, noContainers]

theorem not_equal_of_levelApart {left right : Json} (apart : LevelApart left right) :
    (Operand.ofJson left).looselyEqual (.ofJson right) = false := by
  rcases apart with ⟨rfl, there, _⟩ | ⟨rfl, there, _⟩ | ⟨leftContainer, rightContainer, _⟩
  · have notBoth : ¬(Json.null.IsContainer ∧ right.IsContainer) := fun both => nomatch both.1
    rw [equal_of_not_containers notBoth]
    exact Primitive.equal_null_left (Json.isSomething_primitive there)
  · have notBoth : ¬(left.IsContainer ∧ Json.null.IsContainer) := fun both => nomatch both.2
    rw [equal_of_not_containers notBoth]
    exact Primitive.equal_null_right (Json.isSomething_primitive there)
  · exact not_equal_of_containers ⟨leftContainer, rightContainer⟩

theorem looseOrder_missing (right : Json) :
    (Operand.ofField none).looseOrder (.ofJson right) = none := rfl

theorem looselyEqual_missing_iff (right : Json) :
    (Operand.ofField none).looselyEqual (.ofJson right) = true ↔ right = .null := by
  cases right <;> simp [Operand.ofField, Operand.ofJson, Operand.looselyEqual,
    Operand.isContainer, Operand.primitive, Primitive.equal]

theorem shows_of_equal {left : Option Json} {right : Json} (equal : Answers .equal left right) :
    Shows left right .level ∨ left = none ∧ right = .null ∧ Shows left right .unordered := by
  rw [answers_equal_iff] at equal
  cases left with
  | none =>
    have isNull := (looselyEqual_missing_iff right).mp equal
    exact Or.inr ⟨rfl, isNull, (shows_unordered_iff none right).mpr (looseOrder_missing right)⟩
  | some value =>
    exact Or.inl ((shows_level_iff (some value) right).mpr
      ((level_iff value right).mpr (Or.inl equal)))

theorem level_unequal_iff (left : Option Json) (right : Json) :
    Shows left right .level ∧ ¬Answers .equal left right ↔
      ∃ value, left = some value ∧ LevelApart value right := by
  rw [shows_level_iff, answers_equal_iff]
  cases left with
  | none => simp [looseOrder_missing]
  | some value =>
    have sides : Operand.ofField (some value) = .ofJson value := rfl
    rw [sides, level_iff]
    constructor
    · rintro ⟨equal | apart, unequal⟩
      · exact absurd equal unequal
      · exact ⟨value, rfl, apart⟩
    · rintro ⟨_, same, apart⟩
      cases same
      refine ⟨Or.inr apart, ?_⟩
      rw [not_equal_of_levelApart apart]
      decide

theorem compare?_swap (left right : Json) :
    compare? .equal (.ofJson left) right = compare? .equal (.ofJson right) left ∧
    compare? .greater (.ofJson left) right = compare? .less (.ofJson right) left ∧
    compare? .greaterOrEqual (.ofJson left) right = compare? .lessOrEqual (.ofJson right) left := by
  simp only [compare?, Operand.looselyEqual_eq,
    Operand.looseOrder_swap (.ofJson left) (.ofJson right)]
  refine ⟨congrArg some (Operand.abstractlyEqual_comm _ _), ?_⟩
  cases (Operand.ofJson left).looseOrder (.ofJson right) with
  | none => exact ⟨rfl, rfl⟩
  | some order => cases order <;> exact ⟨rfl, rfl⟩

/-- The four ordering operators answer in one of four patterns. Equal values are level, except that
a missing field is equal to null and unordered with it; level values are equal, except those that
are level apart. Exchanging two values keeps `=` and turns the other operators around. -/
theorem comparisons_cohere (left : Option Json) (right : Json) :
    (∃! pattern, Shows left right pattern) ∧
    (Answers .equal left right → ¬Answers .greater left right ∧ ¬Answers .less left right) ∧
    (Answers .equal left right → Shows left right .level ∨
      left = none ∧ right = .null ∧ Shows left right .unordered) ∧
    (Answers .equal none .null ∧ Shows none .null .unordered) ∧
    (Shows left right .level ∧ ¬Answers .equal left right ↔
      ∃ value, left = some value ∧ LevelApart value right) ∧
    ∀ value,
      compare? .equal (.ofJson value) right = compare? .equal (.ofJson right) value ∧
      compare? .greater (.ofJson value) right = compare? .less (.ofJson right) value ∧
      compare? .less (.ofJson value) right = compare? .greater (.ofJson right) value ∧
      compare? .greaterOrEqual (.ofJson value) right =
        compare? .lessOrEqual (.ofJson right) value ∧
      compare? .lessOrEqual (.ofJson value) right =
        compare? .greaterOrEqual (.ofJson right) value := by
  refine ⟨?_, ?_, shows_of_equal, ?_, level_unequal_iff left right, ?_⟩
  · refine ⟨_, (shows_iff left right _).mpr rfl, ?_⟩
    intro other shown
    exact ((shows_iff left right other).mp shown).symm
  · intro equal
    rw [answers_greater_iff, answers_less_iff]
    rcases shows_of_equal equal with level | ⟨_, _, unordered⟩
    · rw [(shows_level_iff left right).mp level]
      decide
    · rw [(shows_unordered_iff left right).mp unordered]
      decide
  · exact ⟨(answers_equal_iff none .null).mpr ((looselyEqual_missing_iff .null).mpr rfl),
      (shows_unordered_iff none .null).mpr (looseOrder_missing .null)⟩
  · intro value
    obtain ⟨equal, greater, greaterOrEqual⟩ := compare?_swap value right
    obtain ⟨_, greaterBack, greaterOrEqualBack⟩ := compare?_swap right value
    exact ⟨equal, greater, greaterBack.symm, greaterOrEqual, greaterOrEqualBack.symm⟩

end Condition

end TableServer
