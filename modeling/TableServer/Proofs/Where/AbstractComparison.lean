import TableServer.Proofs.Number.ExactValue
import TableServer.Proofs.Text.UnitOrder
import TableServer.Where.Condition

/-! Loose comparison follows ECMAScript. Its abstract equality goes by the types of the two values
and begins again whenever it has converted one of them; its relational comparison converts both
first and answers nothing where a number is missing. Both are stated here as they are described
there, on top of the conversions of values to primitives, texts and numbers. -/

namespace TableServer

/-- The types of values. Arrays are objects. -/
inductive Kind where
  | undefined
  | null
  | boolean
  | number
  | string
  | object
deriving DecidableEq

def Kind.weight : Kind → Nat
  | object => 2
  | boolean => 1
  | string => 1
  | _ => 0

def Double.numberEqual (left right : Double) : Bool :=
  Option.map₂ (fun left right => decide (left = right)) left.exactValue? right.exactValue? == some true

def Double.lessThan? (left right : Double) : Option Bool :=
  Option.map₂ (fun left right => decide (left < right)) left.exactValue? right.exactValue?

def Primitive.operand : Primitive → Operand
  | .missing => .missing
  | .null => .null
  | .bool value => .bool value
  | .number value => .number value
  | .string value => .string value

namespace Operand

def kind : Operand → Kind
  | .missing => .undefined
  | .null => .null
  | .bool _ => .boolean
  | .number _ => .number
  | .string _ => .string
  | .array _ => .object
  | .object _ => .object

def asPrimitive (operand : Operand) : Operand := operand.primitive.operand

def asNumber (operand : Operand) : Operand := .number operand.primitive.toNumber

/-- Equality of two values of one type. A record never holds the very object of a condition. -/
def strictlyEqual : Operand → Operand → Bool
  | .missing, .missing => true
  | .null, .null => true
  | .bool left, .bool right => left == right
  | .number left, .number right => left.numberEqual right
  | .string left, .string right => textUnits left.toList == textUnits right.toList
  | _, _ => false

theorem kind_asPrimitive {operand : Operand} (isObject : operand.kind = .object) :
    operand.asPrimitive.kind = .string := by
  cases operand <;> first | rfl | cases isObject

theorem kind_asNumber (operand : Operand) : operand.asNumber.kind = .number := rfl

def abstractlyEqual (left right : Operand) : Bool :=
  if left.kind = right.kind then left.strictlyEqual right
  else
    match _ : left.kind, _ : right.kind with
    | .null, .undefined => true
    | .undefined, .null => true
    | .number, .string => left.abstractlyEqual right.asNumber
    | .string, .number => left.asNumber.abstractlyEqual right
    | .boolean, _ => left.asNumber.abstractlyEqual right
    | _, .boolean => left.abstractlyEqual right.asNumber
    | .number, .object => left.abstractlyEqual right.asPrimitive
    | .string, .object => left.abstractlyEqual right.asPrimitive
    | .object, .number => left.asPrimitive.abstractlyEqual right
    | .object, .string => left.asPrimitive.abstractlyEqual right
    | _, _ => false
termination_by left.kind.weight + right.kind.weight
decreasing_by
  all_goals simp_all [kind_asPrimitive, kind_asNumber, Kind.weight]

def lessThan? (left right : Operand) : Option Bool :=
  match left.primitive, right.primitive with
  | .string left, .string right => some (decide (textUnits left.toList < textUnits right.toList))
  | left, right => left.toNumber.lessThan? right.toNumber

end Operand

theorem Double.numberEqual_eq (left right : Double) :
    left.numberEqual right = left.sameNumber right := by
  rw [numberEqual, sameNumber, order_eq]
  cases left.exactValue? with
  | none => rfl
  | some first =>
    cases right.exactValue? with
    | none => rfl
    | some second =>
      rw [Bool.eq_iff_iff, beq_iff_eq, beq_iff_eq, Option.map₂_some_some, Option.map₂_some_some,
        Option.some_inj, Option.some_inj, decide_eq_true_iff, compare_eq_iff_eq]

theorem Double.numberEqual_comm (left right : Double) :
    left.numberEqual right = right.numberEqual left := by
  rw [numberEqual, numberEqual]
  cases left.exactValue? <;> cases right.exactValue? <;> simp [eq_comm]

theorem Double.lessThan?_eq (left right : Double) :
    left.lessThan? right = (left.order right).map (· == .lt) := by
  rw [lessThan?, order_eq]
  cases left.exactValue? with
  | none => rfl
  | some first =>
    cases right.exactValue? with
    | none => rfl
    | some second =>
      rw [Option.map₂_some_some, Option.map₂_some_some, Option.map_some, Option.some_inj,
        Bool.eq_iff_iff, beq_iff_eq, decide_eq_true_iff, compare_lt_iff_lt]

namespace Operand

theorem lessThan?_eq (left right : Operand) :
    left.lessThan? right = (left.looseOrder right).map (· == .lt) := by
  rw [lessThan?, looseOrder]
  cases left.primitive with
  | missing | null | bool | number => exact Double.lessThan?_eq _ _
  | string first =>
    cases right.primitive with
    | missing | null | bool | number => exact Double.lessThan?_eq _ _
    | string second =>
      rw [Option.map_some, Option.some_inj, Bool.eq_iff_iff, beq_iff_eq, decide_eq_true_iff,
        compareText_eq_lt_iff]

theorem looseOrder_swap (left right : Operand) :
    right.looseOrder left = (left.looseOrder right).map Ordering.swap := by
  rw [looseOrder, looseOrder]
  cases left.primitive with
  | missing | null | bool | number => cases right.primitive <;> exact Double.order_swap _ _
  | string first =>
    cases right.primitive with
    | missing | null | bool | number => exact Double.order_swap _ _
    | string second => exact congrArg some (compareText_swap first second)

theorem abstractlyEqual_of_kind {left right : Operand} (same : left.kind = right.kind) :
    left.abstractlyEqual right = left.strictlyEqual right := by
  rw [abstractlyEqual, if_pos same]

theorem abstractlyEqual_of_different {left right : Operand} (different : left.kind ≠ right.kind) :
    left.abstractlyEqual right =
      match left.kind, right.kind with
      | .null, .undefined => true
      | .undefined, .null => true
      | .number, .string => left.abstractlyEqual right.asNumber
      | .string, .number => left.asNumber.abstractlyEqual right
      | .boolean, _ => left.asNumber.abstractlyEqual right
      | _, .boolean => left.abstractlyEqual right.asNumber
      | .number, .object => left.abstractlyEqual right.asPrimitive
      | .string, .object => left.abstractlyEqual right.asPrimitive
      | .object, .number => left.asPrimitive.abstractlyEqual right
      | .object, .string => left.asPrimitive.abstractlyEqual right
      | _, _ => false := by
  rw [abstractlyEqual, if_neg different]
  cases left <;> cases right <;> rfl

theorem strictlyEqual_comm (left right : Operand) :
    left.strictlyEqual right = right.strictlyEqual left := by
  cases left <;> cases right <;>
    first | rfl | exact Double.numberEqual_comm _ _ | exact Bool.beq_comm

theorem abstractlyEqual_comm (left right : Operand) :
    left.abstractlyEqual right = right.abstractlyEqual left := by
  -- Either way round the same one of the two values is converted before it begins again.
  fun_induction abstractlyEqual left right with
  | case1 left right same => rw [abstractlyEqual_of_kind same.symm, strictlyEqual_comm]
  | case2 left right different leftKind rightKind
  | case3 left right different leftKind rightKind =>
    rw [abstractlyEqual_of_different (Ne.symm different), leftKind, rightKind]
  | case4 left right different leftKind rightKind again
  | case5 left right different leftKind rightKind again
  | case8 left right different leftKind rightKind again
  | case9 left right different leftKind rightKind again
  | case10 left right different leftKind rightKind again
  | case11 left right different leftKind rightKind again =>
    rw [abstractlyEqual_of_different (Ne.symm different), leftKind, rightKind]
    exact again
  | case6 left right different leftKind again =>
    rw [abstractlyEqual_of_different (Ne.symm different), leftKind]
    cases rightKind : right.kind with
    | boolean => exact absurd (leftKind.trans rightKind.symm) different
    | undefined | null | number | string | object => exact again
  | case7 left right different rightKind notBoolean again =>
    rw [abstractlyEqual_of_different (Ne.symm different), rightKind]
    exact again
  | case12 left right different =>
    rw [abstractlyEqual_of_different (Ne.symm different)]
    cases leftKind : left.kind <;> cases rightKind : right.kind <;> simp_all

theorem abstractlyEqual_bool_left (value : Bool) (right : Operand)
    (other : right.kind ≠ .boolean) :
    (Operand.bool value).abstractlyEqual right =
      (Operand.bool value).asNumber.abstractlyEqual right := by
  have different : (Operand.bool value).kind ≠ right.kind := other.symm
  rw [abstractlyEqual_of_different different]
  cases right <;> rfl

theorem abstractlyEqual_bool_right (left : Operand) (value : Bool)
    (other : left.kind ≠ .boolean) :
    left.abstractlyEqual (.bool value) =
      left.abstractlyEqual (Operand.bool value).asNumber := by
  rw [abstractlyEqual_comm, abstractlyEqual_bool_left value left other, abstractlyEqual_comm]

theorem abstractlyEqual_nothing_left {left right : Operand}
    (nothing : left.kind = .undefined ∨ left.kind = .null)
    (something : right.kind ≠ .undefined ∧ right.kind ≠ .null) :
    left.abstractlyEqual right = false := by
  have number : ∀ value, left.abstractlyEqual (.number value) = false := by
    intro value
    rw [abstractlyEqual]
    cases left <;> simp [kind] at nothing <;> rfl
  cases right with
  | missing => exact absurd rfl something.1
  | null => exact absurd rfl something.2
  | number value => exact number value
  | bool value =>
    have other : left.kind ≠ .boolean := by
      rcases nothing with same | same <;> rw [same] <;> decide
    rw [abstractlyEqual_bool_right left value other]
    exact number _
  | string | array | object =>
    rw [abstractlyEqual]
    cases left <;> simp [kind] at nothing <;> rfl

theorem abstractlyEqual_nothing_right {left right : Operand}
    (nothing : right.kind = .undefined ∨ right.kind = .null)
    (something : left.kind ≠ .undefined ∧ left.kind ≠ .null) :
    left.abstractlyEqual right = false := by
  rw [abstractlyEqual_comm, abstractlyEqual_nothing_left nothing something]

theorem abstractlyEqual_numbers (left right : Double) :
    (Operand.number left).abstractlyEqual (.number right) = left.sameNumber right := by
  have same : (Operand.number left).kind = (Operand.number right).kind := rfl
  rw [abstractlyEqual_of_kind same, strictlyEqual, Double.numberEqual_eq]

theorem abstractlyEqual_number_string (left : Double) (right : String) :
    (Operand.number left).abstractlyEqual (.string right) =
      left.sameNumber (NumberText.read right.toList) := by
  rw [abstractlyEqual]
  exact abstractlyEqual_numbers left _

theorem abstractlyEqual_string_number (left : String) (right : Double) :
    (Operand.string left).abstractlyEqual (.number right) =
      (NumberText.read left.toList).sameNumber right := by
  rw [abstractlyEqual]
  exact abstractlyEqual_numbers _ right

theorem abstractlyEqual_strings (left right : String) :
    (Operand.string left).abstractlyEqual (.string right) = (left == right) := by
  have same : (Operand.string left).kind = (Operand.string right).kind := rfl
  rw [abstractlyEqual_of_kind same, strictlyEqual, Bool.eq_iff_iff, beq_iff_eq, beq_iff_eq]
  constructor
  · intro sameUnits
    exact String.toList_inj.mp (textUnits_inj sameUnits)
  · rintro rfl
    rfl

theorem abstractlyEqual_operand (left right : Primitive) :
    left.operand.abstractlyEqual right.operand = left.equal right := by
  cases left with
  | missing =>
    cases right with
    | missing | null => rw [abstractlyEqual]; rfl
    | bool | number | string =>
      exact abstractlyEqual_nothing_left (Or.inl rfl) ⟨nofun, nofun⟩
  | null =>
    cases right with
    | missing | null => rw [abstractlyEqual]; rfl
    | bool | number | string =>
      exact abstractlyEqual_nothing_left (Or.inr rfl) ⟨nofun, nofun⟩
  | bool first =>
    cases right with
    | missing => exact abstractlyEqual_nothing_right (Or.inl rfl) ⟨nofun, nofun⟩
    | null => exact abstractlyEqual_nothing_right (Or.inr rfl) ⟨nofun, nofun⟩
    | bool second => exact abstractlyEqual_of_kind rfl
    | number second =>
      refine (abstractlyEqual_bool_left first (.number second) nofun).trans ?_
      exact abstractlyEqual_numbers _ second
    | string second =>
      refine (abstractlyEqual_bool_left first (.string second) nofun).trans ?_
      exact abstractlyEqual_number_string _ second
  | number first =>
    cases right with
    | missing => exact abstractlyEqual_nothing_right (Or.inl rfl) ⟨nofun, nofun⟩
    | null => exact abstractlyEqual_nothing_right (Or.inr rfl) ⟨nofun, nofun⟩
    | bool second =>
      refine (abstractlyEqual_bool_right (.number first) second nofun).trans ?_
      exact abstractlyEqual_numbers first _
    | number second => exact abstractlyEqual_numbers first second
    | string second => exact abstractlyEqual_number_string first second
  | string first =>
    cases right with
    | missing => exact abstractlyEqual_nothing_right (Or.inl rfl) ⟨nofun, nofun⟩
    | null => exact abstractlyEqual_nothing_right (Or.inr rfl) ⟨nofun, nofun⟩
    | bool second =>
      refine (abstractlyEqual_bool_right (.string first) second nofun).trans ?_
      exact abstractlyEqual_string_number first _
    | number second => exact abstractlyEqual_string_number first second
    | string second => exact abstractlyEqual_strings first second

theorem abstractlyEqual_object_left {left right : Operand} (isObject : left.kind = .object)
    (other : right.kind ≠ .object) :
    left.abstractlyEqual right = left.asPrimitive.abstractlyEqual right := by
  have isString := kind_asPrimitive isObject
  have number : ∀ value, left.abstractlyEqual (.number value) =
      left.asPrimitive.abstractlyEqual (.number value) := by
    intro value
    rw [abstractlyEqual]
    cases left <;> first | rfl | cases isObject
  cases right with
  | array | object => exact absurd rfl other
  | number value => exact number value
  | string value =>
    rw [abstractlyEqual]
    cases left <;> first | rfl | cases isObject
  | bool value =>
    rw [abstractlyEqual_bool_right left value (by rw [isObject]; decide),
      abstractlyEqual_bool_right left.asPrimitive value (by rw [isString]; decide)]
    exact number _
  | missing =>
    rw [abstractlyEqual_nothing_right (Or.inl rfl) (by rw [isObject]; decide),
      abstractlyEqual_nothing_right (Or.inl rfl) (by rw [isString]; decide)]
  | null =>
    rw [abstractlyEqual_nothing_right (Or.inr rfl) (by rw [isObject]; decide),
      abstractlyEqual_nothing_right (Or.inr rfl) (by rw [isString]; decide)]

theorem abstractlyEqual_object_right {left right : Operand} (isObject : right.kind = .object)
    (other : left.kind ≠ .object) :
    left.abstractlyEqual right = left.abstractlyEqual right.asPrimitive := by
  rw [abstractlyEqual_comm, abstractlyEqual_object_left isObject other, abstractlyEqual_comm]

theorem isContainer_eq_true_iff (operand : Operand) :
    operand.isContainer = true ↔ operand.kind = .object := by
  cases operand <;> simp [isContainer, kind]

theorem asPrimitive_of_kind {operand : Operand} (other : operand.kind ≠ .object) :
    operand.asPrimitive = operand := by
  cases operand <;> first | rfl | exact absurd rfl other

theorem strictlyEqual_object {left : Operand} (isObject : left.kind = .object)
    (right : Operand) : left.strictlyEqual right = false := by
  cases left with
  | missing | null | bool | number | string => cases isObject
  | array | object => cases right <;> rfl

theorem abstractlyEqual_asPrimitive {left right : Operand}
    (oneIsNone : ¬(left.kind = .object ∧ right.kind = .object)) :
    left.abstractlyEqual right = left.asPrimitive.abstractlyEqual right.asPrimitive := by
  by_cases leftObject : left.kind = .object
  · have rightOther : right.kind ≠ .object := fun both => oneIsNone ⟨leftObject, both⟩
    rw [abstractlyEqual_object_left leftObject rightOther, asPrimitive_of_kind rightOther]
  · rw [asPrimitive_of_kind leftObject]
    by_cases rightObject : right.kind = .object
    · exact abstractlyEqual_object_right rightObject leftObject
    · rw [asPrimitive_of_kind rightObject]

theorem looselyEqual_eq (left right : Operand) :
    left.looselyEqual right = left.abstractlyEqual right := by
  by_cases both : left.kind = .object ∧ right.kind = .object
  · have containers : (left.isContainer && right.isContainer) = true := by
      rw [Bool.and_eq_true, isContainer_eq_true_iff, isContainer_eq_true_iff]
      exact both
    rw [looselyEqual, if_pos containers, abstractlyEqual_of_kind (both.1.trans both.2.symm),
      strictlyEqual_object both.1]
  · have notContainers : ¬(left.isContainer && right.isContainer) = true := by
      rw [Bool.and_eq_true, isContainer_eq_true_iff, isContainer_eq_true_iff]
      exact both
    rw [looselyEqual, if_neg notContainers, abstractlyEqual_asPrimitive both]
    exact (abstractlyEqual_operand left.primitive right.primitive).symm

end Operand

/-- Each operator answers as ECMAScript has it: `=` by abstract equality, the others by whether one
side is less than the other, where `>=` and `<=` ask that it is not, and say no if that is undefined. -/
theorem Condition.compare?_follows_abstract_comparison (left : Option Json) (right : Json) :
    (Operand.ofField left).looselyEqual (.ofJson right) =
      (Operand.ofField left).abstractlyEqual (.ofJson right) ∧
    compare? .equal (.ofField left) right =
      some ((Operand.ofField left).abstractlyEqual (.ofJson right)) ∧
    compare? .greater (.ofField left) right =
      some ((Operand.ofJson right).lessThan? (.ofField left) == some true) ∧
    compare? .greaterOrEqual (.ofField left) right =
      some ((Operand.ofField left).lessThan? (.ofJson right) == some false) ∧
    compare? .less (.ofField left) right =
      some ((Operand.ofField left).lessThan? (.ofJson right) == some true) ∧
    compare? .lessOrEqual (.ofField left) right =
      some ((Operand.ofJson right).lessThan? (.ofField left) == some false) := by
  have equality := Operand.looselyEqual_eq (.ofField left) (.ofJson right)
  have leftFirst := Operand.lessThan?_eq (.ofField left) (.ofJson right)
  have rightFirst := Operand.lessThan?_eq (.ofJson right) (.ofField left)
  rw [Operand.looseOrder_swap (.ofField left) (.ofJson right)] at rightFirst
  refine ⟨equality, congrArg some equality, ?_⟩
  rw [leftFirst, rightFirst]
  simp only [compare?]
  cases (Operand.ofField left).looseOrder (.ofJson right) with
  | none => exact ⟨rfl, rfl, rfl, rfl⟩
  | some order => cases order <;> exact ⟨rfl, rfl, rfl, rfl⟩

end TableServer
