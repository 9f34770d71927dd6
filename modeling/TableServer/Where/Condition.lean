import TableServer.Where.Comparison
import TableServer.Where.Operator

/-! A condition on one field of a record. -/

namespace TableServer

/-- Field names with their values, in field order. -/
abbrev Record := Entries Json

/-- A membership test met a field that can contain nothing. -/
structure NotIterable where
  field : String
deriving DecidableEq

def NotIterable.message (error : NotIterable) : String :=
  "Field '" ++ error.field ++ "' is not iterable, membership test is undefined"

structure Condition where
  operator : Operator
  conjunction : Conjunction
  value : Json

namespace Condition

/-- What a condition makes of two operands; none when a membership test has no container. -/
def compare? (operator : Operator) (left : Operand) (value : Json) : Option Bool :=
  match operator with
  | .equal => some (left.looselyEqual (.ofJson value))
  | .greater => some (left.looseOrder (.ofJson value) == some .gt)
  | .greaterOrEqual =>
    let order := left.looseOrder (.ofJson value)
    some (order == some .gt || order == some .eq)
  | .less => some (left.looseOrder (.ofJson value) == some .lt)
  | .lessOrEqual =>
    let order := left.looseOrder (.ofJson value)
    some (order == some .lt || order == some .eq)
  | .within => left.contains? value
  | .notWithin => (left.contains? value).map not

def holds (condition : Condition) (field : String) (record : Record) :
    Except NotIterable Bool :=
  match compare? condition.operator (.ofField (record.get? field)) condition.value with
  | some result => .ok result
  | none => .error ⟨field⟩

end Condition

end TableServer
