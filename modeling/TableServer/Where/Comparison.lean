import TableServer.Text.Search
import TableServer.Text.Units
import TableServer.Where.Operand

/-! Loose comparison of record values. Records have no schema, so a clause may compare values of
different kinds; they are brought to a common kind first. -/

namespace TableServer

def Operand.isContainer : Operand → Bool
  | .array _ => true
  | .object _ => true
  | _ => false

/-- Missing and null equal each other and nothing else. Values of different kinds are equal when
their numbers are. -/
def Primitive.equal : Primitive → Primitive → Bool
  | .missing, .missing => true
  | .missing, .null => true
  | .null, .missing => true
  | .null, .null => true
  | .missing, _ => false
  | .null, _ => false
  | _, .missing => false
  | _, .null => false
  | .string left, .string right => left == right
  | .bool left, .bool right => left == right
  | left, right => left.toNumber.sameNumber right.toNumber

/-- Two containers are never equal, whatever they hold. -/
def Operand.looselyEqual (left right : Operand) : Bool :=
  if left.isContainer && right.isContainer then false
  else left.primitive.equal right.primitive

/-- Two strings are ordered as text, all other pairs as numbers; none when a number is missing. -/
def Operand.looseOrder (left right : Operand) : Option Ordering :=
  match left.primitive, right.primitive with
  | .string left, .string right => some (compareText left right)
  | left, right => left.toNumber.order right.toNumber

/-- Equality of an array item and a value: same kind, same value. Containers equal nothing. -/
def Json.sameValue : Json → Json → Bool
  | .null, .null => true
  | .bool left, .bool right => left == right
  | .number left, .number right => left.toDouble.sameNumber right.toDouble
  | .string left, .string right => left == right
  | _, _ => false

theorem Json.sameValue_string_iff (item : Json) (text : String) :
    item.sameValue (.string text) = true ↔ item = .string text := by
  cases item <;> simp [Json.sameValue]

/-- An array contains its items and a string the texts within it; nothing else can contain. -/
def Operand.contains? (container : Operand) (value : Json) : Option Bool :=
  match container with
  | .array items => some (items.any (·.sameValue value))
  | .string text => some (containsText text.toList value.text)
  | _ => none

end TableServer
