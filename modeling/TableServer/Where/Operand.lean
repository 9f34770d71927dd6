import TableServer.Json.Basic
import TableServer.Where.NumberText

/-! Record values as operands of a comparison. Arrays and objects compare by their text. -/

namespace TableServer

def Json.isNull : Json → Bool
  | .null => true
  | _ => false

def Json.nullText : List Char := "null".toList

def Json.boolText (value : Bool) : List Char := (if value then "true" else "false").toList

def Json.objectText : List Char := "[object Object]".toList

mutual

/-- An array is its items separated by commas, a null item being empty; all objects have the same
text. -/
def Json.text : Json → List Char
  | .null => nullText
  | .bool value => boolText value
  | .number value => value.toDouble.text
  | .string value => value.toList
  | .array items => Json.joinedText items
  | .object _ => objectText

def Json.joinedText : List Json → List Char
  | [] => []
  | [last] => if last.isNull then [] else last.text
  | item :: rest => (if item.isNull then [] else item.text) ++ ',' :: Json.joinedText rest

end

/-- A field that the record does not have is `missing`, which is not the same as null. -/
inductive Operand where
  | missing
  | null
  | bool (value : Bool)
  | number (value : Double)
  | string (value : String)
  | array (items : List Json)
  | object (members : List (String × Json))

def Operand.ofJson : Json → Operand
  | .null => .null
  | .bool value => .bool value
  | .number value => .number value.toDouble
  | .string value => .string value
  | .array items => .array items
  | .object members => .object members

def Operand.ofField : Option Json → Operand
  | some value => .ofJson value
  | none => .missing

inductive Primitive where
  | missing
  | null
  | bool (value : Bool)
  | number (value : Double)
  | string (value : String)

def Operand.primitive : Operand → Primitive
  | .missing => .missing
  | .null => .null
  | .bool value => .bool value
  | .number value => .number value
  | .string value => .string value
  | .array items => .string (String.ofList (Json.joinedText items))
  | .object members => .string (String.ofList (Json.object members).text)

def Primitive.toNumber : Primitive → Double
  | .missing => .nan
  | .null => .zero
  | .bool true => .one
  | .bool false => .zero
  | .number value => value
  | .string value => NumberText.read value.toList

end TableServer
