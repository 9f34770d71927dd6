import TableServer.Json.Document
import TableServer.Json.Writer
import TableServer.Where.Basic

/-! WHERE specifications as JSON: an object with a field name for each clause and an object for
its condition. The operator defaults to equality, the conjunction to and, the value to null. -/

namespace TableServer

inductive WhereError where
  | notObject
  | conditionNotObject (field : String)
  | unknownOperator (name : String)
  | operatorNotString (field : String) (found : Json)
  | conjunctionNotString (field : String) (found : Json)

namespace WhereError

def message : WhereError → String
  | notObject => "Invalid WHERE specification: expected a JSON object"
  | conditionNotObject field =>
    "Invalid WHERE specification: condition for '" ++ field ++ "' must be an object"
  | unknownOperator name => "Invalid operator: " ++ name
  | operatorNotString field found =>
    "Invalid WHERE specification: operator for '" ++ field ++ "' must be a string, got " ++
      found.render
  | conjunctionNotString field found =>
    "Invalid WHERE specification: condition for '" ++ field ++ "' must be a string, got " ++
      found.render

end WhereError

namespace Condition

def readOperator (field : String) : Option Json → Except WhereError Operator
  | none => .ok .equal
  | some .null => .ok .equal
  | some (.string name) =>
    match Operator.ofName? name with
    | some operator => .ok operator
    | none => .error (.unknownOperator name)
  | some found => .error (.operatorNotString field found)

def readConjunction (field : String) : Option Json → Except WhereError Conjunction
  | none => .ok .and
  | some .null => .ok .and
  | some (.string name) => .ok (.ofName name)
  | some found => .error (.conjunctionNotString field found)

/-- The operator is judged before the conjunction. -/
def ofJson (field : String) : Json → Except WhereError Condition
  | .object members => do
    let operator ← readOperator field (Entries.get? members "operator")
    let conjunction ← readConjunction field (Entries.get? members "condition")
    pure ⟨operator, conjunction, (Entries.get? members "value").getD .null⟩
  | _ => .error (.conditionNotObject field)

def toJson (condition : Condition) : Json :=
  .object [("operator", .string condition.operator.name),
    ("condition", .string condition.conjunction.name), ("value", condition.value)]

end Condition

namespace Where

def readClauses (spec : Where) : Entries Json → Except WhereError Where
  | [] => .ok spec
  | (field, value) :: rest =>
    match Condition.ofJson field value with
    | .error error => .error error
    | .ok condition => readClauses (spec.insert field condition) rest

def ofJson : Json → Except WhereError Where
  | .object members => readClauses empty members
  | _ => .error .notObject

def toJson (spec : Where) : Json :=
  .object (spec.clauses.map fun (field, condition) => (field, condition.toJson))

inductive TextError where
  | malformed
  | invalid (cause : WhereError)

/-- The specification is judged as soon as its document ends, before the text after it. -/
def ofText (text : List Char) : Except TextError Where :=
  match Json.readFirst (JsonToken.ofText text) with
  | none => .error .malformed
  | some (written, rest) =>
    match written.resolved? with
    | none => .error .malformed
    | some document =>
      match ofJson document with
      | .error cause => .error (.invalid cause)
      | .ok spec => if rest.isEmpty then .ok spec else .error .malformed

end Where

end TableServer
