import TableServer.Json.Entries
import TableServer.Number.Layout

/-! JSON documents. Objects keep the order of their members, and numbers are either whole numbers
of 64 bits, signed or unsigned, or finite doubles. -/

namespace TableServer

/-- A whole number literal outside this range is read as a double. -/
structure JsonInteger where
  value : Int
  lower : -9223372036854775808 ≤ value
  upper : value ≤ 18446744073709551615
deriving DecidableEq

def JsonInteger.ofInt? (value : Int) : Option JsonInteger :=
  if range : -9223372036854775808 ≤ value ∧ value ≤ 18446744073709551615 then
    some ⟨value, range.1, range.2⟩
  else none

inductive JsonNumber where
  | integer (value : JsonInteger)
  | double (value : FiniteDouble)
deriving DecidableEq

def JsonNumber.toDouble : JsonNumber → Double
  | .integer whole => .ofInt whole.value
  | .double value => .finite value

inductive Json where
  | null
  | bool (value : Bool)
  | number (value : JsonNumber)
  | string (value : String)
  | array (items : List Json)
  | object (members : List (String × Json))

namespace Json

def ofNat (value : Nat) : Json :=
  match JsonInteger.ofInt? value with
  | some whole => .number (.integer whole)
  | none => .null

def asObject? : Json → Option (Entries Json)
  | .object members => some members
  | _ => none

theorem asObject?_eq_some_iff (document : Json) (members : Entries Json) :
    document.asObject? = some members ↔ document = .object members := by
  cases document <;> simp [asObject?]

mutual

/-- The document in which each object has each key once. -/
def merged : Json → Json
  | .array items => .array (mergedItems items)
  | .object members => .object (Entries.ofList (mergedMembers members))
  | other => other

def mergedItems : List Json → List Json
  | [] => []
  | item :: rest => item.merged :: mergedItems rest

def mergedMembers : List (String × Json) → List (String × Json)
  | [] => []
  | (key, value) :: rest => (key, value.merged) :: mergedMembers rest

end

mutual

/-- Arrays and objects nested in each other, the outermost counted. -/
def depth : Json → Nat
  | .array items => depthItems items + 1
  | .object members => depthMembers members + 1
  | _ => 0

def depthItems : List Json → Nat
  | [] => 0
  | item :: rest => max item.depth (depthItems rest)

def depthMembers : List (String × Json) → Nat
  | [] => 0
  | (_, value) :: rest => max value.depth (depthMembers rest)

end

end Json

end TableServer
