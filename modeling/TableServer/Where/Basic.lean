import TableServer.Where.Condition

/-! WHERE specifications: conditions on fields, in order. Each clause joins everything before it
by its own conjunction, so the order of the clauses can decide the outcome. -/

namespace TableServer

/-- Field names with their conditions; a field has one condition. -/
structure Where where
  clauses : Entries Condition

namespace Where

def empty : Where := ⟨[]⟩

def insert (spec : Where) (field : String) (condition : Condition) : Where :=
  ⟨spec.clauses.put field condition⟩

def isEmpty (spec : Where) : Bool := spec.clauses.isEmpty

def length (spec : Where) : Nat := spec.clauses.length

def join (conjunction : Conjunction) (before result : Bool) : Bool :=
  match conjunction with
  | .and => before && result
  | .or => before || result

/-- The clauses after the first. Every clause is evaluated, also where the outcome is decided. -/
def matchesFrom (record : Record) : Bool → Entries Condition → Except NotIterable Bool
  | before, [] => .ok before
  | before, (field, condition) :: rest =>
    match condition.holds field record with
    | .error error => .error error
    | .ok result => matchesFrom record (join condition.conjunction before result) rest

/-- The conjunction of the first clause has nothing to join. Without clauses nothing matches. -/
def matches? (spec : Where) (record : Record) : Except NotIterable Bool :=
  match spec.clauses with
  | [] => .ok false
  | (field, condition) :: rest =>
    match condition.holds field record with
    | .error error => .error error
    | .ok result => matchesFrom record result rest

end Where

end TableServer
