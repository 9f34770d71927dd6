import TableServer.Text.UpperCase

/-! The names of the comparison operators and of the two ways to join clauses. -/

namespace TableServer

inductive Operator where
  | equal
  | greater
  | greaterOrEqual
  | less
  | lessOrEqual
  | within
  | notWithin
deriving DecidableEq

namespace Operator

def all : List Operator :=
  [equal, greater, greaterOrEqual, less, lessOrEqual, within, notWithin]

def name : Operator → String
  | equal => "="
  | greater => ">"
  | greaterOrEqual => ">="
  | less => "<"
  | lessOrEqual => "<="
  | within => "IN"
  | notWithin => "NOT_IN"

/-- A name counts when its upper case is the name of an operator. -/
def ofName? (text : String) : Option Operator :=
  all.find? fun operator => operator.name.toList == upperCase text.toList

end Operator

inductive Conjunction where
  | and
  | or
deriving DecidableEq

namespace Conjunction

def name : Conjunction → String
  | and => "AND"
  | or => "OR"

/-- Only `OR`, in either letter case of its two letters, means or. -/
def ofName (text : String) : Conjunction :=
  if text.toList.map Char.toUpper == ['O', 'R'] then or else and

end Conjunction

end TableServer
