import TableServer.Json.Basic

/-! Settings as a document holds them, whatever its format, and how they are read into values. -/

namespace TableServer

inductive Setting where
  | text (value : String)
  | flag (value : Bool)
  | whole (value : Int)
  /-- A date or time: it has parts of its own, under names of its own. -/
  | moment
  | list (items : List Setting)
  | table (entries : List (String × Setting))
  | nothing
  | other

structure SettingRules where
  /-- Whether a list of fields may have items after the last field. -/
  surplusItems : Bool
  /-- Whether a value may stand beside the name of a choice. -/
  isUnit : Setting → Bool

namespace Setting

def text? : Setting → Option String
  | text value => some value
  | _ => none

def flag? : Setting → Option Bool
  | flag value => some value
  | _ => none

def natural? : Setting → Option Nat
  | whole value => if 0 ≤ value ∧ value ≤ 18446744073709551615 then some value.toNat else none
  | _ => none

/-- A choice is its name, or a table with the name as its one key. -/
def choice? (rules : SettingRules) : Setting → Option String
  | text name => some name
  | table [(name, value)] => if rules.isUnit value then some name else none
  | _ => none

/-- The fields of a section, which may also be a list of their values in order. -/
def fields? (rules : SettingRules) (names : List String) : Setting → Option (Entries Setting)
  | table entries => some entries
  | moment => some []
  | list items =>
    if items.length ≤ names.length || rules.surplusItems then some (names.zip items) else none
  | _ => none

/-- A field that is missing has its default. -/
def field? {α : Type} (fields : Entries Setting) (name : String) (read : Setting → Option α)
    (default : α) : Option α :=
  match Entries.get? fields name with
  | some setting => read setting
  | none => some default

mutual

def ofJson : Json → Setting
  | .string value => text value
  | .bool value => flag value
  | .number (.integer value) => whole value.value
  | .array items => list (ofJsonItems items)
  | .object members => table (ofJsonMembers members)
  | .null => nothing
  | .number (.double _) => other

def ofJsonItems : List Json → List Setting
  | [] => []
  | item :: rest => ofJson item :: ofJsonItems rest

def ofJsonMembers : List (String × Json) → List (String × Setting)
  | [] => []
  | (name, value) :: rest => (name, ofJson value) :: ofJsonMembers rest

end

end Setting

namespace SettingRules

def json : SettingRules where
  surplusItems := false
  isUnit
    | .nothing => true
    | _ => false

def toml : SettingRules where
  surplusItems := true
  isUnit
    | .table [] => true
    | .list [] => true
    | _ => false

end SettingRules

end TableServer
