import TableServer.Config.Setting

/-! The tree that the lines of a TOML document build up, and the rules that say what may be added to
what: no key is given twice, and a table is defined once. -/

namespace TableServer.Toml

/-- How a table came to be: by its own header, on the way to another header, or by a dotted key. -/
inductive Origin where
  | header
  | passing
  | dotted
deriving DecidableEq

inductive Node where
  | leaf (setting : Setting)
  | table (origin : Origin) (entries : List (String × Node))
  /-- The tables of an array that has a header for each. -/
  | tables (elements : List (List (String × Node)))

structure Entry where
  path : List String
  value : Setting

structure Section where
  path : List String
  isElement : Bool
  entries : List Entry

namespace Node

abbrev Fields := List (String × Node)

def changeLast (change : Fields → Option Fields) : List Fields → Option (List Fields)
  | [] => none
  | [last] => (change last).map fun changed => [changed]
  | first :: rest => (changeLast change rest).map (first :: ·)

/-- Adds a value under a path. Only tables that a header has not defined are entered, and the table
that gets the value is one that dotted keys have made, unless the path is a single key. -/
def addAt (origin : Origin) (single : Bool) (value : Setting) : List String → Fields → Option Fields
  | [], _ => none
  | [key], fields =>
    if (origin == .dotted) == single || Entries.has fields key then none
    else some (Entries.put fields key (leaf value))
  | key :: path, fields =>
    match Entries.get? fields key with
    | none =>
      (addAt .dotted single value path []).map fun inner =>
        Entries.put fields key (table .dotted inner)
    | some (leaf _) => none
    | some (table inside inner) =>
      if inside = .header then none
      else (addAt inside single value path inner).map fun changed =>
        Entries.put fields key (table inside changed)
    | some (tables elements) =>
      (changeLast (addAt .header single value path) elements).map fun changed =>
        Entries.put fields key (tables changed)

def addEntry (fields : Fields) (entry : Entry) : Option Fields :=
  addAt .header (entry.path.length == 1) entry.value entry.path fields

def addEntries (fields : Fields) (entries : List Entry) : Option Fields :=
  entries.foldlM addEntry fields

/-- A header defines a table that is new or was only passed through, or adds to an array. -/
def define (isElement : Bool) (entries : List Entry) (key : String) (fields : Fields) :
    Option Fields :=
  match isElement, Entries.get? fields key with
  | false, none =>
    (addEntries [] entries).map fun inner => Entries.put fields key (table .header inner)
  | false, some (table .passing inner) =>
    (addEntries inner entries).map fun changed => Entries.put fields key (table .header changed)
  | true, none =>
    (addEntries [] entries).map fun inner => Entries.put fields key (tables [inner])
  | true, some (tables elements) =>
    (addEntries [] entries).map fun inner => Entries.put fields key (tables (elements ++ [inner]))
  | _, _ => none

def addSectionAt (isElement : Bool) (entries : List Entry) : List String → Fields → Option Fields
  | [], _ => none
  | [key], fields => define isElement entries key fields
  | key :: path, fields =>
    match Entries.get? fields key with
    | none =>
      (addSectionAt isElement entries path []).map fun inner =>
        Entries.put fields key (table .passing inner)
    | some (leaf _) => none
    | some (table inside inner) =>
      (addSectionAt isElement entries path inner).map fun changed =>
        Entries.put fields key (table inside changed)
    | some (tables elements) =>
      (changeLast (addSectionAt isElement entries path) elements).map fun changed =>
        Entries.put fields key (tables changed)

def addSection (fields : Fields) (part : Section) : Option Fields :=
  addSectionAt part.isElement part.entries part.path fields

mutual

def toSetting : Node → Setting
  | leaf setting => setting
  | table _ entries => .table (fieldsToSettings entries)
  | tables elements => .list (elementsToSettings elements)

def fieldsToSettings : List (String × Node) → List (String × Setting)
  | [] => []
  | (key, node) :: rest => (key, node.toSetting) :: fieldsToSettings rest

def elementsToSettings : List (List (String × Node)) → List Setting
  | [] => []
  | fields :: rest => .table (fieldsToSettings fields) :: elementsToSettings rest

end

/-- The table of entries written on one line, which nothing is added to later. -/
def ofEntries? (entries : List Entry) : Option Setting :=
  (addEntries [] entries).map fun fields => .table (fieldsToSettings fields)

def ofSections? (entries : List Entry) (sections : List Section) : Option Setting :=
  ((addEntries [] entries).bind fun fields => sections.foldlM addSection fields).map fun fields =>
    .table (fieldsToSettings fields)

end Node

end TableServer.Toml
