import TableServer.Json.Document
import TableServer.Json.Writer
import TableServer.Store.Slot
import TableServer.Where.Condition

/-! The table set and its form on disk: one JSON object with a key for each table, whose value is
the array of its records. -/

namespace TableServer

/-- Table names with their records, in the order the tables came to be. -/
abbrev Tables := Entries (List Record)

inductive LoadError where
  | unreadable (cause : FileError)
  | malformed

def LoadError.message : LoadError → String
  | unreadable cause => "cannot read storage file: " ++ cause.message
  | malformed => "malformed storage file"

namespace Tables

def toJson (tables : Tables) : Json :=
  .object (tables.map fun (name, rows) => (name, .array (rows.map .object)))

def encode (tables : Tables) : ByteArray :=
  tables.toJson.render.toUTF8

/-- Documents may be embedded in a record, but a record is none itself. -/
def recordOf? : Json → Option Record
  | .object members => Json.resolvedMembers? members
  | _ => none

def rowsOf? : Json → Option (List Record)
  | .array items => items.mapM recordOf?
  | _ => none

def tableOf? (member : String × Json) : Option (String × List Record) :=
  (rowsOf? member.2).map fun rows => (member.1, rows)

/-- Every member of the document as it is written must be an array of objects, also one whose
table comes again. -/
def ofWritten? : Json → Option Tables
  | .object members => (members.mapM tableOf?).map Entries.ofList
  | _ => none

def decode? (content : ByteArray) : Option Tables :=
  (String.fromUTF8? content).bind fun text => (Json.readWritten text.toList).bind ofWritten?

def load (slot : Slot) : Except LoadError Tables :=
  match slot.read with
  | .error cause => .error (.unreadable cause)
  | .ok content =>
    match decode? content with
    | some tables => .ok tables
    | none => .error .malformed

end Tables

end TableServer
