/-! The one file behind a store. A write replaces the whole content or fails and changes
nothing; whether it fails has nothing to do with whether the file can be read. -/

namespace TableServer

inductive FileError where
  | notFound
  | isDirectory
  | nameTooLong
  | zeroByte
  | other (message : String)
deriving DecidableEq

def FileError.message : FileError → String
  | notFound => "No such file or directory (os error 2)"
  | isDirectory => "Is a directory (os error 21)"
  | nameTooLong => "File name too long (os error 36)"
  | zeroByte => "file name contained an unexpected NUL byte"
  | other message => message

/-- What stands in the way of reading and of writing. The permissions of a file may refuse either
alone. -/
structure Access where
  readError? : Option FileError
  writeError? : Option FileError
deriving DecidableEq

namespace Access

def free : Access := ⟨none, none⟩

def refused (cause : FileError) : Access := ⟨some cause, some cause⟩

end Access

/-- What lies at the storage path: the content of a file, if there is one. -/
structure Slot where
  content? : Option ByteArray
  access : Access

namespace Slot

def absent : Slot := ⟨none, .free⟩

def file (content : ByteArray) : Slot := ⟨some content, .free⟩

/-- A place where no file can be. -/
def refused (cause : FileError) : Slot := ⟨none, .refused cause⟩

def read (slot : Slot) : Except FileError ByteArray :=
  match slot.access.readError?, slot.content? with
  | some cause, _ => .error cause
  | none, none => .error .notFound
  | none, some content => .ok content

def holding (slot : Slot) (content : ByteArray) : Slot :=
  { slot with content? := some content }

/-- A file that cannot be read may be written, and cannot be read afterwards either. -/
def write (content : ByteArray) (slot : Slot) : Except FileError Slot :=
  match slot.access.writeError? with
  | some cause => .error cause
  | none => .ok (slot.holding content)

/-- A change of the content from outside; where writing is refused nothing happens. -/
def overwrite (content : ByteArray) (slot : Slot) : Slot :=
  match slot.write content with
  | .ok next => next
  | .error _ => slot

def remove (slot : Slot) : Slot :=
  { slot with content? := none }

/-- A directory takes the place of the file; where writing is refused nothing happens. -/
def block (slot : Slot) : Slot :=
  if slot.access.writeError?.isSome then slot else refused .isDirectory

def unblock (slot : Slot) : Slot :=
  if slot.access.writeError? = some .isDirectory then absent else slot

/-- Permissions are given or taken; a directory stays one. -/
def permit (access : Access) (slot : Slot) : Slot :=
  if slot.access.writeError? = some .isDirectory then slot else { slot with access := access }

/-- Where a relative path leads, seen from a directory without directories of its own. -/
inductive Place where
  | refused (cause : FileError)
  /-- A file of the directory itself. -/
  | entry (name : String)
  /-- A file of a directory around it. -/
  | outside
deriving DecidableEq

def isSlash (c : Char) : Bool := c == '/'

def namesOfPath (path : String) : List (List Char) :=
  (path.toList.splitOnP isSlash).filter (!·.isEmpty)

def isDots (name : List Char) : Bool := name == ['.'] || name == ['.', '.']

def isTooLong (name : List Char) : Bool := 255 < (String.ofList name).utf8ByteSize

/-- A path that ends in a slash, or in dots, names a directory. -/
def placeOf (path : String) : Place :=
  let names := namesOfPath path
  if path.toList.contains (Char.ofNat 0) then .refused .zeroByte
  else if 4096 ≤ path.utf8ByteSize then .refused .nameTooLong
  else
    match names.dropLast.find? (!isDots ·), names.getLast? with
    | some missing, _ => .refused (if isTooLong missing then .nameTooLong else .notFound)
    | none, none => .refused (if path.isEmpty then .notFound else .isDirectory)
    | none, some last =>
      if isDots last || path.toList.getLast? == some '/' then .refused .isDirectory
      else if isTooLong last then .refused .nameTooLong
      else if names.dropLast.contains ['.', '.'] || path.toList.head? == some '/' then .outside
      else .entry (String.ofList last)

/-- What a directory with the given files holds at a path that starts there. -/
def inDirectory (content : String → Option ByteArray) (path : String) : Slot :=
  match placeOf path with
  | .refused cause => refused cause
  | .outside => absent
  | .entry name =>
    match content name with
    | some bytes => file bytes
    | none => absent

def inEmptyDirectory : String → Slot := inDirectory fun _ => none

end Slot

end TableServer
