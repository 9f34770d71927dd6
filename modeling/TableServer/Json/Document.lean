import TableServer.Json.Embedded

/-! Reading documents: what is written, with embedded documents in their places and each key of an
object once. -/

namespace TableServer

namespace Json

/-- What a written document stands for; of repeated keys the last value counts. -/
def resolved? (written : Json) : Option Json :=
  (unfolded? readUnfolded written).map merged

/-- The members of an object that is no embedding whatever its keys are. -/
def resolvedMembers? (written : List (String × Json)) : Option (Entries Json) :=
  (unfoldedMembers? readUnfolded written).map fun members => Entries.ofList (mergedMembers members)

def read (text : List Char) : Option Json :=
  (readWritten text).bind resolved?

def readBytes (bytes : ByteArray) : Option Json :=
  (String.fromUTF8? bytes).bind fun text => read text.toList

/-- A text that is one document in which the mark of embedded documents is a key like any other. -/
def readUnmarked (text : List Char) : Option Json :=
  (readWritten text).map merged

end Json

end TableServer
