import TableServer.Json.Reader

/-! Embedded documents. An object whose first key is the mark stands for the document that its one
text holds. That text is a document by itself: its nesting is counted anew, and it may embed
further ones. -/

namespace TableServer

namespace Json

/-- The key by which an object embeds a document. -/
def embeddingMark : String := "$serde_json::private::RawValue"

/-- A mark that is not the first key means nothing. -/
def isEmbedding : List (String × Json) → Bool
  | (key, _) :: _ => key == embeddingMark
  | [] => false

def embeddedText? : List (String × Json) → Option String
  | [(_, .string text)] => some text
  | _ => none

mutual

/-- The document as it is written, with what `embedded` makes of each embedded text in place of the
embedding. -/
def unfolded? (embedded : List Char → Option Json) : Json → Option Json
  | .array items => (unfoldedItems? embedded items).map .array
  | .object members =>
    if isEmbedding members then (embeddedText? members).bind fun text => embedded text.toList
    else (unfoldedMembers? embedded members).map .object
  | other => some other

def unfoldedItems? (embedded : List Char → Option Json) : List Json → Option (List Json)
  | [] => some []
  | item :: rest => do
    let item ← item.unfolded? embedded
    let rest ← unfoldedItems? embedded rest
    pure (item :: rest)

def unfoldedMembers? (embedded : List Char → Option Json) :
    List (String × Json) → Option (List (String × Json))
  | [] => some []
  | (key, value) :: rest => do
    let value ← value.unfolded? embedded
    let rest ← unfoldedMembers? embedded rest
    pure ((key, value) :: rest)

end

def readLevels : Nat → List Char → Option Json
  | 0, _ => none
  | levels + 1, text => (readWritten text).bind (unfolded? (readLevels levels))

/-- A text that is one document, with the embedded ones in their places. An embedded text is shorter
than the text around it, so there are fewer levels than characters. -/
def readUnfolded (text : List Char) : Option Json :=
  readLevels (text.length + 1) text

end Json

end TableServer
