import TableServer.Json.Token

/-! Reading a document from its tokens, one token at a time. The state holds the containers that
are still open, the innermost first, and says what may come next. A document is read as written:
an object keeps every member, also one whose key comes again. -/

namespace TableServer

/-- An open container whose next item or member value is being read. What it holds so far stands
in reverse. -/
inductive JsonFrame where
  | array (items : List Json)
  | object (members : List (String × Json)) (key : String)

inductive JsonReader where
  | nextValue (frames : List JsonFrame)
  | firstItem (frames : List JsonFrame)
  | firstKey (frames : List JsonFrame)
  | afterItem (frames : List JsonFrame) (items : List Json)
  | afterMember (frames : List JsonFrame) (members : List (String × Json))
  | nextKey (frames : List JsonFrame) (members : List (String × Json))
  | afterKey (frames : List JsonFrame) (members : List (String × Json)) (key : String)
  | complete (document : Json)

namespace JsonReader

/-- Containers may nest this deep. -/
def maxDepth : Nat := 127

def give (value : Json) : List JsonFrame → JsonReader
  | [] => complete value
  | .array items :: frames => afterItem frames (value :: items)
  | .object members key :: frames => afterMember frames ((key, value) :: members)

def begin (frames : List JsonFrame) : JsonToken → Option JsonReader
  | .null => some (give .null frames)
  | .bool value => some (give (.bool value) frames)
  | .number value => some (give (.number value) frames)
  | .string value => some (give (.string value) frames)
  | .openArray => if frames.length < maxDepth then some (firstItem frames) else none
  | .openObject => if frames.length < maxDepth then some (firstKey frames) else none
  | _ => none

def step : JsonReader → JsonToken → Option JsonReader
  | nextValue frames, token => begin frames token
  | firstItem frames, .closeArray => some (give (.array []) frames)
  | firstItem frames, token => begin (.array [] :: frames) token
  | firstKey frames, .closeObject => some (give (.object []) frames)
  | firstKey frames, .string key => some (afterKey frames [] key)
  | firstKey _, _ => none
  | afterItem frames items, .comma => some (nextValue (.array items :: frames))
  | afterItem frames items, .closeArray => some (give (.array items.reverse) frames)
  | afterItem _ _, _ => none
  | afterMember frames members, .comma => some (nextKey frames members)
  | afterMember frames members, .closeObject => some (give (.object members.reverse) frames)
  | afterMember _ _, _ => none
  | nextKey frames members, .string key => some (afterKey frames members key)
  | nextKey _ _, _ => none
  | afterKey frames members key, .colon => some (nextValue (.object members key :: frames))
  | afterKey _ _ _, _ => none
  | complete _, _ => none

/-- Reads up to the end of the first document; the tokens after it are left. -/
def run : JsonReader → List JsonToken → Option (Json × List JsonToken)
  | complete document, rest => some (document, rest)
  | _, [] => none
  | reader, token :: rest =>
    match reader.step token with
    | some next => run next rest
    | none => none

end JsonReader

namespace Json

def readFirst (tokens : List JsonToken) : Option (Json × List JsonToken) :=
  (JsonReader.nextValue []).run tokens

def readWritten (text : List Char) : Option Json :=
  match readFirst (JsonToken.ofText text) with
  | some (document, []) => some document
  | _ => none

end Json

end TableServer
