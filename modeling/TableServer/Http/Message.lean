import TableServer.Http.FieldValue
import TableServer.Http.Method
import TableServer.Http.Uri

/-! A request as it arrives: method, address, header fields and the bytes of the body. -/

namespace TableServer

abbrev Headers := List (String × String)

namespace Headers

def field? (name value : String) : Option (String × String) :=
  if isToken name.toList && isFieldValue value then some (asciiLower name, value) else none

def ofFields? (fields : List (String × String)) : Option Headers :=
  fields.mapM fun field => field? field.1 field.2

def first? (headers : Headers) (name : String) : Option String :=
  headers.lookup name

def isVisible (c : Char) : Bool :=
  c == '\t' || (decide (' ' ≤ c) && decide (c ≤ '~'))

/-- The first value of a field, where it is plain text. -/
def plain? (headers : Headers) (name : String) : Option String :=
  match headers.first? name with
  | some value => if value.toList.all isVisible then some value else none
  | none => none

end Headers

structure Message where
  method : Method
  uri : Uri
  headers : Headers
  body : ByteArray

namespace Message

def ofParts? (method uri : String) (fields : List (String × String)) (body : ByteArray) :
    Option Message := do
  let method ← Method.ofName? method
  let uri ← Uri.read? uri
  let headers ← Headers.ofFields? fields
  pure ⟨method, uri, headers, body⟩

def requestIdField : String := "x-request-id"

def requestId? (message : Message) : Option String :=
  message.headers.first? requestIdField

/-- Keeps the request id a message has, also an empty one. -/
def withRequestId (message : Message) (fresh : String) : Message :=
  match message.requestId? with
  | some _ => message
  | none => { message with headers := message.headers ++ [(requestIdField, fresh)] }

/-- The length of the body as the message declares it. What is no number of 64 bits declares
nothing. -/
def declaredLength? (message : Message) : Option Nat :=
  match message.headers.plain? "content-length" with
  | none => none
  | some text =>
    let digits := match text.toList with
      | '+' :: rest => rest
      | other => other
    let length := valueInBase 10 digits
    if !digits.isEmpty && digits.all isDigit && length ≤ 18446744073709551615 then some length else none

end Message

end TableServer
