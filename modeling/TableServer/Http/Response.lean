import TableServer.Http.FieldValue
import TableServer.Json.Writer

/-! Responses: a status, what the header fields say of content and request, and a text. -/

namespace TableServer

structure Response where
  status : Nat
  contentType : Option String
  requestId : Option String
  body : String
deriving DecidableEq

namespace Response

def jsonType : String := "application/json"

def textType : String := "text/plain; charset=utf-8"

def json (status : Nat) (value : Json) : Response :=
  ⟨status, some jsonType, none, value.render⟩

def error (status : Nat) (message : String) : Response :=
  json status (.object [("error", .string message)])

/-- A value without a JSON form is answered with an error. -/
def encoded (status : Nat) : Option Json → Response
  | some value => json status value
  | none => error 500 "response serialization failed"

def empty (status : Nat) : Response :=
  ⟨status, none, none, ""⟩

def plain (status : Nat) (text : String) : Response :=
  ⟨status, some textType, none, text⟩

/-- A content type that is no value of a header field is answered with an error. -/
def typed (status : Nat) (contentType text : String) : Response :=
  if isFieldValue contentType then ⟨status, some contentType, none, text⟩
  else plain 500 "failed to parse header value"

def notFound : Response :=
  ⟨404, none, none, "NOT FOUND"⟩

/-- Declares the body as JSON unless it is declared already. -/
def declaredJson (response : Response) : Response :=
  { response with contentType := some (response.contentType.getD jsonType) }

def isSuccess (response : Response) : Bool :=
  200 ≤ response.status && response.status < 300

def withoutBody (response : Response) : Response :=
  { response with body := "" }

end Response

end TableServer
