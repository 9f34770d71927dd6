import TableServer.Http.Message
import TableServer.Http.Query
import TableServer.Json.Document

/-! The request a handler gets: the message with its body read as JSON, the parameters of the route
it took and its query. -/

namespace TableServer

inductive BodyError where
  | tooLong
deriving DecidableEq

def BodyError.message : BodyError → String
  | tooLong => "Failed to read request body: length limit exceeded"

/-- A body that is empty or no JSON document is absent. -/
def readJsonBody (bytes : ByteArray) : Option Json :=
  if bytes.isEmpty then none else Json.readBytes bytes

def readLimitedBody (limit : Nat) (bytes : ByteArray) : Except BodyError (Option Json) :=
  if bytes.size > limit then .error .tooLong else .ok (readJsonBody bytes)

structure Request where
  method : Method
  uri : Uri
  headers : Headers
  body : Option Json
  parameters : List (String × String)
  query : Query

namespace Request

def ofMessage (message : Message) (body : Option Json) : Request :=
  ⟨message.method, message.uri, message.headers, body, [], []⟩

def target (request : Request) : String := request.uri.target

def parameter? (request : Request) (name : String) : Option String :=
  request.parameters.lookup name

def requestId? (request : Request) : Option String :=
  request.headers.plain? Message.requestIdField

def takeBody (request : Request) : Option Json × Request :=
  (request.body, { request with body := none })

end Request

end TableServer
