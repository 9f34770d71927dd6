import TableServer.Http.Router

/-! The layers around a router: every request has an id, which its response repeats unless it has
one of its own; a body that is declared too long is refused unread; and a response carries no body
where its method allows none. -/

namespace TableServer

structure Server (σ : Type) where
  router : Router σ
  maxBodySize : Nat

namespace Server

variable {σ : Type}

def tooLarge : Response := .plain 413 "length limit exceeded"

def limited (server : Server σ) (message : Message) (state : σ) : Response × σ :=
  match message.declaredLength? with
  | none => server.router.executeWithin server.maxBodySize message state
  | some length =>
    if length > server.maxBodySize then (tooLarge, state)
    else server.router.executeWithin (min server.maxBodySize length) message state

/-- A `HEAD` response has no body, nor has a response that opens a tunnel. -/
def trimmed (method : Method) (response : Response) : Response :=
  if method = .head ∨ (method = .connect ∧ response.isSuccess) then response.withoutBody
  else response

/-- An id that the response has already is kept. -/
def identifiedBy (id : Option String) (response : Response) : Response :=
  { response with requestId := response.requestId.or id }

/-- The answer to a message; `fresh` is the id it gets if it came without one. -/
def respond (server : Server σ) (fresh : String) (message : Message) (state : σ) : Response × σ :=
  let identified := message.withRequestId fresh
  let (response, state) := server.limited identified state
  (trimmed message.method (identifiedBy identified.requestId? response), state)

end Server

end TableServer
