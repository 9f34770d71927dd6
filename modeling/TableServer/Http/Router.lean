import TableServer.Http.Request
import TableServer.Http.Response
import TableServer.Http.Template

/-! Routes and their choice. Routes stand grouped by method, each group in the order of
registration, and the first route of the group whose template accepts the target is taken. The
body is read before a route is looked for. -/

namespace TableServer

abbrev Handler (σ : Type) := Request → σ → Response × σ

structure Route (σ : Type) where
  template : Template
  handler : Handler σ

inductive RouteError where
  | invalidMethod (name : String)
  | invalidTemplate (template : String)
deriving DecidableEq

def RouteError.message : RouteError → String
  | invalidMethod name => "Invalid HTTP method: " ++ name
  | invalidTemplate template =>
    "Invalid path template '" ++ template ++ "': two parameters have the same name"

structure Router (σ : Type) where
  groups : List (Method × List (Route σ))
  bodyLimit : Nat

namespace Router

variable {σ : Type}

def defaultBodyLimit : Nat := 2 * 1024 * 1024

def empty : Router σ := ⟨[], defaultBodyLimit⟩

def withBodyLimit (router : Router σ) (limit : Nat) : Router σ :=
  { router with bodyLimit := limit }

def addToGroup (method : Method) (route : Route σ) :
    List (Method × List (Route σ)) → List (Method × List (Route σ))
  | [] => [(method, [route])]
  | group :: rest =>
    if group.1 = method then (group.1, group.2 ++ [route]) :: rest
    else group :: addToGroup method route rest

def register (router : Router σ) (method : Method) (route : Route σ) : Router σ :=
  { router with groups := addToGroup method route router.groups }

/-- The method may come in any case; it is judged before the template. -/
def route (router : Router σ) (method template : String) (handler : Handler σ) :
    Except RouteError (Router σ) :=
  match Method.ofName? (asciiUpper method) with
  | none => .error (.invalidMethod method)
  | some name =>
    match Template.compile? template.toList with
    | none => .error (.invalidTemplate template)
    | some compiled => .ok (router.register name ⟨compiled, handler⟩)

def get (router : Router σ) : String → Handler σ → Except RouteError (Router σ) :=
  router.route "GET"

def post (router : Router σ) : String → Handler σ → Except RouteError (Router σ) :=
  router.route "POST"

def put (router : Router σ) : String → Handler σ → Except RouteError (Router σ) :=
  router.route "PUT"

def patch (router : Router σ) : String → Handler σ → Except RouteError (Router σ) :=
  router.route "PATCH"

def delete (router : Router σ) : String → Handler σ → Except RouteError (Router σ) :=
  router.route "DELETE"

def length (router : Router σ) : Nat :=
  router.groups.foldr (fun group rest => group.2.length + rest) 0

def isEmpty (router : Router σ) : Bool := router.length == 0

def find? (router : Router σ) (method : Method) (target : String) : Option (Route σ) :=
  ((router.groups.filter fun group => decide (group.1 = method)).flatMap Prod.snd).find? fun route =>
    route.template.accepts target

def dispatch (router : Router σ) (request : Request) (state : σ) : Response × σ :=
  match router.find? request.method request.target with
  | none => (.notFound, state)
  | some route =>
    route.handler
      { request with
        parameters := route.template.parameters request.target
        query := Query.ofTarget request.target }
      state

/-- Answers a message of which at most `limit` bytes, and at most as many as the router allows,
may be body. -/
def executeWithin (router : Router σ) (limit : Nat) (message : Message) (state : σ) :
    Response × σ :=
  match readLimitedBody (min router.bodyLimit limit) message.body with
  | .error error => (.error 400 error.message, state)
  | .ok body =>
    let (response, state) := router.dispatch (.ofMessage message body) state
    (response.declaredJson, state)

def execute (router : Router σ) (message : Message) (state : σ) : Response × σ :=
  router.executeWithin router.bodyLimit message state

end Router

end TableServer
