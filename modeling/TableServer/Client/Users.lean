import TableServer.Client.Url
import TableServer.Http.Server
import TableServer.Http.Status

/-! A client of the users API: what it sends and what it makes of the answers. How a request reaches
a server is left to a transport. -/

namespace TableServer

/-- Carries a message to a server, which may not be reached. -/
abbrev Transport (σ : Type) := Message → σ → Option Response × σ

namespace Transport

variable {σ : Type}

def unreachable : Transport σ := fun _ state => (none, state)

/-- A server that nothing stands before. -/
def direct (server : Server σ) (fresh : String) : Transport σ := fun message state =>
  let (response, state) := server.respond fresh message state
  (some response, state)

end Transport

structure User where
  id : String
  name : Option String
  email : Option String
deriving DecidableEq

structure UserFilter where
  name : Option String
  email : Option String
deriving DecidableEq

structure NewUser where
  name : String
  email : String
deriving DecidableEq

structure UserPatch where
  name : Option String
  email : Option String
deriving DecidableEq

inductive ClientError where
  | unreachable
  | status (code : Nat) (body : String)
  | undecodable
deriving DecidableEq

def ClientError.message : ClientError → String
  | unreachable => "request failed"
  | status code body => "server returned status " ++ statusText code ++ ": " ++ body
  | undecodable => "unexpected response body"

def namedTexts (name email : Option String) : List (String × String) :=
  (name.map fun value => ("name", value)).toList ++
    (email.map fun value => ("email", value)).toList

def UserFilter.pairs (filter : UserFilter) : List (String × String) :=
  namedTexts filter.name filter.email

def textsToJson (texts : List (String × String)) : Json :=
  .object (texts.map fun (field, value) => (field, .string value))

def UserPatch.toJson (patch : UserPatch) : Json :=
  textsToJson (namedTexts patch.name patch.email)

def NewUser.toJson (user : NewUser) : Json :=
  textsToJson [("name", user.name), ("email", user.email)]

namespace User

def optionalText? (fields : Entries Json) (name : String) : Option (Option String) :=
  match Entries.get? fields name with
  | none => some none
  | some .null => some none
  | some (.string value) => some (some value)
  | some _ => none

def ofJson? : Json → Option User
  | .object members => do
    let id ← match Entries.get? members "id" with
      | some (.string id) => some id
      | _ => none
    pure ⟨id, ← optionalText? members "name", ← optionalText? members "email"⟩
  | _ => none

def listOfText? (text : String) : Option (List User) :=
  match Json.readUnmarked text.toList with
  | some (.array items) => items.mapM ofJson?
  | _ => none

def idOfText? (text : String) : Option String :=
  match Json.readUnmarked text.toList with
  | some (.object members) =>
    match Entries.get? members "id" with
    | some (.string id) => some id
    | _ => none
  | _ => none

end User

namespace Client

def trimSlashes (text : String) : String :=
  String.ofList (text.toList.reverse.dropWhile (· == '/')).reverse

def usersUrl (base : String) : String := trimSlashes base ++ "/users"

/-- The id goes into the address as it is. -/
def userUrl (base id : String) : String := usersUrl base ++ "/" ++ id

def message? (method : Method) (url : Url) (body : Option Json) : Option Message :=
  let text := (body.map Json.render).getD ""
  let fields := match body with
    | some _ =>
      [("content-type", Response.jsonType), ("content-length", toString text.utf8ByteSize)]
    | none => []
  Message.ofParts? method.name url.target (("host", url.host) :: fields) text.toUTF8

def listMessage? (base : String) (filter : UserFilter) : Option Message :=
  (Url.read? (usersUrl base)).bind fun url => message? .get (url.withPairs filter.pairs) none

def createMessage? (base : String) (user : NewUser) : Option Message :=
  (Url.read? (usersUrl base)).bind fun url => message? .post url (some user.toJson)

def updateMessage? (base id : String) (patch : UserPatch) : Option Message :=
  (Url.read? (userUrl base id)).bind fun url => message? .put url (some patch.toJson)

def deleteMessage? (base id : String) : Option Message :=
  (Url.read? (userUrl base id)).bind fun url => message? .delete url none

variable {σ : Type}

def exchange (transport : Transport σ) (message : Option Message) (state : σ) :
    Option Response × σ :=
  match message with
  | some message => transport message state
  | none => (none, state)

def expect (status : Nat) (response : Option Response) : Except ClientError String :=
  match response with
  | none => .error .unreachable
  | some response =>
    if response.status = status then .ok response.body
    else .error (.status response.status response.body)

def decoded {α : Type} (decode : String → Option α) (outcome : Except ClientError String) :
    Except ClientError α :=
  match outcome with
  | .error error => .error error
  | .ok text =>
    match decode text with
    | some value => .ok value
    | none => .error .undecodable

def listUsers (transport : Transport σ) (base : String) (filter : UserFilter) (state : σ) :
    Except ClientError (List User) × σ :=
  let (response, state) := exchange transport (listMessage? base filter) state
  (decoded User.listOfText? (expect 200 response), state)

def createUser (transport : Transport σ) (base : String) (user : NewUser) (state : σ) :
    Except ClientError String × σ :=
  let (response, state) := exchange transport (createMessage? base user) state
  (decoded User.idOfText? (expect 201 response), state)

def updateUser (transport : Transport σ) (base id : String) (patch : UserPatch) (state : σ) :
    Except ClientError Unit × σ :=
  let (response, state) := exchange transport (updateMessage? base id patch) state
  ((expect 204 response).map fun _ => (), state)

def deleteUser (transport : Transport σ) (base id : String) (state : σ) :
    Except ClientError Unit × σ :=
  let (response, state) := exchange transport (deleteMessage? base id) state
  ((expect 204 response).map fun _ => (), state)

end Client

end TableServer
