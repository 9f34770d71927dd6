import TableServer.Http.Router
import TableServer.Store.Basic

/-! The users API: records with an id, and a name and an email where they were given, in the table
`users`. Listing may ask for records whose name or email contains a value; changing and removing go
by id. -/

namespace TableServer

structure UserBase where
  store : Store
  ids : Nat → String
  created : Nat

namespace Users

def table : String := "users"

/-- The fields that a record takes from a body and that a listing can be filtered by. -/
def fields : List String := ["name", "email"]

def clauseOf (value : String) : Condition :=
  ⟨.within, .or, .string value⟩

def filterOfQuery (query : Query) : Option Where :=
  let named := query.filter fun pair => fields.contains pair.1
  let spec := named.foldl (fun spec pair => spec.insert pair.1 (clauseOf pair.2)) Where.empty
  if spec.isEmpty then none else some spec

def byId (id : String) : Where :=
  Where.empty.insert "id" ⟨.equal, .and, .string id⟩

def recordOf (id : String) (body : Entries Json) : Record :=
  ("id", .string id) :: fields.filterMap fun field =>
    (Entries.get? body field).map fun value => (field, value)

def bodyObject? (request : Request) : Option (Entries Json) :=
  request.body.bind Json.asObject?

theorem bodyObject?_eq_some {request : Request} {body : Entries Json}
    (found : bodyObject? request = some body) : request.body = some (.object body) := by
  obtain ⟨document, isBody, isObject⟩ := Option.bind_eq_some_iff.mp found
  rw [Json.asObject?_eq_some_iff] at isObject
  rw [isBody, isObject]

def notAnObject : Response := .error 400 "body must be a JSON object"

def failed (error : StoreError) : Response := .error 500 error.message

def idOf (request : Request) : String := (request.parameter? "id").getD ""

def listUsers : Handler UserBase := fun request base =>
  match base.store.select table (filterOfQuery request.query) with
  | (.ok rows, store) => (.json 200 (.array (rows.map .object)), { base with store := store })
  | (.error error, store) => (failed error, { base with store := store })

def createUser : Handler UserBase := fun request base =>
  match bodyObject? request with
  | none => (notAnObject, base)
  | some body =>
    let id := base.ids base.created
    match base.store.insert table (recordOf id body) with
    | (.ok _, store) =>
      (.json 201 (.object [("id", .string id)]), ⟨store, base.ids, base.created + 1⟩)
    | (.error error, store) => (failed error, ⟨store, base.ids, base.created + 1⟩)

def changed (base : UserBase) (outcome : Except StoreError Unit × Store) : Response × UserBase :=
  match outcome with
  | (.ok _, store) => (.empty 204, { base with store := store })
  | (.error error, store) => (failed error, { base with store := store })

def updateUser : Handler UserBase := fun request base =>
  match bodyObject? request with
  | none => (notAnObject, base)
  | some patch => changed base (base.store.update table patch (some (byId (idOf request))))

def deleteUser : Handler UserBase := fun request base =>
  changed base (base.store.delete table (some (byId (idOf request))))

def collection : Template := .ofText "/users".toList

def member : Template := .ofText "/users/:id".toList

def router : Router UserBase :=
  Router.empty
    |>.register .get ⟨collection, listUsers⟩
    |>.register .post ⟨collection, createUser⟩
    |>.register .put ⟨member, updateUser⟩
    |>.register .delete ⟨member, deleteUser⟩

end Users

end TableServer
