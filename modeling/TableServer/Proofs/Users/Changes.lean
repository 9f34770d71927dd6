import TableServer.Proofs.Store.Mutation
import TableServer.Proofs.Users.Routing

/-! What one request does to the records of the users. It leaves them as they are, adds one at the
end, patches those that go by an id, or removes them; whether the file takes the write makes no
difference in memory. -/

namespace TableServer

theorem Store.rows_insert (store : Store) (table : String) (record : Record) :
    (store.insert table record).2.tables.rows table = store.tables.rows table ++ [record] := by
  rw [insert]
  cases store.mode with
  | awaited => exact rows_commit_withRows store table _
  | detached =>
    simp only [commitDetached_eq]
    exact rows_commit_withRows store table _

def UserBase.records (base : UserBase) : List Record :=
  base.store.tables.rows Users.table

namespace Users

/-- The record is found under the id, though its own may be another value that equals it loosely. -/
def goesBy (id : String) (record : Record) : Bool :=
  (Operand.ofField (Entries.get? record "id")).looselyEqual (.ofJson (.string id))

def IsUser (id : String) (record : Record) : Prop :=
  Entries.get? record "id" = some (.string id)

instance (id : String) : DecidablePred (IsUser id) := fun record =>
  decidable_of_iff ((Entries.get? record "id").any (·.sameValue (.string id)) = true)
    (by simp [IsUser, Option.any_eq_true, Json.sameValue_string_iff])

theorem goesBy_of_string {record : Record} {text : String}
    (found : Entries.get? record "id" = some (.string text)) (id : String) :
    goesBy id record = true ↔ IsUser id record := by
  rw [goesBy, IsUser, found]
  simp [Operand.ofField, Operand.ofJson, Operand.looselyEqual, Operand.isContainer,
    Operand.primitive, Primitive.equal]

theorem verdicts_byId (id : String) (rows : List Record) :
    verdicts (some (byId id)) rows = .ok (rows.map (goesBy id)) :=
  List.mapM_pure

theorem rows_update_byId (store : Store) (patch : Record) (id : String) :
    (store.update table patch (some (byId id))).2.tables.rows table =
      (store.tables.rows table).map fun row =>
        if goesBy id row then patchRow patch row else row := by
  rw [Store.update_eq, updateRows_eq, verdicts_byId]
  refine (Store.rows_commit_withRows store table _).trans ?_
  simp only [List.zipWith_map_right, List.zipWith_self]

theorem rows_delete_byId (store : Store) (id : String) :
    (store.delete table (some (byId id))).2.tables.rows table =
      (store.tables.rows table).filter fun row => !goesBy id row := by
  rw [Store.delete_eq, keepRows_eq, verdicts_byId]
  refine (Store.rows_commit_withRows store table _).trans ?_
  simp [← List.map_prod_left_eq_zip, List.filter_map, Function.comp_def]

/-- All that a message can do to the users. -/
inductive Effect (message : Message) (base : UserBase) : Response × UserBase → Prop where
  | kept (response : Response) (store : Store)
      (rows : store.tables.rows table = base.records) (quiet : response.status ≠ 204) :
      Effect message base (response, { base with store := store })
  | created (response : Response) (store : Store) (body : Entries Json)
      (isPost : message.method = .post)
      (rows : store.tables.rows table =
        base.records ++ [recordOf (base.ids base.created) body])
      (quiet : response.status ≠ 204) :
      Effect message base (response, ⟨store, base.ids, base.created + 1⟩)
  | patched (response : Response) (store : Store) (id : String) (patch : Entries Json)
      (isPut : message.method = .put) (atMember : AtMember message.uri.target id)
      (body : readJsonBody message.body = some (.object patch))
      (rows : store.tables.rows table =
        base.records.map fun row => if goesBy id row then patchRow patch row else row) :
      Effect message base (response, { base with store := store })
  | removed (response : Response) (store : Store) (id : String)
      (isDelete : message.method = .delete) (atMember : AtMember message.uri.target id)
      (rows : store.tables.rows table = base.records.filter fun row => !goesBy id row) :
      Effect message base (response, { base with store := store })

theorem changed_eq (base : UserBase) (outcome : Except StoreError Unit × Store) :
    ∃ response, changed base outcome = (response, { base with store := outcome.2 }) := by
  obtain ⟨result, store⟩ := outcome
  cases result <;> exact ⟨_, rfl⟩

theorem effect_listUsers (message : Message) (request : Request) (base : UserBase) :
    Effect message base (listUsers request base) := by
  have same (store : Store) (listed : store = base.store.withTable table) :
      store.tables.rows table = base.records := by
    rw [listed]
    exact Tables.rows_touch base.store.tables table
  simp only [listUsers, Store.select]
  cases selectRows (filterOfQuery request.query) (base.store.tables.rows table) with
  | ok rows => exact .kept _ _ (same _ rfl) (by simp [Response.json])
  | error error => exact .kept _ _ (same _ rfl) (by simp [failed, Response.error, Response.json])

theorem effect_createUser {message : Message} (isPost : message.method = .post)
    (request : Request) (base : UserBase) : Effect message base (createUser request base) := by
  rw [createUser]
  cases found : bodyObject? request with
  | none => exact .kept _ _ rfl (by simp [notAnObject, Response.error, Response.json])
  | some body =>
    have rows := base.store.rows_insert table (recordOf (base.ids base.created) body)
    simp only
    generalize base.store.insert table (recordOf (base.ids base.created) body) = outcome at rows
    obtain ⟨result, store⟩ := outcome
    cases result with
    | ok => exact .created _ _ body isPost rows (by simp [Response.json])
    | error error =>
      exact .created _ _ body isPost rows (by simp [failed, Response.error, Response.json])

theorem effect_updateUser {message : Message} (isPut : message.method = .put)
    {request : Request} (atMember : AtMember message.uri.target (idOf request))
    (body : request.body = readJsonBody message.body) (base : UserBase) :
    Effect message base (updateUser request base) := by
  rw [updateUser]
  cases found : bodyObject? request with
  | none => exact .kept _ _ rfl (by simp [notAnObject, Response.error, Response.json])
  | some patch =>
    obtain ⟨response, same⟩ :=
      changed_eq base (base.store.update table patch (some (byId (idOf request))))
    simp only [same]
    exact .patched _ _ _ patch isPut atMember (body ▸ bodyObject?_eq_some found)
      (rows_update_byId base.store patch (idOf request))

theorem effect_deleteUser {message : Message} (isDelete : message.method = .delete)
    {request : Request} (atMember : AtMember message.uri.target (idOf request)) (base : UserBase) :
    Effect message base (deleteUser request base) := by
  obtain ⟨response, same⟩ := changed_eq base (base.store.delete table (some (byId (idOf request))))
  rw [deleteUser, same]
  exact .removed _ _ _ isDelete atMember (rows_delete_byId base.store (idOf request))

theorem atMember_idOf {target : String} (accepted : member.accepts target = true)
    {request : Request} (parameters : request.parameters = member.parameters target) :
    AtMember target (idOf request) := by
  obtain ⟨id, atMember⟩ := (accepts_member_iff target).mp accepted
  rw [parameters_member atMember] at parameters
  have sameId : idOf request = id := by
    rw [idOf, Request.parameter?, parameters]
    rfl
  rw [sameId]
  exact atMember

theorem effect_dispatch (message : Message) {body : Option Json}
    (isBody : body = readJsonBody message.body) (base : UserBase) :
    Effect message base (router.dispatch (.ofMessage message body) base) := by
  rw [Router.dispatch]
  split
  · exact .kept _ _ rfl (by simp [Response.notFound])
  · rename_i route found
    have accepted := accepts_of_find? found
    rcases route_cases found with ⟨isGet, rfl⟩ | ⟨isPost, rfl⟩ | ⟨isPut, rfl⟩ | ⟨isDelete, rfl⟩
    · exact effect_listUsers message _ base
    · exact effect_createUser isPost _ base
    · exact effect_updateUser isPut (atMember_idOf accepted rfl) isBody base
    · exact effect_deleteUser isDelete (atMember_idOf accepted rfl) base

theorem effect_congr {message : Message} {base after : UserBase} {response other : Response}
    (effect : Effect message base (response, after)) (sameStatus : other.status = response.status) :
    Effect message base (other, after) := by
  cases effect with
  | kept _ store rows quiet => exact .kept _ store rows (sameStatus ▸ quiet)
  | created _ store body isPost rows quiet =>
    exact .created _ store body isPost rows (sameStatus ▸ quiet)
  | patched _ store id patch isPut atMember body rows =>
    exact .patched _ store id patch isPut atMember body rows
  | removed _ store id isDelete atMember rows => exact .removed _ store id isDelete atMember rows

theorem effect_withBodyLimit (bodyLimit limit : Nat) (message : Message) (base : UserBase) :
    Effect message base ((router.withBodyLimit bodyLimit).executeWithin limit message base) := by
  rw [Router.executeWithin]
  split
  · exact .kept _ _ rfl (by simp [Response.error, Response.json])
  · rename_i body read
    have isBody : body = readJsonBody message.body := by
      rw [readLimitedBody] at read
      split at read
      · cases read
      · exact (Except.ok.inj read).symm
    exact effect_congr (effect_dispatch message isBody base) rfl

theorem effect_executeWithin (limit : Nat) (message : Message) (base : UserBase) :
    Effect message base (router.executeWithin limit message base) :=
  effect_withBodyLimit Router.defaultBodyLimit limit message base

end Users

end TableServer
