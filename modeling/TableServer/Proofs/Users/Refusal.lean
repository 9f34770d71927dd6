import TableServer.Proofs.Http.Layers
import TableServer.Proofs.Store.Interleaving
import TableServer.Proofs.Store.RoundTrip
import TableServer.Proofs.Users.Changes

/-! What a request that is not served leaves behind. There are many ways out: a body that is too
long, no route, a body that is no object, a filter that fails, a write that fails. Of these only the
last comes after something was changed, and its answer is none of those of the others. -/

namespace TableServer

theorem Response.error_body_inj {status otherStatus : Nat} {message other : String}
    (same : (Response.error status message).body = (Response.error otherStatus other).body) :
    message = other := by
  have written (text : String) :
      Json.readWritten (Json.object [("error", .string text)]).write =
        some (.object [("error", .string text)]) := by
    rw [Json.readWritten_write]
    rfl
  have sameText : (Json.object [("error", .string message)]).write =
      (Json.object [("error", .string other)]).write := String.ofList_inj.mp same
  have read := written message
  rw [sameText, written other] at read
  simpa using read.symm

theorem StoreError.message_ne (path : String) (written : FileError) (cause : NotIterable) :
    (StoreError.persistence path written).message ≠ (StoreError.notIterable cause).message := by
  intro same
  have texts : "Failed to persist storage to " ++ path ++ ": " ++ written.message =
      "Field '" ++ cause.field ++ "' is not iterable, membership test is undefined" := same
  have begins := congrArg (fun text => text.toList.take 2) texts
  simp only [String.toList_append, List.append_assoc] at begins
  rw [List.take_append_of_le_length (by decide), List.take_append_of_le_length (by decide)]
    at begins
  revert begins
  decide

namespace Users

def Changes (method : Method) : Prop :=
  method = .post ∨ method = .put ∨ method = .delete

/-- All that an answer can go with. A request changes records only where it is answered with a
success or with the failure of a write. -/
inductive Exit (method : Method) (base : UserBase) : Response × UserBase → Prop where
  | untouched (response : Response) : Exit method base (response, base)
  | listed (response : Response) (isGet : method = .get) (done : response.status = 200) :
      Exit method base (response, { base with store := base.store.withTable table })
  | changed (response : Response) (after : UserBase) (changes : Changes method)
      (answer : response.status = 201 ∨ response.status = 204 ∨ response.status = 500 ∧
        ∃ path cause, response.body = (failed (.persistence path cause)).body) :
      Exit method base (response, after)

theorem exit_listUsers (request : Request) (base : UserBase) :
    Exit .get base (listUsers request base) := by
  simp only [listUsers, Store.select, selectRows_eq]
  cases passed : verdicts (filterOfQuery request.query) (base.store.tables.rows table) with
  | ok selected => exact .listed _ rfl rfl
  | error error =>
    have known : base.store.withTable table = base.store := by
      rw [Store.withTable, Tables.touch_of_has (Tables.has_of_failing passed)]
    simp only [Except.map, known]
    exact .untouched _

theorem exit_createUser (request : Request) (base : UserBase) :
    Exit .post base (createUser request base) := by
  rw [createUser]
  cases bodyObject? request with
  | none => exact .untouched _
  | some body =>
    have ended : base.store.insert table (recordOf (base.ids base.created) body) =
        (base.store.withRows table (base.store.tables.rows table ++
          [recordOf (base.ids base.created) body])).finish
            (.insert table (recordOf (base.ids base.created) body)) := rfl
    simp only [ended]
    generalize finished : Store.finish _ _ = outcome
    obtain ⟨result, store⟩ := outcome
    cases result with
    | ok => exact .changed _ _ (Or.inl rfl) (Or.inl rfl)
    | error error =>
      obtain ⟨⟨cause, rfl⟩, _⟩ := Store.finish_error (congrArg Prod.fst finished)
      exact .changed _ _ (Or.inl rfl) (Or.inr (Or.inr ⟨rfl, _, cause, rfl⟩))

theorem exit_commit {method : Method} (changes : Changes method) (base : UserBase)
    (store : Store) : Exit method base (changed base store.commit) := by
  rcases Store.writable_or_refused store.slot with writable | ⟨cause, refused⟩
  · rw [Store.commit_of_writable writable]
    exact .changed _ _ changes (Or.inr (Or.inl rfl))
  · rw [Store.commit_of_refused refused]
    exact .changed _ _ changes (Or.inr (Or.inr ⟨rfl, _, cause, rfl⟩))

theorem exit_updateUser (request : Request) (base : UserBase) :
    Exit .put base (updateUser request base) := by
  rw [updateUser]
  cases bodyObject? request with
  | none => exact .untouched _
  | some patch =>
    simp only [Store.update_eq, updateRows_eq, verdicts_byId]
    exact exit_commit (Or.inr (Or.inl rfl)) base _

theorem exit_deleteUser (request : Request) (base : UserBase) :
    Exit .delete base (deleteUser request base) := by
  rw [deleteUser, Store.delete_eq, keepRows_eq, verdicts_byId]
  exact exit_commit (Or.inr (Or.inr rfl)) base _

theorem exit_dispatch (bodyLimit : Nat) (request : Request) (base : UserBase) :
    Exit request.method base ((router.withBodyLimit bodyLimit).dispatch request base) := by
  rw [Router.dispatch]
  split
  · exact .untouched _
  · rename_i route found
    rcases route_cases found with ⟨isGet, rfl⟩ | ⟨isPost, rfl⟩ | ⟨isPut, rfl⟩ | ⟨isDelete, rfl⟩
    · rw [isGet]
      exact exit_listUsers _ base
    · rw [isPost]
      exact exit_createUser _ base
    · rw [isPut]
      exact exit_updateUser _ base
    · rw [isDelete]
      exact exit_deleteUser _ base

theorem exit_congr {method : Method} {base after : UserBase} {response other : Response}
    (exit : Exit method base (response, after)) (sameStatus : other.status = response.status)
    (sameBody : Changes method → other.body = response.body) :
    Exit method base (other, after) := by
  cases exit with
  | untouched => exact .untouched _
  | listed _ isGet done => exact .listed _ isGet (sameStatus.trans done)
  | changed _ _ changes answer =>
    rw [← sameStatus, ← sameBody changes] at answer
    exact .changed _ _ changes answer

theorem exit_executeWithin (bodyLimit limit : Nat) (message : Message) (base : UserBase) :
    Exit message.method base
      ((router.withBodyLimit bodyLimit).executeWithin limit message base) := by
  rw [Router.executeWithin]
  split
  · exact .untouched _
  · rename_i body _
    have exit := exit_dispatch bodyLimit (.ofMessage message body) base
    exact exit_congr exit rfl fun _ => rfl

theorem exit_limited (bodyLimit maxBodySize : Nat) (message : Message) (base : UserBase) :
    Exit message.method base
      (Server.limited ⟨router.withBodyLimit bodyLimit, maxBodySize⟩ message base) := by
  rw [Server.limited]
  split
  · exact exit_executeWithin bodyLimit maxBodySize message base
  · split
    · exact .untouched _
    · exact exit_executeWithin bodyLimit _ message base

theorem trimmed_of_changes {method : Method} (changes : Changes method) (response : Response) :
    Server.trimmed method response = response := by
  rcases changes with rfl | rfl | rfl <;> rfl

theorem exit_respond (bodyLimit maxBodySize : Nat) (fresh : String) (message : Message)
    (base : UserBase) :
    Exit message.method base
      (Server.respond ⟨router.withBodyLimit bodyLimit, maxBodySize⟩ fresh message base) := by
  have exit := exit_limited bodyLimit maxBodySize (message.withRequestId fresh) base
  rw [message.withRequestId_method] at exit
  refine exit_congr exit (Server.status_trimmed message.method _) fun changes => ?_
  rw [trimmed_of_changes changes]
  rfl

/-- A refusal leaves everything as it was, a listing all but the missing table, and so does the
failure of a filter. -/
structure LeavesAlone (method : Method) (before : UserBase) (outcome : Response × UserBase) :
    Prop where
  refused : outcome.1.status = 400 ∨ outcome.1.status = 404 ∨ outcome.1.status = 413 →
    outcome.2 = before
  listed : method = .get →
    outcome.2.store.slot = before.store.slot ∧
    (∀ name, outcome.2.store.tables.rows name = before.store.tables.rows name) ∧
    (outcome.2.store.tables = before.store.tables ∨
      table ∉ Entries.keys before.store.tables ∧
        outcome.2.store.tables = before.store.tables ++ [(table, [])])
  failed : method = .get ∨ method = .put ∨ method = .delete → outcome.1.status = 500 →
    ∀ cause : NotIterable, outcome.1.body = (Response.error 500 cause.message).body →
      outcome.2 = before

theorem leavesAlone_of_exit {method : Method} {before : UserBase}
    {outcome : Response × UserBase} (exit : Exit method before outcome) :
    LeavesAlone method before outcome := by
  cases exit with
  | untouched response =>
    exact ⟨fun _ => rfl, fun _ => ⟨rfl, fun _ => rfl, Or.inl rfl⟩, fun _ _ _ _ => rfl⟩
  | listed response isGet done =>
    refine ⟨?_, fun _ => ⟨rfl, ?_, ?_⟩, ?_⟩
    · intro refused
      simp [done] at refused
    · exact before.store.tables.rows_touched table
    · exact before.store.tables.touch_cases table
    · intro _ failed
      simp [done] at failed
  | changed response after changes answer =>
    refine ⟨?_, ?_, ?_⟩
    · intro refused
      dsimp only at refused
      omega
    · rintro rfl
      simp [Changes, Method.get, Method.post, Method.put, Method.delete] at changes
    · intro _ isFailure cause sameBody
      dsimp only at isFailure
      rcases answer with created | done | ⟨_, path, written, body⟩
      · omega
      · omega
      · have same := Response.error_body_inj (body.symm.trans sameBody)
        exact absurd same (StoreError.message_ne path written cause)

/-- Whether a request comes to the router itself or through the layers of a server, and whatever
their limits: one that is refused has no effect. -/
theorem refusal_leaves_alone (bodyLimit maxBodySize : Nat) (fresh : String) (message : Message)
    (base : UserBase) :
    LeavesAlone message.method base ((router.withBodyLimit bodyLimit).execute message base) ∧
      LeavesAlone message.method base
        (Server.respond ⟨router.withBodyLimit bodyLimit, maxBodySize⟩ fresh message base) :=
  ⟨leavesAlone_of_exit (exit_executeWithin bodyLimit bodyLimit message base),
    leavesAlone_of_exit (exit_respond bodyLimit maxBodySize fresh message base)⟩

end Users

end TableServer
