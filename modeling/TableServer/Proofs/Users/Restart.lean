import TableServer.Proofs.Store.Mutation
import TableServer.Proofs.Store.Settled
import TableServer.Proofs.Users.Listing
import TableServer.Proofs.Users.Routing

/-! Restarting the users API. Requests are served one after the other over a store that waits for
its writes; then a new store is opened on the same file. Its listings are the old ones unless the
file is not read back as it was written: it may be closed to readers, a record may nest too deep for
it, and a number may come back as one that is written in another way. -/

namespace TableServer

open Tables (SettledRecord)

namespace Users

def Acknowledges (response : Response) : Prop :=
  response.status = 201 ∨ response.status = 204

/-- What a request can do to the store: nothing, have the table created, or write new rows. -/
inductive Served (base : UserBase) : Response × UserBase → Prop where
  | unchanged (response : Response) (quiet : ¬Acknowledges response) : Served base (response, base)
  | listed (response : Response) (quiet : ¬Acknowledges response) :
      Served base
        (response, { base with store := base.store.withTables (base.store.tables.touch table) })
  | changed (response : Response) (rows : List Record) (created : Nat)
      (done : Acknowledges response) (settled : ∀ record ∈ rows, SettledRecord record) :
      Served base (response, ⟨(base.store.withRows table rows).written, base.ids, created⟩)

/-- The store waits for its writes, they succeed, and its tables are such as reading leaves them. -/
structure Sound (base : UserBase) : Prop where
  awaits : base.store.mode = .awaited
  writable : base.store.slot.Writable
  settled : base.store.tables.Settled

theorem commit_withRows {store : Store} (writable : store.slot.Writable) (rows : List Record) :
    (store.withRows table rows).commit = (.ok (), (store.withRows table rows).written) :=
  have stillWritable : (store.withRows table rows).slot.Writable := writable
  Store.commit_of_writable stillWritable

theorem bodyObject?_settled {request : Request} {body : Entries Json}
    (settled : ∀ document, request.body = some document → document.Settled)
    (found : bodyObject? request = some body) : ∀ member ∈ body, member.2.Settled := by
  obtain ⟨once, unmarked⟩ := settled _ (bodyObject?_eq_some found)
  rw [Json.EachKeyOnce, Json.everyObject_object] at once
  rw [Json.Unmarked, Json.everyObject_object] at unmarked
  exact fun member isMember => ⟨once.2 member isMember, unmarked.2 member isMember⟩

theorem settled_string (text : String) : (Json.string text).Settled := by
  simp [Json.Settled, Json.EachKeyOnce, Json.Unmarked, Json.EveryObject, Json.parts]

theorem settledRecord_recordOf (id : String) {body : Entries Json}
    (settled : ∀ member ∈ body, member.2.Settled) : SettledRecord (recordOf id body) := by
  constructor
  · cases name : Entries.get? body "name" <;> cases email : Entries.get? body "email" <;>
      simp [recordOf, fields, Entries.Distinct, Entries.keys, name, email]
  · intro member isMember
    rcases List.mem_cons.mp isMember with rfl | isMember
    · exact settled_string id
    · obtain ⟨field, _, found⟩ := List.mem_filterMap.mp isMember
      obtain ⟨value, foundValue, rfl⟩ := Option.map_eq_some_iff.mp found
      exact settled _ (Entries.mem_of_get? foundValue)

theorem served_listUsers (request : Request) (base : UserBase) :
    Served base (listUsers request base) := by
  simp only [listUsers, Store.select]
  cases selectRows (filterOfQuery request.query) (base.store.tables.rows table) with
  | ok rows => exact .listed _ (by simp [Acknowledges, Response.json])
  | error error => exact .listed _ (by simp [Acknowledges, failed, Response.error, Response.json])

theorem served_createUser {request : Request} {base : UserBase} (sound : Sound base)
    (settled : ∀ document, request.body = some document → document.Settled) :
    Served base (createUser request base) := by
  simp only [createUser]
  cases found : bodyObject? request with
  | none =>
    exact .unchanged _ (by simp [Acknowledges, notAnObject, Response.error, Response.json])
  | some body =>
    simp only [Store.insert, sound.awaits, commit_withRows sound.writable]
    refine .changed _ _ _ (Or.inl rfl) ?_
    intro record isRecord
    rcases List.mem_append.mp isRecord with old | new
    · exact Tables.everyRecord_rows sound.settled.records table record old
    · rw [List.mem_singleton.mp new]
      exact settledRecord_recordOf _ (bodyObject?_settled settled found)

theorem served_failed (base : UserBase) (error : StoreError) :
    Served base (changed base (.error error, base.store)) :=
  .unchanged _ (by simp [Acknowledges, failed, Response.error, Response.json])

theorem served_written {base : UserBase} (sound : Sound base) {rows : List Record}
    (settled : ∀ record ∈ rows, SettledRecord record) :
    Served base (changed base (base.store.withRows table rows).commit) := by
  rw [commit_withRows sound.writable]
  exact .changed _ rows base.created (Or.inr rfl) settled

theorem served_updateUser {request : Request} {base : UserBase} (sound : Sound base)
    (settled : ∀ document, request.body = some document → document.Settled) :
    Served base (updateUser request base) := by
  simp only [updateUser]
  cases found : bodyObject? request with
  | none =>
    exact .unchanged _ (by simp [Acknowledges, notAnObject, Response.error, Response.json])
  | some patch =>
    simp only [Store.update_eq]
    split
    · exact served_failed base _
    · rename_i rows updated
      have patched : ∀ row, SettledRecord row → SettledRecord (patchRow patch row) :=
        fun row => Tables.settledRecord_patchRow (bodyObject?_settled settled found)
      have rowsSettled := Tables.everyRecord_rows sound.settled.records table
      exact served_written sound (Tables.forall_mem_of_updateRows patched updated rowsSettled)

theorem served_deleteUser (request : Request) {base : UserBase} (sound : Sound base) :
    Served base (deleteUser request base) := by
  simp only [deleteUser, Store.delete_eq]
  split
  · exact served_failed base _
  · rename_i rows kept
    have rowsSettled := Tables.everyRecord_rows sound.settled.records table
    exact served_written sound fun record isKept =>
      rowsSettled record (Tables.keepRows_subset kept isKept)

theorem settled_of_readJsonBody {bytes : ByteArray} {document : Json}
    (found : readJsonBody bytes = some document) : document.Settled := by
  rw [readJsonBody] at found
  split at found
  · cases found
  · obtain ⟨text, _, found⟩ := Option.bind_eq_some_iff.mp found
    obtain ⟨written, _, found⟩ := Option.bind_eq_some_iff.mp found
    exact Json.eachKeyOnce_of_resolved found

theorem served_dispatch {request : Request} {base : UserBase} (sound : Sound base)
    (settled : ∀ document, request.body = some document → document.Settled) :
    Served base (router.dispatch request base) := by
  rw [Router.dispatch]
  split
  · exact .unchanged _ (by simp [Acknowledges, Response.notFound])
  · rename_i route found
    rcases route_cases found with ⟨_, rfl⟩ | ⟨_, rfl⟩ | ⟨_, rfl⟩ | ⟨_, rfl⟩
    · exact served_listUsers _ base
    · exact served_createUser sound settled
    · exact served_updateUser sound settled
    · exact served_deleteUser _ sound

theorem served_declaredJson {base : UserBase} {outcome : Response × UserBase}
    (served : Served base outcome) : Served base (outcome.1.declaredJson, outcome.2) := by
  cases served with
  | unchanged response quiet => exact .unchanged _ quiet
  | listed response quiet => exact .listed _ quiet
  | changed response rows created done settled => exact .changed _ rows created done settled

theorem served_executeWithin (limit : Nat) (message : Message) {base : UserBase}
    (sound : Sound base) : Served base (router.executeWithin limit message base) := by
  rw [Router.executeWithin]
  split
  · exact .unchanged _ (by simp [Acknowledges, Response.error, Response.json])
  · rename_i body read
    refine served_declaredJson (served_dispatch sound fun document isBody => ?_)
    rw [readLimitedBody] at read
    split at read
    · cases read
    · cases read
      exact settled_of_readJsonBody isBody

theorem sound_of_served {base : UserBase} {outcome : Response × UserBase} (sound : Sound base)
    (served : Served base outcome) : Sound outcome.2 := by
  cases served with
  | unchanged => exact sound
  | listed => exact ⟨sound.awaits, sound.writable, Tables.settled_touch sound.settled table⟩
  | changed response rows created done settled =>
    exact ⟨sound.awaits, sound.writable, Tables.settled_put sound.settled table settled⟩

theorem access_of_served {base : UserBase} {outcome : Response × UserBase}
    (served : Served base outcome) : outcome.2.store.slot.access = base.store.slot.access := by
  cases served <;> rfl

def heldTables (slot : Slot) : Tables :=
  match Tables.load slot with
  | .ok tables => tables
  | .error _ => []

/-- A new store would have the rows that are in memory, though the table may be missing in it. -/
def HoldsRows (base : UserBase) : Prop :=
  (heldTables base.store.slot).rows table = base.store.tables.rows table

def HoldsTables (base : UserBase) : Prop :=
  base.store.WrittenBack ∧ Entries.has base.store.tables table = true

theorem holdsRows_of_served {base : UserBase} {outcome : Response × UserBase}
    (served : Served base outcome) (quiet : ¬Acknowledges outcome.1) (holds : HoldsRows base) :
    HoldsRows outcome.2 := by
  cases served with
  | unchanged => exact holds
  | listed => exact holds.trans (Tables.rows_touch _ table).symm
  | changed response rows created done => exact absurd done quiet

theorem holdsTables_of_served {base : UserBase} {outcome : Response × UserBase}
    (served : Served base outcome) (holds : Acknowledges outcome.1 ∨ HoldsTables base) :
    HoldsTables outcome.2 := by
  cases served with
  | unchanged response quiet => exact holds.resolve_left quiet
  | listed response quiet =>
    have before := holds.resolve_left quiet
    rw [Tables.touch_of_has before.2]
    exact before
  | changed response rows => exact ⟨Store.writtenBack_written _, Tables.has_put _ table rows⟩

def serveAll : List (Nat × Message) → UserBase → List Response × UserBase
  | [], base => ([], base)
  | (limit, message) :: rest, base =>
    let outcome := router.executeWithin limit message base
    let further := serveAll rest outcome.2
    (outcome.1 :: further.1, further.2)

theorem sound_of_serveAll (requests : List (Nat × Message)) {base : UserBase}
    (sound : Sound base) : Sound (serveAll requests base).2 := by
  induction requests generalizing base with
  | nil => exact sound
  | cons request rest ih =>
    exact ih (sound_of_served sound (served_executeWithin request.1 request.2 sound))

theorem access_of_serveAll (requests : List (Nat × Message)) {base : UserBase}
    (sound : Sound base) :
    (serveAll requests base).2.store.slot.access = base.store.slot.access := by
  induction requests generalizing base with
  | nil => rfl
  | cons request rest ih =>
    have served := served_executeWithin request.1 request.2 sound
    exact (ih (sound_of_served sound served)).trans (access_of_served served)

theorem holdsRows_of_serveAll (requests : List (Nat × Message)) {base : UserBase}
    (sound : Sound base) (holds : HoldsRows base)
    (quiet : ∀ response ∈ (serveAll requests base).1, ¬Acknowledges response) :
    HoldsRows (serveAll requests base).2 := by
  induction requests generalizing base with
  | nil => exact holds
  | cons request rest ih =>
    have served := served_executeWithin request.1 request.2 sound
    simp only [serveAll, List.forall_mem_cons] at quiet
    exact ih (sound_of_served sound served) (holdsRows_of_served served quiet.1 holds) quiet.2

theorem holdsTables_of_serveAll (requests : List (Nat × Message)) {base : UserBase}
    (sound : Sound base)
    (holds : (∃ response ∈ (serveAll requests base).1, Acknowledges response) ∨ HoldsTables base) :
    HoldsTables (serveAll requests base).2 := by
  induction requests generalizing base with
  | nil => exact holds.resolve_left (by simp [serveAll])
  | cons request rest ih =>
    have served := served_executeWithin request.1 request.2 sound
    simp only [serveAll, List.exists_mem_cons_iff] at holds
    refine ih (sound_of_served sound served) ?_
    rcases holds with (done | later) | before
    · exact Or.inr (holdsTables_of_served served (Or.inl done))
    · exact Or.inl later
    · exact Or.inr (holdsTables_of_served served (Or.inr before))

theorem heldTables_of_load {slot : Slot} {tables : Tables} (loads : Tables.load slot = .ok tables) :
    heldTables slot = tables := by
  rw [heldTables, loads]

theorem heldTables_of_unreadable {slot : Slot} {cause : FileError}
    (unreadable : slot.access.readError? = some cause) : heldTables slot = [] := by
  simp only [heldTables, Tables.load, Slot.read, unreadable]

theorem heldTables_of_holds {slot : Slot} {tables : Tables} (holds : slot.Holds tables)
    (readable : slot.access.readError? = none) :
    heldTables slot = (Tables.decode? tables.encode).getD [] := by
  simp only [heldTables, Tables.load, Slot.read, readable, holds.exact]
  cases Tables.decode? tables.encode <;> rfl

theorem heldTables_holding_nil (slot : Slot) : heldTables (slot.holding (Tables.encode [])) = [] := by
  cases access : slot.access.readError? with
  | none =>
    rw [heldTables_of_holds (slot.holds_holding []) access, Tables.decode?_encode_nil,
      Option.getD_some]
  | some cause => exact heldTables_of_unreadable access

theorem sound_of_openAt {path : String} {slot : Slot} {opened : Store}
    (opens : Store.openAt path .awaited slot = .ok opened) (writable : slot.Writable)
    (ids : Nat → String) (created : Nat) :
    Sound ⟨opened, ids, created⟩ ∧ HoldsRows ⟨opened, ids, created⟩ := by
  rcases Store.openAt_cases path .awaited slot with
    ⟨tables, loads, same⟩ | ⟨_, same | ⟨error, same⟩⟩
  · rw [same] at opens
    cases opens
    refine ⟨⟨rfl, writable, Tables.settled_of_load loads⟩, ?_⟩
    exact congrArg (Tables.rows · table) (heldTables_of_load loads)
  · rw [same] at opens
    cases opens
    refine ⟨⟨rfl, writable, Tables.settled_nil⟩, ?_⟩
    exact congrArg (Tables.rows · table) (heldTables_holding_nil slot)
  · rw [same] at opens
    cases opens

def AnswersAlike (first second : UserBase) : Prop :=
  ∀ limit message, message.method = .get →
    (router.executeWithin limit message first).1 = (router.executeWithin limit message second).1

theorem answersAlike_of_listing {first second : UserBase}
    (same : ∀ query, listing query (first.store.tables.rows table) =
      listing query (second.store.tables.rows table)) : AnswersAlike first second := by
  intro limit message isGet
  rw [Router.executeWithin, Router.executeWithin]
  split
  · rfl
  · rename_i body _
    have isGet : (Request.ofMessage message body).method = .get := isGet
    refine congrArg Response.declaredJson ?_
    rw [Router.dispatch, Router.dispatch, isGet, find?_get]
    split
    · rfl
    · rename_i route found
      split at found
      · cases found
        rw [listUsers_response, listUsers_response]
        exact same _
      · cases found

def listAll : Message :=
  ⟨.get, .origin ⟨"/users", none⟩, [], ByteArray.empty⟩

theorem answer_listAll (base : UserBase) :
    (router.executeWithin 0 listAll base).1 = listing [] (base.store.tables.rows table) := by
  have answered : (router.executeWithin 0 listAll base).1 =
      (listUsers ⟨.get, listAll.uri, [], none, [], []⟩ base).1.declaredJson := rfl
  rw [answered, listUsers_response, listing_unfiltered]
  rfl

theorem listing_of_answersAlike {first second : UserBase} (alike : AnswersAlike first second) :
    listing [] (first.store.tables.rows table) = listing [] (second.store.tables.rows table) := by
  have same := alike 0 listAll rfl
  rw [answer_listAll, answer_listAll] at same
  exact same

/-- No user would be lost or shown in another way if the tables were written and loaded again. -/
def KeepsUsers (tables : Tables) : Prop :=
  tables.rows table = [] ∨
    tables.Shallow ∧ tables.Readable ∧
      ∀ record ∈ tables.rows table, (Json.object record).EveryNumber JsonNumber.KeepsText

theorem openAt_writable (path : String) (mode : InsertPersistence) {slot : Slot}
    (writable : slot.Writable) :
    ∃ reopened, Store.openAt path mode slot = .ok reopened ∧ reopened.tables = heldTables slot := by
  rw [heldTables, Store.openAt]
  cases Tables.load slot with
  | ok tables => exact ⟨_, rfl, rfl⟩
  | error cause =>
    have fresh : (⟨path, mode, [], slot⟩ : Store).slot.Writable := writable
    simp only [Store.commit_of_writable fresh]
    exact ⟨_, rfl, rfl⟩

theorem answersAlike_iff_of_lost {first second : UserBase}
    (lost : first.store.tables.rows table = []) :
    AnswersAlike first second ↔ second.store.tables.rows table = [] := by
  constructor
  · intro alike
    have same := listing_of_answersAlike alike
    rwa [lost, listing_unfiltered_nil_iff] at same
  · intro empty
    exact answersAlike_of_listing fun query => by rw [lost, empty]

theorem answersAlike_iff_keepsUsers {tables : Tables} (settled : tables.Settled)
    {first second : UserBase} (before : second.store.tables = tables)
    (after : first.store.tables = (Tables.decode? tables.encode).getD []) :
    AnswersAlike first second ↔ KeepsUsers tables := by
  have lost (gone : Tables.decode? tables.encode = none)
      (cannot : ¬(tables.Shallow ∧ tables.Readable)) :
      AnswersAlike first second ↔ KeepsUsers tables := by
    rw [gone, Option.getD_none] at after
    have none_left : first.store.tables.rows table = [] := by
      rw [after]
      rfl
    rw [answersAlike_iff_of_lost none_left, before]
    refine ⟨Or.inl, ?_⟩
    rintro (empty | ⟨shallow, readable, _⟩)
    · exact empty
    · exact absurd ⟨shallow, readable⟩ cannot
  by_cases shallow : tables.Shallow
  · cases found : tables.reread? with
    | none =>
      refine lost ?_ fun both => ?_
      · rw [Tables.decode?_encode_of_settled settled, if_pos shallow, found]
      · have readable := (Tables.reread?_isSome_iff tables).mpr both.2
        rw [found] at readable
        cases readable
    | some read =>
      have rows := Tables.rows_of_reread found table
      have readable := (Tables.reread?_isSome_iff tables).mp (by rw [found]; rfl)
      rw [Tables.decode?_encode_of_settled settled, if_pos shallow, found,
        Option.getD_some] at after
      rw [← after] at rows
      constructor
      · intro alike
        have same := listing_of_answersAlike alike
        rw [before, listing_unfiltered_iff rows] at same
        exact Or.inr ⟨shallow, readable, same⟩
      · intro keeps
        have texts : ∀ record ∈ tables.rows table,
            (Json.object record).EveryNumber JsonNumber.KeepsText := by
          rcases keeps with empty | ⟨_, _, texts⟩
          · simp [empty]
          · exact texts
        refine answersAlike_of_listing fun query => ?_
        rw [before]
        exact listing_of_keepsText rows texts query
  · refine lost ?_ fun both => shallow both.1
    rw [Tables.decode?_encode_of_settled settled, if_neg shallow]

theorem readJsonBody_render {document : Json} (settled : document.Settled)
    (same : document.reread? = some document) (within : document.depth ≤ JsonReader.maxDepth) :
    readJsonBody document.render.toUTF8 = some document := by
  have written : Json.readWritten document.write = some document := by
    rw [Json.readWritten_write, if_pos within, same]
  have notEmpty : ¬document.render.toUTF8.isEmpty = true := by
    intro empty
    have noText : document.render = "" :=
      String.utf8ByteSize_eq_zero_iff.mp (by simpa [ByteArray.isEmpty] using empty)
    rw [Json.render, ← String.ofList_nil, String.ofList_inj] at noText
    rw [noText] at written
    cases written
  rw [readJsonBody, if_neg notEmpty, Json.readBytes, fromUTF8?_toUTF8, Option.bind_some, Json.read,
    Json.render, String.toList_ofList, written, Option.bind_some, Json.resolved?,
    Json.unfolded?_eq_self _ settled.2, Option.map_some, Json.merged_eq_self settled.1]

def emptyBase : UserBase :=
  ⟨⟨"data.json", .awaited, [], .file (Tables.encode [])⟩, fun _ => "a", 0⟩

def Tables.ofUser (name : Json) : Tables :=
  [("users", [[("id", .string "a"), ("name", name)]])]

def creation (name : Json) : Message :=
  ⟨.post, .origin ⟨"/users", none⟩, [], (Json.object [("name", name)]).render.toUTF8⟩

theorem serveAll_creation {name : Json} (settled : name.Settled)
    (same : name.reread? = some name) (within : name.depth ≤ 126)
    (fits : (Json.object [("name", name)]).render.toUTF8.size ≤ Router.defaultBodyLimit) :
    serveAll [(Router.defaultBodyLimit, creation name)] emptyBase =
      ([.json 201 (.object [("id", .string "a")])],
        ⟨⟨"data.json", .awaited, Tables.ofUser name, .file (Tables.ofUser name).encode⟩,
          fun _ => "a", 1⟩) := by
  have bodySettled : (Json.object [("name", name)]).Settled := by
    obtain ⟨once, unmarked⟩ := settled
    refine ⟨(Json.everyObject_object _ _).mpr ⟨by simp [Entries.keys], ?_⟩,
      (Json.everyObject_object _ _).mpr ⟨by simp [Entries.keys, Json.embeddingMark], ?_⟩⟩
    · exact List.forall_mem_singleton.mpr once
    · exact List.forall_mem_singleton.mpr unmarked
  have body := readJsonBody_render bodySettled
    (by simp [Json.reread?, Json.rereadMembers?, same])
    ((Json.depth_object_le_iff _ 126).mpr (by simpa using within))
  have read : readLimitedBody Router.defaultBodyLimit (creation name).body =
      .ok (some (.object [("name", name)])) := by
    rw [readLimitedBody, creation, if_neg (Nat.not_lt.mpr fits), body]
  have limits : min router.bodyLimit Router.defaultBodyLimit = Router.defaultBodyLimit := rfl
  have found : router.find? .post "/users" = some ⟨collection, createUser⟩ := rfl
  have record : recordOf "a" [("name", name)] = [("id", .string "a"), ("name", name)] := by
    simp [recordOf, fields, Entries.get?]
  have target : (Request.ofMessage (creation name) (some (.object [("name", name)]))).target =
      "/users" := rfl
  have method : (Request.ofMessage (creation name) (some (.object [("name", name)]))).method =
      .post := rfl
  simp only [serveAll, Router.executeWithin, limits, read, Router.dispatch, target, method, found]
  simp only [createUser, bodyObject?, Request.ofMessage, Option.bind_some, Json.asObject?, record,
    emptyBase]
  rfl

/-- After any run of requests a new store opens on the file, and it lists the same users if nothing
was changed or none are left, or else exactly if the file can be read and the tables keep their
users. -/
theorem answersAlike_reopened_iff {path : String} {slot : Slot} {opened : Store}
    (opens : Store.openAt path .awaited slot = .ok opened) (writable : slot.Writable)
    (ids : Nat → String) (created : Nat) (requests : List (Nat × Message))
    (mode : InsertPersistence) (others : Nat → String) (counted : Nat) :
    ∃ reopened,
      Store.openAt path mode (serveAll requests ⟨opened, ids, created⟩).2.store.slot =
        .ok reopened ∧
      (AnswersAlike ⟨reopened, others, counted⟩ (serveAll requests ⟨opened, ids, created⟩).2 ↔
        (∀ response ∈ (serveAll requests ⟨opened, ids, created⟩).1, ¬Acknowledges response) ∨
          (serveAll requests ⟨opened, ids, created⟩).2.store.tables.rows table = [] ∨
          slot.access.readError? = none ∧
            KeepsUsers (serveAll requests ⟨opened, ids, created⟩).2.store.tables) := by
  obtain ⟨sound, holds⟩ := sound_of_openAt opens writable ids created
  have soundAfter := sound_of_serveAll requests sound
  have sameAccess := (access_of_serveAll requests sound).trans (Store.openAt_access opens)
  obtain ⟨reopened, opensAgain, found⟩ := openAt_writable path mode soundAfter.writable
  refine ⟨reopened, opensAgain, ?_⟩
  by_cases quiet :
      ∀ response ∈ (serveAll requests ⟨opened, ids, created⟩).1, ¬Acknowledges response
  · have rows := holdsRows_of_serveAll requests sound holds quiet
    refine iff_of_true (answersAlike_of_listing fun query => ?_) (Or.inl quiet)
    rw [← rows, ← found]
  · have changed : ∃ response ∈ (serveAll requests ⟨opened, ids, created⟩).1,
        Acknowledges response := by
      simpa using quiet
    have holdsTables := holdsTables_of_serveAll requests sound (Or.inl changed)
    rw [or_iff_right quiet, ← sameAccess]
    cases access : (serveAll requests ⟨opened, ids, created⟩).2.store.slot.access.readError? with
    | none =>
      rw [heldTables_of_holds holdsTables.1 access] at found
      rw [answersAlike_iff_keepsUsers soundAfter.settled rfl found, eq_self, true_and]
      exact (or_iff_right_of_imp Or.inl).symm
    | some cause =>
      have lost : reopened.tables.rows table = [] := by
        rw [found, heldTables_of_unreadable access]
        rfl
      simpa using answersAlike_iff_of_lost lost

theorem keepsUsers_ofUser_iff (name : Json) :
    KeepsUsers (Tables.ofUser name) ↔
      name.depth ≤ 124 ∧ name.EveryNumber JsonNumber.KeepsText := by
  have rows : (Tables.ofUser name).rows table = [[("id", .string "a"), ("name", name)]] := rfl
  have noNumber (property : JsonNumber → Prop) : (Json.string "a").EveryNumber property := by
    simp [Json.EveryNumber, Json.parts]
  have texts (property : JsonNumber → Prop) :
      (Json.object [("id", .string "a"), ("name", name)]).EveryNumber property ↔
        name.EveryNumber property := by
    simp [noNumber property]
  have shallow : (Tables.ofUser name).Shallow ↔ name.depth ≤ 124 := by
    simp only [Tables.Shallow, Tables.EveryRecord, Tables.ofUser, List.forall_mem_singleton,
      Json.depth_object_le_iff, List.forall_mem_cons]
    simp [Json.depth]
  constructor
  · rintro (empty | ⟨isShallow, _, keeps⟩)
    · rw [rows] at empty
      cases empty
    · rw [rows, List.forall_mem_singleton, texts] at keeps
      exact ⟨shallow.mp isShallow, keeps⟩
  · rintro ⟨isShallow, keeps⟩
    refine Or.inr ⟨shallow.mpr isShallow, ?_, ?_⟩
    · simp only [Tables.Readable, Tables.EveryRecord, Tables.ofUser, List.forall_mem_singleton,
        texts]
      exact fun value isPart => JsonNumber.isSome_of_keepsText (keeps value isPart)
    · rw [rows, List.forall_mem_singleton, texts]
      exact keeps

theorem answersAlike_after_creation :
    (∃ reopened, Store.openAt "data.json" .awaited
        (serveAll [(Router.defaultBodyLimit, creation (.string "ana"))] emptyBase).2.store.slot =
          .ok reopened ∧
      AnswersAlike ⟨reopened, fun _ => "b", 0⟩
        (serveAll [(Router.defaultBodyLimit, creation (.string "ana"))] emptyBase).2) ∧
    ∃ reopened, Store.openAt "data.json" .awaited
        (serveAll [(Router.defaultBodyLimit, creation (.nested 124))] emptyBase).2.store.slot =
          .ok reopened ∧
      ¬AnswersAlike ⟨reopened, fun _ => "b", 0⟩
        (serveAll [(Router.defaultBodyLimit, creation (.nested 124))] emptyBase).2 := by
  have opens : Store.openAt "data.json" .awaited .absent = .ok emptyBase.store := rfl
  have base : UserBase.mk emptyBase.store emptyBase.ids emptyBase.created = emptyBase := rfl
  constructor
  · have served := serveAll_creation (settled_string "ana") rfl (by decide) (by decide +kernel)
    have alike := answersAlike_reopened_iff opens rfl emptyBase.ids emptyBase.created
      [(Router.defaultBodyLimit, creation (.string "ana"))] .awaited (fun _ => "b") 0
    rw [base, served] at alike
    rw [served]
    obtain ⟨reopened, opensAgain, alike⟩ := alike
    refine ⟨reopened, opensAgain, alike.mpr (Or.inr (Or.inr ⟨rfl, ?_⟩))⟩
    exact (keepsUsers_ofUser_iff _).mpr ⟨by decide, by simp [Json.EveryNumber, Json.parts]⟩
  · have settled : (Json.nested 124).Settled :=
      ⟨Json.everyObject_nested _ 124, Json.everyObject_nested _ 124⟩
    have served := serveAll_creation settled (Json.reread?_nested 124)
      (by rw [Json.depth_nested]; decide) (by decide +kernel)
    have alike := answersAlike_reopened_iff opens rfl emptyBase.ids emptyBase.created
      [(Router.defaultBodyLimit, creation (.nested 124))] .awaited (fun _ => "b") 0
    rw [base, served] at alike
    rw [served]
    obtain ⟨reopened, opensAgain, alike⟩ := alike
    refine ⟨reopened, opensAgain, fun same => ?_⟩
    rcases alike.mp same with quiet | ⟨⟨⟩⟩ | ⟨_, keeps⟩
    · exact quiet _ List.mem_cons_self (Or.inl rfl)
    · have shallow := ((keepsUsers_ofUser_iff _).mp keeps).1
      rw [Json.depth_nested] at shallow
      exact absurd shallow (by decide)

end Users

end TableServer
