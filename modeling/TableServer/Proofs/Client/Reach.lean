import TableServer.Client.CommandLine
import TableServer.Proofs.Client.Address
import TableServer.Proofs.Http.Layers
import TableServer.Proofs.Users.Changes

/-! Whom a client reaches when it changes or removes a user. The server takes the user from the
address it gets, so the records that may change are those of the id that the address leads to. All
others are spared exactly if an id leads nowhere but to itself; an id that ends in a query, say,
leads to what stands before it. -/

namespace TableServer

theorem Message.ofParts?_eq_some_iff {method uri : String} {fields : List (String × String)}
    {body : ByteArray} {message : Message} :
    Message.ofParts? method uri fields body = some message ↔
      Method.ofName? method = some message.method ∧ Uri.read? uri = some message.uri ∧
        Headers.ofFields? fields = some message.headers ∧ body = message.body := by
  obtain ⟨_, _, _, _⟩ := message
  simp [Message.ofParts?, Option.bind_eq_some_iff]

theorem Headers.ofFields?_cons_eq_some_iff {field : String × String}
    {rest : List (String × String)} {headers : Headers} :
    Headers.ofFields? (field :: rest) = some headers ↔
      ∃ first others, Headers.field? field.1 field.2 = some first ∧
        Headers.ofFields? rest = some others ∧ first :: others = headers := by
  simp [Headers.ofFields?, List.mapM_cons, Option.bind_eq_some_iff]

namespace Users

theorem effect_of_same {message other : Message} {base : UserBase}
    {outcome : Response × UserBase} (effect : Effect message base outcome)
    (sameMethod : message.method = other.method) (sameUri : message.uri = other.uri)
    (sameBody : message.body = other.body) : Effect other base outcome := by
  cases effect with
  | kept response store rows quiet => exact .kept response store rows quiet
  | created response store body isPost rows quiet =>
    exact .created response store body (sameMethod ▸ isPost) rows quiet
  | patched response store id patch isPut atMember body rows =>
    exact .patched response store id patch (sameMethod ▸ isPut) (sameUri ▸ atMember)
      (sameBody ▸ body) rows
  | removed response store id isDelete atMember rows =>
    exact .removed response store id (sameMethod ▸ isDelete) (sameUri ▸ atMember) rows

theorem effect_limited (bodyLimit maxBodySize : Nat) (message : Message) (base : UserBase) :
    Effect message base
      (Server.limited ⟨router.withBodyLimit bodyLimit, maxBodySize⟩ message base) := by
  rw [Server.limited]
  split
  · exact effect_withBodyLimit bodyLimit maxBodySize message base
  · split
    · exact .kept _ _ rfl (by simp [Server.tooLarge, Response.plain])
    · exact effect_withBodyLimit bodyLimit _ message base

theorem effect_respond (bodyLimit maxBodySize : Nat) (fresh : String) (message : Message)
    (base : UserBase) :
    Effect message base
      (Server.respond ⟨router.withBodyLimit bodyLimit, maxBodySize⟩ fresh message base) := by
  have effect := effect_limited bodyLimit maxBodySize (message.withRequestId fresh) base
  exact effect_congr (effect_of_same effect (message.withRequestId_method fresh)
    (message.withRequestId_uri fresh) (message.withRequestId_body fresh))
    (Server.status_trimmed message.method _)

theorem records_changed (base : UserBase) (outcome : Except StoreError Unit × Store) :
    (changed base outcome).2.records = outcome.2.tables.rows table := by
  obtain ⟨response, same⟩ := changed_eq base outcome
  rw [same]
  rfl

theorem records_removed {request : Request} (isDelete : request.method = .delete) {id : String}
    (atMember : AtMember request.target id) (base : UserBase) :
    (router.dispatch request base).2.records =
      base.records.filter fun row => !goesBy id row := by
  have accepted := (accepts_member_iff request.target).mpr ⟨id, atMember⟩
  rw [Router.dispatch, isDelete, find?_delete, if_pos accepted]
  simp only [deleteUser, records_changed, rows_delete_byId, idOf, Request.parameter?,
    parameters_member atMember]
  rfl

theorem records_removal {message : Message} (isDelete : message.method = .delete)
    {id : String} (atMember : AtMember message.uri.target id)
    (bodiless : message.body.size = 0) (undeclared : message.declaredLength? = none)
    (bodyLimit maxBodySize : Nat) (fresh : String) (base : UserBase) :
    (Server.respond ⟨router.withBodyLimit bodyLimit, maxBodySize⟩ fresh message base).2.records =
      base.records.filter fun row => !goesBy id row := by
  have undeclaredToo := (message.declaredLength?_withRequestId fresh).trans undeclared
  have fits : (message.withRequestId fresh).body.size ≤ min bodyLimit maxBodySize := by
    rw [message.withRequestId_body, bodiless]
    exact Nat.zero_le _
  have served : (Server.limited ⟨router.withBodyLimit bodyLimit, maxBodySize⟩
        (message.withRequestId fresh) base).2 =
      (router.dispatch (.ofMessage (message.withRequestId fresh)
        (readJsonBody (message.withRequestId fresh).body)) base).2 := by
    simp only [Server.limited, undeclaredToo]
    rw [Router.executeWithin_of_fits fits]
    rfl
  refine (congrArg UserBase.records served).trans (records_removed ?_ ?_ base)
  · exact (message.withRequestId_method fresh).trans isDelete
  · rw [Request.target, Request.ofMessage, message.withRequestId_uri]
    exact atMember

end Users

/-- The command changes or removes the user with this id. -/
def ClientCommand.Concerns : ClientCommand → String → Prop
  | .update id _, other => id = other
  | .delete id, other => id = other
  | _, _ => False

namespace Client

open Users (AtMember goesBy)

theorem shape_of_deleteMessage? {base id : String} {message : Message}
    (sent : deleteMessage? base id = some message) :
    message.method = .delete ∧ message.body.size = 0 ∧ message.declaredLength? = none := by
  obtain ⟨url, _, sent⟩ := Option.bind_eq_some_iff.mp sent
  obtain ⟨isMethod, _, isHeader, isBody⟩ := Message.ofParts?_eq_some_iff.mp sent
  obtain ⟨first, others, isFirst, areOthers, isHeader⟩ :=
    Headers.ofFields?_cons_eq_some_iff.mp isHeader
  refine ⟨(Option.some.inj isMethod).symm, ?_, ?_⟩
  · rw [← isBody]
    rfl
  · cases areOthers
    rw [Headers.field?] at isFirst
    split at isFirst
    · cases isFirst
      have lower : asciiLower "host" = "host" := by decide
      have absent : Headers.plain? message.headers "content-length" = none := by
        simp [← isHeader, lower, Headers.plain?, Headers.first?]
      rw [Message.declaredLength?, absent]
    · cases isFirst

theorem shape_of_updateMessage? {base id : String} {patch : UserPatch} {message : Message}
    (sent : updateMessage? base id patch = some message) :
    message.method = .put ∧
      ∃ other, deleteMessage? base id = some other ∧ other.uri = message.uri := by
  obtain ⟨url, isUrl, sent⟩ := Option.bind_eq_some_iff.mp sent
  obtain ⟨isMethod, isUri, isHeader, _⟩ := Message.ofParts?_eq_some_iff.mp sent
  obtain ⟨first, others, isFirst, _, _⟩ := Headers.ofFields?_cons_eq_some_iff.mp isHeader
  refine ⟨(Option.some.inj isMethod).symm,
    ⟨.delete, message.uri, [first], "".toUTF8⟩, ?_, rfl⟩
  refine Option.bind_eq_some_iff.mpr ⟨url, isUrl, ?_⟩
  refine Message.ofParts?_eq_some_iff.mpr ⟨rfl, isUri, ?_, rfl⟩
  exact Headers.ofFields?_cons_eq_some_iff.mpr ⟨first, [], isFirst, rfl, rfl⟩

/-- The address that the client makes of this id is that of the user with the id `value`. -/
def Reaches (base id value : String) : Prop :=
  ∃ message, deleteMessage? base id = some message ∧ AtMember message.uri.target value

/-- Records that do not go by the id stay, in their order; nothing is added. -/
def Spares (id : String) (before after : List Record) : Prop :=
  ∃ fate : Record → Option Record,
    (∀ row ∈ before, goesBy id row = false → fate row = some row) ∧ after = before.filterMap fate

theorem spares_of_effect {message : Message} {base : UserBase} {outcome : Response × UserBase}
    (effect : Users.Effect message base outcome) (changes : message.method ≠ .post) {id : String}
    (onlyOwn : ∀ value, AtMember message.uri.target value → value = id) :
    Spares id base.records outcome.2.records := by
  cases effect with
  | kept response store rows =>
    exact ⟨some, fun _ _ _ => rfl, rows.trans List.filterMap_some.symm⟩
  | created response store body isPost => exact absurd isPost changes
  | patched response store value patch isPut atMember body rows =>
    obtain rfl := onlyOwn value atMember
    refine ⟨fun row => some (if goesBy value row then patchRow patch row else row), ?_, ?_⟩
    · intro row _ other
      simp [other]
    · exact rows.trans (by simp)
  | removed response store value isDelete atMember rows =>
    obtain rfl := onlyOwn value atMember
    refine ⟨fun row => if goesBy value row then none else some row, ?_, ?_⟩
    · intro row _ other
      simp [other]
    · refine rows.trans ?_
      rw [← List.filterMap_eq_filter]
      refine congrArg (List.filterMap · base.records) (funext fun row => ?_)
      cases found : goesBy value row <;> simp [Option.guard, found]

theorem spares_exchange {base id : String} (onlyOwn : ∀ value, Reaches base id value → value = id)
    (command : ClientCommand) (concerns : command.Concerns id) (bodyLimit maxBodySize : Nat)
    (fresh : String) (users : UserBase) :
    Spares id users.records (exchange
      (.direct ⟨Users.router.withBodyLimit bodyLimit, maxBodySize⟩ fresh)
      (messageOf? base command) users).2.records := by
  cases sent : messageOf? base command with
  | none => exact ⟨some, fun _ _ _ => rfl, List.filterMap_some.symm⟩
  | some message =>
    have effect := Users.effect_respond bodyLimit maxBodySize fresh message users
    cases command with
    | list | create => exact concerns.elim
    | update other patch =>
      obtain rfl : other = id := concerns
      obtain ⟨isPut, removal, isRemoval, sameUri⟩ := shape_of_updateMessage? sent
      refine spares_of_effect effect (by rw [isPut]; decide) fun value atMember => ?_
      exact onlyOwn value ⟨removal, isRemoval, sameUri ▸ atMember⟩
    | delete other =>
      obtain rfl : other = id := concerns
      have isDelete := (shape_of_deleteMessage? sent).1
      refine spares_of_effect effect (by rw [isDelete]; decide) fun value atMember => ?_
      exact onlyOwn value ⟨message, sent, atMember⟩

/-- All the ways to change or remove the user with this id spare the others. -/
structure SparesOthers (server : Server UserBase) (fresh base id : String) (users : UserBase) :
    Prop where
  update : ∀ patch, Spares id users.records
    (updateUser (.direct server fresh) base id patch users).2.records
  delete : Spares id users.records (deleteUser (.direct server fresh) base id users).2.records
  commandLine : ∀ arguments command, readArguments arguments = .run base command →
    command.Concerns id →
      Spares id users.records (run (.direct server fresh) arguments users).2.records

theorem updateUser_state {σ : Type} (transport : Transport σ) (base id : String)
    (patch : UserPatch) (state : σ) :
    (updateUser transport base id patch state).2 =
      (exchange transport (messageOf? base (.update id patch)) state).2 := by
  rw [updateUser, messageOf?]

theorem deleteUser_state {σ : Type} (transport : Transport σ) (base id : String) (state : σ) :
    (deleteUser transport base id state).2 =
      (exchange transport (messageOf? base (.delete id)) state).2 := by
  rw [deleteUser, messageOf?]

theorem run_state {σ : Type} (transport : Transport σ) {arguments : List String} {base : String}
    {command : ClientCommand} (isRun : readArguments arguments = .run base command) (state : σ) :
    (run transport arguments state).2 = (exchange transport (messageOf? base command) state).2 := by
  simp only [run, isRun]
  generalize exchange transport (messageOf? base command) state = outcome
  obtain ⟨response, next⟩ := outcome
  cases response <;> rfl

theorem sparesOthers_of_onlyOwn {base id : String}
    (onlyOwn : ∀ value, Reaches base id value → value = id) (bodyLimit maxBodySize : Nat)
    (fresh : String) (users : UserBase) :
    SparesOthers ⟨Users.router.withBodyLimit bodyLimit, maxBodySize⟩ fresh base id users where
  update patch := by
    rw [updateUser_state]
    exact spares_exchange onlyOwn (.update id patch) rfl bodyLimit maxBodySize fresh users
  delete := by
    rw [deleteUser_state]
    exact spares_exchange onlyOwn (.delete id) rfl bodyLimit maxBodySize fresh users
  commandLine arguments command isRun concerns := by
    rw [run_state _ isRun]
    exact spares_exchange onlyOwn command concerns bodyLimit maxBodySize fresh users

def oneUser (id : String) : UserBase :=
  ⟨⟨"storage.json", .awaited, [(Users.table, [[("id", .string id)]])], .absent⟩, fun _ => "", 0⟩

theorem records_oneUser (id : String) : (oneUser id).records = [[("id", .string id)]] := by
  simp [UserBase.records, oneUser, Tables.rows, Entries.get?]

theorem eq_of_spares {base id value : String} (reaches : Reaches base id value)
    {bodyLimit maxBodySize : Nat} {fresh : String}
    (spares : Spares id (oneUser value).records
      (deleteUser (.direct ⟨Users.router.withBodyLimit bodyLimit, maxBodySize⟩ fresh) base id
        (oneUser value)).2.records) : value = id := by
  obtain ⟨message, sent, atMember⟩ := reaches
  obtain ⟨isDelete, bodiless, undeclared⟩ := shape_of_deleteMessage? sent
  have removed := Users.records_removal isDelete atMember bodiless undeclared bodyLimit
    maxBodySize fresh (oneUser value)
  have own : goesBy value [("id", .string value)] = true :=
    (Users.goesBy_of_string rfl value).mpr rfl
  rw [records_oneUser, List.filter_cons, own] at removed
  obtain ⟨fate, keeps, after⟩ := spares
  rw [deleteUser_state, messageOf?, sent] at after
  replace after := removed.symm.trans after
  rw [records_oneUser] at keeps after
  cases goes : goesBy id [("id", .string value)] with
  | true => simpa [Users.IsUser, Entries.get?] using (Users.goesBy_of_string rfl id).mp goes
  | false =>
    have kept := keeps _ List.mem_cons_self goes
    simp [kept] at after

theorem atMember_of_deleteMessage? {base id : String} (isBase : IsBase base) {message : Message}
    (sent : deleteMessage? base id = some message) (value : String) :
    AtMember message.uri.target value ↔
      segmentsFor id = ["users", value] ∧ Template.IsValue value.toList := by
  obtain ⟨known, isUrl, segments, clean⟩ := read?_userUrl isBase id
  obtain ⟨url, isUrlToo, sent⟩ := Option.bind_eq_some_iff.mp sent
  obtain ⟨_, isUri, _, _⟩ := Message.ofParts?_eq_some_iff.mp sent
  obtain rfl : known = url := Option.some.inj (isUrl.symm.trans isUrlToo)
  have apart : ∀ segment ∈ known.segments, Url.IsSegment segment :=
    segments ▸ isSegment_segmentsFor id
  have noFragment := Url.number_not_mem_target apart fun text isQuery => (clean text isQuery).1
  rw [Uri.target_of_read? isUri known.target_toList noFragment, ← segments]
  exact Url.atMember_target_iff apart (fun text isQuery => (clean text isQuery).2) value

/-- The id leads where its address leads once it has been read as a URL. -/
theorem reaches_iff {base : String} (isBase : IsBase base) (id value : String) :
    Reaches base id value ↔ (deleteMessage? base id).isSome = true ∧
      segmentsFor id = ["users", value] ∧ Template.IsValue value.toList := by
  constructor
  · rintro ⟨message, sent, atMember⟩
    exact ⟨Option.isSome_of_mem sent, (atMember_of_deleteMessage? isBase sent value).mp atMember⟩
  · rintro ⟨isSent, leads⟩
    obtain ⟨message, sent⟩ := Option.isSome_iff_exists.mp isSent
    exact ⟨message, sent, (atMember_of_deleteMessage? isBase sent value).mpr leads⟩

/-- The records of other users are safe from changing and removing a user exactly where the id
reaches no other user. Where the base is the address of a server, an id reaches what is left of it
at the end of a URL. An id that means nothing in a URL reaches nobody else; one that goes on after
a question mark or a number sign reaches the user with the id before it. -/
theorem sparesOthers_iff (bodyLimit maxBodySize : Nat) (fresh base id : String) :
    ((∀ users, SparesOthers ⟨Users.router.withBodyLimit bodyLimit, maxBodySize⟩ fresh base id
        users) ↔
      ∀ value, Reaches base id value → value = id) ∧
    (IsBase base → ∀ value, Reaches base id value ↔ (deleteMessage? base id).isSome = true ∧
      segmentsFor id = ["users", value] ∧ Template.IsValue value.toList) ∧
    (IsBase base → Plain id → ∀ value, Reaches base id value → value = id) ∧
    (IsBase base → (deleteMessage? base id).isSome = true →
      ∀ value mark rest, Template.IsValue value.toList → mark = '?' ∨ mark = '#' →
        id.toList = value.toList ++ mark :: rest → Reaches base id value) := by
  refine ⟨⟨?_, ?_⟩, fun isBase => reaches_iff isBase id, ?_, ?_⟩
  · intro spares value reaches
    exact eq_of_spares reaches (spares (oneUser value)).delete
  · intro onlyOwn users
    exact sparesOthers_of_onlyOwn onlyOwn bodyLimit maxBodySize fresh users
  · intro isBase plain value reaches
    obtain ⟨_, segments, isValue⟩ := (reaches_iff isBase id value).mp reaches
    exact eq_of_segmentsFor plain segments isValue
  · intro isBase isSent value mark rest isValue cuts shape
    exact (reaches_iff isBase id value).mpr
      ⟨isSent, segmentsFor_of_cut isValue cuts rest shape, isValue⟩

theorem isBase_default : IsBase defaultBase := by
  refine ⟨"http", "localhost:3000".toList, [], Or.inl rfl, ⟨by decide, ?_⟩, by simp, rfl⟩
  simp [Url.isSlash]

theorem sparesOthers_at_default :
    Plain "b" ∧
      (∀ users, SparesOthers ⟨Users.router, 2⟩ "fresh" defaultBase "b" users) ∧
      Reaches defaultBase "b?" "b" ∧
      ¬∀ users, SparesOthers ⟨Users.router, 2⟩ "fresh" defaultBase "b?" users := by
  have plain : Plain "b" := by simp [Plain]
  have isSent : (deleteMessage? defaultBase "b?").isSome = true := by decide +kernel
  have atB := sparesOthers_iff Router.defaultBodyLimit 2 "fresh" defaultBase "b"
  have atOther := sparesOthers_iff Router.defaultBodyLimit 2 "fresh" defaultBase "b?"
  have reaches : Reaches defaultBase "b?" "b" :=
    atOther.2.2.2 isBase_default isSent "b" '?' []
      ⟨by decide, List.all_eq_true.mp (by decide)⟩ (Or.inl rfl) rfl
  refine ⟨plain, atB.1.mpr (atB.2.2.1 isBase_default plain), reaches, fun spares => ?_⟩
  exact absurd (atOther.1.mp spares "b" reaches) (by decide)

end Client

end TableServer
