import Mathlib.Data.List.Nodup
import TableServer.Proofs.Store.Settled
import TableServer.Proofs.Users.Changes

/-! Who the users are along a run. A record has the fields of a user and no others. As long as no
change gives an id, each record keeps the id it was created with, and the records stand in the
order of their creations; what changes or removes a user then leaves all others alone. -/

namespace TableServer

namespace Users

inductive Event where
  | request (limit : Nat) (message : Message)
  | outside (change : SlotChange)

/-- The event is a change whose body has an id, also where it does not come to be applied. -/
def Event.GivesId : Event → Prop
  | .request _ message => message.method = .put ∧
    ∃ patch, readJsonBody message.body = some (.object patch) ∧ Entries.has patch "id" = true
  | .outside _ => False

instance : DecidablePred Event.GivesId
  | .outside _ => isFalse id
  | .request _ message =>
    decidable_of_iff (message.method = .put ∧
        ((readJsonBody message.body).bind Json.asObject?).any (Entries.has · "id") = true) <| by
      refine and_congr_right fun _ => ?_
      simp [Option.any_eq_true, Option.bind_eq_some_iff, Json.asObject?_eq_some_iff]

def Event.IsDelete : Event → Prop
  | .request _ message => message.method = .delete
  | .outside _ => False

end Users

open Users (Event)

namespace UserBase

def happen (base : UserBase) : Event → UserBase
  | .request limit message => (Users.router.executeWithin limit message base).2
  | .outside change =>
    { base with store := { base.store with slot := base.store.slot.change change } }

def after (base : UserBase) (events : List Event) : UserBase :=
  events.foldl happen base

def recordIds (base : UserBase) : List (Option Json) :=
  base.records.map fun record => Entries.get? record "id"

def generated (base : UserBase) : Event → List String
  | .request limit message =>
    if message.method = .post ∧
        base.created < (Users.router.executeWithin limit message base).2.created then
      [base.ids base.created]
    else []
  | .outside _ => []

/-- The ids that the creations of a run generate, one after the other. -/
def creations (base : UserBase) : List Event → List String
  | [] => []
  | event :: rest => base.generated event ++ (base.happen event).creations rest

def GeneratedAt (base : UserBase) (events : List Event) (place : Nat) (id : String) : Prop :=
  ∃ event, events[place]? = some event ∧ id ∈ (base.after (events.take place)).generated event

end UserBase

namespace Users

def asIds (ids : List String) : List (Option Json) :=
  ids.map fun id => some (.string id)

/-- An id, a name and an email in this order, the last two only if they were given. -/
def UserShaped (record : Record) : Prop :=
  ∃ given, given.Sublist fields ∧ Entries.keys record = "id" :: given

theorem userShaped_recordOf (id : String) (body : Entries Json) :
    UserShaped (recordOf id body) := by
  refine ⟨fields.filter fun field => (Entries.get? body field).isSome, List.filter_sublist, ?_⟩
  rw [recordOf, Entries.keys, List.map_cons]
  refine congrArg ("id" :: ·) ?_
  induction fields with
  | nil => rfl
  | cons field rest ih =>
    rw [List.filterMap_cons, List.filter_cons]
    cases Entries.get? body field with
    | none => exact ih
    | some value => exact congrArg (field :: ·) ih

theorem userShaped_patchRow {record : Record} (shaped : UserShaped record) (patch : Record) :
    UserShaped (patchRow patch record) := by
  obtain ⟨given, isGiven, keys⟩ := shaped
  exact ⟨given, isGiven, (keys_patchRow patch record).trans keys⟩

theorem userShaped_of_effect {message : Message} {base : UserBase}
    {outcome : Response × UserBase} (effect : Effect message base outcome)
    (shaped : ∀ record ∈ base.records, UserShaped record) :
    ∀ record ∈ outcome.2.records, UserShaped record := by
  intro record isRecord
  cases effect with
  | kept response store rows =>
    exact shaped record (rows ▸ isRecord)
  | created response store body isPost rows =>
    replace isRecord : record ∈ store.tables.rows table := isRecord
    rw [rows, List.mem_append, List.mem_singleton] at isRecord
    rcases isRecord with old | rfl
    · exact shaped record old
    · exact userShaped_recordOf _ body
  | patched response store id patch isPut atMember body rows =>
    replace isRecord : record ∈ store.tables.rows table := isRecord
    rw [rows, List.mem_map] at isRecord
    obtain ⟨old, isOld, rfl⟩ := isRecord
    split
    · exact userShaped_patchRow (shaped old isOld) patch
    · exact shaped old isOld
  | removed response store id isDelete atMember rows =>
    replace isRecord : record ∈ store.tables.rows table := isRecord
    rw [rows, List.mem_filter] at isRecord
    exact shaped record isRecord.1

theorem userShaped_happen {base : UserBase} (shaped : ∀ record ∈ base.records, UserShaped record)
    (event : Event) : ∀ record ∈ (base.happen event).records, UserShaped record := by
  cases event with
  | request limit message =>
    exact userShaped_of_effect (effect_executeWithin limit message base) shaped
  | outside change => exact shaped

theorem userShaped_after {base : UserBase} (shaped : ∀ record ∈ base.records, UserShaped record)
    (events : List Event) : ∀ record ∈ (base.after events).records, UserShaped record := by
  induction events generalizing base with
  | nil => exact shaped
  | cons event rest ih => exact ih (userShaped_happen shaped event)

theorem generated_cases (base : UserBase) (event : Event) :
    (base.happen event).ids = base.ids ∧
      (base.generated event = [] ∧ (base.happen event).created = base.created ∨
        base.generated event = [base.ids base.created] ∧
          (base.happen event).created = base.created + 1) := by
  cases event with
  | outside change => exact ⟨rfl, Or.inl ⟨rfl, rfl⟩⟩
  | request limit message =>
    have effect := effect_executeWithin limit message base
    simp only [UserBase.happen, UserBase.generated]
    generalize router.executeWithin limit message base = outcome at effect
    cases effect with
    | kept | patched | removed => exact ⟨rfl, Or.inl ⟨if_neg (by simp), rfl⟩⟩
    | created response store body isPost =>
      exact ⟨rfl, Or.inr ⟨if_pos ⟨isPost, Nat.lt_succ_self _⟩, rfl⟩⟩

theorem creations_eq (base : UserBase) (events : List Event) :
    ∃ count, base.creations events = (List.range' base.created count).map base.ids := by
  induction events generalizing base with
  | nil => exact ⟨0, rfl⟩
  | cons event rest ih =>
    obtain ⟨count, further⟩ := ih (base.happen event)
    obtain ⟨sameIds, ⟨none_generated, same⟩ | ⟨generated, next⟩⟩ := generated_cases base event
    · rw [UserBase.creations, further, none_generated, sameIds, same]
      exact ⟨count, rfl⟩
    · rw [UserBase.creations, further, generated, sameIds, next]
      exact ⟨count + 1, rfl⟩

theorem nodup_creations {base : UserBase} (apart : Function.Injective base.ids)
    (events : List Event) : (base.creations events).Nodup := by
  obtain ⟨count, same⟩ := creations_eq base events
  rw [same]
  exact List.Nodup.map apart List.nodup_range'

theorem generatedAt_zero (base : UserBase) (event : Event) (rest : List Event) (id : String) :
    base.GeneratedAt (event :: rest) 0 id ↔ id ∈ base.generated event := by
  simp [UserBase.GeneratedAt, UserBase.after]

theorem generatedAt_succ (base : UserBase) (event : Event) (rest : List Event) (place : Nat)
    (id : String) :
    base.GeneratedAt (event :: rest) (place + 1) id ↔
      (base.happen event).GeneratedAt rest place id := by
  simp [UserBase.GeneratedAt, UserBase.after]

theorem mem_creations_iff (base : UserBase) (events : List Event) (id : String) :
    id ∈ base.creations events ↔ ∃ place, base.GeneratedAt events place id := by
  induction events generalizing base with
  | nil => simp [UserBase.creations, UserBase.GeneratedAt]
  | cons event rest ih =>
    rw [UserBase.creations, List.mem_append, ih]
    constructor
    · rintro (first | ⟨place, later⟩)
      · exact ⟨0, (generatedAt_zero base event rest id).mpr first⟩
      · exact ⟨place + 1, (generatedAt_succ base event rest place id).mpr later⟩
    · rintro ⟨place, generated⟩
      cases place with
      | zero => exact Or.inl ((generatedAt_zero base event rest id).mp generated)
      | succ place =>
        exact Or.inr ⟨place, (generatedAt_succ base event rest place id).mp generated⟩

theorem place_unique {base : UserBase} {events : List Event}
    (once : (base.creations events).Nodup) {first second : Nat} {id : String}
    (atFirst : base.GeneratedAt events first id) (atSecond : base.GeneratedAt events second id) :
    first = second := by
  induction events generalizing base first second with
  | nil => simp [UserBase.GeneratedAt] at atFirst
  | cons event rest ih =>
    rw [UserBase.creations, List.nodup_append] at once
    obtain ⟨_, onceLater, apart⟩ := once
    have notBoth {place : Nat} (now : base.GeneratedAt (event :: rest) 0 id)
        (later : base.GeneratedAt (event :: rest) (place + 1) id) : False := by
      rw [generatedAt_zero] at now
      rw [generatedAt_succ] at later
      exact apart id now id ((mem_creations_iff _ _ _).mpr ⟨place, later⟩) rfl
    cases first with
    | zero =>
      cases second with
      | zero => rfl
      | succ second => exact (notBoth atFirst atSecond).elim
    | succ first =>
      cases second with
      | zero => exact (notBoth atSecond atFirst).elim
      | succ second =>
        rw [generatedAt_succ] at atFirst atSecond
        rw [ih onceLater atFirst atSecond]

theorem get?_patchRow_of_absent {patch : Record} {field : String}
    (absent : Entries.has patch field = false) (record : Record) :
    Entries.get? (patchRow patch record) field = Entries.get? record field := by
  have missing : Entries.get? patch field = none := by
    simpa [Entries.has] using absent
  rw [get?_patchRow, missing]
  simp

theorem has_id_of_not_givesId {limit : Nat} {message : Message} {patch : Entries Json}
    (givesNone : ¬(Event.request limit message).GivesId) (isPut : message.method = .put)
    (body : readJsonBody message.body = some (.object patch)) : Entries.has patch "id" = false := by
  by_contra given
  exact givesNone ⟨isPut, patch, body, by simpa using given⟩

/-- What an event does to the users while nobody gives them an id. -/
structure SparesOthers (base : UserBase) (event : Event) : Prop where
  keepsIds : ¬event.IsDelete →
    (base.happen event).recordIds = base.recordIds ++ asIds (base.generated event)
  removesOnly : event.IsDelete →
    (base.happen event).records.Sublist base.records ∧ base.generated event = []
  patchesOne : ∀ limit message id, event = .request limit message → message.method = .put →
    AtMember message.uri.target id → (router.executeWithin limit message base).1.status = 204 →
      ∃ patch, readJsonBody message.body = some (.object patch) ∧
        (base.happen event).records = base.records.map fun record =>
          if IsUser id record then patchRow patch record else record
  removesOne : ∀ limit message id, event = .request limit message → message.method = .delete →
    AtMember message.uri.target id → (router.executeWithin limit message base).1.status = 204 →
      (base.happen event).records = base.records.filter fun record => ¬IsUser id record

theorem keepsIds_of_effect {limit : Nat} {message : Message} {base : UserBase}
    (givesNone : ¬(Event.request limit message).GivesId) (stays : message.method ≠ .delete) :
    (base.happen (.request limit message)).recordIds =
      base.recordIds ++ asIds (base.generated (.request limit message)) := by
  have effect := effect_executeWithin limit message base
  simp only [UserBase.happen, UserBase.generated]
  generalize router.executeWithin limit message base = outcome at effect
  cases effect with
  | kept response store rows =>
    simp [UserBase.recordIds, UserBase.records, rows, asIds]
  | created response store body isPost rows =>
    have own : Entries.get? (recordOf (base.ids base.created) body) "id" =
        some (.string (base.ids base.created)) := rfl
    simp [UserBase.recordIds, UserBase.records, rows, asIds, isPost, own]
  | patched response store id patch isPut atMember body rows =>
    have absent := has_id_of_not_givesId givesNone isPut body
    have sameId (record : Record) :
        Entries.get? (if goesBy id record then patchRow patch record else record) "id" =
          Entries.get? record "id" := by
      split
      · exact get?_patchRow_of_absent absent record
      · rfl
    simp [UserBase.recordIds, UserBase.records, rows, asIds, sameId]
  | removed response store id isDelete => exact absurd isDelete stays

theorem keepsIds {base : UserBase} {event : Event} (givesNone : ¬event.GivesId)
    (stays : ¬event.IsDelete) :
    (base.happen event).recordIds = base.recordIds ++ asIds (base.generated event) := by
  cases event with
  | request limit message => exact keepsIds_of_effect givesNone stays
  | outside change => exact (List.append_nil _).symm

theorem removesOnly {base : UserBase} {event : Event} (isDelete : event.IsDelete) :
    (base.happen event).records.Sublist base.records ∧ base.generated event = [] := by
  cases event with
  | outside change => exact isDelete.elim
  | request limit message =>
    replace isDelete : message.method = .delete := isDelete
    have effect := effect_executeWithin limit message base
    simp only [UserBase.happen, UserBase.generated]
    generalize router.executeWithin limit message base = outcome at effect
    cases effect with
    | kept response store rows =>
      exact ⟨(congrArg (List.Sublist · base.records) rows).mpr (List.Sublist.refl _), by simp⟩
    | created response store body isPost =>
      exact absurd (isPost.symm.trans isDelete) (by decide)
    | patched response store id patch isPut =>
      exact absurd (isPut.symm.trans isDelete) (by decide)
    | removed response store id isDelete atMember rows =>
      exact ⟨(congrArg (List.Sublist · base.records) rows).mpr List.filter_sublist, by simp⟩

theorem goesBy_of_recordIds {base : UserBase} {ids : List String}
    (known : base.recordIds.Sublist (asIds ids)) (id : String) :
    ∀ record ∈ base.records, (goesBy id record = true ↔ IsUser id record) := by
  intro record isRecord
  have isId : Entries.get? record "id" ∈ base.recordIds := List.mem_map_of_mem isRecord
  obtain ⟨text, _, found⟩ := List.mem_map.mp (known.subset isId)
  exact goesBy_of_string found.symm id

theorem patchesOne {base : UserBase} {ids : List String}
    (known : base.recordIds.Sublist (asIds ids)) {limit : Nat} {message : Message} {id : String}
    (isPut : message.method = .put) (atMember : AtMember message.uri.target id)
    (done : (router.executeWithin limit message base).1.status = 204) :
    ∃ patch, readJsonBody message.body = some (.object patch) ∧
      (base.happen (.request limit message)).records = base.records.map fun record =>
        if IsUser id record then patchRow patch record else record := by
  have effect := effect_executeWithin limit message base
  simp only [UserBase.happen]
  generalize router.executeWithin limit message base = outcome at effect done
  cases effect with
  | kept response store rows quiet => exact absurd done quiet
  | created response store body isPost rows quiet => exact absurd done quiet
  | removed response store other isDelete =>
    exact absurd (isPut.symm.trans isDelete) (by decide)
  | patched response store other patch _ atOther body rows =>
    obtain rfl := atMember_unique atMember atOther
    refine ⟨patch, body, rows.trans (List.map_congr_left fun record isRecord => ?_)⟩
    simp only [goesBy_of_recordIds known id record isRecord]

theorem removesOne {base : UserBase} {ids : List String}
    (known : base.recordIds.Sublist (asIds ids)) {limit : Nat} {message : Message} {id : String}
    (isDelete : message.method = .delete) (atMember : AtMember message.uri.target id)
    (done : (router.executeWithin limit message base).1.status = 204) :
    (base.happen (.request limit message)).records =
      base.records.filter fun record => ¬IsUser id record := by
  have effect := effect_executeWithin limit message base
  simp only [UserBase.happen]
  generalize router.executeWithin limit message base = outcome at effect done
  cases effect with
  | kept response store rows quiet => exact absurd done quiet
  | created response store body isPost rows quiet => exact absurd done quiet
  | patched response store other patch isPut =>
    exact absurd (isPut.symm.trans isDelete) (by decide)
  | removed response store other _ atOther rows =>
    obtain rfl := atMember_unique atMember atOther
    refine rows.trans (List.filter_congr fun record isRecord => ?_)
    simp [← goesBy_of_recordIds known id record isRecord]

theorem sparesOthers {base : UserBase} {ids : List String}
    (known : base.recordIds.Sublist (asIds ids)) {event : Event} (givesNone : ¬event.GivesId) :
    SparesOthers base event where
  keepsIds := keepsIds givesNone
  removesOnly := removesOnly
  patchesOne := by
    rintro limit message id rfl isPut atMember done
    exact patchesOne known isPut atMember done
  removesOne := by
    rintro limit message id rfl isDelete atMember done
    exact removesOne known isDelete atMember done

theorem recordIds_happen {base : UserBase} {ids : List String}
    (known : base.recordIds.Sublist (asIds ids)) {event : Event} (givesNone : ¬event.GivesId) :
    (base.happen event).recordIds.Sublist (asIds (ids ++ base.generated event)) := by
  by_cases isDelete : event.IsDelete
  · obtain ⟨removes, none_generated⟩ := removesOnly isDelete
    rw [none_generated, List.append_nil]
    exact (removes.map _).trans known
  · have joined : asIds (ids ++ base.generated event) =
        asIds ids ++ asIds (base.generated event) := List.map_append
    rw [keepsIds givesNone isDelete, joined]
    exact known.append_right _

theorem recordIds_after {base : UserBase} {ids : List String}
    (known : base.recordIds.Sublist (asIds ids)) {events : List Event}
    (givesNone : ∀ event ∈ events, ¬event.GivesId) :
    (base.after events).recordIds.Sublist (asIds (ids ++ base.creations events)) := by
  induction events generalizing base ids with
  | nil =>
    rw [UserBase.creations, List.append_nil]
    exact known
  | cons event rest ih =>
    obtain ⟨givesNoneFirst, givesNone⟩ := List.forall_mem_cons.mp givesNone
    have further := ih (recordIds_happen known givesNoneFirst) givesNone
    rw [List.append_assoc] at further
    exact further

/-- What holds after any run that begins without users. Each record has an id and what was given of
a name and an email. If no change gives an id, each id was generated once, by a creation; the
records stand in the order of their creations; and no event touches users that it does not name. -/
theorem identity_along_run {base : UserBase} (noUsers : base.records = [])
    (apart : Function.Injective base.ids) (events : List Event) :
    (∀ record ∈ (base.after events).records, UserShaped record) ∧
    ((∀ event ∈ events, ¬event.GivesId) →
      (∀ record ∈ (base.after events).records, ∃ id,
        Entries.get? record "id" = some (.string id) ∧
          ∃! place, base.GeneratedAt events place id) ∧
      (base.after events).recordIds.Nodup ∧
      (base.after events).recordIds.Sublist (asIds (base.creations events)) ∧
      ∀ earlier event later, events = earlier ++ event :: later →
        SparesOthers (base.after earlier) event) := by
  have known : base.recordIds.Sublist (asIds []) := by
    rw [UserBase.recordIds, noUsers]
    exact List.Sublist.refl _
  refine ⟨userShaped_after (by simp [noUsers]) events, fun givesNone => ?_⟩
  have inOrder := recordIds_after known givesNone
  have once := nodup_creations apart events
  have distinct : (asIds (base.creations events)).Nodup :=
    List.Nodup.map (fun first second same => by simpa using same) once
  refine ⟨?_, distinct.sublist inOrder, inOrder, ?_⟩
  · intro record isRecord
    have isId : Entries.get? record "id" ∈ (base.after events).recordIds :=
      List.mem_map_of_mem isRecord
    obtain ⟨id, generated, found⟩ := List.mem_map.mp (inOrder.subset isId)
    obtain ⟨place, atPlace⟩ := (mem_creations_iff base events id).mp generated
    exact ⟨id, found.symm, place, atPlace, fun other atOther => place_unique once atOther atPlace⟩
  · rintro earlier event later rfl
    have givesNoneEarlier := fun event isEarlier =>
      givesNone event (List.mem_append_left _ isEarlier)
    exact sparesOthers (recordIds_after known givesNoneEarlier) (givesNone event (by simp))

def letters (count : Nat) : String := String.ofList (List.replicate (count + 1) 'a')

theorem letters_injective : Function.Injective letters := by
  intro first second same
  have length := congrArg (fun text => text.toList.length) same
  simpa [letters] using length

def withoutUsers : UserBase := ⟨⟨"data.json", .awaited, [], .absent⟩, letters, 0⟩

def asks (method : Method) (path : String) (body : Entries Json) : Event :=
  .request 100 ⟨method, .origin ⟨path, none⟩, [], (Json.object body).render.toUTF8⟩

def twoUsers : List Event :=
  [asks .post "/users" [("name", .string "ana")], .outside .block,
    asks .post "/users" [("email", .string "eva")], .outside .unblock,
    asks .put "/users/a" [("name", .string "bo")]]

def removal : Event := asks .delete "/users/a" []

theorem identity_along_twoUsers :
    (withoutUsers.after twoUsers).recordIds.Sublist (asIds ["a", "aa"]) ∧
    (withoutUsers.after (twoUsers ++ [removal])).records =
      (withoutUsers.after twoUsers).records.filter fun record => ¬IsUser "a" record := by
  have noneGiven : ∀ event ∈ twoUsers ++ [removal], ¬event.GivesId := by decide +kernel
  have noneGivenBefore : ∀ event ∈ twoUsers, ¬event.GivesId := by decide +kernel
  have two : withoutUsers.creations twoUsers = ["a", "aa"] := by decide +kernel
  have noUsers : withoutUsers.records = [] := rfl
  have apart : Function.Injective withoutUsers.ids := letters_injective
  obtain ⟨_, before⟩ := identity_along_run noUsers apart twoUsers
  obtain ⟨_, whole⟩ := identity_along_run noUsers apart (twoUsers ++ [removal])
  have atUser : AtMember "/users/a" "a" :=
    ⟨⟨by decide, List.forall_mem_singleton.mpr rfl⟩, [], Or.inl rfl, by decide⟩
  constructor
  · rw [← two]
    exact (before noneGivenBefore).2.2.1
  · have spares := (whole noneGiven).2.2.2 twoUsers removal [] rfl
    have same : withoutUsers.after (twoUsers ++ [removal]) =
        (withoutUsers.after twoUsers).happen removal := List.foldl_append
    rw [same]
    exact spares.removesOne _ _ "a" rfl rfl atUser (by decide +kernel)

end Users

end TableServer
