import TableServer.Proofs.Json.Unambiguous
import TableServer.Store.Tables

/-! Writing a table set and loading it again. What is written is the text of an object with an array
of records for each table, and of no other table set. The file adds two levels of nesting around each
record, and the numbers come back as their texts are read. Apart from that a table set comes back
as it was unless a value in it carries the mark of an embedded document. -/

namespace TableServer

theorem fromUTF8?_toUTF8 (text : String) : String.fromUTF8? text.toUTF8 = some text :=
  (dif_pos text.isValidUTF8).trans rfl

namespace Json

theorem depth_array_le_iff (items : List Json) (bound : Nat) :
    (array items).depth ≤ bound + 1 ↔ ∀ item ∈ items, item.depth ≤ bound := by
  rw [depth, Nat.add_le_add_iff_right]
  induction items with
  | nil => simp [depthItems]
  | cons item rest ih => simp only [depthItems, Nat.max_le, ih, List.forall_mem_cons]

theorem depth_object_le_iff (members : List (String × Json)) (bound : Nat) :
    (object members).depth ≤ bound + 1 ↔ ∀ member ∈ members, member.2.depth ≤ bound := by
  rw [depth, Nat.add_le_add_iff_right]
  induction members with
  | nil => simp [depthMembers]
  | cons member rest ih => simp only [depthMembers, Nat.max_le, ih, List.forall_mem_cons]

def nested : Nat → Json
  | 0 => .array []
  | levels + 1 => .array [nested levels]

theorem depth_nested (levels : Nat) : (nested levels).depth = levels + 1 := by
  induction levels with
  | zero => rfl
  | succ levels ih => simp [nested, depth, depthItems, ih]

theorem everyObject_nested (property : List String → Prop) (levels : Nat) :
    (nested levels).EveryObject property := by
  induction levels with
  | zero => simp [nested]
  | succ levels ih => simpa [nested] using ih

theorem reread?_nested (levels : Nat) : (nested levels).reread? = some (nested levels) := by
  induction levels with
  | zero => rfl
  | succ levels ih => simp [nested, reread?, rereadItems?, ih]

end Json

namespace Tables

def EveryRecord (property : Record → Prop) (tables : Tables) : Prop :=
  ∀ entry ∈ tables, ∀ record ∈ entry.2, property record

structure WellFormed (tables : Tables) : Prop where
  names : Entries.Distinct tables
  records : tables.EveryRecord fun record => (Json.object record).EachKeyOnce

/-- No value in a record is taken for an embedded document. A record itself never is, whatever its
first key. -/
def Unmarked (tables : Tables) : Prop :=
  tables.EveryRecord fun record => ∀ member ∈ record, member.2.Unmarked

/-- With the two levels that the file adds, no record nests deeper than a reader goes. -/
def Shallow (tables : Tables) : Prop :=
  tables.EveryRecord fun record => (Json.object record).depth ≤ 125

def DoublesReadBack (tables : Tables) : Prop :=
  tables.EveryRecord fun record => ∀ value,
    .number (.double value) ∈ (Json.object record).parts →
      (JsonNumber.double value).reread? = some (.double value)

def reread? (tables : Tables) : Option Tables :=
  tables.mapM (Entries.entryWith? fun rows => rows.mapM Json.rereadMembers?)

def memberOf (entry : String × List Record) : String × Json :=
  (entry.1, .array (entry.2.map .object))

theorem toJson_eq (tables : Tables) : tables.toJson = .object (tables.map memberOf) := rfl

/-- The content is the table set in JSON: its tables in order, each with its records in order. -/
def StoredIn (tables : Tables) (content : ByteArray) : Prop :=
  ∃ text : String, text.toUTF8 = content ∧
    (Json.object (tables.map memberOf)).HasText text.toList

theorem storedIn_encode (tables : Tables) : tables.StoredIn tables.encode := by
  refine ⟨tables.toJson.render, rfl, ?_⟩
  rw [Json.render, String.toList_ofList, ← toJson_eq]
  exact tables.toJson.hasText_write

theorem toJson_injective {first second : Tables} (same : first.toJson = second.toJson) :
    first = second := by
  have memberOf_injective : Function.Injective memberOf := by
    rintro ⟨name, rows⟩ ⟨otherName, otherRows⟩ sameMember
    simp only [memberOf, Prod.mk.injEq, Json.array.injEq] at sameMember ⊢
    refine ⟨sameMember.1, List.map_injective_iff.mpr ?_ sameMember.2⟩
    exact fun row other sameRow => Json.object.inj sameRow
  rw [toJson_eq, toJson_eq, Json.object.injEq] at same
  exact List.map_injective_iff.mpr memberOf_injective same

theorem eq_of_storedIn {first second : Tables} {content : ByteArray} (isStored : first.StoredIn content)
    (isStoredToo : second.StoredIn content) : first = second := by
  obtain ⟨text, rfl, isText⟩ := isStored
  obtain ⟨other, same, isTextToo⟩ := isStoredToo
  have sameText := congrArg String.fromUTF8? same
  rw [fromUTF8?_toUTF8, fromUTF8?_toUTF8, Option.some.injEq] at sameText
  rw [sameText] at isTextToo
  exact toJson_injective (Json.eq_of_hasText isText isTextToo)

theorem reread?_rows (rows : List Record) :
    Json.rereadItems? (rows.map .object) =
      (rows.mapM Json.rereadMembers?).map (List.map .object) := by
  rw [Json.rereadItems?_eq_mapM, List.mapM_map]
  exact mapM_option_map Json.rereadMembers? Json.object rows

theorem reread?_toJson (tables : Tables) : tables.toJson.reread? = tables.reread?.map toJson := by
  have entries : (tables.map memberOf).mapM (Entries.entryWith? Json.reread?) =
      tables.reread?.map (List.map memberOf) := by
    rw [List.mapM_map, reread?, ← mapM_option_map]
    refine congrArg (List.mapM · tables) (funext fun entry => ?_)
    simp only [Function.comp, Entries.entryWith?, memberOf, Json.reread?, reread?_rows,
      Option.map_map]
    rfl
  rw [toJson_eq, Json.reread?, Json.rereadMembers?_eq_mapM, entries, Option.map_map]
  rfl

theorem depth_toJson_le_iff (tables : Tables) :
    tables.toJson.depth ≤ JsonReader.maxDepth ↔ tables.Shallow := by
  rw [toJson_eq, JsonReader.maxDepth, Json.depth_object_le_iff, List.forall_mem_map]
  refine forall₂_congr fun entry _ => ?_
  rw [memberOf, Json.depth_array_le_iff, List.forall_mem_map]

instance (tables : Tables) : Decidable tables.Shallow :=
  decidable_of_iff _ (depth_toJson_le_iff tables)

theorem decode?_encode (tables : Tables) :
    decode? tables.encode =
      if tables.Shallow then tables.reread?.bind fun read => ofWritten? read.toJson else none := by
  rw [decode?, encode, fromUTF8?_toUTF8, Option.bind_some, Json.render, String.toList_ofList,
    Json.readWritten_write, reread?_toJson]
  by_cases shallow : tables.Shallow
  · rw [if_pos shallow, if_pos ((depth_toJson_le_iff tables).mpr shallow), Option.bind_map]
    rfl
  · rw [if_neg shallow, if_neg fun deep => shallow ((depth_toJson_le_iff tables).mp deep)]
    rfl

theorem recordOf?_object {record : Record} (once : (Json.object record).EachKeyOnce)
    (unmarked : ∀ member ∈ record, member.2.Unmarked) :
    recordOf? (.object record) = some record :=
  Json.resolvedMembers?_eq_self once unmarked

theorem ofWritten?_toJson {tables : Tables} (wellFormed : tables.WellFormed)
    (unmarked : tables.Unmarked) : ofWritten? tables.toJson = some tables := by
  have each : tables.mapM (tableOf? ∘ memberOf) = some tables := by
    rw [mapM_eq_self_iff]
    intro entry isEntry
    have rows : (entry.2.map Json.object).mapM recordOf? = some entry.2 := by
      rw [List.mapM_map, mapM_eq_self_iff]
      exact fun record isRecord => recordOf?_object
        (wellFormed.records entry isEntry record isRecord) (unmarked entry isEntry record isRecord)
    simp only [Function.comp, memberOf, tableOf?, rowsOf?, rows, Option.map_some]
  rw [toJson_eq, ofWritten?, List.mapM_map, each, Option.map_some,
    Entries.ofList_of_distinct tables wellFormed.names]

theorem wellFormed_of_written {document : Json} {tables : Tables}
    (found : ofWritten? document = some tables) : tables.WellFormed ∧ tables.Unmarked := by
  unfold ofWritten? at found
  split at found
  · rename_i members
    obtain ⟨entries, read, rfl⟩ := Option.map_eq_some_iff.mp found
    have each : ∀ entry ∈ entries, ∀ record ∈ entry.2,
        (Json.object record).EachKeyOnce ∧ ∀ member ∈ record, member.2.Unmarked := by
      refine forall_mem_of_mapM read fun member _ entry foundEntry => ?_
      obtain ⟨rows, foundRows, rfl⟩ := Option.map_eq_some_iff.mp foundEntry
      unfold rowsOf? at foundRows
      split at foundRows
      · refine forall_mem_of_mapM foundRows fun item _ record foundRecord => ?_
        unfold recordOf? at foundRecord
        split at foundRecord
        · exact Json.eachKeyOnce_of_resolvedMembers foundRecord
        · cases foundRecord
      · cases foundRows
    refine ⟨⟨Entries.distinct_ofList entries, ?_⟩, ?_⟩
    · exact fun entry isEntry record isRecord =>
        (each entry (Entries.mem_ofList isEntry) record isRecord).1
    · exact fun entry isEntry record isRecord =>
        (each entry (Entries.mem_ofList isEntry) record isRecord).2
  · cases found

theorem everyRecord_of_reread {before after : Record → Prop} {tables read : Tables}
    (found : tables.reread? = some read)
    (same : ∀ record other, Json.rereadMembers? record = some other →
      (after other ↔ before record)) :
    read.EveryRecord after ↔ tables.EveryRecord before := by
  refine forall_mem_iff_of_mapM found fun entry _ other foundEntry => ?_
  obtain ⟨rows, foundRows, rfl⟩ := Option.map_eq_some_iff.mp foundEntry
  exact forall_mem_iff_of_mapM foundRows fun record _ other foundRecord =>
    same record other foundRecord

theorem wellFormed_of_reread {tables read : Tables} (found : tables.reread? = some read)
    (wellFormed : tables.WellFormed) : read.WellFormed := by
  refine ⟨?_, ?_⟩
  · rw [Entries.Distinct, Entries.keys_of_mapM_entryWith? found]
    exact wellFormed.names
  · refine (everyRecord_of_reread found fun record other foundRecord => ?_).mpr wellFormed.records
    have foundObject : (Json.object record).reread? = some (.object other) := by
      rw [Json.reread?, foundRecord, Option.map_some]
    exact Json.everyObject_reread List.Nodup (.object other) foundObject

theorem unmarked_of_reread {tables read : Tables} (found : tables.reread? = some read)
    (unmarked : tables.Unmarked) : read.Unmarked := by
  refine (everyRecord_of_reread found fun record other foundRecord => ?_).mpr unmarked
  rw [Json.rereadMembers?_eq_mapM] at foundRecord
  refine forall_mem_iff_of_mapM foundRecord fun member _ result foundMember => ?_
  obtain ⟨value, foundValue, rfl⟩ := Option.map_eq_some_iff.mp foundMember
  exact Json.everyObject_reread _ value foundValue

theorem rereadMembers?_eq_self_iff (record : Record) :
    Json.rereadMembers? record = some record ↔
      ∀ value, .number (.double value) ∈ (Json.object record).parts →
        (JsonNumber.double value).reread? = some (.double value) := by
  have whole : Json.rereadMembers? record = some record ↔
      (Json.object record).reread? = some (.object record) := by
    simp [Json.reread?]
  rw [whole, Json.reread?_eq_self_iff]
  constructor
  · exact fun every value part => every (.double value) part
  · rintro every (value | value) part
    · exact JsonNumber.reread?_integer value
    · exact every value part

theorem reread?_eq_self_iff (tables : Tables) :
    tables.reread? = some tables ↔ tables.DoublesReadBack := by
  rw [reread?, mapM_eq_self_iff]
  refine forall₂_congr fun entry _ => ?_
  have rows : Entries.entryWith? (fun rows => rows.mapM Json.rereadMembers?) entry = some entry ↔
      entry.2.mapM Json.rereadMembers? = some entry.2 := by
    obtain ⟨name, records⟩ := entry
    simp [Entries.entryWith?]
  rw [rows, mapM_eq_self_iff]
  exact forall₂_congr fun record _ => rereadMembers?_eq_self_iff record

theorem decode?_encode_eq_self_iff {tables : Tables} (wellFormed : tables.WellFormed) :
    decode? tables.encode = some tables ↔
      tables.Shallow ∧ tables.Unmarked ∧ tables.DoublesReadBack := by
  rw [decode?_encode, ← reread?_eq_self_iff]
  constructor
  · intro found
    split at found
    · rename_i shallow
      obtain ⟨read, foundRead, written⟩ := Option.bind_eq_some_iff.mp found
      have unmarked := (wellFormed_of_written written).2
      have itself := ofWritten?_toJson (wellFormed_of_reread foundRead wellFormed)
        (unmarked_of_reread foundRead unmarked)
      rw [written, Option.some.injEq] at itself
      exact ⟨shallow, unmarked, itself ▸ foundRead⟩
    · cases found
  · rintro ⟨shallow, unmarked, same⟩
    rw [if_pos shallow, same, Option.bind_some]
    exact ofWritten?_toJson wellFormed unmarked

theorem load_eq_ok_iff_decode? (slot : Slot) (tables : Tables) :
    load slot = .ok tables ↔ slot.access.readError? = none ∧
      ∃ content, slot.content? = some content ∧ decode? content = some tables := by
  obtain ⟨content, readError, writeError⟩ := slot
  cases readError with
  | some cause => simp [load, Slot.read]
  | none =>
    cases content with
    | none => simp [load, Slot.read]
    | some content => cases found : decode? content <;> simp [load, Slot.read, found]

theorem load_file_eq_ok_iff (content : ByteArray) (tables : Tables) :
    load (.file content) = .ok tables ↔ decode? content = some tables := by
  simp [load_eq_ok_iff_decode?, Slot.file, Access.free]

theorem wellFormed_of_load {slot : Slot} {tables : Tables} (found : load slot = .ok tables) :
    tables.WellFormed ∧ tables.Unmarked := by
  obtain ⟨_, content, _, found⟩ := (load_eq_ok_iff_decode? slot tables).mp found
  obtain ⟨text, _, found⟩ := Option.bind_eq_some_iff.mp found
  obtain ⟨written, _, found⟩ := Option.bind_eq_some_iff.mp found
  exact wellFormed_of_written found

def single (table field : String) (value : Json) : Tables :=
  [(table, [[(field, value)]])]

theorem wellFormed_single (table field : String) {value : Json} (once : value.EachKeyOnce) :
    (single table field value).WellFormed := by
  refine ⟨by simp [single, Entries.Distinct, Entries.keys], ?_⟩
  simp only [single, EveryRecord, List.forall_mem_singleton, Json.EachKeyOnce,
    Json.everyObject_object]
  exact ⟨by simp [Entries.keys], once⟩

theorem shallow_single_iff (table field : String) (value : Json) :
    (single table field value).Shallow ↔ value.depth ≤ 124 := by
  simp only [single, Shallow, EveryRecord, List.forall_mem_singleton, Json.depth_object_le_iff]

theorem load_encode_of_deep {tables : Tables} (deep : ¬tables.Shallow) :
    load (.file tables.encode) = .error .malformed := by
  have unread : decode? tables.encode = none := by
    rw [decode?_encode, if_neg deep]
  simp only [load, Slot.read, Slot.file, Access.free, unread]

/-- When a table set survives writing and loading, and when it does after it was itself loaded. -/
theorem load_encode_iff (tables : Tables) :
    (tables.WellFormed →
      (load (.file tables.encode) = .ok tables ↔
        tables.Shallow ∧ tables.Unmarked ∧ tables.DoublesReadBack) ∧
      (¬tables.Shallow → load (.file tables.encode) = .error .malformed)) ∧
    ∀ content : ByteArray, load (.file content) = .ok tables →
      tables.WellFormed ∧
        (load (.file tables.encode) = .ok tables ↔ tables.Shallow ∧ tables.DoublesReadBack) := by
  refine ⟨fun wellFormed => ⟨?_, fun deep => load_encode_of_deep deep⟩, fun content found => ?_⟩
  · rw [load_file_eq_ok_iff]
    exact decode?_encode_eq_self_iff wellFormed
  · obtain ⟨wellFormed, unmarked⟩ := wellFormed_of_load found
    refine ⟨wellFormed, ?_⟩
    rw [load_file_eq_ok_iff, decode?_encode_eq_self_iff wellFormed]
    exact and_congr_right fun _ => and_iff_right unmarked

theorem load_encode_one :
    (single "users" "share" (.number (.double .one))).WellFormed ∧
      load (.file (single "users" "share" (.number (.double .one))).encode) =
        .ok (single "users" "share" (.number (.double .one))) ∧
      (single "users" "share" (.number (.double .one))).DoublesReadBack ∧
      ¬(single "users" "share" (Json.nested 124)).Shallow ∧
      load (.file (single "users" "share" (Json.nested 124)).encode) = .error .malformed := by
  have wellFormed : (single "users" "share" (.number (.double .one))).WellFormed :=
    wellFormed_single _ _ (by simp [Json.EachKeyOnce, Json.EveryObject, Json.parts])
  have wellFormedNested : (single "users" "share" (Json.nested 124)).WellFormed :=
    wellFormed_single _ _ (Json.everyObject_nested List.Nodup 124)
  have shallow : (single "users" "share" (.number (.double .one))).Shallow := by decide
  have deep : ¬(single "users" "share" (Json.nested 124)).Shallow := by
    rw [shallow_single_iff, Json.depth_nested]
    decide
  have unmarked : (single "users" "share" (.number (.double .one))).Unmarked := by
    simp [Unmarked, EveryRecord, single, Json.Unmarked, Json.EveryObject, Json.parts]
  have readsBack : (single "users" "share" (.number (.double .one))).DoublesReadBack := by
    have same : (JsonNumber.double .one).reread? = some (.double .one) := by decide +kernel
    simp [DoublesReadBack, EveryRecord, single, Json.parts, Json.partsOfMembers, same]
  have loaded := ((load_encode_iff _).1 wellFormed).1.mpr ⟨shallow, unmarked, readsBack⟩
  have again := ((load_encode_iff _).2 _ loaded).2.mp loaded
  exact ⟨wellFormed, loaded, again.2, deep, ((load_encode_iff _).1 wellFormedNested).2 deep⟩

def embedding (table field : String) (inner : Json) : Tables :=
  single table field (.object [(Json.embeddingMark, .string inner.render)])

theorem readUnfolded_render {inner : Json} (unmarked : inner.Unmarked)
    (same : inner.reread? = some inner) (within : inner.depth ≤ JsonReader.maxDepth) :
    Json.readUnfolded inner.render.toList = some inner := by
  rw [Json.readUnfolded, Json.readLevels, Json.render, String.toList_ofList,
    Json.readWritten_write, if_pos within, same, Option.bind_some]
  exact Json.unfolded?_eq_self _ unmarked

/-- The nesting of an embedded document is counted apart, so the record may become deeper than a
file that says the same without embedding. -/
theorem load_embedding (table field : String) {inner : Json} (once : inner.EachKeyOnce)
    (unmarked : inner.Unmarked) (same : inner.reread? = some inner)
    (within : inner.depth ≤ JsonReader.maxDepth) :
    load (.file (embedding table field inner).encode) = .ok (single table field inner) := by
  have shallow : (embedding table field inner).Shallow := by
    simp only [embedding, shallow_single_iff, Json.depth_object_le_iff, List.forall_mem_singleton]
    exact Nat.zero_le 123
  have readsBack : (embedding table field inner).reread? = some (embedding table field inner) :=
    rfl
  have unfolds : Json.unfoldedMembers? Json.readUnfolded
      [(field, .object [(Json.embeddingMark, .string inner.render)])] = some [(field, inner)] := by
    simp [Json.unfoldedMembers?, Json.unfolded?, Json.isEmbedding, Json.embeddedText?,
      readUnfolded_render unmarked same within]
  have record : recordOf? (.object [(field, .object [(Json.embeddingMark, .string inner.render)])])
      = some [(field, inner)] := by
    rw [recordOf?, Json.resolvedMembers?, unfolds, Option.map_some, Json.mergedMembers,
      Json.merged_eq_self once]
    rfl
  rw [load_file_eq_ok_iff, decode?_encode, if_pos shallow, readsBack, Option.bind_some]
  simp [toJson, embedding, single, ofWritten?, tableOf?, rowsOf?, record, Entries.ofList,
    Entries.put]

theorem load_embedding_deepens (table field : String) {inner : Json} (once : inner.EachKeyOnce)
    (unmarked : inner.Unmarked) (same : inner.reread? = some inner) (deep : 124 < inner.depth)
    (within : inner.depth ≤ JsonReader.maxDepth) :
    load (.file (embedding table field inner).encode) = .ok (single table field inner) ∧
      load (.file (single table field inner).encode) = .error .malformed := by
  have notShallow : ¬(single table field inner).Shallow := by
    rw [shallow_single_iff]
    exact Nat.not_le.mpr deep
  exact ⟨load_embedding table field once unmarked same within, load_encode_of_deep notShallow⟩

end Tables

end TableServer
