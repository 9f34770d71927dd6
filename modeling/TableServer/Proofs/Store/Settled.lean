import TableServer.Proofs.Store.RoundTrip
import TableServer.Store.Basic

/-! Table sets that reading leaves as they are, apart from the numbers. Opening a store gives one,
and no operation with records that were themselves read makes it another. -/

namespace TableServer

/-- Reading leaves the document as it is, apart from its numbers. -/
def Json.Settled (document : Json) : Prop :=
  document.EachKeyOnce ∧ document.Unmarked

namespace Tables

def SettledRecord (record : Record) : Prop :=
  Entries.Distinct record ∧ ∀ member ∈ record, member.2.Settled

structure Settled (tables : Tables) : Prop where
  names : Entries.Distinct tables
  records : tables.EveryRecord SettledRecord

theorem settledRecord_iff (record : Record) :
    SettledRecord record ↔
      (Json.object record).EachKeyOnce ∧ ∀ member ∈ record, member.2.Unmarked := by
  rw [Json.EachKeyOnce, Json.everyObject_object, SettledRecord, and_assoc]
  refine and_congr_right fun _ => ?_
  simp only [Json.Settled, forall_and]
  rfl

theorem settled_iff (tables : Tables) :
    tables.Settled ↔ tables.WellFormed ∧ tables.Unmarked := by
  constructor
  · rintro ⟨names, records⟩
    have each : tables.EveryRecord fun record =>
        (Json.object record).EachKeyOnce ∧ ∀ member ∈ record, member.2.Unmarked :=
      fun entry isEntry record isRecord =>
        (settledRecord_iff record).mp (records entry isEntry record isRecord)
    refine ⟨⟨names, ?_⟩, ?_⟩
    · exact fun entry isEntry record isRecord => (each entry isEntry record isRecord).1
    · exact fun entry isEntry record isRecord => (each entry isEntry record isRecord).2
  · rintro ⟨⟨names, records⟩, unmarked⟩
    refine ⟨names, fun entry isEntry record isRecord => (settledRecord_iff record).mpr ?_⟩
    exact ⟨records entry isEntry record isRecord, unmarked entry isEntry record isRecord⟩

theorem settled_nil : Settled [] :=
  ⟨List.nodup_nil, by simp [EveryRecord]⟩

theorem settled_of_load {slot : Slot} {tables : Tables} (found : load slot = .ok tables) :
    tables.Settled :=
  (settled_iff tables).mpr (wellFormed_of_load found)

theorem everyRecord_rows {property : Record → Prop} {tables : Tables}
    (every : tables.EveryRecord property) (table : String) :
    ∀ record ∈ tables.rows table, property record := by
  rw [rows]
  cases found : Entries.get? tables table with
  | none => simp
  | some records =>
    exact every _ (Entries.mem_of_get? found)

theorem settled_put {tables : Tables} (settled : tables.Settled) (table : String)
    {rows : List Record} (each : ∀ record ∈ rows, SettledRecord record) :
    Settled (Entries.put tables table rows) := by
  refine ⟨Entries.distinct_put tables table rows settled.names, fun entry isEntry => ?_⟩
  rcases Entries.mem_put isEntry with old | rfl
  · exact settled.records entry old
  · exact each

theorem settled_touch {tables : Tables} (settled : tables.Settled) (table : String) :
    (tables.touch table).Settled := by
  rw [touch]
  split
  · exact settled
  · exact settled_put settled table (by simp)

theorem has_put (tables : Tables) (table : String) (rows : List Record) :
    Entries.has (Entries.put tables table rows) table = true := by
  simp [Entries.has, Entries.get?_put]

theorem settledRecord_patchRow {patch row : Record}
    (patchSettled : ∀ member ∈ patch, member.2.Settled) (settled : SettledRecord row) :
    SettledRecord (patchRow patch row) := by
  refine ⟨?_, fun member isMember => ?_⟩
  · rw [Entries.Distinct, keys_patchRow]
    exact settled.1
  · obtain ⟨source, isSource, rfl⟩ := List.mem_map.mp isMember
    cases found : Entries.get? patch source.1 with
    | none =>
      simp only [found, Option.getD_none]
      exact settled.2 source isSource
    | some value =>
      simp only [found, Option.getD_some]
      exact patchSettled _ (Entries.mem_of_get? found)

theorem forall_mem_of_updateRows {property : Record → Prop} {patch : Record}
    {filter : Option Where} (patched : ∀ row, property row → property (patchRow patch row))
    {rows updated : List Record} (found : updateRows patch filter rows = .ok updated)
    (each : ∀ row ∈ rows, property row) : ∀ row ∈ updated, property row := by
  induction rows generalizing updated with
  | nil =>
    cases found
    exact each
  | cons row rest ih =>
    rw [List.forall_mem_cons] at each
    cases filter with
    | none =>
      cases found
      rw [List.forall_mem_map, List.forall_mem_cons]
      exact ⟨patched row each.1, fun later isLater => patched later (each.2 later isLater)⟩
    | some spec =>
      simp only [updateRows] at found
      split at found
      · cases found
      · split at found
        · cases found
        · rename_i others foundOthers
          cases found
          refine List.forall_mem_cons.mpr ⟨?_, ih foundOthers each.2⟩
          split
          · exact patched row each.1
          · exact each.1

theorem keepRows_subset {filter : Option Where} {rows kept : List Record}
    (found : keepRows filter rows = .ok kept) : kept ⊆ rows := by
  induction rows generalizing kept with
  | nil =>
    cases found
    exact List.Subset.refl []
  | cons row rest ih =>
    cases filter with
    | none =>
      cases found
      exact List.nil_subset _
    | some spec =>
      simp only [keepRows] at found
      split at found
      · cases found
      · split at found
        · cases found
        · rename_i others foundOthers
          have further := ih foundOthers
          cases found
          split
          · exact List.subset_cons_of_subset row further
          · exact List.cons_subset_cons row further

theorem decode?_encode_of_settled {tables : Tables} (settled : tables.Settled) :
    decode? tables.encode = if tables.Shallow then tables.reread? else none := by
  obtain ⟨wellFormed, unmarked⟩ := (settled_iff tables).mp settled
  rw [decode?_encode]
  refine if_congr Iff.rfl ?_ rfl
  cases found : tables.reread? with
  | none => rfl
  | some read =>
    exact ofWritten?_toJson (wellFormed_of_reread found wellFormed)
      (unmarked_of_reread found unmarked)

def Readable (tables : Tables) : Prop :=
  tables.EveryRecord fun record =>
    (Json.object record).EveryNumber fun value => value.reread?.isSome

theorem reread?_isSome_iff (tables : Tables) : tables.reread?.isSome ↔ tables.Readable := by
  rw [reread?, mapM_isSome_iff]
  refine forall₂_congr fun entry _ => ?_
  rw [Entries.entryWith?, Option.isSome_map, mapM_isSome_iff]
  refine forall₂_congr fun record _ => ?_
  have whole := Json.reread?_isSome_iff (.object record)
  rw [Json.reread?, Option.isSome_map] at whole
  exact whole

theorem rows_of_reread {tables read : Tables} (found : tables.reread? = some read)
    (table : String) : (tables.rows table).mapM Json.rereadMembers? = some (read.rows table) := by
  rw [rows, rows]
  rcases Entries.get?_of_mapM_entryWith? found table with
    ⟨missing, stillMissing⟩ | ⟨records, others, before, foundRecords, after⟩
  · rw [missing, stillMissing]
    rfl
  · rw [before, after]
    exact foundRecords

theorem decode?_encode_nil : decode? (encode []) = some [] := by
  rw [decode?_encode_of_settled settled_nil]
  exact if_pos (by simp [Shallow, EveryRecord])

end Tables

end TableServer
