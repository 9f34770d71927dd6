import Mathlib.Data.List.Forall2
import TableServer.Json.Document
import TableServer.Proofs.Json.Documents

/-! What is within a document: properties of all its objects and of all its numbers. Reading leaves
a document as it is if no object has a key twice or begins with the mark of an embedded document,
and a document that has been read is like that: embedding is undone once and for all. -/

namespace TableServer

theorem mapM_eq_some_iff {α β : Type} (read? : α → Option β) (values : List α)
    (results : List β) :
    values.mapM read? = some results ↔
      List.Forall₂ (fun value result => read? value = some result) values results := by
  induction values generalizing results with
  | nil => simp [eq_comm]
  | cons value rest ih =>
    simp only [List.mapM_cons, Option.bind_eq_bind, Option.bind_eq_some_iff, Option.pure_def,
      Option.some.injEq, List.forall₂_cons_left_iff, ← ih]
    constructor
    · rintro ⟨result, found, others, foundOthers, rfl⟩
      exact ⟨result, others, found, foundOthers, rfl⟩
    · rintro ⟨result, others, found, foundOthers, rfl⟩
      exact ⟨result, found, others, foundOthers, rfl⟩

theorem mapM_eq_self_iff {α : Type} (read? : α → Option α) (values : List α) :
    values.mapM read? = some values ↔ ∀ value ∈ values, read? value = some value := by
  rw [mapM_eq_some_iff, List.forall₂_same]

theorem mapM_congr {α β : Type} {first second : α → Option β} {values : List α}
    (same : ∀ value ∈ values, first value = second value) :
    values.mapM first = values.mapM second := by
  induction values with
  | nil => rfl
  | cons value rest ih =>
    rw [List.forall_mem_cons] at same
    rw [List.mapM_cons, List.mapM_cons, same.1, ih same.2]

theorem forall₂_congr_of_mem {α β : Type} {first second : α → β → Prop} {values : List α}
    (same : ∀ value ∈ values, ∀ result, first value result ↔ second value result)
    (results : List β) :
    List.Forall₂ first values results ↔ List.Forall₂ second values results := by
  induction values generalizing results with
  | nil => simp
  | cons value rest ih =>
    rw [List.forall_mem_cons] at same
    cases results with
    | nil => simp
    | cons result others => rw [List.forall₂_cons, List.forall₂_cons, same.1, ih same.2]

theorem forall₂_of_mapM {α β : Type} {read? : α → Option β} {values : List α} {results : List β}
    {related : α → β → Prop} (found : values.mapM read? = some results)
    (each : ∀ value ∈ values, ∀ result, read? value = some result → related value result) :
    List.Forall₂ related values results := by
  have pairs := (mapM_eq_some_iff read? values results).mp found
  clear found
  induction pairs with
  | nil => exact .nil
  | cons foundFirst _ ih =>
    exact .cons (each _ List.mem_cons_self _ foundFirst)
      (ih fun value isValue => each value (List.mem_cons_of_mem _ isValue))

theorem forall_mem_iff_of_mapM {α β : Type} {read? : α → Option β} {values : List α}
    {results : List β} {before : α → Prop} {after : β → Prop}
    (found : values.mapM read? = some results)
    (same : ∀ value ∈ values, ∀ result, read? value = some result →
      (after result ↔ before value)) :
    (∀ result ∈ results, after result) ↔ ∀ value ∈ values, before value := by
  have related := (mapM_eq_some_iff read? values results).mp found
  clear found
  induction related with
  | nil => simp
  | cons foundFirst _ ih =>
    have further := ih fun value isValue => same value (List.mem_cons_of_mem _ isValue)
    rw [List.forall_mem_cons, List.forall_mem_cons]
    exact and_congr (same _ List.mem_cons_self _ foundFirst) further

theorem forall_mem_of_mapM {α β : Type} {read? : α → Option β} {values : List α}
    {results : List β} {after : β → Prop} (found : values.mapM read? = some results)
    (each : ∀ value ∈ values, ∀ result, read? value = some result → after result) :
    ∀ result ∈ results, after result := by
  have iff : (∀ result ∈ results, after result) ↔ ∀ value ∈ values, True :=
    forall_mem_iff_of_mapM found fun value isValue result read =>
      iff_true_intro (each value isValue result read)
  exact iff.mpr fun _ _ => trivial

theorem mapM_isSome_iff {α β : Type} (read? : α → Option β) (values : List α) :
    (values.mapM read?).isSome ↔ ∀ value ∈ values, (read? value).isSome := by
  induction values with
  | nil => simp
  | cons value rest ih =>
    rw [List.forall_mem_cons, ← ih, List.mapM_cons]
    cases read? value with
    | none => simp
    | some result => cases rest.mapM read? <;> simp

theorem mapM_option_map {α β γ : Type} (read? : α → Option β) (wrap : β → γ) (values : List α) :
    values.mapM (fun value => (read? value).map wrap) =
      (values.mapM read?).map (List.map wrap) := by
  induction values with
  | nil => rfl
  | cons value rest ih =>
    simp only [List.mapM_cons, ih]
    cases read? value with
    | none => rfl
    | some result => cases rest.mapM read? <;> rfl

namespace Entries

variable {α β : Type} {change? : α → Option β} {entries : Entries α} {read : Entries β}

def entryWith? (change? : α → Option β) (entry : String × α) : Option (String × β) :=
  (change? entry.2).map fun value => (entry.1, value)

theorem keys_of_mapM_entryWith? (found : entries.mapM (entryWith? change?) = some read) :
    read.keys = entries.keys := by
  have related := (mapM_eq_some_iff _ entries read).mp found
  clear found
  induction related with
  | nil => rfl
  | cons foundFirst _ ih =>
    obtain ⟨value, _, rfl⟩ := Option.map_eq_some_iff.mp foundFirst
    simp only [keys, List.map_cons] at ih ⊢
    rw [ih]

theorem get?_of_mapM_entryWith? (found : entries.mapM (entryWith? change?) = some read)
    (key : String) :
    (entries.get? key = none ∧ read.get? key = none) ∨
      ∃ value other, entries.get? key = some value ∧ change? value = some other ∧
        read.get? key = some other := by
  have related := (mapM_eq_some_iff _ entries read).mp found
  clear found
  induction related with
  | nil => exact Or.inl ⟨rfl, rfl⟩
  | cons foundFirst _ ih =>
    obtain ⟨value, foundValue, rfl⟩ := Option.map_eq_some_iff.mp foundFirst
    rw [get?_cons, get?_cons]
    split
    · exact Or.inr ⟨_, value, rfl, foundValue, rfl⟩
    · exact ih

end Entries

namespace Json

open Entries (entryWith? keys_of_mapM_entryWith?)

/-- What holds of containers if it holds of the values in them holds of every document. -/
@[elab_as_elim]
theorem induct {motive : Json → Prop} (null : motive .null)
    (bool : ∀ value, motive (.bool value)) (number : ∀ value, motive (.number value))
    (string : ∀ text, motive (.string text))
    (array : ∀ items, (∀ item ∈ items, motive item) → motive (.array items))
    (object : ∀ members, (∀ member ∈ members, motive member.2) → motive (.object members)) :
    ∀ document, motive document
  | .null => null
  | .bool value => bool value
  | .number value => number value
  | .string text => string text
  | .array items =>
    array items fun item _ => induct null bool number string array object item
  | .object members =>
    object members fun member _ => induct null bool number string array object member.2
termination_by document => sizeOf document
decreasing_by
  · rename_i isItem
    have smaller := List.sizeOf_lt_of_mem isItem
    simp only [Json.array.sizeOf_spec]
    omega
  · rename_i isMember
    have smaller := List.sizeOf_lt_of_mem isMember
    obtain ⟨key, value⟩ := member
    simp only [Json.object.sizeOf_spec, Prod.mk.sizeOf_spec] at smaller ⊢
    omega

mutual

def parts : Json → List Json
  | .array items => .array items :: partsOfItems items
  | .object members => .object members :: partsOfMembers members
  | other => [other]

def partsOfItems : List Json → List Json
  | [] => []
  | item :: rest => item.parts ++ partsOfItems rest

def partsOfMembers : List (String × Json) → List Json
  | [] => []
  | (_, value) :: rest => value.parts ++ partsOfMembers rest

end

def EveryObject (property : List String → Prop) (document : Json) : Prop :=
  ∀ members, .object members ∈ document.parts → property (Entries.keys members)

def EveryNumber (property : JsonNumber → Prop) (document : Json) : Prop :=
  ∀ value, .number value ∈ document.parts → property value

theorem mem_partsOfItems (part : Json) (items : List Json) :
    part ∈ partsOfItems items ↔ ∃ item ∈ items, part ∈ item.parts := by
  induction items with
  | nil => simp [partsOfItems]
  | cons item rest ih => simp [partsOfItems, ih]

theorem mem_partsOfMembers (part : Json) (members : List (String × Json)) :
    part ∈ partsOfMembers members ↔ ∃ member ∈ members, part ∈ member.2.parts := by
  induction members with
  | nil => simp [partsOfMembers]
  | cons member rest ih => simp [partsOfMembers, ih]

@[simp] theorem everyObject_array (property : List String → Prop) (items : List Json) :
    (array items).EveryObject property ↔ ∀ item ∈ items, item.EveryObject property := by
  simp only [EveryObject, parts, List.mem_cons, reduceCtorEq, false_or, mem_partsOfItems]
  constructor
  · intro every item isItem members part
    exact every members ⟨item, isItem, part⟩
  · rintro every members ⟨item, isItem, part⟩
    exact every item isItem members part

@[simp] theorem everyObject_object (property : List String → Prop)
    (members : List (String × Json)) :
    (object members).EveryObject property ↔
      property (Entries.keys members) ∧ ∀ member ∈ members, member.2.EveryObject property := by
  simp only [EveryObject, parts, List.mem_cons, Json.object.injEq, mem_partsOfMembers]
  constructor
  · intro every
    refine ⟨every members (Or.inl rfl), ?_⟩
    intro member isMember inner part
    exact every inner (Or.inr ⟨member, isMember, part⟩)
  · rintro ⟨here, every⟩ inner (rfl | ⟨member, isMember, part⟩)
    · exact here
    · exact every member isMember inner part

@[simp] theorem everyNumber_number (property : JsonNumber → Prop) (value : JsonNumber) :
    (number value).EveryNumber property ↔ property value := by
  simp [EveryNumber, parts]

@[simp] theorem everyNumber_array (property : JsonNumber → Prop) (items : List Json) :
    (array items).EveryNumber property ↔ ∀ item ∈ items, item.EveryNumber property := by
  simp only [EveryNumber, parts, List.mem_cons, reduceCtorEq, false_or, mem_partsOfItems]
  constructor
  · intro every item isItem value part
    exact every value ⟨item, isItem, part⟩
  · rintro every value ⟨item, isItem, part⟩
    exact every item isItem value part

@[simp] theorem everyNumber_object (property : JsonNumber → Prop)
    (members : List (String × Json)) :
    (object members).EveryNumber property ↔
      ∀ member ∈ members, member.2.EveryNumber property := by
  simp only [EveryNumber, parts, List.mem_cons, reduceCtorEq, false_or, mem_partsOfMembers]
  constructor
  · intro every member isMember value part
    exact every value ⟨member, isMember, part⟩
  · rintro every value ⟨member, isMember, part⟩
    exact every member isMember value part

def EachKeyOnce (document : Json) : Prop :=
  document.EveryObject List.Nodup

/-- No object begins with the mark of an embedded document. -/
def Unmarked (document : Json) : Prop :=
  document.EveryObject fun keys => keys.head? ≠ some embeddingMark

theorem mergedItems_eq_map (items : List Json) : mergedItems items = items.map merged := by
  induction items with
  | nil => rfl
  | cons item rest ih => simp only [mergedItems, ih, List.map_cons]

theorem mergedMembers_eq_map (members : List (String × Json)) :
    mergedMembers members = members.map fun member => (member.1, member.2.merged) := by
  induction members with
  | nil => rfl
  | cons member rest ih => simp only [mergedMembers, ih, List.map_cons]

theorem keys_mergedMembers (members : List (String × Json)) :
    Entries.keys (mergedMembers members) = Entries.keys members := by
  simp [mergedMembers_eq_map, Entries.keys]

theorem mergedMembers_eq_self {members : List (String × Json)}
    (same : ∀ member ∈ members, member.2.merged = member.2) :
    mergedMembers members = members := by
  rw [mergedMembers_eq_map]
  refine (List.map_congr_left fun member isMember => ?_).trans (List.map_id members)
  rw [same member isMember]
  rfl

theorem merged_eq_self {document : Json} (once : document.EachKeyOnce) :
    document.merged = document := by
  unfold EachKeyOnce at once
  induction document using Json.induct with
  | null => rfl
  | bool => rfl
  | number => rfl
  | string => rfl
  | array items ih =>
    rw [everyObject_array] at once
    have same : items.map merged = items :=
      (List.map_congr_left fun item isItem => ih item isItem (once item isItem)).trans
        (List.map_id items)
    rw [merged, mergedItems_eq_map, same]
  | object members ih =>
    rw [everyObject_object] at once
    have same := mergedMembers_eq_self fun member isMember =>
      ih member isMember (once.2 member isMember)
    rw [merged, same, Entries.ofList_of_distinct members once.1]

theorem everyObject_merged {before after : List String → Prop} {document : Json}
    (becomes : ∀ members : List (String × Json), before (Entries.keys members) →
      after (Entries.keys (Entries.ofList members)))
    (every : document.EveryObject before) : document.merged.EveryObject after := by
  induction document using Json.induct with
  | null | bool | number | string => simp [merged, EveryObject, parts]
  | array items ih =>
    rw [everyObject_array] at every
    rw [merged, mergedItems_eq_map, everyObject_array]
    intro item isItem
    obtain ⟨source, isSource, rfl⟩ := List.mem_map.mp isItem
    exact ih source isSource (every source isSource)
  | object members ih =>
    rw [everyObject_object] at every
    rw [merged, everyObject_object]
    refine ⟨becomes _ (by rw [keys_mergedMembers]; exact every.1), ?_⟩
    intro member isMember
    have original := Entries.mem_ofList isMember
    rw [mergedMembers_eq_map, List.mem_map] at original
    obtain ⟨source, isSource, rfl⟩ := original
    exact ih source isSource (every.2 source isSource)

theorem eachKeyOnce_merged (document : Json) : document.merged.EachKeyOnce := by
  have every : document.EveryObject fun _ => True := fun _ _ => trivial
  exact everyObject_merged (fun members _ => Entries.distinct_ofList members) every

theorem unmarked_merged {document : Json} (unmarked : document.Unmarked) :
    document.merged.Unmarked :=
  everyObject_merged (fun members kept => by rw [Entries.head?_keys_ofList]; exact kept) unmarked

theorem unfoldedItems?_eq_mapM (embedded : List Char → Option Json) (items : List Json) :
    unfoldedItems? embedded items = items.mapM (unfolded? embedded) := by
  induction items with
  | nil => rfl
  | cons item rest ih => simp only [unfoldedItems?, ih, List.mapM_cons]

theorem unfoldedMembers?_eq_mapM (embedded : List Char → Option Json)
    (members : List (String × Json)) :
    unfoldedMembers? embedded members = members.mapM (entryWith? (unfolded? embedded)) := by
  induction members with
  | nil => rfl
  | cons member rest ih =>
    obtain ⟨key, value⟩ := member
    simp only [unfoldedMembers?, ih, List.mapM_cons, entryWith?]
    cases value.unfolded? embedded <;> rfl

theorem rereadItems?_eq_mapM (items : List Json) : rereadItems? items = items.mapM reread? := by
  induction items with
  | nil => rfl
  | cons item rest ih => simp only [rereadItems?, ih, List.mapM_cons]

theorem rereadMembers?_eq_mapM (members : List (String × Json)) :
    rereadMembers? members = members.mapM (entryWith? reread?) := by
  induction members with
  | nil => rfl
  | cons member rest ih =>
    obtain ⟨key, value⟩ := member
    simp only [rereadMembers?, ih, List.mapM_cons, entryWith?]
    cases value.reread? <;> rfl

theorem isEmbedding_eq_true_iff (members : List (String × Json)) :
    isEmbedding members = true ↔ (Entries.keys members).head? = some embeddingMark := by
  cases members with
  | nil => simp [isEmbedding, Entries.keys]
  | cons member rest => simp [isEmbedding, Entries.keys]

theorem unfoldedMembers?_eq_self {embedded : List Char → Option Json}
    {members : List (String × Json)}
    (same : ∀ member ∈ members, member.2.unfolded? embedded = some member.2) :
    unfoldedMembers? embedded members = some members := by
  rw [unfoldedMembers?_eq_mapM, mapM_eq_self_iff]
  intro member isMember
  rw [entryWith?, same member isMember]
  rfl

theorem unfolded?_eq_self (embedded : List Char → Option Json) {document : Json}
    (unmarked : document.Unmarked) : document.unfolded? embedded = some document := by
  unfold Unmarked at unmarked
  induction document using Json.induct with
  | null | bool | number | string => rfl
  | array items ih =>
    rw [everyObject_array] at unmarked
    have same : unfoldedItems? embedded items = some items := by
      rw [unfoldedItems?_eq_mapM, mapM_eq_self_iff]
      exact fun item isItem => ih item isItem (unmarked item isItem)
    rw [unfolded?, same]
    rfl
  | object members ih =>
    rw [everyObject_object] at unmarked
    have plain : ¬isEmbedding members = true := by
      rw [isEmbedding_eq_true_iff]
      exact unmarked.1
    have same := unfoldedMembers?_eq_self fun member isMember =>
      ih member isMember (unmarked.2 member isMember)
    rw [unfolded?, if_neg plain, same]
    rfl

theorem unmarked_of_unfolded {embedded : List Char → Option Json}
    (inner : ∀ text read, embedded text = some read → read.Unmarked) {document : Json} :
    ∀ read, document.unfolded? embedded = some read → read.Unmarked := by
  induction document using Json.induct with
  | null | bool | number | string =>
    rintro _ ⟨⟩
    simp [Unmarked, EveryObject, parts]
  | array items ih =>
    intro read found
    rw [unfolded?, unfoldedItems?_eq_mapM, Option.map_eq_some_iff] at found
    obtain ⟨others, found, rfl⟩ := found
    exact (everyObject_array _ others).mpr (forall_mem_of_mapM found ih)
  | object members ih =>
    intro read found
    rw [unfolded?] at found
    split at found
    · obtain ⟨text, _, found⟩ := Option.bind_eq_some_iff.mp found
      exact inner text.toList read found
    · rename_i plain
      rw [unfoldedMembers?_eq_mapM, Option.map_eq_some_iff] at found
      obtain ⟨others, found, rfl⟩ := found
      refine (everyObject_object _ others).mpr ⟨?_, ?_⟩
      · rw [keys_of_mapM_entryWith? found]
        exact fun begins => plain ((isEmbedding_eq_true_iff members).mpr begins)
      · refine forall_mem_of_mapM found fun member isMember result foundMember => ?_
        obtain ⟨value, foundValue, rfl⟩ := Option.map_eq_some_iff.mp foundMember
        exact ih member isMember value foundValue

theorem unmarked_of_readLevels (levels : Nat) : ∀ (text : List Char) (read : Json),
    readLevels levels text = some read → read.Unmarked := by
  induction levels with
  | zero =>
    intro text read found
    cases found
  | succ levels ih =>
    intro text read found
    obtain ⟨written, _, found⟩ := Option.bind_eq_some_iff.mp found
    exact unmarked_of_unfolded ih read found

theorem unmarked_of_readUnfolded (text : List Char) (read : Json)
    (found : readUnfolded text = some read) : read.Unmarked :=
  unmarked_of_readLevels (text.length + 1) text read found

/-- Whatever was read can be written and read again without a difference in its objects. -/
theorem eachKeyOnce_of_resolved {written document : Json}
    (found : written.resolved? = some document) : document.EachKeyOnce ∧ document.Unmarked := by
  obtain ⟨unfolded, taken, rfl⟩ := Option.map_eq_some_iff.mp found
  exact ⟨eachKeyOnce_merged unfolded,
    unmarked_merged (unmarked_of_unfolded unmarked_of_readUnfolded unfolded taken)⟩

theorem eachKeyOnce_of_resolvedMembers {written members : List (String × Json)}
    (found : resolvedMembers? written = some members) :
    (object members).EachKeyOnce ∧ ∀ member ∈ members, member.2.Unmarked := by
  obtain ⟨unfolded, taken, rfl⟩ := Option.map_eq_some_iff.mp found
  refine ⟨eachKeyOnce_merged (object unfolded), ?_⟩
  intro member isMember
  have original := Entries.mem_ofList isMember
  rw [mergedMembers_eq_map, List.mem_map] at original
  obtain ⟨source, isSource, rfl⟩ := original
  rw [unfoldedMembers?_eq_mapM] at taken
  have unmarked : ∀ member ∈ unfolded, member.2.Unmarked := by
    refine forall_mem_of_mapM taken fun member _ result foundMember => ?_
    obtain ⟨value, foundValue, rfl⟩ := Option.map_eq_some_iff.mp foundMember
    exact unmarked_of_unfolded unmarked_of_readUnfolded value foundValue
  exact unmarked_merged (unmarked source isSource)

theorem resolvedMembers?_eq_self {members : List (String × Json)}
    (once : (object members).EachKeyOnce) (unmarked : ∀ member ∈ members, member.2.Unmarked) :
    resolvedMembers? members = some members := by
  have same : unfoldedMembers? readUnfolded members = some members :=
    unfoldedMembers?_eq_self fun member isMember =>
      unfolded?_eq_self readUnfolded (unmarked member isMember)
  have merges : (object members).merged = object members := merged_eq_self once
  rw [merged, Json.object.injEq] at merges
  rw [resolvedMembers?, same, Option.map_some, merges]

theorem everyObject_reread (property : List String → Prop) {document : Json} :
    ∀ read, document.reread? = some read →
      (read.EveryObject property ↔ document.EveryObject property) := by
  induction document using Json.induct with
  | null | bool | string =>
    rintro _ ⟨⟩
    rfl
  | number value =>
    intro read found
    obtain ⟨other, _, rfl⟩ := Option.map_eq_some_iff.mp found
    simp [EveryObject, parts]
  | array items ih =>
    intro read found
    rw [reread?, rereadItems?_eq_mapM, Option.map_eq_some_iff] at found
    obtain ⟨others, found, rfl⟩ := found
    rw [everyObject_array, everyObject_array]
    exact forall_mem_iff_of_mapM found ih
  | object members ih =>
    intro read found
    rw [reread?, rereadMembers?_eq_mapM, Option.map_eq_some_iff] at found
    obtain ⟨others, found, rfl⟩ := found
    rw [everyObject_object, everyObject_object, keys_of_mapM_entryWith? found]
    refine and_congr_right fun _ => forall_mem_iff_of_mapM found ?_
    intro member isMember result foundMember
    obtain ⟨value, foundValue, rfl⟩ := Option.map_eq_some_iff.mp foundMember
    exact ih member isMember value foundValue

theorem reread?_eq_self_iff (document : Json) :
    document.reread? = some document ↔
      document.EveryNumber fun value => value.reread? = some value := by
  induction document using Json.induct with
  | null | bool | string => simp [reread?, EveryNumber, parts]
  | number value =>
    rw [reread?, everyNumber_number, Option.map_eq_some_iff]
    constructor
    · rintro ⟨other, found, same⟩
      cases same
      exact found
    · exact fun found => ⟨value, found, rfl⟩
  | array items ih =>
    rw [everyNumber_array, reread?, rereadItems?_eq_mapM, Option.map_eq_some_iff]
    simp only [Json.array.injEq, exists_eq_right, mapM_eq_self_iff]
    exact forall₂_congr ih
  | object members ih =>
    rw [everyNumber_object, reread?, rereadMembers?_eq_mapM, Option.map_eq_some_iff]
    simp only [Json.object.injEq, exists_eq_right, mapM_eq_self_iff]
    refine forall₂_congr fun member isMember => ?_
    rw [← ih member isMember, entryWith?, Option.map_eq_some_iff]
    obtain ⟨key, value⟩ := member
    constructor
    · rintro ⟨other, found, same⟩
      cases same
      exact found
    · exact fun found => ⟨value, found, rfl⟩

theorem reread?_isSome_iff (document : Json) :
    document.reread?.isSome ↔ document.EveryNumber fun value => value.reread?.isSome := by
  induction document using Json.induct with
  | null | bool | string => simp [reread?, EveryNumber, parts]
  | number value => rw [reread?, everyNumber_number, Option.isSome_map]
  | array items ih =>
    rw [everyNumber_array, reread?, rereadItems?_eq_mapM, Option.isSome_map, mapM_isSome_iff]
    exact forall₂_congr ih
  | object members ih =>
    rw [everyNumber_object, reread?, rereadMembers?_eq_mapM, Option.isSome_map, mapM_isSome_iff]
    refine forall₂_congr fun member isMember => ?_
    rw [← ih member isMember, entryWith?, Option.isSome_map]

end Json

end TableServer
