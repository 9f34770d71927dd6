import TableServer.Proofs.Json.Texts
import TableServer.Proofs.Store.RoundTrip
import TableServer.Users.Api

/-! Listing users before and after their records have been written and read back. The filters of a
listing look for texts, so they select the same records even where a number comes back as another
one; whether a listing stays the same is then a matter of how the numbers are written. -/

namespace TableServer

theorem Json.sameValue_string_of_reread {item other : Json} (found : item.reread? = some other)
    (text : String) : other.sameValue (.string text) = item.sameValue (.string text) := by
  cases item with
  | null | bool | string => cases found; rfl
  | number | array | object =>
    obtain ⟨inner, _, rfl⟩ := Option.map_eq_some_iff.mp found
    rfl

theorem Operand.contains?_of_reread {value other : Json} (found : value.reread? = some other)
    (text : String) :
    (Operand.ofJson other).contains? (.string text) =
      (Operand.ofJson value).contains? (.string text) := by
  cases value with
  | null | bool | string => cases found; rfl
  | number | object =>
    obtain ⟨inner, _, rfl⟩ := Option.map_eq_some_iff.mp found
    rfl
  | array items =>
    rw [Json.reread?, Json.rereadItems?_eq_mapM, Option.map_eq_some_iff] at found
    obtain ⟨others, found, rfl⟩ := found
    have related := (mapM_eq_some_iff _ items others).mp found
    clear found
    simp only [Operand.ofJson, Operand.contains?, Option.some.injEq]
    induction related with
    | nil => rfl
    | cons foundFirst _ ih =>
      rw [List.any_cons, List.any_cons, ih, Json.sameValue_string_of_reread foundFirst]

namespace Users

def LooksForTexts (spec : Where) : Prop :=
  ∀ clause ∈ spec.clauses, ∃ text, clause.2 = clauseOf text

theorem looksForTexts_of_filterOfQuery {query : Query} {spec : Where}
    (found : filterOfQuery query = some spec) : LooksForTexts spec := by
  suffices general : ∀ (named : Query) (start : Where), LooksForTexts start →
      LooksForTexts (named.foldl (fun spec pair => spec.insert pair.1 (clauseOf pair.2)) start) by
    simp only [filterOfQuery] at found
    split at found
    · cases found
    · cases found
      exact general _ Where.empty (by simp [LooksForTexts, Where.empty])
  intro named
  induction named with
  | nil => exact fun _ texts => texts
  | cons pair rest ih =>
    intro start texts
    refine ih _ fun clause isClause => ?_
    rcases Entries.mem_put isClause with old | rfl
    · exact texts clause old
    · exact ⟨pair.2, rfl⟩

theorem holds_of_reread {record other : Record} (found : Json.rereadMembers? record = some other)
    (field text : String) :
    (clauseOf text).holds field other = (clauseOf text).holds field record := by
  rw [Json.rereadMembers?_eq_mapM] at found
  have same : (Operand.ofField (Entries.get? other field)).contains? (.string text) =
      (Operand.ofField (Entries.get? record field)).contains? (.string text) := by
    rcases Entries.get?_of_mapM_entryWith? found field with
      ⟨missing, stillMissing⟩ | ⟨value, reread, before, foundValue, after⟩
    · rw [missing, stillMissing]
    · rw [before, after]
      exact Operand.contains?_of_reread foundValue text
  simp only [Condition.holds, clauseOf, Condition.compare?, same]

theorem matchesFrom_of_reread {record other : Record}
    (found : Json.rereadMembers? record = some other) (clauses : Entries Condition)
    (texts : ∀ clause ∈ clauses, ∃ text, clause.2 = clauseOf text) (before : Bool) :
    Where.matchesFrom other before clauses = Where.matchesFrom record before clauses := by
  induction clauses generalizing before with
  | nil => rfl
  | cons clause rest ih =>
    obtain ⟨field, condition⟩ := clause
    obtain ⟨text, rfl⟩ := texts _ List.mem_cons_self
    rw [Where.matchesFrom, Where.matchesFrom, holds_of_reread found]
    cases (clauseOf text).holds field record with
    | error error => rfl
    | ok result => exact ih (fun later isLater => texts later (List.mem_cons_of_mem _ isLater)) _

theorem matches?_of_reread {record other : Record}
    (found : Json.rereadMembers? record = some other) {spec : Where} (texts : LooksForTexts spec) :
    spec.matches? other = spec.matches? record := by
  obtain ⟨clauses⟩ := spec
  cases clauses with
  | nil => rfl
  | cons clause rest =>
    obtain ⟨field, condition⟩ := clause
    obtain ⟨text, rfl⟩ := texts _ List.mem_cons_self
    simp only [Where.matches?, holds_of_reread found]
    cases (clauseOf text).holds field record with
    | error error => rfl
    | ok result =>
      exact matchesFrom_of_reread found rest
        (fun later isLater => texts later (List.mem_cons_of_mem _ isLater)) result

theorem selectRows_cons (spec : Where) (row : Record) (rest : List Record) :
    selectRows (some spec) (row :: rest) =
      match spec.matches? row with
      | .error error => .error error
      | .ok selected =>
        match selectRows (some spec) rest with
        | .error error => .error error
        | .ok others => .ok (if selected then row :: others else others) := rfl

theorem selectRows_subset {filter : Option Where} {rows selected : List Record}
    (found : selectRows filter rows = .ok selected) : selected ⊆ rows := by
  induction rows generalizing selected with
  | nil =>
    cases found
    exact List.Subset.refl []
  | cons row rest ih =>
    cases filter with
    | none =>
      cases found
      exact List.Subset.refl _
    | some spec =>
      rw [selectRows_cons] at found
      split at found
      · cases found
      · split at found
        · cases found
        · rename_i others foundOthers
          have further := ih foundOthers
          cases found
          split
          · exact List.cons_subset_cons row further
          · exact List.subset_cons_of_subset row further

/-- Rows that were read back give the same failure, or the rows that were selected before, read
back. -/
theorem selectRows_of_reread {filter : Option Where}
    (texts : ∀ spec, filter = some spec → LooksForTexts spec) {rows others : List Record}
    (found : rows.mapM Json.rereadMembers? = some others) :
    (∃ error, selectRows filter rows = .error error ∧ selectRows filter others = .error error) ∨
      ∃ selected reread, selectRows filter rows = .ok selected ∧
        selectRows filter others = .ok reread ∧
        selected.mapM Json.rereadMembers? = some reread := by
  cases filter with
  | none =>
    have whole (rows : List Record) : selectRows none rows = .ok rows := by cases rows <;> rfl
    exact Or.inr ⟨rows, others, whole rows, whole others, found⟩
  | some spec =>
    have related := (mapM_eq_some_iff _ rows others).mp found
    clear found
    induction related with
    | nil => exact Or.inr ⟨[], [], rfl, rfl, rfl⟩
    | cons foundFirst _ ih =>
      rw [selectRows_cons, selectRows_cons, matches?_of_reread foundFirst (texts spec rfl)]
      cases spec.matches? _ with
      | error error => exact Or.inl ⟨error, rfl, rfl⟩
      | ok chosen =>
        rcases ih with ⟨error, failed, failedToo⟩ | ⟨selected, reread, first, second, read⟩
        · exact Or.inl ⟨error, by simp only [failed], by simp only [failedToo]⟩
        · simp only [first, second]
          cases chosen with
          | false => exact Or.inr ⟨selected, reread, rfl, rfl, read⟩
          | true =>
            refine Or.inr ⟨_, _, rfl, rfl, ?_⟩
            simp [List.mapM_cons, foundFirst, read]

def listing (query : Query) (rows : List Record) : Response :=
  match selectRows (filterOfQuery query) rows with
  | .ok selected => .json 200 (.array (selected.map .object))
  | .error error => failed (.notIterable error)

theorem listUsers_response (request : Request) (base : UserBase) :
    (listUsers request base).1 = listing request.query (base.store.tables.rows table) := by
  simp only [listUsers, Store.select, listing]
  cases selectRows (filterOfQuery request.query) (base.store.tables.rows table) <;> rfl

theorem json_eq_iff (status : Nat) (first second : Json) :
    Response.json status first = Response.json status second ↔ first.write = second.write := by
  simp [Response.json, Json.render, String.ofList_inj]

theorem write_rows_iff {rows others : List Record}
    (found : rows.mapM Json.rereadMembers? = some others) :
    (Json.array (others.map .object)).write = (Json.array (rows.map .object)).write ↔
      ∀ record ∈ rows, (Json.object record).EveryNumber JsonNumber.KeepsText := by
  have whole : (Json.array (rows.map .object)).reread? = some (.array (others.map .object)) := by
    rw [Json.reread?, Tables.reread?_rows, found]
    rfl
  rw [Json.write_reread_iff whole, Json.everyNumber_array, List.forall_mem_map]

theorem listing_of_keepsText {rows others : List Record}
    (found : rows.mapM Json.rereadMembers? = some others)
    (keeps : ∀ record ∈ rows, (Json.object record).EveryNumber JsonNumber.KeepsText)
    (query : Query) : listing query others = listing query rows := by
  have texts : ∀ spec, filterOfQuery query = some spec → LooksForTexts spec :=
    fun _ => looksForTexts_of_filterOfQuery
  rcases selectRows_of_reread texts found with
    ⟨error, before, after⟩ | ⟨selected, reread, before, after, read⟩
  · simp only [listing, before, after]
  · simp only [listing, before, after]
    rw [json_eq_iff, write_rows_iff read]
    exact fun record isSelected => keeps record (selectRows_subset before isSelected)

theorem listing_unfiltered (rows : List Record) :
    listing [] rows = .json 200 (.array (rows.map .object)) := by
  cases rows <;> rfl

theorem listing_unfiltered_iff {rows others : List Record}
    (found : rows.mapM Json.rereadMembers? = some others) :
    listing [] others = listing [] rows ↔
      ∀ record ∈ rows, (Json.object record).EveryNumber JsonNumber.KeepsText := by
  rw [listing_unfiltered, listing_unfiltered, json_eq_iff, write_rows_iff found]

theorem listing_unfiltered_nil_iff (rows : List Record) :
    listing [] [] = listing [] rows ↔ rows = [] := by
  rw [listing_unfiltered, listing_unfiltered, json_eq_iff]
  constructor
  · intro same
    cases rows with
    | nil => rfl
    | cons row rest =>
      have second := congrArg (fun text => text[1]?) same
      cases rest <;> simp [Json.write, Json.writeItems] at second
  · rintro rfl
    rfl

end Users

end TableServer
