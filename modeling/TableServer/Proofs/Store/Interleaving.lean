import TableServer.Proofs.Store.Failure

/-! Operations on many tables, interleaved. An operation writes one entry of the table set, that of
the table it names, and reads no other; so a table holds what the operations that name it made of
it, in their order, and tables stand in the order in which they were first named. -/

namespace TableServer

namespace StoreEvent

def table? : StoreEvent → Option String
  | .select table _ => some table
  | .insert table _ => some table
  | .update table _ _ => some table
  | .delete table _ => some table
  | _ => none

def names (table : String) (event : StoreEvent) : Bool :=
  decide (event.table? = some table)

def onRows (rows : List Record) : StoreEvent → List Record
  | .insert _ record => rows ++ [record]
  | .update _ patch filter =>
    match updateRows patch filter rows with
    | .ok changed => changed
    | .error _ => rows
  | .delete _ filter =>
    match keepRows filter rows with
    | .ok kept => kept
    | .error _ => rows
  | _ => rows

/-- An operation on a table, told by the table sets before and after it. -/
structure WorksOn (table : String) (event : StoreEvent) (before after : Tables) : Prop where
  names : Entries.keys after =
    if table ∈ Entries.keys before then Entries.keys before else Entries.keys before ++ [table]
  created : table ∉ Entries.keys before → after.rows table = [] ∨
    ∃ record, event = .insert table record ∧ after.rows table = [record]
  appended : ∀ record, event = .insert table record →
    after.rows table = before.rows table ++ [record]
  others : ∀ other, other ≠ table → Entries.get? after other = Entries.get? before other

end StoreEvent

namespace Tables

theorem get?_of_has {tables : Tables} {table : String}
    (present : Entries.has tables table = true) :
    Entries.get? tables table = some (tables.rows table) := by
  obtain ⟨records, found⟩ := Option.isSome_iff_exists.mp present
  rw [rows, found]
  rfl

theorem rows_of_absent {tables : Tables} {table : String}
    (absent : table ∉ Entries.keys tables) : tables.rows table = [] := by
  have missing : Entries.get? tables table = none := by
    rw [← Entries.has_eq_true_iff, Entries.has] at absent
    simpa using absent
  rw [rows, missing]
  rfl

theorem touch_eq_put (tables : Tables) (table : String) :
    tables.touch table = Entries.put tables table (tables.rows table) := by
  rw [touch]
  split
  · rename_i present
    exact (Entries.put_of_get? (get?_of_has present)).symm
  · rename_i absent
    rw [Entries.has_eq_true_iff] at absent
    rw [rows_of_absent absent]

theorem put_of_failing {filter : Option Where} {tables : Tables} {table : String}
    {error : NotIterable} (failing : verdicts filter (tables.rows table) = .error error) :
    Entries.put tables table (tables.rows table) = tables :=
  Entries.put_of_get? (get?_of_has (has_of_failing failing))

theorem effect_eq_put {event : StoreEvent} {table : String} (named : event.table? = some table)
    (tables : Tables) :
    tables.effect event = Entries.put tables table (event.onRows (tables.rows table)) := by
  cases event with
  | flush | reopen | outside => cases named
  | select name filter =>
    cases named
    exact touch_eq_put tables table
  | insert name record =>
    cases named
    rfl
  | update name patch filter =>
    cases named
    simp only [effect, StoreEvent.onRows, updateRows_eq]
    cases passed : verdicts filter (tables.rows table) with
    | ok selected => rfl
    | error error => exact (put_of_failing passed).symm
  | delete name filter =>
    cases named
    simp only [effect, StoreEvent.onRows, keepRows_eq]
    cases passed : verdicts filter (tables.rows table) with
    | ok selected => rfl
    | error error => exact (put_of_failing passed).symm

theorem effect_of_unnamed {event : StoreEvent} (unnamed : event.table? = none) (tables : Tables) :
    tables.effect event = tables := by
  cases event with
  | select | insert | update | delete => cases unnamed
  | flush | reopen | outside => rfl

theorem get?_effect (tables : Tables) (event : StoreEvent) (table : String) :
    Entries.get? (tables.effect event) table =
      if event.names table then some (event.onRows (tables.rows table))
      else Entries.get? tables table := by
  rw [StoreEvent.names]
  cases named : event.table? with
  | none =>
    rw [effect_of_unnamed named]
    simp
  | some name =>
    rw [effect_eq_put named, Entries.get?_put]
    by_cases same : table = name
    · subst same
      simp
    · have different : name ≠ table := fun equal => same equal.symm
      simp [same, different]

theorem rows_effect (tables : Tables) (event : StoreEvent) (table : String) :
    (tables.effect event).rows table =
      if event.names table then event.onRows (tables.rows table) else tables.rows table := by
  rw [rows, get?_effect]
  split <;> rfl

theorem rows_touched (tables : Tables) (touched table : String) :
    (tables.touch touched).rows table = tables.rows table := by
  have selected := rows_effect tables (.select touched none) table
  simp only [StoreEvent.onRows, ite_self] at selected
  exact selected

theorem touch_cases (tables : Tables) (touched : String) :
    tables.touch touched = tables ∨
      touched ∉ Entries.keys tables ∧ tables.touch touched = tables ++ [(touched, [])] := by
  rw [touch]
  split
  · exact Or.inl rfl
  · rename_i absent
    rw [Entries.has_eq_true_iff] at absent
    exact Or.inr ⟨absent, Entries.put_of_absent tables touched [] absent⟩

theorem worksOn_effect {event : StoreEvent} {table : String} (named : event.table? = some table)
    (tables : Tables) : event.WorksOn table tables (tables.effect event) where
  names := by
    rw [effect_eq_put named, Entries.keys_put]
  created := by
    intro absent
    have isNamed : event.names table = true := decide_eq_true named
    rw [rows_effect, if_pos isNamed, rows_of_absent absent]
    cases event with
    | flush | reopen | outside => cases named
    | select | update | delete => exact Or.inl rfl
    | insert name record =>
      cases named
      exact Or.inr ⟨record, rfl, rfl⟩
  appended := by
    rintro record rfl
    have isNamed : (StoreEvent.insert table record).names table = true := decide_eq_true rfl
    rw [rows_effect, if_pos isNamed]
    rfl
  others := by
    intro other different
    have unnamed : ¬event.names other = true := by
      simp [StoreEvent.names, named, different.symm]
    rw [get?_effect, if_neg unnamed]

/-- The projection of a run to one table. -/
theorem rows_effects (events : List StoreEvent) (tables : Tables) (table : String) :
    (events.foldl effect tables).rows table =
      (events.filter (·.names table)).foldl StoreEvent.onRows (tables.rows table) := by
  induction events generalizing tables with
  | nil => rfl
  | cons event rest ih =>
    rw [List.foldl_cons, ih, rows_effect]
    by_cases named : event.names table = true
    · rw [if_pos named, List.filter_cons_of_pos named, List.foldl_cons]
    · rw [if_neg named, List.filter_cons_of_neg named]

theorem mem_keys_effect (tables : Tables) (event : StoreEvent) (table : String) :
    table ∈ Entries.keys (tables.effect event) ↔
      table ∈ Entries.keys tables ∨ event.names table = true := by
  rw [← Entries.has_eq_true_iff, ← Entries.has_eq_true_iff, Entries.has, Entries.has, get?_effect]
  split
  · rename_i named
    simp [named]
  · rename_i unnamed
    simp [unnamed]

theorem mem_keys_effects (events : List StoreEvent) (tables : Tables) (table : String) :
    table ∈ Entries.keys (events.foldl effect tables) ↔
      table ∈ Entries.keys tables ∨ ∃ event ∈ events, event.names table = true := by
  induction events generalizing tables with
  | nil => simp
  | cons event rest ih =>
    rw [List.foldl_cons, ih, mem_keys_effect]
    simp [or_assoc]

theorem keys_stay_effect (tables : Tables) (event : StoreEvent) :
    Entries.keys tables <+: Entries.keys (tables.effect event) := by
  cases named : event.table? with
  | none =>
    exact (effect_of_unnamed named tables).symm ▸ List.prefix_refl _
  | some table =>
    rw [(worksOn_effect named tables).names]
    split
    · exact List.prefix_refl _
    · exact List.prefix_append _ _

theorem keys_stay_effects (events : List StoreEvent) (tables : Tables) :
    Entries.keys tables <+: Entries.keys (events.foldl effect tables) := by
  induction events generalizing tables with
  | nil => exact List.prefix_refl _
  | cons event rest ih => exact (keys_stay_effect tables event).trans (ih (tables.effect event))

end Tables

namespace StoreEvent

theorem onRows_nil {event : StoreEvent} (adds : ∀ table record, event ≠ .insert table record) :
    event.onRows [] = [] := by
  cases event with
  | insert table record => exact absurd rfl (adds table record)
  | select | update | delete | flush | reopen | outside => rfl

theorem foldl_onRows_nil {events : List StoreEvent}
    (adds : ∀ event ∈ events, ∀ table record, event ≠ .insert table record) :
    events.foldl onRows [] = [] := by
  induction events with
  | nil => rfl
  | cons event rest ih =>
    rw [List.forall_mem_cons] at adds
    rw [List.foldl_cons, onRows_nil adds.1]
    exact ih adds.2

end StoreEvent

namespace Store

theorem selected_table_written {store : Store} {table : String} {filter : Option Where}
    (absent : table ∉ Entries.keys store.tables) {later : List StoreEvent} {next : StoreEvent}
    (stays : ∀ event ∈ later, event ≠ .reopen)
    (writes : (store.after (.select table filter :: later)).Writes next) :
    ∃ stored : Tables,
      ((store.after (.select table filter :: later)).happen next).2.slot.Holds stored ∧
      (Entries.keys store.tables ++ [table]) <+: Entries.keys stored ∧
      stored.rows table = ((later ++ [next]).filter (·.names table)).foldl StoreEvent.onRows [] := by
  have staysToo : ∀ event ∈ StoreEvent.select table filter :: later, event ≠ .reopen :=
    List.forall_mem_cons.mpr ⟨by simp, stays⟩
  have regrouped : (StoreEvent.select table filter :: later) ++ [next] =
      .select table filter :: (later ++ [next]) := rfl
  refine ⟨_, holds_of_writes staysToo writes, ?_, ?_⟩
  · have added : Entries.keys (store.tables.effect (.select table filter)) =
        Entries.keys store.tables ++ [table] := by
      rw [(Tables.worksOn_effect rfl store.tables).names, if_neg absent]
    rw [regrouped, List.foldl_cons, ← added]
    exact Tables.keys_stay_effects (later ++ [next]) _
  · have empty : (store.tables.effect (.select table filter)).rows table = [] := by
      rw [Tables.rows_effect, Tables.rows_of_absent absent]
      split <;> rfl
    rw [regrouped, List.foldl_cons, Tables.rows_effects, empty]

/-- What holds of the tables along any run from an opening, whatever becomes of its writes. Each
operation works on the table it names; each table holds what the operations that name it made of
the records it was opened with, and is there if it was or was named; and a table that a selection
adds is stored by whatever write succeeds later. -/
theorem tables_along_run {path : String} {mode : InsertPersistence} {slot : Slot} {opened : Store}
    (opens : openAt path mode slot = .ok opened) {events : List StoreEvent}
    (stays : ∀ event ∈ events, event ≠ .reopen) :
    (opened.tables = [] ∨ Tables.load slot = .ok opened.tables) ∧
    (∀ (event : StoreEvent) (table : String), event.table? = some table →
      event.WorksOn table (opened.after events).tables
        ((opened.after events).happen event).2.tables) ∧
    (∀ table,
      (opened.after events).tables.rows table =
        (events.filter (·.names table)).foldl StoreEvent.onRows (opened.tables.rows table) ∧
      (table ∈ Entries.keys (opened.after events).tables ↔
        table ∈ Entries.keys opened.tables ∨ ∃ event ∈ events, event.names table = true)) ∧
    ∀ table filter later next, table ∉ Entries.keys (opened.after events).tables →
      (∀ event ∈ later, event ≠ .reopen) →
        ((opened.after events).after (.select table filter :: later)).Writes next →
          ∃ stored : Tables,
            (((opened.after events).after (.select table filter :: later)).happen next).2.slot.Holds
              stored ∧
            (Entries.keys (opened.after events).tables ++ [table]) <+: Entries.keys stored ∧
            ((∀ event ∈ later ++ [next], ∀ record, event ≠ .insert table record) →
              stored.rows table = []) := by
  have grown : (opened.after events).tables = events.foldl Tables.effect opened.tables :=
    tables_after stays
  refine ⟨?_, ?_, ?_, ?_⟩
  · rcases openAt_slot opens with ⟨_, loads⟩ | ⟨_, _, empty⟩
    · exact Or.inr loads
    · exact Or.inl empty
  · intro event table named
    have staysToo : event ≠ .reopen := by
      rintro rfl
      cases named
    rw [tables_of_happen staysToo]
    exact Tables.worksOn_effect named _
  · intro table
    rw [grown]
    exact ⟨Tables.rows_effects events _ table, Tables.mem_keys_effects events _ table⟩
  · intro table filter later next absent staysLater writes
    obtain ⟨stored, written, inPlace, rows⟩ := selected_table_written absent staysLater writes
    refine ⟨stored, written, inPlace, fun adds => ?_⟩
    rw [rows]
    refine StoreEvent.foldl_onRows_nil fun event isNaming name record isInsert => ?_
    obtain ⟨isLater, named⟩ := List.mem_filter.mp isNaming
    subst isInsert
    have same : name = table := Option.some.inj (of_decide_eq_true named)
    subst same
    exact adds _ isLater record rfl

def started : Store :=
  ⟨"data.json", .awaited, [], .file (Tables.encode [])⟩

def alternating : List StoreEvent :=
  [.insert "notes" [("text", .null)], .select "drafts" none, .outside .block,
    .update "notes" [("text", .bool true)] none, .outside .unblock]

theorem tables_along_alternating :
    openAt "data.json" .awaited .absent = .ok started ∧
      (∀ event ∈ alternating, event ≠ .reopen) ∧
      (started.after alternating).tables.rows "notes" = [[("text", .bool true)]] ∧
      "drafts" ∈ Entries.keys (started.after alternating).tables ∧
      ∃ stored : Tables,
        (((started.after alternating).after [.select "sketches" none]).happen .flush).2.slot.Holds
          stored ∧
        stored.encode =
          "\x7b\"notes\":[\x7b\"text\":true\x7d],\"drafts\":[],\"sketches\":[]\x7d".toUTF8 ∧
        ["notes", "drafts", "sketches"] <+: Entries.keys stored ∧ stored.rows "sketches" = [] := by
  have opens : openAt "data.json" .awaited .absent = .ok started := rfl
  have stays : ∀ event ∈ alternating, event ≠ .reopen := by simp [alternating]
  obtain ⟨_, _, projected, selected⟩ := tables_along_run opens stays
  obtain ⟨stored, written, inPlace, empty⟩ :=
    selected "sketches" none [] .flush (by decide) (by simp) ⟨trivial, rfl, .done, rfl⟩
  exact ⟨opens, stays, (projected "notes").1,
    (projected "drafts").2.mpr (Or.inr ⟨.select "drafts" none, by simp [alternating], rfl⟩),
    stored, written, Option.some.inj written.exact.symm, inPlace, empty (by simp)⟩

end Store

end TableServer
