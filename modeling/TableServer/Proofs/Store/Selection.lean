import Mathlib.Data.List.Forall2
import TableServer.Proofs.Store.Mutation

/-! What an update and a deletion make of the records that a filter selects. Both go by the records
as they were before and leave all others alone; done again at once, they change nothing. -/

namespace TableServer

def IsSelected (filter : Option Where) (row : Record) : Prop :=
  ∀ spec, filter = some spec → spec.matches? row = .ok true

def Answers (filter : Option Where) (row : Record) : Prop :=
  ∀ spec, filter = some spec → ∃ selected, spec.matches? row = .ok selected

def selects (filter : Option Where) (row : Record) : Bool :=
  match filter with
  | none => true
  | some spec =>
    match spec.matches? row with
    | .ok selected => selected
    | .error _ => false

theorem selects_eq_true_iff (filter : Option Where) (row : Record) :
    selects filter row = true ↔ IsSelected filter row := by
  cases filter with
  | none => simp [selects, IsSelected]
  | some spec =>
    simp only [selects, IsSelected, Option.some.injEq, forall_eq']
    cases spec.matches? row <;> simp

theorem verdicts_of_answers {filter : Option Where} {rows : List Record}
    (answers : ∀ row ∈ rows, Answers filter row) :
    verdicts filter rows = .ok (rows.map (selects filter)) := by
  cases filter with
  | none => rfl
  | some spec =>
    induction rows with
    | nil => rfl
    | cons row rest ih =>
      rw [List.forall_mem_cons] at answers
      obtain ⟨chosen, judged⟩ := answers.1 spec rfl
      rw [verdicts_cons, judged, ih answers.2]
      simp [Except.map, selects, judged]

theorem answers_of_verdicts {filter : Option Where} {rows : List Record} {selected : List Bool}
    (passed : verdicts filter rows = .ok selected) : ∀ row ∈ rows, Answers filter row := by
  cases filter with
  | none =>
    intro row _ spec impossible
    cases impossible
  | some spec =>
    induction rows generalizing selected with
    | nil => simp
    | cons row rest ih =>
      rw [verdicts_cons] at passed
      cases judged : spec.matches? row with
      | error error =>
        rw [judged] at passed
        cases passed
      | ok chosen =>
        rw [judged] at passed
        cases further : verdicts (some spec) rest with
        | error error =>
          rw [further] at passed
          cases passed
        | ok others =>
          refine List.forall_mem_cons.mpr ⟨?_, ih further⟩
          intro _ given
          cases given
          exact ⟨chosen, judged⟩

theorem answers_or_failing (filter : Option Where) (rows : List Record) :
    (∀ row ∈ rows, Answers filter row) ∨ ∃ error, verdicts filter rows = .error error := by
  cases judged : verdicts filter rows with
  | error error => exact Or.inr ⟨error, rfl⟩
  | ok selected => exact Or.inl (answers_of_verdicts judged)

variable {filter : Option Where} {rows : List Record}

theorem selectRows_of_answers (answers : ∀ row ∈ rows, Answers filter row) :
    selectRows filter rows = .ok (rows.filter (selects filter)) := by
  rw [selectRows_eq, verdicts_of_answers answers]
  simp [Except.map, ← List.map_prod_left_eq_zip, List.filter_map, Function.comp_def]

theorem keepRows_of_answers (answers : ∀ row ∈ rows, Answers filter row) :
    keepRows filter rows = .ok (rows.filter fun row => !selects filter row) := by
  rw [keepRows_eq, verdicts_of_answers answers]
  simp [Except.map, ← List.map_prod_left_eq_zip, List.filter_map, Function.comp_def]

def updatedRow (patch : Record) (filter : Option Where) (row : Record) : Record :=
  if selects filter row then patchRow patch row else row

theorem updateRows_of_answers (patch : Record) (answers : ∀ row ∈ rows, Answers filter row) :
    updateRows patch filter rows = .ok (rows.map (updatedRow patch filter)) := by
  rw [updateRows_eq, verdicts_of_answers answers]
  simp [Except.map, List.zipWith_map_right, List.zipWith_self, updatedRow]

theorem updatedRow_updatedRow (patch : Record) (filter : Option Where) (row : Record) :
    updatedRow patch filter (updatedRow patch filter row) = updatedRow patch filter row := by
  by_cases chosen : selects filter row = true
  · have patched : updatedRow patch filter row = patchRow patch row := by
      rw [updatedRow, if_pos chosen]
    rw [patched, updatedRow, patchRow_patchRow, ite_self]
  · have kept : updatedRow patch filter row = row := by
      rw [updatedRow, if_neg chosen]
    rw [kept, kept]

/-- A record before and after an update. -/
structure UpdatedTo (patch : Record) (filter : Option Where) (before after : Record) : Prop where
  fields : Entries.keys after = Entries.keys before
  affected : IsSelected filter before → ∀ field ∈ Entries.keys before,
    Entries.get? after field = (Entries.get? patch field).or (Entries.get? before field)
  unaffected : ¬IsSelected filter before → after = before

theorem updatedTo_updatedRow (patch : Record) (filter : Option Where) (row : Record) :
    UpdatedTo patch filter row (updatedRow patch filter row) := by
  by_cases chosen : selects filter row = true
  · have patched : updatedRow patch filter row = patchRow patch row := by
      rw [updatedRow, if_pos chosen]
    refine ⟨?_, ?_, ?_⟩
    · rw [patched, keys_patchRow]
    · intro _ field present
      rw [← Entries.has_eq_true_iff, Entries.has, Option.isSome_iff_exists] at present
      obtain ⟨value, found⟩ := present
      rw [patched, get?_patchRow, found]
      cases Entries.get? patch field <;> rfl
    · intro passedOver
      exact absurd ((selects_eq_true_iff filter row).mp chosen) passedOver
  · have kept : updatedRow patch filter row = row := by
      rw [updatedRow, if_neg chosen]
    refine ⟨by rw [kept], ?_, fun _ => kept⟩
    intro selected
    exact absurd ((selects_eq_true_iff filter row).mpr selected) chosen

namespace Store

theorem commit_commit (store : Store) : store.commit.2.commit = store.commit := by
  rcases writable_or_refused store.slot with writable | ⟨cause, refused⟩
  · have stillWritable : store.written.slot.Writable := writable
    rw [commit_of_writable writable]
    exact commit_of_writable stillWritable
  · rw [commit_of_refused refused, commit_of_refused refused]

theorem withRows_of_rows {store : Store} {table : String} {rows : List Record}
    (present : Entries.get? store.tables table = some rows) : store.withRows table rows = store := by
  rw [withRows, Entries.put_of_get? present]

theorem get?_commit_withRows (store : Store) (table : String) (rows : List Record) :
    Entries.get? (store.withRows table rows).commit.2.tables table = some rows := by
  rw [tables_commit]
  exact (Entries.get?_put store.tables table table rows).trans (if_pos rfl)

theorem commit_withRows_again (store : Store) (table : String) (rows : List Record) :
    ((store.withRows table rows).commit.2.withRows table rows).commit =
      (store.withRows table rows).commit := by
  rw [withRows_of_rows (get?_commit_withRows store table rows), commit_commit]

theorem update_of_answers (store : Store) (table : String) (patch : Record) {filter : Option Where}
    (answers : ∀ row ∈ store.tables.rows table, Answers filter row) :
    store.update table patch filter =
      (store.withRows table ((store.tables.rows table).map (updatedRow patch filter))).commit := by
  rw [update_eq, updateRows_of_answers patch answers]

theorem delete_of_answers (store : Store) (table : String) {filter : Option Where}
    (answers : ∀ row ∈ store.tables.rows table, Answers filter row) :
    store.delete table filter =
      (store.withRows table ((store.tables.rows table).filter fun row => !selects filter row)).commit
    := by
  rw [delete_eq, keepRows_of_answers answers]

theorem update_of_failing {store : Store} {table : String} {filter : Option Where}
    {error : NotIterable} (patch : Record)
    (failing : verdicts filter (store.tables.rows table) = .error error) :
    store.update table patch filter = (.error (.notIterable error), store) := by
  rw [update_eq, updateRows_eq, failing]
  rfl

theorem update_again (store : Store) (table : String) (patch : Record) (filter : Option Where) :
    ((store.update table patch filter).2.update table patch filter).2 =
      (store.update table patch filter).2 := by
  rcases answers_or_failing filter (store.tables.rows table) with answers | ⟨error, failing⟩
  · have updated := update_of_answers store table patch answers
    have rows : (store.update table patch filter).2.tables.rows table =
        (store.tables.rows table).map (updatedRow patch filter) := by
      rw [updated, rows_commit_withRows]
    rcases answers_or_failing filter ((store.update table patch filter).2.tables.rows table) with
      answersAgain | ⟨error, failing⟩
    · rw [update_of_answers _ table patch answersAgain, rows, List.map_map]
      have same : updatedRow patch filter ∘ updatedRow patch filter = updatedRow patch filter :=
        funext (updatedRow_updatedRow patch filter)
      rw [same, updated, commit_withRows_again]
    · rw [update_of_failing patch failing]
  · rw [update_of_failing patch failing, update_of_failing patch failing]

theorem answers_of_update {store : Store} {table : String} {patch : Record} {filter : Option Where}
    (evaluates : ∀ error, (store.update table patch filter).1 ≠ .error (.notIterable error)) :
    ∀ row ∈ store.tables.rows table, Answers filter row := by
  rcases answers_or_failing filter (store.tables.rows table) with answers | ⟨error, failing⟩
  · exact answers
  · rw [update_of_failing patch failing] at evaluates
    exact absurd rfl (evaluates error)

/-- What an update makes of the records of its table, and that the same update changes nothing when
it is made again. -/
theorem update_outcome (store : Store) (table : String) (patch : Record) (filter : Option Where)
    (evaluates : ∀ error, (store.update table patch filter).1 ≠ .error (.notIterable error)) :
    List.Forall₂ (UpdatedTo patch filter) (store.tables.rows table)
      ((store.update table patch filter).2.tables.rows table) ∧
    ((store.update table patch filter).2.update table patch filter).2 =
      (store.update table patch filter).2 := by
  refine ⟨?_, update_again store table patch filter⟩
  rw [update_of_answers store table patch (answers_of_update evaluates), rows_commit_withRows,
    List.forall₂_map_right_iff, List.forall₂_same]
  intro row _
  exact updatedTo_updatedRow patch filter row

def labelled : Store :=
  ⟨"data.json", .awaited, [("notes", [[("tags", .array [.string "new"]), ("text", .null)],
    [("tags", .string "old")]])], .absent⟩

def seen : Record := [("tags", .bool true), ("owner", .string "ana")]

def labelledNew : Where :=
  ⟨[("tags", ⟨.within, .and, .string "new"⟩)]⟩

theorem update_outcome_of_labelled :
    (labelled.update "notes" seen (some labelledNew)).1 = .ok () ∧
      (labelled.update "notes" seen (some labelledNew)).2.tables.rows "notes" =
        [[("tags", .bool true), ("text", .null)], [("tags", .string "old")]] ∧
      List.Forall₂ (UpdatedTo seen (some labelledNew)) (labelled.tables.rows "notes")
        [[("tags", .bool true), ("text", .null)], [("tags", .string "old")]] ∧
      ((labelled.update "notes" seen (some labelledNew)).2.update "notes" seen
        (some labelledNew)).1 = .error (.notIterable ⟨"tags"⟩) ∧
      ((labelled.update "notes" seen (some labelledNew)).2.update "notes" seen
        (some labelledNew)).2 = (labelled.update "notes" seen (some labelledNew)).2 := by
  have done : (labelled.update "notes" seen (some labelledNew)).1 = .ok () := rfl
  have outcome := update_outcome labelled "notes" seen (some labelledNew) (by simp [done])
  exact ⟨done, rfl, outcome.1, rfl, outcome.2⟩

theorem select_eq_ok_iff (store : Store) (table : String) (filter : Option Where)
    (selected : List Record) :
    (store.select table filter).1 = .ok selected ↔
      (∀ row ∈ store.tables.rows table, Answers filter row) ∧
        selected = (store.tables.rows table).filter (selects filter) := by
  rw [select]
  rcases answers_or_failing filter (store.tables.rows table) with answers | ⟨error, failing⟩
  · rw [selectRows_of_answers answers, and_iff_right answers]
    simp [eq_comm]
  · have notAll : ¬∀ row ∈ store.tables.rows table, Answers filter row := by
      intro answers
      rw [verdicts_of_answers answers] at failing
      cases failing
    rw [selectRows_eq, failing]
    simp [Except.map, notAll]

theorem commit_ne_notIterable (store : Store) (error : NotIterable) :
    store.commit.1 ≠ .error (.notIterable error) := by
  intro failed
  rcases writable_or_refused store.slot with writable | ⟨cause, refused⟩
  · rw [commit_of_writable writable] at failed
    cases failed
  · rw [commit_of_refused refused] at failed
    cases failed

theorem rows_delete {store : Store} {table : String} {filter : Option Where}
    (answers : ∀ row ∈ store.tables.rows table, Answers filter row) :
    (store.delete table filter).2.tables.rows table =
      (store.tables.rows table).filter fun row => !selects filter row := by
  rw [delete_of_answers store table answers, rows_commit_withRows]

theorem answers_rows_delete {store : Store} {table : String} {filter : Option Where}
    (answers : ∀ row ∈ store.tables.rows table, Answers filter row) :
    ∀ row ∈ (store.delete table filter).2.tables.rows table, Answers filter row := by
  intro row isKept
  rw [rows_delete answers] at isKept
  exact answers row (List.mem_of_mem_filter isKept)

theorem delete_of_failing {store : Store} {table : String} {filter : Option Where}
    {error : NotIterable} (failing : verdicts filter (store.tables.rows table) = .error error) :
    store.delete table filter = (.error (.notIterable error), store) := by
  rw [delete_eq, keepRows_eq, failing]
  rfl

theorem delete_again (store : Store) (table : String) (filter : Option Where) :
    (store.delete table filter).2.delete table filter = store.delete table filter := by
  rcases answers_or_failing filter (store.tables.rows table) with answers | ⟨error, failing⟩
  · rw [delete_of_answers _ table (answers_rows_delete answers), rows_delete answers,
      List.filter_filter]
    simp only [Bool.and_self]
    rw [delete_of_answers store table answers, commit_withRows_again]
  · rw [delete_of_failing failing, delete_of_failing failing]

theorem select_delete {store : Store} {table : String} {filter : Option Where}
    (answers : ∀ row ∈ store.tables.rows table, Answers filter row) :
    ((store.delete table filter).2.select table filter).1 = .ok [] := by
  refine (select_eq_ok_iff _ table filter []).mpr ⟨answers_rows_delete answers, ?_⟩
  rw [rows_delete answers]
  simp

theorem rows_delete_empty (store : Store) (table : String) :
    (store.delete table (some .empty)).2.tables.rows table = store.tables.rows table := by
  have answers : ∀ row ∈ store.tables.rows table, Answers (some .empty) row := by
    intro row _ spec given
    cases given
    exact ⟨false, rfl⟩
  have noneSelected : selects (some .empty) = fun _ => false := rfl
  rw [rows_delete answers, noneSelected]
  simp

theorem rows_delete_none (store : Store) (table : String) :
    (store.delete table none).2.tables.rows table = [] := by
  have answers : ∀ row ∈ store.tables.rows table, Answers none row := by
    intro row _ spec impossible
    cases impossible
  have allSelected : selects none = fun _ => true := rfl
  rw [rows_delete answers, allSelected]
  simp

/-- What a deletion leaves is what selecting by the same filter passes over, record by record; there
is nothing more to select then, and the same deletion changes nothing when it is made again. -/
theorem delete_outcome (store : Store) (table : String) :
    (∀ filter selected, (store.select table filter).1 = .ok selected →
      (∃ chosen : Record → Bool,
        (∀ row ∈ store.tables.rows table, chosen row = true ↔ IsSelected filter row) ∧
        selected = (store.tables.rows table).filter chosen ∧
        (store.delete table filter).2.tables.rows table =
          (store.tables.rows table).filter fun row => !chosen row) ∧
      ((store.delete table filter).2.tables.rows table).length ≤
        (store.tables.rows table).length ∧
      selected.length = (store.tables.rows table).length -
        ((store.delete table filter).2.tables.rows table).length ∧
      (∀ error, (store.delete table filter).1 ≠ .error (.notIterable error)) ∧
      ((store.delete table filter).2.select table filter).1 = .ok [] ∧
      (store.delete table filter).2.delete table filter = store.delete table filter) ∧
    (store.delete table (some .empty)).2.tables.rows table = store.tables.rows table ∧
    (store.delete table none).2.tables.rows table = [] := by
  refine ⟨?_, rows_delete_empty store table, rows_delete_none store table⟩
  intro filter selected found
  obtain ⟨answers, rfl⟩ := (select_eq_ok_iff store table filter selected).mp found
  have kept := rows_delete answers
  have parted := List.length_eq_length_filter_add (selects filter) (l := store.tables.rows table)
  refine ⟨⟨selects filter, ?_, rfl, kept⟩, ?_, ?_, ?_, select_delete answers,
    delete_again store table filter⟩
  · intro row _
    exact selects_eq_true_iff filter row
  · rw [kept]
    exact List.length_filter_le _ _
  · rw [kept]
    omega
  · intro error
    rw [delete_of_answers store table answers]
    exact commit_ne_notIterable _ error

theorem delete_outcome_of_labelled :
    (labelled.select "notes" (some labelledNew)).1 =
        .ok [[("tags", .array [.string "new"]), ("text", .null)]] ∧
      ((labelled.delete "notes" (some labelledNew)).2.select "notes" (some labelledNew)).1 = .ok [] ∧
      (labelled.delete "notes" (some labelledNew)).2.delete "notes" (some labelledNew) =
        labelled.delete "notes" (some labelledNew) ∧
      (labelled.delete "notes" (some .empty)).2.tables.rows "notes" = labelled.tables.rows "notes" ∧
      (labelled.delete "notes" none).2.tables.rows "notes" = [] := by
  have found : (labelled.select "notes" (some labelledNew)).1 =
      .ok [[("tags", .array [.string "new"]), ("text", .null)]] := rfl
  have outcome := delete_outcome labelled "notes"
  obtain ⟨_, _, _, _, nothing, again⟩ := outcome.1 (some labelledNew) _ found
  exact ⟨found, nothing, again, outcome.2⟩

end Store

end TableServer
