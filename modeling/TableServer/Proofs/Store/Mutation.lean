import TableServer.Proofs.Store.WriteBack
import TableServer.Proofs.Where.Outcome

/-! What an operation does, told apart into the pass of its filter over the records and the write
that follows. The pass is the same for selecting, updating and deleting, and it sees the tables
only; the write is the same for every mutation that gets past it, and it is where the way to insert
makes its difference. -/

namespace TableServer

def verdicts (filter : Option Where) (rows : List Record) : Except NotIterable (List Bool) :=
  match filter with
  | none => .ok (rows.map fun _ => true)
  | some spec => rows.mapM spec.matches?

theorem verdicts_nil (filter : Option Where) : verdicts filter [] = .ok [] := by
  cases filter <;> rfl

theorem Tables.has_of_failing {filter : Option Where} {tables : Tables} {table : String}
    {error : NotIterable} (failing : verdicts filter (tables.rows table) = .error error) :
    Entries.has tables table = true := by
  apply has_of_rows
  intro empty
  rw [empty, verdicts_nil] at failing
  cases failing

theorem verdicts_cons (spec : Where) (row : Record) (rest : List Record) :
    verdicts (some spec) (row :: rest) =
      match spec.matches? row with
      | .error error => .error error
      | .ok selected => (verdicts (some spec) rest).map (selected :: ·) := by
  simp only [verdicts, List.mapM_cons]
  cases spec.matches? row with
  | error error => rfl
  | ok selected => cases rest.mapM spec.matches? <;> rfl

theorem selectRows_eq (filter : Option Where) (rows : List Record) :
    selectRows filter rows = (verdicts filter rows).map fun selected =>
      ((rows.zip selected).filter Prod.snd).map Prod.fst := by
  induction rows with
  | nil => rw [verdicts_nil]; rfl
  | cons row rest ih =>
    cases filter with
    | none =>
      have all : selectRows none rest = .ok rest := by cases rest <;> rfl
      rw [all] at ih
      exact congrArg Except.ok (congrArg (row :: ·) (Except.ok.inj ih))
    | some spec =>
      rw [selectRows, verdicts_cons, ih]
      cases spec.matches? row with
      | error error => rfl
      | ok chosen =>
        cases verdicts (some spec) rest with
        | error error => rfl
        | ok selected => cases chosen <;> rfl

theorem updateRows_eq (patch : Record) (filter : Option Where) (rows : List Record) :
    updateRows patch filter rows = (verdicts filter rows).map fun selected =>
      List.zipWith (fun row chosen => if chosen then patchRow patch row else row) rows selected := by
  induction rows with
  | nil => rw [verdicts_nil]; rfl
  | cons row rest ih =>
    cases filter with
    | none =>
      have all : updateRows patch none rest = .ok (rest.map (patchRow patch)) := by
        cases rest <;> rfl
      rw [all] at ih
      exact congrArg Except.ok (congrArg (patchRow patch row :: ·) (Except.ok.inj ih))
    | some spec =>
      rw [updateRows, verdicts_cons, ih]
      cases spec.matches? row with
      | error error => rfl
      | ok chosen => cases verdicts (some spec) rest <;> rfl

theorem keepRows_eq (filter : Option Where) (rows : List Record) :
    keepRows filter rows = (verdicts filter rows).map fun selected =>
      ((rows.zip selected).filter fun entry => !entry.2).map Prod.fst := by
  induction rows with
  | nil => rw [verdicts_nil]; rfl
  | cons row rest ih =>
    cases filter with
    | none =>
      have all : keepRows none rest = .ok [] := by cases rest <;> rfl
      rw [all] at ih
      exact ih
    | some spec =>
      rw [keepRows, verdicts_cons, ih]
      cases spec.matches? row with
      | error error => rfl
      | ok chosen =>
        cases verdicts (some spec) rest with
        | error error => rfl
        | ok selected => cases chosen <;> rfl

theorem Tables.rows_put (tables : Tables) (table : String) (rows : List Record) :
    Tables.rows (Entries.put tables table rows) table = rows := by
  simp [Tables.rows, Entries.get?_put]

namespace StoreEvent

/-- The table that an operation goes through record by record, and the filter it goes by. -/
def filtered? : StoreEvent → Option (String × Option Where)
  | .select table filter => some (table, filter)
  | .update table _ filter => some (table, filter)
  | .delete table filter => some (table, filter)
  | _ => none

/-- The event ends in a write, unless its filter fails. -/
def Mutates : StoreEvent → Prop
  | .insert _ _ => True
  | .update _ _ _ => True
  | .delete _ _ => True
  | .flush => True
  | _ => False

end StoreEvent

def Tables.failure? (tables : Tables) (event : StoreEvent) : Option NotIterable :=
  match event.filtered? with
  | none => none
  | some (table, filter) =>
    match verdicts filter (tables.rows table) with
    | .error error => some error
    | .ok _ => none

theorem Tables.failure?_eq_some_iff {event : StoreEvent} {table : String} {filter : Option Where}
    (goes : event.filtered? = some (table, filter)) (tables : Tables) (error : NotIterable) :
    tables.failure? event = some error ↔ verdicts filter (tables.rows table) = .error error := by
  simp only [Tables.failure?, goes]
  cases verdicts filter (tables.rows table) <;> simp

def Slot.Writable (slot : Slot) : Prop :=
  slot.access.writeError? = none

namespace Store

def finish (store : Store) : StoreEvent → Except StoreError Unit × Store
  | .insert _ _ =>
    match store.mode with
    | .awaited => store.commit
    | .detached => store.commitDetached
  | _ => store.commit

theorem happen_of_failure {store : Store} {event : StoreEvent} {error : NotIterable}
    (fails : store.tables.failure? event = some error) :
    store.happen event = (.error (.notIterable error), store) := by
  cases event with
  | insert | flush | reopen | outside => cases fails
  | select table filter =>
    have failing := (Tables.failure?_eq_some_iff rfl store.tables error).mp fails
    have known : store.withTable table = store := by
      rw [withTable, Tables.touch_of_has (Tables.has_of_failing failing)]
    rw [happen, select, selectRows_eq, failing, known]
    rfl
  | update table patch filter =>
    have failing := (Tables.failure?_eq_some_iff rfl store.tables error).mp fails
    rw [happen, update_eq, updateRows_eq, failing]
    rfl
  | delete table filter =>
    have failing := (Tables.failure?_eq_some_iff rfl store.tables error).mp fails
    rw [happen, delete_eq, keepRows_eq, failing]
    rfl

theorem verdicts_of_passes {tables : Tables} {event : StoreEvent} {table : String}
    {filter : Option Where} (goes : event.filtered? = some (table, filter))
    (passes : tables.failure? event = none) :
    ∃ selected, verdicts filter (tables.rows table) = .ok selected := by
  cases found : verdicts filter (tables.rows table) with
  | ok selected => exact ⟨selected, rfl⟩
  | error error =>
    rw [← Tables.failure?_eq_some_iff goes, passes] at found
    cases found

theorem happen_of_passes {store : Store} {event : StoreEvent} (mutates : event.Mutates)
    (passes : store.tables.failure? event = none) :
    store.happen event =
      answeringDone ((store.withTables (store.tables.effect event)).finish event) := by
  cases event with
  | select | reopen | outside => exact mutates.elim
  | insert table record => rfl
  | flush => rfl
  | update table patch filter =>
    obtain ⟨selected, passed⟩ := verdicts_of_passes rfl passes
    simp only [happen, update_eq, Tables.effect, updateRows_eq, passed]
    rfl
  | delete table filter =>
    obtain ⟨selected, passed⟩ := verdicts_of_passes rfl passes
    simp only [happen, delete_eq, Tables.effect, keepRows_eq, passed]
    rfl

theorem tables_commit (store : Store) : store.commit.2.tables = store.tables := by
  rcases store.commit_cases with done | ⟨error, failed⟩
  · rw [done]
    rfl
  · rw [failed]

theorem rows_commit_withRows (store : Store) (table : String) (rows : List Record) :
    (store.withRows table rows).commit.2.tables.rows table = rows := by
  rw [tables_commit]
  exact Tables.rows_put store.tables table rows

theorem commit_of_writable {store : Store} (writable : store.slot.Writable) :
    store.commit = (.ok (), store.written) := by
  rw [Slot.Writable] at writable
  simp only [commit, Slot.write, writable]
  rfl

theorem commit_of_refused {store : Store} {cause : FileError}
    (refused : store.slot.access.writeError? = some cause) :
    store.commit = (.error (.persistence store.path cause), store) := by
  simp only [commit, Slot.write, refused]

theorem writable_or_refused (slot : Slot) :
    slot.Writable ∨ ∃ cause, slot.access.writeError? = some cause := by
  rw [Slot.Writable]
  cases slot.access.writeError? with
  | none => exact Or.inl rfl
  | some cause => exact Or.inr ⟨cause, rfl⟩

theorem finish_of_writable {store : Store} (writable : store.slot.Writable) (event : StoreEvent) :
    store.finish event = (.ok (), store.written) := by
  have committed := commit_of_writable writable
  cases event with
  | insert table record =>
    rw [finish]
    cases store.mode with
    | awaited => exact committed
    | detached => rw [commitDetached_eq, committed]
  | select | update | delete | flush | reopen | outside => exact committed

theorem finish_of_refused {store : Store} {cause : FileError}
    (refused : store.slot.access.writeError? = some cause) (event : StoreEvent) :
    (store.finish event).2 = store ∧
      ((store.finish event).1 = .error (.persistence store.path cause) ∨
        (store.finish event).1 = .ok ()) := by
  have committed := commit_of_refused refused
  cases event with
  | insert table record =>
    rw [finish]
    cases store.mode with
    | awaited => simp only [committed]; exact ⟨trivial, Or.inl trivial⟩
    | detached => simp [commitDetached_eq, committed]
  | select | update | delete | flush | reopen | outside => simp [finish, committed]

end Store

end TableServer
