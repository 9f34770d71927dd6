import TableServer.Store.Tables
import TableServer.Where.Basic

/-! The document store: tables in memory and the file behind them. Every operation that names a
table creates it, empty, if it is not there. A mutation is kept in memory whether or not its
write succeeds. -/

namespace TableServer

/-- Whether an insert waits for its write and reports it, or leaves it to the background. -/
inductive InsertPersistence where
  | awaited
  | detached
deriving DecidableEq

inductive StoreError where
  | notIterable (cause : NotIterable)
  | persistence (path : String) (cause : FileError)
deriving DecidableEq

def StoreError.message : StoreError → String
  | notIterable cause => cause.message
  | persistence path cause => "Failed to persist storage to " ++ path ++ ": " ++ cause.message

structure Store where
  path : String
  mode : InsertPersistence
  tables : Tables
  slot : Slot

namespace Tables

def rows (tables : Tables) (table : String) : List Record :=
  (Entries.get? tables table).getD []

def touch (tables : Tables) (table : String) : Tables :=
  if Entries.has tables table then tables else Entries.put tables table []

theorem rows_touch (tables : Tables) (table : String) :
    (tables.touch table).rows table = tables.rows table := by
  rw [touch]
  split
  · rfl
  · rename_i absent
    have missing : Entries.get? tables table = none := by
      simpa [Entries.has] using absent
    simp [rows, Entries.get?_put, missing]

theorem put_touch (tables : Tables) (table : String) (rows : List Record) :
    Entries.put (tables.touch table) table rows = Entries.put tables table rows := by
  rw [touch]
  split
  · rfl
  · exact Entries.put_put tables table [] rows

theorem touch_of_has {tables : Tables} {table : String}
    (present : Entries.has tables table = true) :
    tables.touch table = tables :=
  if_pos present

theorem has_of_rows {tables : Tables} {table : String} (filled : tables.rows table ≠ []) :
    Entries.has tables table = true := by
  rw [Entries.has, Option.isSome_iff_ne_none]
  intro missing
  exact filled (by rw [rows, missing]; rfl)

end Tables

/-- The records that a filter selects, in order; without a filter all of them. The first record on
which the filter fails decides. -/
def selectRows (filter : Option Where) : List Record → Except NotIterable (List Record)
  | [] => .ok []
  | row :: rest =>
    match filter with
    | none => .ok (row :: rest)
    | some spec =>
      match spec.matches? row with
      | .error error => .error error
      | .ok selected =>
        match selectRows filter rest with
        | .error error => .error error
        | .ok others => .ok (if selected then row :: others else others)

/-- The value of each field that the patch also has; no field is added. -/
def patchRow (patch row : Record) : Record :=
  row.map fun (field, value) => (field, (Entries.get? patch field).getD value)

theorem keys_patchRow (patch row : Record) :
    Entries.keys (patchRow patch row) = Entries.keys row := by
  simp [Entries.keys, patchRow]

theorem get?_patchRow (patch row : Record) (field : String) :
    Entries.get? (patchRow patch row) field =
      (Entries.get? row field).map fun value => (Entries.get? patch field).getD value := by
  induction row with
  | nil => rfl
  | cons entry rest ih =>
    have first : patchRow patch (entry :: rest) =
        (entry.1, (Entries.get? patch entry.1).getD entry.2) :: patchRow patch rest := rfl
    rw [first, Entries.get?_cons, Entries.get?_cons, ih]
    by_cases same : field = entry.1
    · simp [same]
    · simp [same]

theorem patchRow_patchRow (patch row : Record) :
    patchRow patch (patchRow patch row) = patchRow patch row := by
  rw [patchRow, patchRow, List.map_map]
  apply List.map_congr_left
  intro entry _
  cases found : Entries.get? patch entry.1 <;> simp [found]

def updateRows (patch : Record) (filter : Option Where) :
    List Record → Except NotIterable (List Record)
  | [] => .ok []
  | row :: rest =>
    match filter with
    | none => .ok ((row :: rest).map (patchRow patch))
    | some spec =>
      match spec.matches? row with
      | .error error => .error error
      | .ok selected =>
        match updateRows patch filter rest with
        | .error error => .error error
        | .ok others => .ok ((if selected then patchRow patch row else row) :: others)

/-- The records that remain when the selected ones go; without a filter none. -/
def keepRows (filter : Option Where) : List Record → Except NotIterable (List Record)
  | [] => .ok []
  | row :: rest =>
    match filter with
    | none => .ok []
    | some spec =>
      match spec.matches? row with
      | .error error => .error error
      | .ok selected =>
        match keepRows filter rest with
        | .error error => .error error
        | .ok others => .ok (if selected then others else row :: others)

namespace Store

def commit (store : Store) : Except StoreError Unit × Store :=
  match store.slot.write (Tables.encode store.tables) with
  | .ok slot => (.ok (), { store with slot := slot })
  | .error cause => (.error (.persistence store.path cause), store)

/-- A write that nobody waits for. What comes of it is not reported. -/
def writeUnheeded (content : ByteArray) (store : Store) : Store :=
  match store.slot.write content with
  | .ok slot => { store with slot := slot }
  | .error _ => store

def commitDetached (store : Store) : Except StoreError Unit × Store :=
  (.ok (), store.writeUnheeded (Tables.encode store.tables))

theorem commitDetached_eq (store : Store) : store.commitDetached = (.ok (), store.commit.2) := by
  rw [commitDetached, writeUnheeded, commit]
  cases store.slot.write (Tables.encode store.tables) <;> rfl

/-- A file that holds a table set is taken as it is. Any other is replaced by an empty table set;
only the failure of that write is an error. -/
def openAt (path : String) (mode : InsertPersistence) (slot : Slot) : Except StoreError Store :=
  match Tables.load slot with
  | .ok tables => .ok ⟨path, mode, tables, slot⟩
  | .error _ =>
    let fresh : Store := ⟨path, mode, [], slot⟩
    match fresh.commit with
    | (.ok (), store) => .ok store
    | (.error error, _) => .error error

def withRows (store : Store) (table : String) (rows : List Record) : Store :=
  { store with tables := Entries.put store.tables table rows }

/-- The table is there before anything is done with its rows. -/
def withTable (store : Store) (table : String) : Store :=
  { store with tables := store.tables.touch table }

def select (store : Store) (table : String) (filter : Option Where) :
    Except StoreError (List Record) × Store :=
  let result := match selectRows filter (store.tables.rows table) with
    | .ok rows => .ok rows
    | .error error => .error (.notIterable error)
  (result, store.withTable table)

def insert (store : Store) (table : String) (record : Record) : Except StoreError Unit × Store :=
  let changed := store.withRows table (store.tables.rows table ++ [record])
  match store.mode with
  | .awaited => changed.commit
  | .detached => changed.commitDetached

def update (store : Store) (table : String) (patch : Record) (filter : Option Where) :
    Except StoreError Unit × Store :=
  let created := store.withTable table
  match updateRows patch filter (created.tables.rows table) with
  | .error error => (.error (.notIterable error), created)
  | .ok rows => (created.withRows table rows).commit

def delete (store : Store) (table : String) (filter : Option Where) :
    Except StoreError Unit × Store :=
  let created := store.withTable table
  match keepRows filter (created.tables.rows table) with
  | .error error => (.error (.notIterable error), created)
  | .ok rows => (created.withRows table rows).commit

/-- A membership test can fail only on a record, so its table was there before. -/
theorem update_eq (store : Store) (table : String) (patch : Record) (filter : Option Where) :
    store.update table patch filter =
      match updateRows patch filter (store.tables.rows table) with
      | .error error => (.error (.notIterable error), store)
      | .ok rows => (store.withRows table rows).commit := by
  simp only [update, withTable, withRows, Tables.rows_touch, Tables.put_touch]
  cases changed : updateRows patch filter (store.tables.rows table) with
  | ok rows => rfl
  | error error =>
    have filled : store.tables.rows table ≠ [] := by
      intro empty
      rw [empty] at changed
      cases changed
    rw [Tables.touch_of_has (Tables.has_of_rows filled)]

theorem delete_eq (store : Store) (table : String) (filter : Option Where) :
    store.delete table filter =
      match keepRows filter (store.tables.rows table) with
      | .error error => (.error (.notIterable error), store)
      | .ok rows => (store.withRows table rows).commit := by
  simp only [delete, withTable, withRows, Tables.rows_touch, Tables.put_touch]
  cases kept : keepRows filter (store.tables.rows table) with
  | ok rows => rfl
  | error error =>
    have filled : store.tables.rows table ≠ [] := by
      intro empty
      rw [empty] at kept
      cases kept
    rw [Tables.touch_of_has (Tables.has_of_rows filled)]

def flush (store : Store) : Except StoreError Unit × Store :=
  store.commit

def reopen (store : Store) : Except StoreError Unit × Store :=
  match openAt store.path store.mode store.slot with
  | .ok opened => (.ok (), opened)
  | .error error => (.error error, store)

end Store

end TableServer
