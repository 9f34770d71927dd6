import Mathlib.Data.List.Induction
import TableServer.Proofs.Store.RoundTrip
import TableServer.Store.History

/-! What the file of a store holds along a run of operations and outside changes. A write either
replaces the content by the whole table set or changes nothing, and the tables in memory change in
the same way whatever becomes of the writes; so a later write that succeeds also brings in what
earlier ones left out. -/

namespace TableServer

namespace StoreEvent

def WritesBack (mode : InsertPersistence) : StoreEvent → Prop
  | .insert _ _ => mode = .awaited
  | .update _ _ _ => True
  | .delete _ _ => True
  | .flush => True
  | _ => False

def IsOutside : StoreEvent → Prop
  | .outside _ => True
  | _ => False

def OnlyReads (slot : Slot) : StoreEvent → Prop
  | .select _ _ => True
  | .reopen => ∃ tables, Tables.load slot = .ok tables
  | _ => False

end StoreEvent

/-- What an event other than reopening makes of the tables. The file has no part in it. -/
def Tables.effect (tables : Tables) : StoreEvent → Tables
  | .select table _ => tables.touch table
  | .insert table record => Entries.put tables table (tables.rows table ++ [record])
  | .update table patch filter =>
    match updateRows patch filter (tables.rows table) with
    | .ok rows => Entries.put tables table rows
    | .error _ => tables
  | .delete table filter =>
    match keepRows filter (tables.rows table) with
    | .ok rows => Entries.put tables table rows
    | .error _ => tables
  | _ => tables

/-- The file holds the table set: to the byte what is written for it, and that is its text. -/
structure Slot.Holds (slot : Slot) (tables : Tables) : Prop where
  exact : slot.content? = some tables.encode
  text : tables.StoredIn tables.encode

theorem Slot.holds_holding (slot : Slot) (tables : Tables) :
    (slot.holding tables.encode).Holds tables :=
  ⟨rfl, tables.storedIn_encode⟩

theorem Slot.Holds.unique {slot : Slot} {tables other : Tables} (holds : slot.Holds tables)
    (holdsToo : slot.Holds other) : tables = other := by
  have same : tables.encode = other.encode :=
    Option.some.inj (holds.exact.symm.trans holdsToo.exact)
  exact Tables.eq_of_storedIn holds.text (same ▸ holdsToo.text)

namespace Store

def WrittenBack (store : Store) : Prop :=
  store.slot.Holds store.tables

def after (store : Store) (events : List StoreEvent) : Store :=
  events.foldl (fun store event => (store.happen event).2) store

def withTables (store : Store) (tables : Tables) : Store :=
  { store with tables := tables }

def written (store : Store) : Store :=
  { store with slot := store.slot.holding store.tables.encode }

theorem writtenBack_written (store : Store) : store.written.WrittenBack :=
  store.slot.holds_holding store.tables

theorem withTables_self (store : Store) : store.withTables store.tables = store := rfl

theorem commit_cases (store : Store) :
    store.commit = (.ok (), store.written) ∨ ∃ error, store.commit = (.error error, store) := by
  simp only [commit, Slot.write]
  cases store.slot.access.writeError? with
  | none => exact Or.inl rfl
  | some cause => exact Or.inr ⟨_, rfl⟩

/-- All that an operation on the tables can do: they change as its effect says, and are then
written, or not. Left unwritten are only reads, failures, and inserts nobody waits for. -/
inductive Step (store : Store) (event : StoreEvent) :
    Except StoreError StoreAnswer × Store → Prop where
  | kept (answer : Except StoreError StoreAnswer)
      (fails : event.WritesBack store.mode → ∃ error, answer = .error error) :
      Step store event (answer, store.withTables (store.tables.effect event))
  | wrote (writes : ¬∃ table filter, event = .select table filter) :
      Step store event (.ok .done, (store.withTables (store.tables.effect event)).written)

theorem step_commit (store : Store) (event : StoreEvent)
    (writes : ¬∃ table filter, event = .select table filter) :
    Step store event (answeringDone (store.withTables (store.tables.effect event)).commit) := by
  rcases commit_cases (store.withTables (store.tables.effect event)) with done | ⟨error, failed⟩
  · rw [done]
    exact .wrote writes
  · rw [failed]
    exact .kept (.error error) fun _ => ⟨error, rfl⟩

theorem step_commitDetached (store : Store) (event : StoreEvent)
    (writes : ¬∃ table filter, event = .select table filter)
    (nobodyWaits : ¬event.WritesBack store.mode) :
    Step store event
      (answeringDone (store.withTables (store.tables.effect event)).commitDetached) := by
  rw [commitDetached_eq]
  rcases commit_cases (store.withTables (store.tables.effect event)) with done | ⟨error, failed⟩
  · rw [done]
    exact .wrote writes
  · rw [failed]
    exact .kept (.ok .done) fun waits => absurd waits nobodyWaits

theorem step_failed (store : Store) (event : StoreEvent) (error : StoreError)
    (same : store.tables.effect event = store.tables) :
    Step store event (.error error, store) := by
  have kept : Step store event (.error error, store.withTables (store.tables.effect event)) :=
    .kept (.error error) fun _ => ⟨error, rfl⟩
  rw [same, withTables_self] at kept
  exact kept

theorem step_select (store : Store) (table : String) (filter : Option Where) :
    Step store (.select table filter) (store.happen (.select table filter)) :=
  .kept _ False.elim

theorem step_insert (store : Store) (table : String) (record : Record) :
    Step store (.insert table record) (store.happen (.insert table record)) := by
  have changed : store.withRows table (store.tables.rows table ++ [record]) =
      store.withTables (store.tables.effect (.insert table record)) := rfl
  simp only [happen, insert, changed]
  cases mode : store.mode with
  | awaited => exact step_commit store _ (by simp)
  | detached => exact step_commitDetached store _ (by simp) (by simp [StoreEvent.WritesBack, mode])

theorem step_update (store : Store) (table : String) (patch : Record) (filter : Option Where) :
    Step store (.update table patch filter) (store.happen (.update table patch filter)) := by
  have committed := step_commit store (.update table patch filter) (by simp)
  simp only [happen, update_eq]
  cases changed : updateRows patch filter (store.tables.rows table) with
  | error error => exact step_failed store _ _ (by simp only [Tables.effect, changed])
  | ok rows =>
    simp only [Tables.effect, changed] at committed
    exact committed

theorem step_delete (store : Store) (table : String) (filter : Option Where) :
    Step store (.delete table filter) (store.happen (.delete table filter)) := by
  have committed := step_commit store (.delete table filter) (by simp)
  simp only [happen, delete_eq]
  cases kept : keepRows filter (store.tables.rows table) with
  | error error => exact step_failed store _ _ (by simp only [Tables.effect, kept])
  | ok rows =>
    simp only [Tables.effect, kept] at committed
    exact committed

theorem openAt_of_load {slot : Slot} {tables : Tables} (path : String) (mode : InsertPersistence)
    (loads : Tables.load slot = .ok tables) :
    openAt path mode slot = .ok ⟨path, mode, tables, slot⟩ := by
  rw [openAt, loads]

theorem openAt_of_unloadable {slot : Slot} (path : String) (mode : InsertPersistence)
    (fails : ∀ tables, Tables.load slot ≠ .ok tables) :
    openAt path mode slot =
      match slot.write (Tables.encode []) with
      | .ok next => .ok ⟨path, mode, [], next⟩
      | .error cause => .error (.persistence path cause) := by
  cases loads : Tables.load slot with
  | ok tables => exact absurd loads (fails tables)
  | error cause =>
    simp only [openAt, loads, commit]
    cases slot.write (Tables.encode []) <;> rfl

theorem openAt_cases (path : String) (mode : InsertPersistence) (slot : Slot) :
    (∃ tables, Tables.load slot = .ok tables ∧
      openAt path mode slot = .ok ⟨path, mode, tables, slot⟩) ∨
    ((∀ tables, Tables.load slot ≠ .ok tables) ∧
      (openAt path mode slot = .ok ⟨path, mode, [], slot.holding (Tables.encode [])⟩ ∨
        ∃ cause, openAt path mode slot = .error (.persistence path cause))) := by
  by_cases loads : ∃ tables, Tables.load slot = .ok tables
  · obtain ⟨tables, loads⟩ := loads
    exact Or.inl ⟨tables, loads, openAt_of_load path mode loads⟩
  · have fails := not_exists.mp loads
    refine Or.inr ⟨fails, ?_⟩
    rw [openAt_of_unloadable path mode fails, Slot.write]
    cases slot.access.writeError? with
    | none => exact Or.inl rfl
    | some cause => exact Or.inr ⟨cause, rfl⟩

theorem reopen_cases (store : Store) :
    (∃ tables, Tables.load store.slot = .ok tables ∧
      store.reopen = (.ok (), store.withTables tables)) ∨
    ((∀ tables, Tables.load store.slot ≠ .ok tables) ∧
      (store.reopen = (.ok (), (store.withTables []).written) ∨
        ∃ error, store.reopen = (.error error, store))) := by
  rw [reopen]
  rcases openAt_cases store.path store.mode store.slot with
    ⟨tables, loads, opened⟩ | ⟨fails, opened | ⟨cause, failed⟩⟩
  · rw [opened]
    exact Or.inl ⟨tables, loads, rfl⟩
  · rw [opened]
    exact Or.inr ⟨fails, Or.inl rfl⟩
  · rw [failed]
    exact Or.inr ⟨fails, Or.inr ⟨_, rfl⟩⟩

theorem happen_cases (store : Store) (event : StoreEvent) :
    Step store event (store.happen event) ∨ event = .reopen ∨
      ∃ change, event = .outside change := by
  cases event with
  | select table filter => exact Or.inl (step_select store table filter)
  | insert table record => exact Or.inl (step_insert store table record)
  | update table patch filter => exact Or.inl (step_update store table patch filter)
  | delete table filter => exact Or.inl (step_delete store table filter)
  | flush => exact Or.inl (step_commit store .flush (by simp))
  | reopen => exact Or.inr (Or.inl rfl)
  | outside change => exact Or.inr (Or.inr ⟨change, rfl⟩)

theorem happen_mode (store : Store) (event : StoreEvent) :
    (store.happen event).2.mode = store.mode := by
  rcases happen_cases store event with step | rfl | ⟨change, rfl⟩
  · generalize store.happen event = outcome at step
    cases step <;> rfl
  · simp only [happen]
    rcases reopen_cases store with ⟨tables, _, same⟩ | ⟨_, same | ⟨error, same⟩⟩ <;>
      (rw [same]; rfl)
  · rfl

theorem after_mode (store : Store) (events : List StoreEvent) :
    (store.after events).mode = store.mode := by
  induction events generalizing store with
  | nil => rfl
  | cons event rest ih => exact (ih (store.happen event).2).trans (happen_mode store event)

theorem writtenBack_of_ok {store : Store} {event : StoreEvent} {answer : StoreAnswer}
    (writes : event.WritesBack store.mode) (done : (store.happen event).1 = .ok answer) :
    (store.happen event).2.WrittenBack := by
  rcases happen_cases store event with step | rfl | ⟨change, rfl⟩
  · generalize store.happen event = outcome at step done
    cases step with
    | kept outcome fails =>
      obtain ⟨error, failed⟩ := fails writes
      rw [failed] at done
      cases done
    | wrote => exact writtenBack_written _
  · exact writes.elim
  · exact writes.elim

theorem slot_of_error {store : Store} {event : StoreEvent} {error : StoreError}
    (failed : (store.happen event).1 = .error error) :
    (store.happen event).2.slot = store.slot := by
  rcases happen_cases store event with step | rfl | ⟨change, rfl⟩
  · generalize store.happen event = outcome at step failed
    cases step with
    | kept => rfl
    | wrote => cases failed
  · simp only [happen] at failed ⊢
    rcases reopen_cases store with ⟨tables, _, same⟩ | ⟨_, same | ⟨error, same⟩⟩
    · rw [same] at failed
      cases failed
    · rw [same] at failed
      cases failed
    · rw [same]
      rfl
  · cases failed

theorem slot_of_onlyReads {store : Store} {event : StoreEvent}
    (reads : event.OnlyReads store.slot) : (store.happen event).2.slot = store.slot := by
  cases event with
  | select table filter => rfl
  | reopen =>
    obtain ⟨found, loads⟩ := reads
    simp only [happen]
    rcases reopen_cases store with ⟨tables, _, same⟩ | ⟨fails, _⟩
    · rw [same]
      rfl
    · exact absurd loads (fails found)
  | insert | update | delete | flush | outside => exact reads.elim

theorem slot_of_happen {store : Store} {event : StoreEvent} (inside : ¬event.IsOutside) :
    (store.happen event).2.slot = store.slot ∨ (store.happen event).2.WrittenBack := by
  rcases happen_cases store event with step | rfl | ⟨change, rfl⟩
  · generalize store.happen event = outcome at step
    cases step with
    | kept => exact Or.inl rfl
    | wrote => exact Or.inr (writtenBack_written _)
  · simp only [happen]
    rcases reopen_cases store with ⟨tables, _, same⟩ | ⟨_, same | ⟨error, same⟩⟩
    · exact Or.inl (by rw [same]; rfl)
    · exact Or.inr (by rw [same]; exact writtenBack_written _)
    · exact Or.inl (by rw [same]; rfl)
  · exact absurd trivial inside

theorem access_of_happen {store : Store} {event : StoreEvent} (inside : ¬event.IsOutside) :
    (store.happen event).2.slot.access = store.slot.access := by
  rcases happen_cases store event with step | rfl | ⟨change, rfl⟩
  · generalize store.happen event = outcome at step
    cases step <;> rfl
  · simp only [happen]
    rcases reopen_cases store with ⟨tables, _, same⟩ | ⟨_, same | ⟨error, same⟩⟩ <;>
      (rw [same]; rfl)
  · exact absurd trivial inside

theorem access_after {store : Store} {events : List StoreEvent}
    (inside : ∀ event ∈ events, ¬event.IsOutside) :
    (store.after events).slot.access = store.slot.access := by
  induction events generalizing store with
  | nil => rfl
  | cons event rest ih =>
    rw [List.forall_mem_cons] at inside
    have further : ((store.happen event).2.after rest).slot.access =
        (store.happen event).2.slot.access := ih inside.2
    exact further.trans (access_of_happen inside.1)

theorem tables_of_happen {store : Store} {event : StoreEvent} (stays : event ≠ .reopen) :
    (store.happen event).2.tables = store.tables.effect event := by
  rcases happen_cases store event with step | rfl | ⟨change, rfl⟩
  · generalize store.happen event = outcome at step
    cases step <;> rfl
  · exact absurd rfl stays
  · rfl

theorem tables_after {store : Store} {events : List StoreEvent}
    (stays : ∀ event ∈ events, event ≠ .reopen) :
    (store.after events).tables = events.foldl Tables.effect store.tables := by
  induction events generalizing store with
  | nil => rfl
  | cons event rest ih =>
    have here := stays event List.mem_cons_self
    have further : ((store.happen event).2.after rest).tables =
        rest.foldl Tables.effect (store.happen event).2.tables :=
      ih fun later isLater => stays later (List.mem_cons_of_mem event isLater)
    rw [tables_of_happen here] at further
    exact further

theorem after_append (store : Store) (done further : List StoreEvent) :
    store.after (done ++ further) = (store.after done).after further :=
  List.foldl_append

theorem slot_after {store : Store} {events : List StoreEvent}
    (inside : ∀ event ∈ events, ¬event.IsOutside) :
    (store.after events).slot = store.slot ∨
      ∃ done further, events = done ++ further ∧
        (store.after events).slot.Holds (store.after done).tables := by
  -- The last event is split off: if it wrote, the whole run led to what the file holds, and if it
  -- did not, the file is that of the run before it.
  induction events using List.reverseRecOn with
  | nil => exact Or.inl rfl
  | append_singleton events event ih =>
    have last : store.after (events ++ [event]) = ((store.after events).happen event).2 := by
      rw [after_append]
      rfl
    have moved : ((store.after events).happen event).2.slot = (store.after events).slot ∨
        ((store.after events).happen event).2.WrittenBack :=
      slot_of_happen (inside event (by simp))
    rcases moved with same | writtenBack
    · rw [last, same]
      rcases ih fun earlier isEarlier => inside earlier (List.mem_append_left _ isEarlier) with
        same | ⟨done, further, rfl, holds⟩
      · exact Or.inl same
      · exact Or.inr ⟨done, further ++ [event], by rw [List.append_assoc], holds⟩
    · refine Or.inr ⟨events ++ [event], [], by simp, ?_⟩
      rw [last]
      exact writtenBack

theorem openAt_mode {path : String} {mode : InsertPersistence} {slot : Slot} {opened : Store}
    (opens : openAt path mode slot = .ok opened) : opened.mode = mode := by
  rcases openAt_cases path mode slot with ⟨tables, _, same⟩ | ⟨_, same | ⟨error, same⟩⟩
  · rw [same] at opens
    cases opens
    rfl
  · rw [same] at opens
    cases opens
    rfl
  · rw [same] at opens
    cases opens

theorem openAt_slot {path : String} {mode : InsertPersistence} {slot : Slot} {opened : Store}
    (opens : openAt path mode slot = .ok opened) :
    (opened.slot = slot ∧ Tables.load slot = .ok opened.tables) ∨
      ((∀ tables, Tables.load slot ≠ .ok tables) ∧ opened.WrittenBack ∧ opened.tables = []) := by
  rcases openAt_cases path mode slot with ⟨tables, loads, same⟩ | ⟨fails, same | ⟨error, same⟩⟩
  · rw [same] at opens
    cases opens
    exact Or.inl ⟨rfl, loads⟩
  · rw [same] at opens
    cases opens
    exact Or.inr ⟨fails, slot.holds_holding [], rfl⟩
  · rw [same] at opens
    cases opens

theorem openAt_access {path : String} {mode : InsertPersistence} {slot : Slot} {opened : Store}
    (opens : openAt path mode slot = .ok opened) : opened.slot.access = slot.access := by
  rcases openAt_cases path mode slot with ⟨tables, _, same⟩ | ⟨_, same | ⟨error, same⟩⟩
  · rw [same] at opens
    cases opens
    rfl
  · rw [same] at opens
    cases opens
    rfl
  · rw [same] at opens
    cases opens

/-- What the file holds after each step of a run from any opening. -/
theorem file_along_run {path : String} {mode : InsertPersistence} {slot : Slot} {opened : Store}
    (opens : openAt path mode slot = .ok opened) (before : List StoreEvent) :
    (opened.slot.access = slot.access ∧
      ((opened.slot = slot ∧ Tables.load slot = .ok opened.tables) ∨
        ((∀ tables, Tables.load slot ≠ .ok tables) ∧ opened.WrittenBack ∧ opened.tables = []))) ∧
    (∀ event answer, event.WritesBack mode →
      ((opened.after before).happen event).1 = .ok answer →
        ((opened.after before).happen event).2.WrittenBack) ∧
    (∀ event, event.OnlyReads (opened.after before).slot →
      ((opened.after before).happen event).2.slot = (opened.after before).slot) ∧
    (∀ event error, ((opened.after before).happen event).1 = .error error →
      ((opened.after before).happen event).2.slot = (opened.after before).slot) ∧
    (∀ event, ¬event.IsOutside →
      ((opened.after before).happen event).2.slot = (opened.after before).slot ∨
        ((opened.after before).happen event).2.WrittenBack) ∧
    (∀ events, (∀ event ∈ events, event ≠ .reopen) →
      ((opened.after before).after events).tables =
        events.foldl Tables.effect (opened.after before).tables) ∧
    ∀ events, (∀ event ∈ events, ¬event.IsOutside) →
      ((opened.after before).after events).slot.access = (opened.after before).slot.access ∧
      (((opened.after before).after events).slot = (opened.after before).slot ∨
        ∃ done further, events = done ++ further ∧
          ((opened.after before).after events).slot.Holds
            ((opened.after before).after done).tables) := by
  have modes : (opened.after before).mode = mode :=
    (after_mode opened before).trans (openAt_mode opens)
  refine ⟨⟨openAt_access opens, openAt_slot opens⟩, ?_, fun _ reads => slot_of_onlyReads reads,
    fun _ _ failed => slot_of_error failed, fun _ inside => slot_of_happen inside,
    fun _ stays => tables_after stays, fun _ inside => ⟨access_after inside, slot_after inside⟩⟩
  intro event answer writes done
  rw [← modes] at writes
  exact writtenBack_of_ok writes done

def interrupted : List StoreEvent :=
  [.outside .block, .insert "notes" [("text", .null)], .outside .unblock]

theorem file_along_interrupted :
    openAt "data.json" .awaited .absent =
        .ok ⟨"data.json", .awaited, [], .file (Tables.encode [])⟩ ∧
      ((after ⟨"data.json", .awaited, [], .file (Tables.encode [])⟩ [.outside .block]).happen
        (.insert "notes" [("text", .null)])).2.slot = .refused .isDirectory ∧
      ((after ⟨"data.json", .awaited, [], .file (Tables.encode [])⟩
        interrupted).happen .flush).2.slot.Holds [("notes", [[("text", .null)]])] := by
  have opens : openAt "data.json" .awaited .absent =
      .ok ⟨"data.json", .awaited, [], .file (Tables.encode [])⟩ := rfl
  have blocked := file_along_run opens [.outside .block]
  have run := file_along_run opens interrupted
  refine ⟨opens, ?_, run.2.1 .flush .done trivial rfl⟩
  exact blocked.2.2.2.1 (.insert "notes" [("text", .null)]) _ rfl

end Store

end TableServer
