import TableServer.Proofs.Store.Mutation

/-! What a failing operation leaves behind. A filter that fails leaves everything as it was, and the
operations that go by a filter fail alike. A write that fails leaves the file as it was, but the
tables are those of the operation that succeeds, and the next write that succeeds stores them. -/

namespace TableServer

namespace Store

def Writes (store : Store) (event : StoreEvent) : Prop :=
  event.Mutates ∧ store.slot.Writable ∧ ∃ answer, (store.happen event).1 = .ok answer

theorem finish_error {store : Store} {event : StoreEvent} {error : StoreError}
    (failed : (store.finish event).1 = .error error) :
    (∃ cause, error = .persistence store.path cause) ∧ (store.finish event).2 = store := by
  rcases writable_or_refused store.slot with writable | ⟨cause, refused⟩
  · rw [finish_of_writable writable] at failed
    cases failed
  · obtain ⟨same, answer | answer⟩ := finish_of_refused refused event
    · rw [answer] at failed
      cases failed
      exact ⟨⟨cause, rfl⟩, same⟩
    · rw [answer] at failed
      cases failed

theorem writtenBack_of_writes {store : Store} {event : StoreEvent} (writes : store.Writes event) :
    (store.happen event).2.WrittenBack := by
  obtain ⟨mutates, writable, answer, done⟩ := writes
  cases found : store.tables.failure? event with
  | some error =>
    rw [happen_of_failure found] at done
    cases done
  | none =>
    have reaches : (store.withTables (store.tables.effect event)).slot.Writable := writable
    rw [happen_of_passes mutates found, finish_of_writable reaches]
    exact writtenBack_written _

/-- A write that succeeds stores what every operation since the opening did, each once and in
order, whatever became of the writes before it. -/
theorem holds_of_writes {store : Store} {earlier : List StoreEvent} {event : StoreEvent}
    (stays : ∀ other ∈ earlier, other ≠ .reopen) (writes : (store.after earlier).Writes event) :
    ((store.after earlier).happen event).2.slot.Holds
      ((earlier ++ [event]).foldl Tables.effect store.tables) := by
  have staysToo : event ≠ .reopen := by
    rintro rfl
    exact writes.1
  have tables : ((store.after earlier).happen event).2.tables =
      (earlier ++ [event]).foldl Tables.effect store.tables := by
    rw [tables_of_happen staysToo, tables_after stays, List.foldl_append]
    rfl
  rw [← tables]
  exact writtenBack_of_writes writes

def unstored : StoreEvent := .insert "notes" [("text", .null)]

end Store

end TableServer
