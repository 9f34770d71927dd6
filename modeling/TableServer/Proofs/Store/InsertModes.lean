import TableServer.Proofs.Store.Failure

/-! The two ways to insert. Whether a store waits for the writes of its inserts makes no difference
to its tables or its file, as long as every write is finished before the next event; it only decides
whether an insert reports that its write failed. -/

namespace TableServer

/-- Both report the same, unless an insert cannot be written: only the store that waits says so. -/
def StoreEvent.ReportedAlike (event : StoreEvent)
    (awaited detached : Except StoreError StoreAnswer) : Prop :=
  awaited = detached ∨
    (∃ table record, event = .insert table record) ∧
      (∃ path cause, awaited = .error (.persistence path cause)) ∧ detached = .ok .done

namespace Store

def inMode (store : Store) (mode : InsertPersistence) : Store :=
  { store with mode := mode }

theorem inMode_self {store : Store} {mode : InsertPersistence} (already : store.mode = mode) :
    store.inMode mode = store := by
  subst already
  rfl

theorem openAt_eq_map (path : String) (mode : InsertPersistence) (slot : Slot) :
    openAt path mode slot = (openAt path .awaited slot).map fun store => store.inMode mode := by
  by_cases loads : ∃ tables, Tables.load slot = .ok tables
  · obtain ⟨tables, loads⟩ := loads
    rw [openAt_of_load path mode loads, openAt_of_load path .awaited loads]
    rfl
  · have fails := not_exists.mp loads
    rw [openAt_of_unloadable path mode fails, openAt_of_unloadable path .awaited fails]
    cases slot.write (Tables.encode []) <;> rfl

theorem reopen_inMode (store : Store) (mode : InsertPersistence) :
    (store.inMode mode).reopen =
      ((store.inMode .awaited).reopen.1, (store.inMode .awaited).reopen.2.inMode mode) := by
  simp only [reopen, inMode]
  rw [openAt_eq_map store.path mode store.slot]
  cases openAt store.path .awaited store.slot <;> rfl

theorem finish_inMode (store : Store) (event : StoreEvent) :
    ((store.inMode .detached).finish event).2 =
        ((store.inMode .awaited).finish event).2.inMode .detached ∧
      event.ReportedAlike (answeringDone ((store.inMode .awaited).finish event)).1
        (answeringDone ((store.inMode .detached).finish event)).1 := by
  rcases writable_or_refused store.slot with writable | ⟨cause, refused⟩
  · have inEither : ∀ mode, (store.inMode mode).finish event =
        (.ok (), (store.inMode mode).written) := by
      intro mode
      have alsoWritable : (store.inMode mode).slot.Writable := writable
      exact finish_of_writable alsoWritable event
    rw [inEither .awaited, inEither .detached]
    exact ⟨rfl, Or.inl rfl⟩
  · have inEither : ∀ mode, (store.inMode mode).commit =
        (.error (.persistence store.path cause), store.inMode mode) := by
      intro mode
      have alsoRefused : (store.inMode mode).slot.access.writeError? = some cause := refused
      exact commit_of_refused alsoRefused
    cases event with
    | insert table record =>
      have failed : (store.inMode .awaited).finish (.insert table record) =
          (.error (.persistence store.path cause), store.inMode .awaited) := inEither .awaited
      have unnoticed : (store.inMode .detached).finish (.insert table record) =
          (.ok (), store.inMode .detached) := by
        have unheeded : (store.inMode .detached).finish (.insert table record) =
            (store.inMode .detached).commitDetached := rfl
        rw [unheeded, commitDetached_eq, inEither .detached]
      rw [failed, unnoticed]
      exact ⟨rfl, Or.inr ⟨⟨table, record, rfl⟩, ⟨store.path, cause, rfl⟩, rfl⟩⟩
    | select | update | delete | flush | reopen | outside =>
      simp only [finish, inEither]
      exact ⟨rfl, Or.inl rfl⟩

theorem happen_inMode (store : Store) (event : StoreEvent) :
    ((store.inMode .detached).happen event).2 =
        ((store.inMode .awaited).happen event).2.inMode .detached ∧
      event.ReportedAlike ((store.inMode .awaited).happen event).1
        ((store.inMode .detached).happen event).1 := by
  by_cases mutates : event.Mutates
  · cases found : store.tables.failure? event with
    | some error =>
      have awaited : (store.inMode .awaited).tables.failure? event = some error := found
      have detached : (store.inMode .detached).tables.failure? event = some error := found
      rw [happen_of_failure awaited, happen_of_failure detached]
      exact ⟨rfl, Or.inl rfl⟩
    | none =>
      have awaited : (store.inMode .awaited).tables.failure? event = none := found
      have detached : (store.inMode .detached).tables.failure? event = none := found
      rw [happen_of_passes mutates awaited, happen_of_passes mutates detached]
      exact finish_inMode (store.withTables (store.tables.effect event)) event
  · cases event with
    | insert | update | delete | flush => exact absurd trivial mutates
    | select table filter => exact ⟨rfl, Or.inl rfl⟩
    | outside change => exact ⟨rfl, Or.inl rfl⟩
    | reopen =>
      rw [happen, happen, reopen_inMode store .detached]
      exact ⟨rfl, Or.inl rfl⟩

theorem after_inMode (store : Store) (events : List StoreEvent) :
    (store.inMode .detached).after events =
      ((store.inMode .awaited).after events).inMode .detached := by
  induction events generalizing store with
  | nil => rfl
  | cons event rest ih =>
    have step := (happen_inMode store event).1
    have same : ((store.inMode .awaited).happen event).2.inMode .awaited =
        ((store.inMode .awaited).happen event).2 :=
      inMode_self (happen_mode (store.inMode .awaited) event)
    calc (store.inMode .detached).after (event :: rest)
        = ((store.inMode .detached).happen event).2.after rest := rfl
      _ = (((store.inMode .awaited).happen event).2.inMode .detached).after rest := by rw [step]
      _ = ((((store.inMode .awaited).happen event).2.inMode .awaited).after rest).inMode
            .detached := ih _
      _ = ((store.inMode .awaited).after (event :: rest)).inMode .detached := by rw [same]; rfl

/-- Opening and every run from it lead to the same tables and the same file whichever way inserts
are made, and report the same but for the writes of inserts that fail. -/
theorem insert_modes_agree (path : String) (slot : Slot) :
    (∀ error, openAt path .awaited slot = .error error ↔
      openAt path .detached slot = .error error) ∧
    ∀ awaited detached, openAt path .awaited slot = .ok awaited →
      openAt path .detached slot = .ok detached → ∀ events,
        (detached.after events).tables = (awaited.after events).tables ∧
        (detached.after events).slot = (awaited.after events).slot ∧
        ∀ event : StoreEvent, event.ReportedAlike ((awaited.after events).happen event).1
          ((detached.after events).happen event).1 := by
  have opened := openAt_eq_map path .detached slot
  constructor
  · intro error
    rw [opened]
    cases openAt path .awaited slot <;> simp [Except.map]
  · intro awaited detached opensAwaited opensDetached events
    have sameStart : detached = awaited.inMode .detached := by
      rw [opened, opensAwaited] at opensDetached
      cases opensDetached
      rfl
    have waits : awaited.mode = .awaited := openAt_mode opensAwaited
    have states := after_inMode awaited events
    rw [inMode_self waits] at states
    have waitsOn : (awaited.after events).inMode .awaited = awaited.after events :=
      inMode_self ((after_mode awaited events).trans waits)
    rw [sameStart, states]
    refine ⟨rfl, rfl, ?_⟩
    intro event
    have reports := (happen_inMode (awaited.after events) event).2
    rw [waitsOn] at reports
    exact reports

def emptied (mode : InsertPersistence) : Store :=
  ⟨"data.json", mode, [], .file (Tables.encode [])⟩

theorem insert_modes_agree_of_interrupted :
    openAt "data.json" .awaited .absent = .ok (emptied .awaited) ∧
      openAt "data.json" .detached .absent = .ok (emptied .detached) ∧
      ((emptied .detached).after interrupted).tables =
        ((emptied .awaited).after interrupted).tables ∧
      ((emptied .detached).after interrupted).slot =
        ((emptied .awaited).after interrupted).slot ∧
      (((emptied .awaited).after [.outside .block]).happen unstored).1 =
        .error (.persistence "data.json" .isDirectory) ∧
      (((emptied .detached).after [.outside .block]).happen unstored).1 = .ok .done := by
  have opensAwaited : openAt "data.json" .awaited .absent = .ok (emptied .awaited) := rfl
  have opensDetached : openAt "data.json" .detached .absent = .ok (emptied .detached) := rfl
  have agree := (insert_modes_agree "data.json" .absent).2 _ _ opensAwaited opensDetached interrupted
  exact ⟨opensAwaited, opensDetached, agree.1, agree.2.1, rfl, rfl⟩

end Store

end TableServer
