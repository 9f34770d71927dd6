import TableServer.Where.Basic

/-! When a specification fails on a record and when it selects it. A membership test of a field
that can contain nothing fails the whole specification wherever it stands. Otherwise the outcome is
that of some run of clauses at the end: the run starts with a clause that holds, and each clause of
it that is joined by and holds too. -/

namespace TableServer

def Json.Iterable : Json → Prop
  | .array _ => True
  | .string _ => True
  | _ => False

namespace Where

/-- A membership test of a field that is missing or holds neither an array nor a text. -/
def Unanswerable (record : Record) (clause : String × Condition) : Prop :=
  (clause.2.operator = .within ∨ clause.2.operator = .notWithin) ∧
    ∀ value, record.get? clause.1 = some value → ¬value.Iterable

def Holds (record : Record) (clause : String × Condition) : Prop :=
  clause.2.holds clause.1 record = .ok true

def Answerable (record : Record) (clauses : Entries Condition) : Prop :=
  ∀ clause ∈ clauses, ¬Unanswerable record clause

def FirstUnanswerable (record : Record) (clauses : Entries Condition) (field : String) : Prop :=
  ∃ earlier clause later, clauses = earlier ++ clause :: later ∧
    Answerable record earlier ∧ Unanswerable record clause ∧ clause.1 = field

def JoinedHold (record : Record) (clauses : Entries Condition) : Prop :=
  ∀ clause ∈ clauses, clause.2.conjunction = .and → Holds record clause

/-- A clause joined by or holds, and so do the clauses after it that are joined by and. -/
def Restarts (record : Record) (clauses : Entries Condition) : Prop :=
  ∃ earlier clause later, clauses = earlier ++ clause :: later ∧
    clause.2.conjunction = .or ∧ Holds record clause ∧ JoinedHold record later

/-- As `Restarts`, but the first clause may start a run whatever joins it. -/
def Selects (record : Record) (clauses : Entries Condition) : Prop :=
  ∃ earlier clause later, clauses = earlier ++ clause :: later ∧
    (earlier = [] ∨ clause.2.conjunction = .or) ∧ Holds record clause ∧ JoinedHold record later

theorem exists_split_cons {α : Type} (first : α) (rest : List α)
    (property : List α → α → List α → Prop) :
    (∃ earlier item later, first :: rest = earlier ++ item :: later ∧ property earlier item later) ↔
      property [] first rest ∨
        ∃ earlier item later, rest = earlier ++ item :: later ∧
          property (first :: earlier) item later := by
  constructor
  · rintro ⟨earlier, item, later, shape, holds⟩
    cases earlier with
    | nil =>
      simp only [List.nil_append, List.cons.injEq] at shape
      obtain ⟨rfl, rfl⟩ := shape
      exact Or.inl holds
    | cons head earlier =>
      simp only [List.cons_append, List.cons.injEq] at shape
      obtain ⟨rfl, shape⟩ := shape
      exact Or.inr ⟨earlier, item, later, shape, holds⟩
  · rintro (holds | ⟨earlier, item, later, shape, holds⟩)
    · exact ⟨[], first, rest, rfl, holds⟩
    · exact ⟨first :: earlier, item, later, by rw [shape]; rfl, holds⟩

theorem answerable_cons (record : Record) (clause : String × Condition)
    (rest : Entries Condition) :
    Answerable record (clause :: rest) ↔
      ¬Unanswerable record clause ∧ Answerable record rest := by
  simp [Answerable]

theorem joinedHold_cons (record : Record) (clause : String × Condition)
    (rest : Entries Condition) :
    JoinedHold record (clause :: rest) ↔
      (clause.2.conjunction = .and → Holds record clause) ∧ JoinedHold record rest := by
  simp [JoinedHold]

theorem firstUnanswerable_cons (record : Record) (clause : String × Condition)
    (rest : Entries Condition) (field : String) :
    FirstUnanswerable record (clause :: rest) field ↔
      (Unanswerable record clause ∧ clause.1 = field) ∨
        (¬Unanswerable record clause ∧ FirstUnanswerable record rest field) := by
  have nothing : Answerable record [] := fun _ member => nomatch member
  simp only [FirstUnanswerable]
  rw [exists_split_cons clause rest fun earlier item _ =>
    Answerable record earlier ∧ Unanswerable record item ∧ item.1 = field]
  constructor
  · rintro (⟨_, found⟩ | ⟨earlier, item, later, shape, before, found⟩)
    · exact Or.inl found
    · rw [answerable_cons] at before
      exact Or.inr ⟨before.1, earlier, item, later, shape, before.2, found⟩
  · rintro (found | ⟨answered, earlier, item, later, shape, before, found⟩)
    · exact Or.inl ⟨nothing, found⟩
    · exact Or.inr ⟨earlier, item, later, shape,
        (answerable_cons record clause earlier).mpr ⟨answered, before⟩, found⟩

theorem restarts_cons (record : Record) (clause : String × Condition)
    (rest : Entries Condition) :
    Restarts record (clause :: rest) ↔
      (clause.2.conjunction = .or ∧ Holds record clause ∧ JoinedHold record rest) ∨
        Restarts record rest := by
  simp only [Restarts]
  rw [exists_split_cons clause rest fun _ item later =>
    item.2.conjunction = .or ∧ Holds record item ∧ JoinedHold record later]

theorem selects_cons (record : Record) (clause : String × Condition)
    (rest : Entries Condition) :
    Selects record (clause :: rest) ↔
      (Holds record clause ∧ JoinedHold record rest) ∨ Restarts record rest := by
  simp only [Selects, Restarts]
  rw [exists_split_cons clause rest fun earlier item later =>
    (earlier = [] ∨ item.2.conjunction = .or) ∧ Holds record item ∧ JoinedHold record later]
  simp

theorem contains?_eq_none_iff (value : Option Json) (needle : Json) :
    (Operand.ofField value).contains? needle = none ↔
      ∀ found, value = some found → ¬found.Iterable := by
  cases value with
  | none => simp [Operand.ofField, Operand.contains?]
  | some found =>
    cases found <;> simp [Operand.ofField, Operand.ofJson, Operand.contains?, Json.Iterable]

theorem compare?_eq_none_iff (record : Record) (field : String) (condition : Condition) :
    Condition.compare? condition.operator (.ofField (record.get? field)) condition.value = none ↔
      Unanswerable record (field, condition) := by
  have membership := contains?_eq_none_iff (record.get? field) condition.value
  simp only [Unanswerable]
  cases operator : condition.operator <;>
    simp [Condition.compare?, membership]

theorem holds_cases (record : Record) (field : String) (condition : Condition) :
    (Unanswerable record (field, condition) ∧ condition.holds field record = .error ⟨field⟩) ∨
      (¬Unanswerable record (field, condition) ∧
        ∃ result, condition.holds field record = .ok result) := by
  rw [← compare?_eq_none_iff]
  unfold Condition.holds
  cases Condition.compare? condition.operator (.ofField (record.get? field)) condition.value with
  | none => exact Or.inl ⟨rfl, rfl⟩
  | some result => exact Or.inr ⟨by simp, result, rfl⟩

theorem matchesFrom_eq_error_iff (record : Record) (clauses : Entries Condition) (before : Bool)
    (error : NotIterable) :
    matchesFrom record before clauses = .error error ↔
      FirstUnanswerable record clauses error.field := by
  induction clauses generalizing before with
  | nil => simp [matchesFrom, FirstUnanswerable]
  | cons clause rest ih =>
    obtain ⟨field, condition⟩ := clause
    rw [firstUnanswerable_cons]
    rcases holds_cases record field condition with ⟨stuck, failed⟩ | ⟨answered, result, found⟩
    · cases error
      simp [matchesFrom, failed, stuck]
    · simp [matchesFrom, found, answered, ih]

theorem matchesFrom_eq_true_iff (record : Record) (clauses : Entries Condition) (before : Bool) :
    matchesFrom record before clauses = .ok true ↔
      Answerable record clauses ∧
        ((before = true ∧ JoinedHold record clauses) ∨ Restarts record clauses) := by
  -- What the clauses before have led to counts only until a clause joined by or holds.
  induction clauses generalizing before with
  | nil => simp [matchesFrom, Answerable, JoinedHold, Restarts]
  | cons clause rest ih =>
    obtain ⟨field, condition⟩ := clause
    rw [answerable_cons, joinedHold_cons, restarts_cons]
    rcases holds_cases record field condition with ⟨stuck, failed⟩ | ⟨answered, result, found⟩
    · simp [matchesFrom, failed, stuck]
    · have holds_iff : Holds record (field, condition) ↔ result = true := by
        simp [Holds, found]
      simp only [matchesFrom, found, ih, holds_iff, answered]
      cases conjunction : condition.conjunction <;> simp [join] <;> grind

theorem matches?_eq_error_iff (spec : Where) (record : Record) (error : NotIterable) :
    spec.matches? record = .error error ↔ FirstUnanswerable record spec.clauses error.field := by
  obtain ⟨clauses⟩ := spec
  cases clauses with
  | nil => simp [matches?, FirstUnanswerable]
  | cons clause rest =>
    obtain ⟨field, condition⟩ := clause
    rw [firstUnanswerable_cons]
    rcases holds_cases record field condition with ⟨stuck, failed⟩ | ⟨answered, result, found⟩
    · cases error
      simp [matches?, failed, stuck]
    · simp [matches?, found, answered, matchesFrom_eq_error_iff]

theorem matches?_eq_true_iff (spec : Where) (record : Record) :
    spec.matches? record = .ok true ↔
      Answerable record spec.clauses ∧ Selects record spec.clauses := by
  obtain ⟨clauses⟩ := spec
  cases clauses with
  | nil => simp [matches?, Selects]
  | cons clause rest =>
    obtain ⟨field, condition⟩ := clause
    rw [answerable_cons, selects_cons]
    rcases holds_cases record field condition with ⟨stuck, failed⟩ | ⟨answered, result, found⟩
    · simp [matches?, failed, stuck]
    · have holds_iff : Holds record (field, condition) ↔ result = true := by
        simp [Holds, found]
      simp [matches?, found, matchesFrom_eq_true_iff, holds_iff, answered]

theorem exists_firstUnanswerable_iff (record : Record) (clauses : Entries Condition) :
    (∃ field, FirstUnanswerable record clauses field) ↔ ¬Answerable record clauses := by
  induction clauses with
  | nil => simp [FirstUnanswerable, Answerable]
  | cons clause rest ih =>
    rw [answerable_cons]
    simp only [firstUnanswerable_cons]
    by_cases stuck : Unanswerable record clause
    · simp [stuck]
    · simp [stuck, ih]

theorem answerable_iff_exists_ok (spec : Where) (record : Record) :
    Answerable record spec.clauses ↔ ∃ selected, spec.matches? record = .ok selected := by
  have failing : (∃ error, spec.matches? record = .error error) ↔
      ¬Answerable record spec.clauses := by
    rw [← exists_firstUnanswerable_iff]
    constructor
    · rintro ⟨error, failed⟩
      exact ⟨error.field, (matches?_eq_error_iff spec record error).mp failed⟩
    · rintro ⟨field, first⟩
      exact ⟨⟨field⟩, (matches?_eq_error_iff spec record ⟨field⟩).mpr first⟩
  cases outcome : spec.matches? record with
  | error error =>
    have stuck := failing.mp ⟨error, outcome⟩
    simp [stuck]
  | ok selected =>
    simp only [outcome, reduceCtorEq, exists_false, false_iff, Classical.not_not] at failing
    exact iff_of_true failing ⟨selected, rfl⟩

/-- A specification fails exactly on the first clause that cannot be answered, and otherwise selects
a record exactly when some run of clauses at its end holds. Without clauses it selects nothing, and
the conjunction of its first clause does not count. -/
theorem matches?_outcome (spec : Where) (record : Record) :
    (∀ error, spec.matches? record = .error error ↔
      FirstUnanswerable record spec.clauses error.field) ∧
    ((∃ error, spec.matches? record = .error error) ↔
      ∃ clause ∈ spec.clauses, Unanswerable record clause) ∧
    (spec.matches? record = .ok true ↔
      Answerable record spec.clauses ∧ Selects record spec.clauses) ∧
    (spec.matches? record = .ok false ↔
      Answerable record spec.clauses ∧ ¬Selects record spec.clauses) ∧
    Where.matches? ⟨[]⟩ record = .ok false ∧
    ∀ field condition rest conjunction,
      Where.matches? ⟨(field, ⟨condition.operator, conjunction, condition.value⟩) :: rest⟩ record =
        Where.matches? ⟨(field, condition) :: rest⟩ record := by
  have answered := answerable_iff_exists_ok spec record
  have selected := matches?_eq_true_iff spec record
  refine ⟨matches?_eq_error_iff spec record, ?_, selected, ?_, rfl, fun _ _ _ _ => rfl⟩
  · have stuck : (∃ clause ∈ spec.clauses, Unanswerable record clause) ↔
        ¬Answerable record spec.clauses := by
      simp [Answerable]
    rw [stuck, answered]
    cases spec.matches? record <;> simp
  · cases outcome : spec.matches? record with
    | error error => simp_all
    | ok result => cases result <;> simp_all

end Where

end TableServer
