import Mathlib.Data.Finset.Card
import TableServer.Proofs.Where.Reading

/-! Specifications that are built clause by clause. A field stands where it was first inserted and
has the condition it was last given, as a whole; an attempt under a name that no operator has leaves
the clauses as they are. What a specification makes of records follows from this order and these
conditions, and even the conjunction that the first field was given last does not count. -/

namespace TableServer

/-- An insertion of a condition, or an attempt at one whose operator is given by name. -/
inductive Insertion where
  | given (field : String) (condition : Condition)
  | named (field operator : String) (conjunction : Conjunction) (value : Json)

def Insertion.clause? : Insertion → Option (String × Condition)
  | given field condition => some (field, condition)
  | named field name conjunction value =>
    (Operator.ofName? name).map fun operator => (field, ⟨operator, conjunction, value⟩)

def Insertion.successes (insertions : List Insertion) : List (String × Condition) :=
  insertions.filterMap Insertion.clause?

namespace Where

def attempt (spec : Where) : Insertion → Except WhereError Where
  | .given field condition => .ok (spec.insert field condition)
  | .named field name conjunction value =>
    match Operator.ofName? name with
    | some operator => .ok (spec.insert field ⟨operator, conjunction, value⟩)
    | none => .error (.unknownOperator name)

def afterAttempt (spec : Where) (insertion : Insertion) : Where :=
  match spec.attempt insertion with
  | .ok changed => changed
  | .error _ => spec

def afterInsertions (spec : Where) (insertions : List Insertion) : Where :=
  insertions.foldl afterAttempt spec

theorem afterAttempt_of_clause {insertion : Insertion} {clause : String × Condition}
    (inserts : insertion.clause? = some clause) (spec : Where) :
    spec.afterAttempt insertion = spec.insert clause.1 clause.2 := by
  cases insertion with
  | given field condition =>
    cases inserts
    rfl
  | named field name conjunction value =>
    obtain ⟨operator, names, rfl⟩ := Option.map_eq_some_iff.mp inserts
    simp only [afterAttempt, attempt, names]

theorem attempt_of_nameless {name : String} (nameless : Operator.ofName? name = none)
    (spec : Where) (field : String) (conjunction : Conjunction) (value : Json) :
    spec.attempt (.named field name conjunction value) = .error (.unknownOperator name) := by
  simp only [attempt, nameless]

theorem afterAttempt_of_no_clause {insertion : Insertion} (fails : insertion.clause? = none)
    (spec : Where) : spec.afterAttempt insertion = spec := by
  cases insertion with
  | given field condition => cases fails
  | named field name conjunction value =>
    have nameless := Option.map_eq_none_iff.mp fails
    rw [afterAttempt, attempt_of_nameless nameless]

theorem afterInsertions_eq (insertions : List Insertion) (spec : Where) :
    spec.afterInsertions insertions =
      (Insertion.successes insertions).foldl
        (fun spec clause => spec.insert clause.1 clause.2) spec := by
  induction insertions generalizing spec with
  | nil => rfl
  | cons insertion rest ih =>
    rw [afterInsertions, List.foldl_cons, Insertion.successes]
    cases found : insertion.clause? with
    | none =>
      rw [afterAttempt_of_no_clause found, List.filterMap_cons_none found]
      exact ih spec
    | some clause =>
      rw [afterAttempt_of_clause found, List.filterMap_cons_some found]
      exact ih (spec.insert clause.1 clause.2)

theorem clauses_afterInsertions (insertions : List Insertion) :
    (empty.afterInsertions insertions).clauses =
      Entries.ofList (Insertion.successes insertions) := by
  have built : empty.afterInsertions insertions = build (Insertion.successes insertions) :=
    afterInsertions_eq insertions empty
  rw [built, build_eq]

end Where

namespace Entries

variable {α : Type}

theorem length_ofList (pairs : List (String × α)) :
    (ofList pairs).length = (keys pairs).toFinset.card := by
  have sameKeys : (ofList pairs).keys.toFinset = (keys pairs).toFinset := by
    ext key
    rw [keys_ofList, List.mem_toFinset, List.mem_toFinset, List.mem_eraseDups]
  have once : (ofList pairs).keys.toFinset.card = (ofList pairs).keys.length :=
    List.toFinset_card_of_nodup (distinct_ofList pairs)
  rw [← sameKeys, once, keys, List.length_map]

theorem eq_of_get?_of_ne {first : String × α} {rest others : Entries α}
    (distinct : Distinct (first :: rest)) (order : rest.keys = others.keys)
    (values : ∀ key, key ≠ first.1 → rest.get? key = others.get? key) : rest = others := by
  have sameKeys : keys (first :: rest) = keys (first :: others) :=
    congrArg (first.1 :: ·) order
  have whole : first :: rest = first :: others := by
    apply eq_of_get? distinct sameKeys
    intro key
    rw [get?_cons, get?_cons]
    by_cases isFirst : key = first.1
    · rw [if_pos isFirst, if_pos isFirst]
    · rw [if_neg isFirst, if_neg isFirst, values key isFirst]
  exact (List.cons.inj whole).2

end Entries

namespace Insertion

/-- The fields come first in one order, and each is last given one condition. -/
structure Alike (first second : List (String × Condition)) : Prop where
  order : (Entries.keys first).eraseDups = (Entries.keys second).eraseDups
  last : ∀ field, Entries.get? first.reverse field = Entries.get? second.reverse field

/-- As `Alike`, but the field that comes first may be joined in two ways. -/
structure AlikeButFirst (first second : List (String × Condition)) : Prop where
  order : (Entries.keys first).eraseDups = (Entries.keys second).eraseDups
  later : ∀ field, (Entries.keys first).head? ≠ some field →
    Entries.get? first.reverse field = Entries.get? second.reverse field
  foremost : ∀ field, (Entries.keys first).head? = some field →
    ∀ one other, Entries.get? first.reverse field = some one →
      Entries.get? second.reverse field = some other →
        one.operator = other.operator ∧ one.value = other.value

end Insertion

namespace Where

theorem eq_of_alike_iff (first second : List Insertion) :
    empty.afterInsertions first = empty.afterInsertions second ↔
      Insertion.Alike (Insertion.successes first) (Insertion.successes second) := by
  have clauses := clauses_afterInsertions first
  have others := clauses_afterInsertions second
  constructor
  · intro same
    rw [same, others] at clauses
    constructor
    · rw [← Entries.keys_ofList, ← Entries.keys_ofList, clauses]
    · intro field
      rw [← Entries.get?_ofList, ← Entries.get?_ofList, clauses]
  · intro alike
    have same : Entries.KeepsLast (Insertion.successes second)
        (Entries.ofList (Insertion.successes first)) := by
      constructor
      · rw [Entries.keys_ofList, alike.order]
      · intro field
        rw [Entries.get?_ofList, alike.last]
    rw [(Entries.keepsLast_iff _ _).mp same, ← others] at clauses
    exact congrArg Where.mk clauses

theorem matches?_cons_congr {field : String} {one other : Condition}
    (operator : one.operator = other.operator) (value : one.value = other.value)
    (rest : Entries Condition) (record : Record) :
    matches? ⟨(field, one) :: rest⟩ record = matches? ⟨(field, other) :: rest⟩ record := by
  simp only [matches?, Condition.holds, operator, value]

theorem matches?_of_alikeButFirst {first second : List (String × Condition)}
    (alike : Insertion.AlikeButFirst first second) (record : Record) :
    matches? ⟨Entries.ofList first⟩ record = matches? ⟨Entries.ofList second⟩ record := by
  have order : (Entries.ofList first).keys = (Entries.ofList second).keys := by
    rw [Entries.keys_ofList, Entries.keys_ofList, alike.order]
  have head := Entries.head?_keys_ofList first
  have last (inserted : List (String × Condition)) (field : String) :
      Entries.get? inserted.reverse field = Entries.get? (Entries.ofList inserted) field :=
    (Entries.get?_ofList inserted field).symm
  obtain ⟨-, later, foremost⟩ := alike
  simp only [last, ← head] at later foremost
  have distinct := Entries.distinct_ofList first
  generalize Entries.ofList first = clauses at *
  generalize Entries.ofList second = others at *
  cases clauses with
  | nil =>
    have empty : others = [] := List.map_eq_nil_iff.mp order.symm
    rw [empty]
  | cons clause rest =>
    cases others with
    | nil => cases order
    | cons other further =>
      obtain ⟨field, one⟩ := clause
      obtain ⟨name, another⟩ := other
      obtain ⟨rfl, orderLater⟩ := List.cons.inj order
      obtain ⟨operator, value⟩ := foremost field rfl one another
        (by simp [Entries.get?_cons]) (by simp [Entries.get?_cons])
      have same : rest = further := by
        apply Entries.eq_of_get?_of_ne distinct orderLater
        intro key isLater
        have agree := later key fun isFirst => isLater (Option.some.inj isFirst).symm
        rwa [Entries.get?_cons, Entries.get?_cons, if_neg isLater, if_neg isLater] at agree
      rw [matches?_cons_congr operator value, same]

/-- What any sequence of insertions makes of the empty specification. Each field stands once, where
it was first inserted, and has the condition it was last given; an attempt under a name that no
operator has is refused and leaves all as it is. Two sequences make the same specification exactly
if they agree on the order and on these conditions, and where they do but for the conjunction of the
first field, all records are judged alike. -/
theorem clauses_along_insertions (insertions : List Insertion) :
    let spec := empty.afterInsertions insertions
    let inserted := Insertion.successes insertions
    spec.clauses.Distinct ∧ Entries.KeepsLast inserted spec.clauses ∧
    spec.length = (Entries.keys inserted).toFinset.card ∧
    (∀ field name conjunction value, Operator.ofName? name = none →
      spec.attempt (.named field name conjunction value) = .error (.unknownOperator name) ∧
      empty.afterInsertions (insertions ++ [.named field name conjunction value]) = spec) ∧
    ∀ others : List Insertion,
      (spec = empty.afterInsertions others ↔
        Insertion.Alike inserted (Insertion.successes others)) ∧
      (Insertion.AlikeButFirst inserted (Insertion.successes others) →
        ∀ record, spec.matches? record = (empty.afterInsertions others).matches? record) := by
  intro spec inserted
  have clauses : spec.clauses = Entries.ofList inserted := clauses_afterInsertions insertions
  refine ⟨?_, (Entries.keepsLast_iff _ _).mpr clauses, ?_, ?_, ?_⟩
  · rw [clauses]
    exact Entries.distinct_ofList inserted
  · rw [length, clauses, Entries.length_ofList]
  · intro field name conjunction value nameless
    have noClause : (Insertion.named field name conjunction value).clause? = none :=
      Option.map_eq_none_iff.mpr nameless
    refine ⟨attempt_of_nameless nameless spec field conjunction value, ?_⟩
    rw [afterInsertions, List.foldl_append]
    exact afterAttempt_of_no_clause noClause spec
  · intro others
    refine ⟨eq_of_alike_iff insertions others, fun alike record => ?_⟩
    have otherClauses := clauses_afterInsertions others
    have judged := matches?_of_alikeButFirst alike record
    rw [← clauses, ← otherClauses] at judged
    exact judged

def replacing : List Insertion :=
  [.given "a" ⟨.equal, .and, .null⟩, .named "b" "in" .or (.string "x"), .named "a" "~" .and .null,
    .named "a" ">" .or (.bool true)]

def inOrder : List Insertion :=
  [.named "b" "~" .and .null, .given "a" ⟨.greater, .and, .bool true⟩,
    .given "b" ⟨.within, .or, .string "x"⟩]

theorem clauses_along_replacing :
    (empty.afterInsertions replacing).length = 2 ∧
      (empty.afterInsertions replacing).clauses.keys = ["a", "b"] ∧
      Insertion.AlikeButFirst (Insertion.successes replacing) (Insertion.successes inOrder) ∧
      ∀ record, (empty.afterInsertions replacing).matches? record =
        (empty.afterInsertions inOrder).matches? record := by
  have within : Operator.ofName? "in" = some .within := by decide +kernel
  have greater : Operator.ofName? ">" = some .greater := by decide +kernel
  have nameless : Operator.ofName? "~" = none := by decide +kernel
  have first : Insertion.successes replacing =
      [("a", ⟨.equal, .and, .null⟩), ("b", ⟨.within, .or, .string "x"⟩),
        ("a", ⟨.greater, .or, .bool true⟩)] := by
    simp [Insertion.successes, replacing, Insertion.clause?, within, greater, nameless]
  have second : Insertion.successes inOrder =
      [("a", ⟨.greater, .and, .bool true⟩), ("b", ⟨.within, .or, .string "x"⟩)] := by
    simp [Insertion.successes, inOrder, Insertion.clause?, nameless]
  have alike : Insertion.AlikeButFirst (Insertion.successes replacing)
      (Insertion.successes inOrder) := by
    rw [first, second]
    constructor
    · rfl
    · intro field isLater
      have different : field ≠ "a" := fun isFirst => isLater (congrArg some isFirst.symm)
      simp [Entries.get?_cons, different]
    · rintro field ⟨⟩ one other ⟨⟩ ⟨⟩
      exact ⟨rfl, rfl⟩
  obtain ⟨_, keeps, count, _, outcomes⟩ := clauses_along_insertions replacing
  refine ⟨?_, ?_, alike, (outcomes inOrder).2 alike⟩
  · rw [count, first]
    rfl
  · rw [keeps.order, first]
    rfl

end Where

end TableServer
