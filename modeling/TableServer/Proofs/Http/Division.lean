import TableServer.Proofs.Http.Spelling

/-! How a template divides a target: every parameter takes a value, and what follows the last
literal is a query or nothing. A target may be divided in several ways. The values that are read
are those of the division whose values are as long as possible, the earlier ones first. -/

namespace TableServer

namespace Template

def IsValue (value : List Char) : Prop :=
  value ≠ [] ∧ ∀ c ∈ value, isValueChar c = true

/-- What may follow a template: nothing, or a question mark and a text of one line. -/
def IsSuffix (text : List Char) : Prop :=
  text = [] ∨ ∃ query, text = '?' :: query ∧ '\n' ∉ query

def joined (parts : List (List Char × List Char)) (values : List (List Char)) : List Char :=
  (List.zipWith (fun part value => value ++ part.2) parts values).flatten

def DividesFrom (parts : List (List Char × List Char)) (values : List (List Char))
    (input : List Char) : Prop :=
  values.length = parts.length ∧ (∀ value ∈ values, IsValue value) ∧
    ∃ suffix, IsSuffix suffix ∧ input = joined parts values ++ suffix

def filled (template : Template) (values : List (List Char)) : List Char :=
  template.lead ++ joined template.parts values

/-- A target is the template with these values, and maybe a query after it. -/
structure Divides (template : Template) (values : List (List Char)) (target : List Char) :
    Prop where
  count : values.length = template.parts.length
  isValue : ∀ value ∈ values, IsValue value
  whole : ∃ suffix, IsSuffix suffix ∧ target = template.filled values ++ suffix

theorem isSuffix_cons (c : Char) (rest : List Char) :
    IsSuffix (c :: rest) ↔ c = '?' ∧ '\n' ∉ rest := by
  constructor
  · rintro (empty | ⟨query, shape, line⟩)
    · cases empty
    · obtain ⟨rfl, rfl⟩ := List.cons.inj shape
      exact ⟨rfl, line⟩
  · rintro ⟨rfl, line⟩
    exact Or.inr ⟨rest, rfl, line⟩

theorem isQueryEnd_iff (text : List Char) : isQueryEnd text = true ↔ IsSuffix text := by
  cases text with
  | nil => simp [isQueryEnd, IsSuffix]
  | cons c rest =>
    rw [isSuffix_cons, isQueryEnd, Bool.and_eq_true, beq_iff_eq, List.all_eq_true]
    simp only [bne_iff_ne]
    apply and_congr_right
    intro _
    constructor
    · intro each within
      exact each '\n' within rfl
    · rintro absent c within rfl
      exact absent within

theorem isValue_cons (c : Char) (rest : List Char) :
    IsValue (c :: rest) ↔ isValueChar c = true ∧ (rest = [] ∨ IsValue rest) := by
  cases rest with
  | nil => simp [IsValue]
  | cons d rest => simp [IsValue]

theorem takeWhile_value {value rest : List Char} (isValue : IsValue value)
    (stops : ∀ c, rest.head? = some c → isValueChar c = false) :
    (value ++ rest).takeWhile isValueChar = value := by
  have ended : rest.takeWhile isValueChar = [] := by
    cases rest with
    | nil => rfl
    | cons c rest => simp [stops c rfl]
  rw [List.takeWhile_append_of_pos isValue.2, ended, List.append_nil]

theorem IsSuffix.stops {suffix : List Char} (isSuffix : IsSuffix suffix) :
    ∀ c, suffix.head? = some c → isValueChar c = false := by
  rintro c begins
  rcases isSuffix with rfl | ⟨query, rfl, _⟩
  · cases begins
  · cases begins
    decide

theorem dropLiteral_eq_some_iff (literal input rest : List Char) :
    dropLiteral literal input = some rest ↔ input = literal ++ rest := by
  induction literal generalizing input with
  | nil => simp [dropLiteral]
  | cons c literal ih =>
    cases input with
    | nil => simp [dropLiteral]
    | cons d input =>
      by_cases same : c = d
      · simp [dropLiteral, same, ih]
      · simp [dropLiteral, same, Ne.symm same]

theorem dividesFrom_nil (values : List (List Char)) (input : List Char) :
    DividesFrom [] values input ↔ values = [] ∧ IsSuffix input := by
  constructor
  · rintro ⟨count, _, suffix, isSuffix, rfl⟩
    exact ⟨List.length_eq_zero_iff.mp count, isSuffix⟩
  · rintro ⟨rfl, isSuffix⟩
    exact ⟨rfl, by simp, input, isSuffix, rfl⟩

theorem dividesFrom_cons (part : List Char × List Char) (parts : List (List Char × List Char))
    (values : List (List Char)) (input : List Char) :
    DividesFrom (part :: parts) values input ↔
      ∃ value others rest, values = value :: others ∧ IsValue value ∧
        input = value ++ (part.2 ++ rest) ∧ DividesFrom parts others rest := by
  constructor
  · rintro ⟨count, isValue, suffix, isSuffix, rfl⟩
    cases values with
    | nil => simp at count
    | cons value others =>
      obtain ⟨first, isValue⟩ := List.forall_mem_cons.mp isValue
      refine ⟨value, others, joined parts others ++ suffix, rfl, first, by simp [joined], ?_⟩
      exact ⟨by simpa using count, isValue, suffix, isSuffix, rfl⟩
  · rintro ⟨value, others, rest, rfl, first, rfl, count, isValue, suffix, isSuffix, rfl⟩
    refine ⟨by simp [count], List.forall_mem_cons.mpr ⟨first, isValue⟩, suffix, isSuffix, ?_⟩
    simp [joined]

/-- A value at the beginning of an input, and how the rest is read after it. -/
def ReadsAfter (readRest : List Char → Option (List (List Char))) (input value : List Char)
    (others : List (List Char)) : Prop :=
  IsValue value ∧ ∃ rest, input = value ++ rest ∧ readRest rest = some others

theorem readsAfter_cons (readRest : List Char → Option (List (List Char))) (c : Char)
    (input value : List Char) (others : List (List Char)) :
    ReadsAfter readRest (c :: input) value others ↔
      isValueChar c = true ∧ ((value = [c] ∧ readRest input = some others) ∨
        ∃ more, value = c :: more ∧ ReadsAfter readRest input more others) := by
  constructor
  · rintro ⟨isValue, rest, shape, reads⟩
    cases value with
    | nil => exact absurd rfl isValue.1
    | cons first more =>
      obtain ⟨rfl, rfl⟩ := List.cons.inj shape
      obtain ⟨valid, rfl | isValue⟩ := (isValue_cons _ _).mp isValue
      · exact ⟨valid, Or.inl ⟨rfl, reads⟩⟩
      · exact ⟨valid, Or.inr ⟨more, rfl, isValue, rest, rfl, reads⟩⟩
  · rintro ⟨valid, ⟨rfl, reads⟩ | ⟨more, rfl, isValue, rest, rfl, reads⟩⟩
    · exact ⟨(isValue_cons c []).mpr ⟨valid, Or.inl rfl⟩, input, rfl, reads⟩
    · exact ⟨(isValue_cons c more).mpr ⟨valid, Or.inr isValue⟩, rest, rfl, reads⟩

theorem longestValue_cases (readRest : List Char → Option (List (List Char)))
    (input : List Char) :
    (longestValue readRest input = none ∧ ∀ value others, ¬ReadsAfter readRest input value others) ∨
      ∃ value others, longestValue readRest input = some (value :: others) ∧
        ReadsAfter readRest input value others ∧
        ∀ other values, ReadsAfter readRest input other values → other.length ≤ value.length := by
  induction input with
  | nil =>
    refine Or.inl ⟨rfl, ?_⟩
    rintro value others ⟨isValue, rest, shape, _⟩
    exact isValue.1 (List.append_eq_nil_iff.mp shape.symm).1
  | cons c input ih =>
    simp only [readsAfter_cons, longestValue]
    by_cases valid : isValueChar c = true
    · simp only [valid, if_true, true_and]
      rcases ih with ⟨nothing, noValue⟩ | ⟨value, others, found, reads, longest⟩
      · rw [nothing]
        cases here : readRest input with
        | none =>
          left
          refine ⟨rfl, ?_⟩
          rintro value others (⟨_, reads⟩ | ⟨more, _, reads⟩)
          · cases reads
          · exact noValue more others reads
        | some others =>
          right
          refine ⟨[c], others, rfl, Or.inl ⟨rfl, rfl⟩, ?_⟩
          rintro other values (⟨rfl, _⟩ | ⟨more, _, reads⟩)
          · exact Nat.le_refl _
          · exact absurd reads (noValue more values)
      · rw [found]
        right
        refine ⟨c :: value, others, rfl, Or.inr ⟨value, rfl, reads⟩, ?_⟩
        rintro other values (⟨rfl, _⟩ | ⟨more, rfl, reads⟩)
        · simp
        · exact Nat.succ_le_succ (longest more values reads)
    · left
      simp [valid]

def readBehind (literal : List Char) (parts : List (List Char × List Char)) (rest : List Char) :
    Option (List (List Char)) :=
  (dropLiteral literal rest).bind (readParts parts)

theorem readBehind_eq_some_iff (literal : List Char) (parts : List (List Char × List Char))
    (rest : List Char) (values : List (List Char)) :
    readBehind literal parts rest = some values ↔
      ∃ input, rest = literal ++ input ∧ readParts parts input = some values := by
  rw [readBehind, Option.bind_eq_some_iff]
  simp only [dropLiteral_eq_some_iff]

/-- In every other division of the input the first value whose length differs is shorter. -/
def GreatestFrom (parts : List (List Char × List Char)) (values : List (List Char))
    (input : List Char) : Prop :=
  DividesFrom parts values input ∧ ∀ others, DividesFrom parts others input →
    others = values ∨ others.map List.length < values.map List.length

theorem greatestFrom_cons {part : List Char × List Char} {parts : List (List Char × List Char)}
    {value tail : List Char} {values : List (List Char)} (isValue : IsValue value)
    (greatest : GreatestFrom parts values tail)
    (longest : ∀ other others rest, IsValue other → DividesFrom parts others rest →
      value ++ (part.2 ++ tail) = other ++ (part.2 ++ rest) → other.length ≤ value.length) :
    GreatestFrom (part :: parts) (value :: values) (value ++ (part.2 ++ tail)) := by
  constructor
  · exact (dividesFrom_cons part parts _ _).mpr
      ⟨value, values, tail, rfl, isValue, rfl, greatest.1⟩
  · intro allOthers divides
    obtain ⟨other, others, rest, rfl, isOther, shape, dividesRest⟩ :=
      (dividesFrom_cons part parts _ _).mp divides
    rcases Nat.lt_or_eq_of_le (longest other others rest isOther dividesRest shape) with
      shorter | sameLength
    · right
      exact List.cons_lt_cons_iff.mpr (Or.inl shorter)
    · obtain ⟨rfl, same⟩ := List.append_inj shape sameLength.symm
      obtain rfl := List.append_cancel_left same
      rcases greatest.2 others dividesRest with rfl | smaller
      · exact Or.inl rfl
      · right
        exact List.cons_lt_cons_iff.mpr (Or.inr ⟨rfl, smaller⟩)

theorem readParts_cases (parts : List (List Char × List Char)) (input : List Char) :
    (readParts parts input = none ∧ ∀ values, ¬DividesFrom parts values input) ∨
      ∃ values, readParts parts input = some values ∧ GreatestFrom parts values input := by
  induction parts generalizing input with
  | nil =>
    simp only [readParts, GreatestFrom, dividesFrom_nil, ← isQueryEnd_iff]
    by_cases ends : isQueryEnd input = true
    · right
      exact ⟨[], by simp [ends], ⟨rfl, ends⟩, fun others divides => Or.inl divides.1⟩
    · left
      exact ⟨by simp [ends], fun values divides => ends divides.2⟩
  | cons part parts ih =>
    have reads_first {value rest : List Char} {others : List (List Char)} (isValue : IsValue value)
        (divides : DividesFrom parts others rest) :
        ∃ values, ReadsAfter (readBehind part.2 parts) (value ++ (part.2 ++ rest)) value values := by
      rcases ih rest with ⟨_, noDivision⟩ | ⟨values, found, _⟩
      · exact absurd divides (noDivision others)
      · exact ⟨values, isValue, _, rfl, (readBehind_eq_some_iff _ _ _ _).mpr ⟨rest, rfl, found⟩⟩
    have unfolded : readParts (part :: parts) input =
        longestValue (readBehind part.2 parts) input := rfl
    rw [unfolded]
    rcases longestValue_cases (readBehind part.2 parts) input with
      ⟨nothing, noValue⟩ | ⟨value, others, found, ⟨isValue, behind, rfl, readsBehind⟩, longest⟩
    · left
      refine ⟨nothing, fun values divides => ?_⟩
      obtain ⟨value, others, rest, rfl, isValue, rfl, dividesRest⟩ :=
        (dividesFrom_cons part parts values input).mp divides
      obtain ⟨read, reads⟩ := reads_first isValue dividesRest
      exact noValue value read reads
    · right
      obtain ⟨tail, rfl, readsTail⟩ := (readBehind_eq_some_iff _ _ _ _).mp readsBehind
      rcases ih tail with ⟨nothing, _⟩ | ⟨values, foundTail, greatest⟩
      · rw [nothing] at readsTail
        cases readsTail
      · obtain rfl : values = others := Option.some.inj (foundTail.symm.trans readsTail)
        refine ⟨value :: values, found, greatestFrom_cons isValue greatest ?_⟩
        intro other more rest isOther dividesRest shape
        obtain ⟨read, reads⟩ := reads_first isOther dividesRest
        rw [← shape] at reads
        exact longest other read reads

theorem divides_iff (template : Template) (values : List (List Char)) (target : List Char) :
    template.Divides values target ↔
      ∃ input, target = template.lead ++ input ∧ DividesFrom template.parts values input := by
  constructor
  · rintro ⟨count, isValue, suffix, isSuffix, rfl⟩
    exact ⟨_, by rw [filled, List.append_assoc], count, isValue, suffix, isSuffix, rfl⟩
  · rintro ⟨input, rfl, count, isValue, suffix, isSuffix, rfl⟩
    exact ⟨count, isValue, suffix, isSuffix, by rw [filled, List.append_assoc]⟩

theorem values?_cases (template : Template) (target : List Char) :
    (template.values? target = none ∧ ∀ values, ¬template.Divides values target) ∨
      ∃ values, template.values? target = some values ∧ template.Divides values target ∧
        ∀ others, template.Divides others target →
          others = values ∨ others.map List.length < values.map List.length := by
  rw [values?_eq]
  simp only [divides_iff]
  cases found : dropLiteral template.lead target with
  | none =>
    left
    refine ⟨rfl, ?_⟩
    rintro values ⟨input, shape, _⟩
    rw [(dropLiteral_eq_some_iff _ _ _).mpr shape] at found
    cases found
  | some input =>
    have shape := (dropLiteral_eq_some_iff _ _ _).mp found
    have only {values} : (∃ rest, target = template.lead ++ rest ∧
        DividesFrom template.parts values rest) ↔ DividesFrom template.parts values input := by
      constructor
      · rintro ⟨rest, shapeToo, divides⟩
        rw [shape] at shapeToo
        rw [List.append_cancel_left shapeToo]
        exact divides
      · intro divides
        exact ⟨input, shape, divides⟩
    simp only [only]
    exact readParts_cases template.parts input

theorem accepts_iff (template : Template) (target : String) :
    template.accepts target = true ↔ ∃ values, template.Divides values target.toList := by
  rw [accepts]
  rcases values?_cases template target.toList with ⟨nothing, noDivision⟩ | ⟨values, found, divides, _⟩
  · simp [nothing, noDivision]
  · simp only [found, Option.isSome_some, true_iff]
    exact ⟨values, divides⟩

/-- Every text spells one template. It compiles unless two of its parameters have one name, and then
accepts the targets it divides; the values come from the division whose lengths are the greatest in
lexicographic order. -/
theorem compile?_outcome (text : List Char) :
    ∃ template : Template, template.Spells text ∧
      (∀ other : Template, other.Spells text → other = template) ∧
      (compile? text = none ↔ ¬template.names.Nodup) ∧
      (template.names.Nodup → compile? text = some template) ∧
      ∀ target : String,
        (template.accepts target = true ↔ ∃ values, template.Divides values target.toList) ∧
        (template.accepts target = true → ∃ values, template.Divides values target.toList ∧
          (∀ others, template.Divides others target.toList →
            others = values ∨ others.map List.length < values.map List.length) ∧
          template.parameters target = template.names.zipWith
            (fun name value => (String.ofList name, String.ofList value)) values) ∧
        (template.accepts target = false → template.parameters target = []) := by
  refine ⟨ofText text, spells_ofText text, fun other => (spells_iff other text).mp, ?_, ?_, ?_⟩
  · simp [compile?]
  · intro distinct
    simp [compile?, distinct]
  · intro target
    refine ⟨accepts_iff _ target, ?_⟩
    rw [accepts, parameters]
    rcases values?_cases (ofText text) target.toList with
      ⟨nothing, _⟩ | ⟨values, found, divides, greatest⟩
    · rw [nothing]
      constructor
      · intro accepted
        cases accepted
      · intro _
        rfl
    · rw [found]
      constructor
      · intro _
        exact ⟨values, divides, greatest, rfl⟩
      · intro refused
        cases refused

example : (ofText "/:a:b-?:c".toList).parameters "/x-y--?z?q" =
    [("a", "x-y"), ("b", "-"), ("c", "z")] := by
  decide

end Template

end TableServer
