import TableServer.Proofs.Http.Division

/-! Targets that are made from a template. Where nothing that a value may hold follows a parameter,
a target can be divided in one way only: each value ends where the run of its characters ends. So
the values that were put in for the parameters are read back, whatever query follows. -/

namespace TableServer

namespace Template

def Separates (text : List Char) : Prop :=
  ∃ c rest, text = c :: rest ∧ isValueChar c = false

/-- Each parameter is at the end or is followed by a literal that separates it from the rest. -/
def SeparatedParts (parts : List (List Char × List Char)) : Prop :=
  ∀ earlier part later, parts = earlier ++ part :: later →
    part.2 = [] ∧ later = [] ∨ Separates part.2

def Separated (template : Template) : Prop :=
  SeparatedParts template.parts

def replaced (template : Template) (assigned : List Char → List Char) : List Char :=
  template.lead ++ template.parts.flatMap fun part => assigned part.1 ++ part.2

theorem separatedParts_cons (part : List Char × List Char) (parts : List (List Char × List Char)) :
    SeparatedParts (part :: parts) ↔
      (part.2 = [] ∧ parts = [] ∨ Separates part.2) ∧ SeparatedParts parts := by
  constructor
  · intro separated
    refine ⟨separated [] part parts rfl, ?_⟩
    rintro earlier later rest rfl
    exact separated (part :: earlier) later rest rfl
  · rintro ⟨first, separated⟩ earlier other later shape
    cases earlier with
    | nil =>
      obtain ⟨rfl, rfl⟩ := List.cons.inj shape
      exact first
    | cons _ earlier => exact separated earlier other later (List.cons.inj shape).2

theorem stops_of_dividesFrom {literal rest : List Char} {parts : List (List Char × List Char)}
    {values : List (List Char)} (separated : literal = [] ∧ parts = [] ∨ Separates literal)
    (divides : DividesFrom parts values rest) :
    ∀ c, (literal ++ rest).head? = some c → isValueChar c = false := by
  rcases separated with ⟨rfl, rfl⟩ | ⟨first, literal, rfl, apart⟩
  · exact ((dividesFrom_nil values rest).mp divides).2.stops
  · rintro c begins
    cases begins
    exact apart

theorem dividesFrom_unique {parts : List (List Char × List Char)} (separated : SeparatedParts parts)
    {values others : List (List Char)} {input : List Char} (divides : DividesFrom parts values input)
    (dividesToo : DividesFrom parts others input) : values = others := by
  induction parts generalizing values others input with
  | nil =>
    rw [((dividesFrom_nil values input).mp divides).1, ((dividesFrom_nil others input).mp dividesToo).1]
  | cons part parts ih =>
    obtain ⟨atFirst, separated⟩ := (separatedParts_cons part parts).mp separated
    obtain ⟨value, later, rest, rfl, isValue, rfl, dividesRest⟩ :=
      (dividesFrom_cons part parts _ _).mp divides
    obtain ⟨other, laterToo, restToo, rfl, isOther, shape, dividesRestToo⟩ :=
      (dividesFrom_cons part parts _ _).mp dividesToo
    have sameValue := congrArg (List.takeWhile isValueChar) shape
    rw [takeWhile_value isValue (stops_of_dividesFrom atFirst dividesRest),
      takeWhile_value isOther (stops_of_dividesFrom atFirst dividesRestToo)] at sameValue
    subst sameValue
    obtain rfl := List.append_cancel_left (List.append_cancel_left shape)
    rw [ih separated dividesRest dividesRestToo]

theorem values?_of_divides {template : Template} (separated : template.Separated)
    {values : List (List Char)} {target : List Char} (divides : template.Divides values target) :
    template.values? target = some values := by
  rcases values?_cases template target with ⟨_, noDivision⟩ | ⟨others, found, dividesToo, _⟩
  · exact absurd divides (noDivision values)
  · obtain ⟨input, rfl, dividesInput⟩ := (divides_iff template values target).mp divides
    obtain ⟨inputToo, shape, dividesInputToo⟩ := (divides_iff template others _).mp dividesToo
    obtain rfl := List.append_cancel_left shape
    rw [found, dividesFrom_unique separated dividesInputToo dividesInput]

theorem replaced_eq_filled (template : Template) (assigned : List Char → List Char) :
    template.replaced assigned = template.filled (template.names.map assigned) := by
  rw [replaced, filled, joined, names, List.map_map, List.zipWith_map_right, List.zipWith_self,
    List.flatMap_def]
  rfl

theorem divides_replaced {template : Template} {assigned : List Char → List Char}
    (isValue : ∀ name ∈ template.names, IsValue (assigned name)) {suffix : List Char}
    (isSuffix : IsSuffix suffix) :
    template.Divides (template.names.map assigned) (template.replaced assigned ++ suffix) where
  count := by simp [names]
  isValue := List.forall_mem_map.mpr isValue
  whole := ⟨suffix, isSuffix, by rw [replaced_eq_filled]⟩

theorem lookup_assigned {names : List (List Char)} (assigned : List Char → List Char)
    {name : List Char} (isName : name ∈ names) :
    (names.map fun name => (String.ofList name, String.ofList (assigned name))).lookup
      (String.ofList name) = some (String.ofList (assigned name)) := by
  induction names with
  | nil => cases isName
  | cons first rest ih =>
    rw [List.map_cons, List.lookup_cons]
    by_cases same : name = first
    · simp [same]
    · have later := ih ((List.mem_cons.mp isName).resolve_left same)
      have differs : (String.ofList name == String.ofList first) = false := by
        simpa [String.ofList_inj] using same
      rw [differs]
      exact later

/-- A template whose parameters are separated reads back what is put in for them. -/
theorem parameters_of_replaced {text : String} {template : Template}
    (compiled : compile? text.toList = some template) (separated : template.Separated)
    {assigned : List Char → List Char}
    (isValue : ∀ name ∈ template.names, IsValue (assigned name)) {suffix : List Char}
    (isSuffix : IsSuffix suffix) :
    let target := String.ofList (template.replaced assigned ++ suffix)
    template.Spells text.toList ∧ template.accepts target = true ∧
      template.parameters target =
        template.names.map (fun name => (String.ofList name, String.ofList (assigned name))) ∧
      ∀ name ∈ template.names, (template.parameters target).lookup (String.ofList name) =
        some (String.ofList (assigned name)) := by
  intro target
  have read : template.values? target.toList = some (template.names.map assigned) := by
    rw [String.toList_ofList]
    exact values?_of_divides separated (divides_replaced isValue isSuffix)
  have given : template.parameters target =
      template.names.map fun name => (String.ofList name, String.ofList (assigned name)) := by
    simp only [parameters, read, List.zipWith_map_right, List.zipWith_self]
  refine ⟨?_, ?_, given, ?_⟩
  · rw [spells_iff]
    simp only [compile?] at compiled
    split at compiled
    · exact (Option.some.inj compiled).symm
    · cases compiled
  · rw [accepts, read]
    rfl
  · intro name isName
    rw [given]
    exact lookup_assigned assigned isName

def volume : Template :=
  ⟨"/".toList, [("dir".toList, ".d/a?".toList), ("name".toList, [])]⟩

theorem parameters_of_volume :
    compile? "/:dir.d/a?:name".toList = some volume ∧ volume.Separated ∧
      volume.accepts "/x-1.d/a?_y?/b.d/a?z=:name" = true ∧
      volume.parameters "/x-1.d/a?_y?/b.d/a?z=:name" = [("dir", "x-1"), ("name", "_y")] := by
  have compiled : compile? "/:dir.d/a?:name".toList = some volume := by decide
  have separated : volume.Separated := by
    refine (separatedParts_cons _ _).mpr ⟨Or.inr ⟨'.', "d/a?".toList, rfl, by decide⟩, ?_⟩
    refine (separatedParts_cons _ _).mpr ⟨Or.inl ⟨rfl, rfl⟩, ?_⟩
    intro earlier part later shape
    simp at shape
  have isValue : ∀ name ∈ volume.names,
      IsValue (if name = "dir".toList then "x-1".toList else "_y".toList) := by
    intro name isName
    split
    · exact ⟨by decide, List.all_eq_true.mp (by decide)⟩
    · exact ⟨by decide, List.all_eq_true.mp (by decide)⟩
  obtain ⟨_, accepted, given, _⟩ := parameters_of_replaced compiled separated isValue
    (Or.inr ⟨"/b.d/a?z=:name".toList, rfl, by decide⟩)
  exact ⟨compiled, separated, accepted, given⟩

end Template

end TableServer
