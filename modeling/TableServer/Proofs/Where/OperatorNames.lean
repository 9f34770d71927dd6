import Mathlib.Data.List.Sections
import TableServer.Where.Operator

/-! The texts that name an operator. A text counts by its upper case, and besides the letters of ASCII
only the dotless i has an upper case that stands in a name. -/

namespace TableServer

def nameCharacters : List Char :=
  ['=', '>', '<', '_', 'I', 'N', 'O', 'T']

def lettersOf : Char → List Char
  | 'I' => ['I', 'i', 'ı']
  | 'N' => ['N', 'n']
  | 'O' => ['O', 'o']
  | 'T' => ['T', 't']
  | other => [other]

theorem upperCaseOf_of_mem_lettersOf :
    ∀ upper ∈ nameCharacters, ∀ c ∈ lettersOf upper, upperCaseOf c = [upper] := by
  have each : (nameCharacters.all fun upper =>
      (lettersOf upper).all fun c => upperCaseOf c == [upper]) = true := by decide +kernel
  simpa using each

theorem long_not_within :
    ∀ long ∈ longUpperCases, ¬∀ upper ∈ long.2.map Char.ofNat, upper ∈ nameCharacters := by
  have each : (longUpperCases.all fun long =>
      (long.2.map Char.ofNat).any fun upper => !nameCharacters.contains upper) = true := by
    decide +kernel
  intro long isLong
  have other := List.all_eq_true.mp each long isLong
  simpa using other

theorem run_within : ∀ run ∈ caseRuns, ∀ upper ∈ nameCharacters,
    run.holds (upper.toNat - run.offset).toNat = true →
      Char.ofNat (upper.toNat - run.offset).toNat ∈ lettersOf upper := by
  have each : (caseRuns.all fun run => nameCharacters.all fun upper =>
      !run.holds (upper.toNat - run.offset).toNat ||
        (lettersOf upper).contains (Char.ofNat (upper.toNat - run.offset).toNat)) = true := by
    decide +kernel
  intro run isRun upper isNamed holds
  have letter := List.all_eq_true.mp (List.all_eq_true.mp each run isRun) upper isNamed
  rw [holds] at letter
  exact List.contains_iff_mem.mp letter

theorem toNat_ofNat_of_pos {code : Nat} (positive : 0 < (Char.ofNat code).toNat) :
    (Char.ofNat code).toNat = code := by
  by_cases valid : code.isValidChar
  · exact congrArg Char.toNat (dif_pos valid)
  · have null : (Char.ofNat code).toNat = 0 := congrArg Char.toNat (dif_neg valid)
    omega

theorem mem_lettersOf_of_run {run : CaseRun} {c : Char} (isRun : run ∈ caseRuns)
    (holds : run.holds c.toNat = true)
    (named : Char.ofNat (c.toNat + run.offset).toNat ∈ nameCharacters) :
    c ∈ lettersOf (Char.ofNat (c.toNat + run.offset).toNat) := by
  have positive : ∀ upper ∈ nameCharacters, 0 < upper.toNat := by simp [nameCharacters]
  have moved := toNat_ofNat_of_pos (positive _ named)
  have back : ((Char.ofNat (c.toNat + run.offset).toNat).toNat - run.offset).toNat = c.toNat := by
    have moves := positive _ named
    omega
  have letter := run_within run isRun _ named
  rw [back, Char.ofNat_toNat] at letter
  exact letter holds

theorem exists_upperCaseOf {c : Char} (named : ∀ upper ∈ upperCaseOf c, upper ∈ nameCharacters) :
    ∃ upper, upperCaseOf c = [upper] ∧ c ∈ lettersOf upper := by
  rw [upperCaseOf] at named ⊢
  cases long : longUpperCases.lookup c.toNat with
  | some codes =>
    rw [long] at named
    obtain ⟨before, after, split, _⟩ := List.lookup_eq_some_iff.mp long
    exact absurd named (long_not_within (c.toNat, codes) (by simp [split]))
  | none =>
    rw [long] at named
    cases moved : caseRuns.find? (·.holds c.toNat) with
    | some run =>
      rw [moved] at named
      have isNamed := named _ (List.mem_singleton_self _)
      have holds := List.find?_some moved
      exact ⟨_, rfl, mem_lettersOf_of_run (List.mem_of_find?_eq_some moved) holds isNamed⟩
    | none =>
      rw [moved] at named
      have isNamed := named c (List.mem_singleton_self c)
      have itself : ∀ upper ∈ nameCharacters, upper ∈ lettersOf upper := by
        simp [nameCharacters, lettersOf]
      exact ⟨c, rfl, itself c isNamed⟩

theorem eq_upperCase_iff {name : List Char} (named : ∀ upper ∈ name, upper ∈ nameCharacters)
    (text : List Char) :
    name = upperCase text ↔ List.Forall₂ (fun c upper => c ∈ lettersOf upper) text name := by
  constructor
  · rintro rfl
    induction text with
    | nil => exact .nil
    | cons c rest ih =>
      rw [upperCase, List.flatMap_cons, List.forall_mem_append] at named
      obtain ⟨upper, single, letter⟩ := exists_upperCaseOf named.1
      rw [upperCase, List.flatMap_cons, single]
      exact .cons letter (ih named.2)
  · intro each
    induction each with
    | nil => rfl
    | cons letter _ ih =>
      rw [List.forall_mem_cons] at named
      rw [upperCase, List.flatMap_cons, upperCaseOf_of_mem_lettersOf _ named.1 _ letter, ih named.2]
      rfl

namespace Operator

def inNames : List String :=
  ["IN", "iN", "ıN", "In", "in", "ın"]

def notNames : List String :=
  ["NOT_", "nOT_", "NoT_", "noT_", "NOt_", "nOt_", "Not_", "not_"]

def names : Operator → List String
  | equal => ["="]
  | greater => [">"]
  | greaterOrEqual => [">="]
  | less => ["<"]
  | lessOrEqual => ["<="]
  | within => inNames
  | notWithin => inNames.flatMap fun ending => notNames.map (· ++ ending)

theorem name_mem_names (operator : Operator) : operator.name ∈ operator.names := by
  cases operator <;> decide

theorem name_eq_upperCase_iff (operator : Operator) (text : String) :
    operator.name.toList = upperCase text.toList ↔ text ∈ operator.names := by
  have named : ∀ upper ∈ operator.name.toList, upper ∈ nameCharacters := by
    have each : operator.name.toList.all nameCharacters.contains = true := by
      cases operator <;> decide
    simpa using each
  have listed : (operator.name.toList.map lettersOf).sections = operator.names.map String.toList := by
    cases operator <;> decide +kernel
  have letters := List.forall₂_map_right_iff (R := (· ∈ ·)) (f := lettersOf) (l := text.toList)
    (u := operator.name.toList)
  rw [eq_upperCase_iff named, ← letters, ← List.mem_sections, listed, List.mem_map]
  constructor
  · rintro ⟨other, isName, same⟩
    exact String.toList_inj.mp same ▸ isName
  · intro isName
    exact ⟨text, isName, rfl⟩

theorem name_injective {first second : Operator} (same : first.name.toList = second.name.toList) :
    first = second := by
  cases first <;> cases second <;> first | rfl | exact absurd same (by decide)

/-- The symbols have one spelling each, `IN` has six, and `NOT_IN` has 48. -/
theorem ofName?_eq_some_iff (text : String) (operator : Operator) :
    ofName? text = some operator ↔ text ∈ operator.names := by
  rw [← name_eq_upperCase_iff]
  have found_name {found : Operator} (isFound : ofName? text = some found) :
      found.name.toList = upperCase text.toList := by
    simpa using List.find?_some isFound
  refine ⟨found_name, ?_⟩
  intro isName
  have named : (ofName? text).isSome := by
    rw [ofName?, List.find?_isSome]
    exact ⟨operator, by cases operator <;> decide, beq_iff_eq.mpr isName⟩
  obtain ⟨found, isFound⟩ := Option.isSome_iff_exists.mp named
  rw [isFound, name_injective ((found_name isFound).trans isName.symm)]

end Operator

end TableServer
