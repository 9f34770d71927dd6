import TableServer.Http.Template

/-! How a template stands in its text. The text is cut at every colon that a letter follows: the
letters up to the first other character are the name of a parameter, and what lies between two
parameters is a literal. There is one way to do so, and it is the one in which a text is read. -/

namespace TableServer

namespace Template

def spelled (template : Template) : List Char :=
  template.lead ++ template.parts.flatMap fun part => ':' :: (part.1 ++ part.2)

/-- No colon in the text is followed by a letter. -/
def IsLiteral (text : List Char) : Prop :=
  ∀ c, isLetter c = true → ¬[':', c] <:+: text

def IsName (name : List Char) : Prop :=
  name ≠ [] ∧ ∀ c ∈ name, isLetter c = true

def BeginsWithoutLetter (text : List Char) : Prop :=
  ∀ c, text.head? = some c → isLetter c = false

/-- A template cuts a text into literals and parameters. No letter that follows a name is left out
of it. -/
structure Spells (template : Template) (text : List Char) : Prop where
  whole : template.spelled = text
  lead : IsLiteral template.lead
  names : ∀ part ∈ template.parts, IsName part.1
  literals : ∀ part ∈ template.parts, IsLiteral part.2 ∧ BeginsWithoutLetter part.2

theorem isLiteral_nil : IsLiteral [] := by
  intro c _ within
  have impossible := within.length_le
  simp at impossible

theorem isLiteral_cons (c : Char) (rest : List Char) :
    IsLiteral (c :: rest) ↔ (c = ':' → BeginsWithoutLetter rest) ∧ IsLiteral rest := by
  constructor
  · intro literal
    constructor
    · rintro rfl d begins
      obtain ⟨after, rfl⟩ := List.head?_eq_some_iff.mp begins
      rw [Bool.eq_false_iff]
      intro letter
      exact literal d letter ⟨[], after, rfl⟩
    · intro d letter within
      exact literal d letter (List.infix_cons within)
  · rintro ⟨begins, literal⟩ d letter within
    rcases List.infix_cons_iff.mp within with first | later
    · obtain ⟨rfl, after, rfl⟩ := List.cons_prefix_cons.mp first
      have noLetter := begins rfl d rfl
      rw [letter] at noLetter
      cases noLetter
    · exact literal d letter later

theorem isLiteral_of_suffix {text rest : List Char} (literal : IsLiteral text)
    (suffix : rest <:+ text) : IsLiteral rest := by
  intro c letter within
  exact literal c letter (within.trans suffix.isInfix)

theorem takeWhile_eq_nil_iff (text : List Char) :
    text.takeWhile isLetter = [] ↔ BeginsWithoutLetter text := by
  cases text with
  | nil => simp [BeginsWithoutLetter]
  | cons c rest =>
    cases letter : isLetter c <;> simp [BeginsWithoutLetter, letter]

theorem dropWhile_eq_self {text : List Char} (begins : BeginsWithoutLetter text) :
    text.dropWhile isLetter = text := by
  have whole := List.takeWhile_append_dropWhile (p := isLetter) (l := text)
  rw [(takeWhile_eq_nil_iff text).mpr begins] at whole
  exact whole

theorem beginsWithoutLetter_dropWhile (text : List Char) :
    BeginsWithoutLetter (text.dropWhile isLetter) := by
  intro c begins
  have stopped := List.head?_dropWhile_not isLetter text
  rw [begins] at stopped
  simpa using stopped

theorem isName_takeWhile {text : List Char} (letters : text.takeWhile isLetter ≠ []) :
    IsName (text.takeWhile isLetter) := by
  refine ⟨letters, fun c within => ?_⟩
  exact List.all_eq_true.mp List.all_takeWhile c within

theorem spells_ofText (text : List Char) : (ofText text).Spells text := by
  induction text with
  | nil => exact ⟨rfl, isLiteral_nil, by simp [ofText], by simp [ofText]⟩
  | cons c rest ih =>
    obtain ⟨whole, lead, names, literals⟩ := ih
    simp only [ofText]
    by_cases colon : c = ':'
    · subst colon
      by_cases noName : (ofText rest).lead.takeWhile isLetter = []
      · simp only [noName, if_true]
        have begins := (takeWhile_eq_nil_iff _).mp noName
        refine ⟨?_, (isLiteral_cons _ _).mpr ⟨fun _ => begins, lead⟩, names, literals⟩
        exact congrArg (':' :: ·) whole
      · simp only [noName, if_true, if_false]
        refine ⟨?_, isLiteral_nil, ?_, ?_⟩
        · simp only [spelled] at whole ⊢
          simp only [List.flatMap_cons, List.takeWhile_append_dropWhile, List.nil_append,
            List.cons_append, whole]
        · exact List.forall_mem_cons.mpr ⟨isName_takeWhile noName, names⟩
        · refine List.forall_mem_cons.mpr ⟨⟨?_, beginsWithoutLetter_dropWhile _⟩, literals⟩
          exact isLiteral_of_suffix lead (List.dropWhile_suffix isLetter)
    · simp only [colon, if_false]
      refine ⟨?_, (isLiteral_cons _ _).mpr ⟨fun equal => absurd equal colon, lead⟩, names, literals⟩
      exact congrArg (c :: ·) whole

theorem ofText_literal {literal : List Char} (isLiteral : IsLiteral literal) {rest : List Char}
    (begins : (ofText rest).lead = []) :
    ofText (literal ++ rest) = ⟨literal, (ofText rest).parts⟩ := by
  induction literal with
  | nil =>
    have whole : ofText rest = ⟨(ofText rest).lead, (ofText rest).parts⟩ := rfl
    rw [begins] at whole
    exact whole
  | cons c literal ih =>
    obtain ⟨ahead, isLiteral⟩ := (isLiteral_cons c literal).mp isLiteral
    rw [List.cons_append, ofText, ih isLiteral]
    by_cases colon : c = ':'
    · have noName := (takeWhile_eq_nil_iff literal).mpr (ahead colon)
      simp only [colon, noName, if_true]
    · simp only [colon, if_false]

theorem ofText_letters {name : List Char} (letters : ∀ c ∈ name, isLetter c = true)
    (rest : List Char) :
    ofText (name ++ rest) = ⟨name ++ (ofText rest).lead, (ofText rest).parts⟩ := by
  induction name with
  | nil => rfl
  | cons c name ih =>
    obtain ⟨letter, letters⟩ := List.forall_mem_cons.mp letters
    have noColon : c ≠ ':' := by
      rintro rfl
      cases letter
    rw [List.cons_append, ofText, ih letters]
    simp only [noColon, if_false, List.cons_append]

theorem ofText_parameter {name literal : List Char} (isName : IsName name)
    (begins : BeginsWithoutLetter literal) {rest : List Char} {parts : List (List Char × List Char)}
    (read : ofText rest = ⟨literal, parts⟩) :
    ofText (':' :: (name ++ rest)) = ⟨[], (name, literal) :: parts⟩ := by
  have taken : (name ++ literal).takeWhile isLetter = name := by
    rw [List.takeWhile_append_of_pos isName.2, (takeWhile_eq_nil_iff literal).mpr begins,
      List.append_nil]
  have left : (name ++ literal).dropWhile isLetter = literal := by
    rw [List.dropWhile_append_of_pos isName.2, dropWhile_eq_self begins]
  rw [ofText, ofText_letters isName.2, read]
  simp only [taken, left, isName.1, if_true, if_false]

/-- A template is read back from its text. -/
theorem ofText_of_spells {template : Template} {text : List Char} (spells : template.Spells text) :
    ofText text = template := by
  obtain ⟨lead, parts⟩ := template
  obtain ⟨rfl, isLead, names, literals⟩ := spells
  suffices tail : ofText (parts.flatMap fun part => ':' :: (part.1 ++ part.2)) = ⟨[], parts⟩ by
    rw [spelled, ofText_literal isLead (by rw [tail]), tail]
  clear isLead
  induction parts with
  | nil => rfl
  | cons part parts ih =>
    obtain ⟨isName, names⟩ := List.forall_mem_cons.mp names
    obtain ⟨⟨isLiteral, begins⟩, literals⟩ := List.forall_mem_cons.mp literals
    have rest := ih names literals
    have read := ofText_literal isLiteral (congrArg Template.lead rest)
    rw [rest] at read
    rw [List.flatMap_cons, List.cons_append, List.append_assoc]
    exact ofText_parameter isName begins read

theorem spells_iff (template : Template) (text : List Char) :
    template.Spells text ↔ template = ofText text := by
  constructor
  · intro spells
    exact (ofText_of_spells spells).symm
  · rintro rfl
    exact spells_ofText text

end Template

end TableServer
