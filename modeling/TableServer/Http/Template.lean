import TableServer.Text.Ascii

/-! Path templates. A colon and the longest run of letters after it is a parameter; all other text
is literal. A parameter stands for one or more of the characters `a` to `z`, `0` to `9`, `-` and
`_`. A target matches when the whole of it, a query at its end aside, is the template with values
in place of the parameters. -/

namespace TableServer

structure Template where
  lead : List Char
  parts : List (List Char × List Char)
deriving DecidableEq

namespace Template

def isValueChar (c : Char) : Bool :=
  (decide ('a' ≤ c) && decide (c ≤ 'z')) || (decide ('0' ≤ c) && decide (c ≤ '9')) ||
    c == '-' || c == '_'

/-- Read from the right: the literal that begins the rest holds the whole run of letters that a
colon before it may take. -/
def ofText : List Char → Template
  | [] => ⟨[], []⟩
  | c :: rest =>
    let after := ofText rest
    if c = ':' then
      let name := after.lead.takeWhile isLetter
      if name = [] then ⟨c :: after.lead, after.parts⟩
      else ⟨[], (name, after.lead.dropWhile isLetter) :: after.parts⟩
    else ⟨c :: after.lead, after.parts⟩

def names (template : Template) : List (List Char) :=
  template.parts.map Prod.fst

/-- A template whose parameter names are distinct. -/
def compile? (text : List Char) : Option Template :=
  let template := ofText text
  if template.names.Nodup then some template else none

def isQueryEnd : List Char → Bool
  | [] => true
  | c :: rest => c == '?' && rest.all (· != '\n')

def dropLiteral : List Char → List Char → Option (List Char)
  | [], input => some input
  | _ :: _, [] => none
  | c :: literal, d :: input => if c = d then dropLiteral literal input else none

/-- The longest value at the beginning of the input after which the rest can be read. -/
def longestValue (readRest : List Char → Option (List (List Char))) :
    List Char → Option (List (List Char))
  | [] => none
  | c :: input =>
    if isValueChar c then
      match longestValue readRest input with
      | some (value :: values) => some ((c :: value) :: values)
      | _ => (readRest input).map ([c] :: ·)
    else none

def readParts : List (List Char × List Char) → List Char → Option (List (List Char))
  | [], input => if isQueryEnd input then some [] else none
  | (_, literal) :: parts, input =>
    longestValue (fun rest => (dropLiteral literal rest).bind (readParts parts)) input

def suffixes : List Char → List (List Char)
  | [] => [[]]
  | c :: rest => (c :: rest) :: suffixes rest

/-- How each suffix of an input can be read, the whole input first. With what is known of the
parts after it, a part is read at all places in one pass, so the time for a template grows with
the length of the input and not with the number of ways to divide it. -/
abbrev Readings := List (Option (List (List Char)))

def afterLiteral (literal : List Char) : List Char → Readings → Readings
  | _, [] => []
  | input, reading :: readings =>
    (if literal.isPrefixOf input then ((reading :: readings).drop literal.length).head?.join
      else none) :: afterLiteral literal input.tail readings

def longestValues : List Char → Readings → Readings
  | c :: input, _ :: readings =>
    let longer := longestValues input readings
    let reading :=
      if isValueChar c then
        match longer.head?.join with
        | some (value :: values) => some ((c :: value) :: values)
        | _ => readings.head?.join.map ([c] :: ·)
      else none
    reading :: longer
  | _, _ => [none]

/-- `readParts` at every suffix. -/
def readings : List (List Char × List Char) → List Char → Readings
  | [], input => (suffixes input).map (readParts [])
  | (_, literal) :: parts, input =>
    longestValues input (afterLiteral literal input (readings parts input))

theorem suffixes_eq_cons (input : List Char) :
    ∃ rest, suffixes input = input :: rest := by
  cases input with
  | nil => exact ⟨[], rfl⟩
  | cons c input => exact ⟨suffixes input, rfl⟩

theorem head?_join_suffixes (read : List Char → Option (List (List Char)))
    (input : List Char) : ((suffixes input).map read).head?.join = read input := by
  obtain ⟨rest, equal⟩ := suffixes_eq_cons input
  simp [equal]

theorem isPrefixOf_iff_dropLiteral (literal input : List Char) :
    dropLiteral literal input =
      if literal.isPrefixOf input then some (input.drop literal.length) else none := by
  induction literal generalizing input with
  | nil => simp [dropLiteral]
  | cons c literal ih =>
    cases input with
    | nil => simp [dropLiteral]
    | cons d input =>
      by_cases same : c = d
      · simp [dropLiteral, same, ih]
      · simp [dropLiteral, same]

theorem drop_suffixes (input : List Char) (count : Nat) (within : count ≤ input.length) :
    (suffixes input).drop count = suffixes (input.drop count) := by
  induction input generalizing count with
  | nil =>
    have none_left : count = 0 := by simpa using within
    simp [none_left]
  | cons c input ih =>
    cases count with
    | zero => rfl
    | succ count => exact ih count (by simpa using within)

theorem afterLiteral_suffixes (literal : List Char)
    (read : List Char → Option (List (List Char))) (input : List Char) :
    afterLiteral literal input ((suffixes input).map read) =
      (suffixes input).map fun rest => (dropLiteral literal rest).bind read := by
  have here (input : List Char) :
      (if literal.isPrefixOf input then
        (((suffixes input).map read).drop literal.length).head?.join else none) =
        (dropLiteral literal input).bind read := by
    rw [isPrefixOf_iff_dropLiteral]
    split
    · rename_i isPrefix
      have within := (List.isPrefixOf_iff_prefix.mp isPrefix).length_le
      rw [← List.map_drop, drop_suffixes input literal.length within, head?_join_suffixes]
      rfl
    · rfl
  induction input with
  | nil =>
    have first := here []
    simp only [suffixes, List.map_cons, List.map_nil] at first ⊢
    simp only [afterLiteral, first]
  | cons c input ih =>
    have first := here (c :: input)
    simp only [suffixes, List.map_cons] at first ⊢
    simp only [afterLiteral, first, List.tail_cons, ih]

theorem longestValues_suffixes (read : List Char → Option (List (List Char)))
    (input : List Char) :
    longestValues input ((suffixes input).map read) =
      (suffixes input).map (longestValue read) := by
  induction input with
  | nil => rfl
  | cons c input ih =>
    simp only [suffixes, List.map_cons, longestValues, ih, head?_join_suffixes, longestValue]

theorem readings_eq (parts : List (List Char × List Char)) (input : List Char) :
    readings parts input = (suffixes input).map (readParts parts) := by
  induction parts with
  | nil => rfl
  | cons part parts ih =>
    simp only [readings, ih, afterLiteral_suffixes, longestValues_suffixes]
    rfl

/-- The values of the parameters in a target. Where several choices fit, the earlier parameters
take as much as they can. -/
def values? (template : Template) (target : List Char) : Option (List (List Char)) :=
  (dropLiteral template.lead target).bind fun input => (readings template.parts input).head?.join

theorem values?_eq (template : Template) (target : List Char) :
    template.values? target =
      (dropLiteral template.lead target).bind (readParts template.parts) := by
  simp only [values?, readings_eq, head?_join_suffixes]

def accepts (template : Template) (target : String) : Bool :=
  (template.values? target.toList).isSome

def parameters (template : Template) (target : String) : List (String × String) :=
  match template.values? target.toList with
  | some values =>
    template.names.zipWith (fun name value => (String.ofList name, String.ofList value)) values
  | none => []

end Template

end TableServer
