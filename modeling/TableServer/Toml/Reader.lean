import TableServer.Toml.Scalar
import TableServer.Toml.Text
import TableServer.Toml.Tree

/-! Reading TOML documents: lines with a key and a value, and headers of tables in between. -/

namespace TableServer.Toml

/-- Every line break as one character. A carriage return elsewhere stays and is refused where it is
met. -/
def plainBreaks : List Char → List Char
  | '\r' :: '\n' :: rest => '\n' :: plainBreaks rest
  | c :: rest => c :: plainBreaks rest
  | [] => []

def isBlank (c : Char) : Bool := c == ' ' || c == '\t'

def skipBlanks (text : List Char) : List Char := text.dropWhile isBlank

def dropComment? : List Char → Option (List Char)
  | '#' :: rest =>
    if (rest.takeWhile (· != '\n')).all isTextChar then some (rest.dropWhile (· != '\n')) else none
  | text => some text

def takeLineEnd? (text : List Char) : Option (List Char) :=
  match dropComment? (skipBlanks text) with
  | some [] => some []
  | some ('\n' :: rest) => some rest
  | _ => none

def isBareKeyChar (c : Char) : Bool :=
  isLetter c || isDigit c || c == '-' || c == '_'

def takeKeyPart? (text : List Char) : Option (String × List Char) :=
  match TextForm.takeShort? text with
  | some taken => some taken
  | none =>
    let bare := text.takeWhile isBareKeyChar
    if bare.isEmpty then none else some (String.ofList bare, text.dropWhile isBareKeyChar)

/-- How deep values may nest, and how many parts a key may have. -/
def greatestDepth : Nat := 79

def takeKey? : Nat → List Char → Option (List String × List Char)
  | 0, _ => none
  | parts + 1, text => do
    let (part, rest) ← takeKeyPart? (skipBlanks text)
    match skipBlanks rest with
    | '.' :: more =>
      let (path, rest) ← takeKey? parts more
      pure (part :: path, rest)
    | rest => pure ([part], rest)

def skipLines? : Nat → List Char → Option (List Char)
  | 0, _ => none
  | fuel + 1, text =>
    match dropComment? (skipBlanks text) with
    | some ('\n' :: rest) => skipLines? fuel rest
    | other => other

mutual

/-- A value from the beginning of a text; `depth` is how deep it may nest. -/
def takeValue? : Nat → Nat → List Char → Option (Setting × List Char)
  | 0, _, _ => none
  | fuel + 1, depth, text =>
    match text with
    | '[' :: rest =>
      if depth = 0 then none
      else (takeItems? fuel (depth - 1) rest).map fun taken => (.list taken.1, taken.2)
    | '\x7b' :: rest =>
      if depth = 0 then none
      else do
        let (entries, rest) ← takePairs? fuel (depth - 1) true rest
        let setting ← Node.ofEntries? entries
        pure (setting, rest)
    | _ =>
      if text.head? = some '"' ∨ text.head? = some '\'' then
        (TextForm.take? text).map fun taken => (.text taken.1, taken.2)
      else
        let (word, rest) := takeWord text
        (scalar? word).map fun setting => (setting, rest)

def takeItems? : Nat → Nat → List Char → Option (List Setting × List Char)
  | 0, _, _ => none
  | fuel + 1, depth, text => do
    match ← skipLines? (text.length + 1) text with
    | ']' :: rest => pure ([], rest)
    | start =>
      let (item, rest) ← takeValue? fuel depth start
      match ← skipLines? (rest.length + 1) rest with
      | ',' :: rest =>
        let (items, rest) ← takeItems? fuel depth rest
        pure (item :: items, rest)
      | ']' :: rest => pure ([item], rest)
      | _ => none

/-- The pairs of a table on one line up to its end; no comma follows the last. -/
def takePairs? : Nat → Nat → Bool → List Char → Option (List Entry × List Char)
  | 0, _, _, _ => none
  | fuel + 1, depth, first, text =>
    match first, skipBlanks text with
    | true, '\x7d' :: rest => some ([], rest)
    | _, start => do
      let (path, rest) ← takeKey? greatestDepth start
      match rest with
      | '=' :: rest =>
        let (value, rest) ← takeValue? fuel depth (skipBlanks rest)
        match skipBlanks rest with
        | ',' :: rest =>
          let (entries, rest) ← takePairs? fuel depth false rest
          pure (⟨path, value⟩ :: entries, rest)
        | '\x7d' :: rest => pure ([⟨path, value⟩], rest)
        | _ => none
      | _ => none

end

/-- Reading a value takes at most two steps for each character. -/
def fuelFor (text : List Char) : Nat := 2 * text.length + 2

inductive Line where
  | blank
  | entry (entry : Entry)
  | header (path : List String) (isElement : Bool)

def takeHeader? (isElement : Bool) (text : List Char) : Option (Line × List Char) := do
  let (path, rest) ← takeKey? greatestDepth text
  match isElement, rest with
  | false, ']' :: rest => pure (.header path false, rest)
  | true, ']' :: ']' :: rest => pure (.header path true, rest)
  | _, _ => none

def takeEntry? (text : List Char) : Option (Line × List Char) := do
  let (path, rest) ← takeKey? greatestDepth text
  match rest with
  | '=' :: rest =>
    let (value, rest) ← takeValue? (fuelFor rest) greatestDepth (skipBlanks rest)
    pure (.entry ⟨path, value⟩, rest)
  | _ => none

def takeLine? (text : List Char) : Option (Line × List Char) := do
  let (line, rest) ← match skipBlanks text with
    | '[' :: '[' :: rest => takeHeader? true rest
    | '[' :: rest => takeHeader? false rest
    | '#' :: rest => some (.blank, '#' :: rest)
    | '\n' :: rest => some (.blank, '\n' :: rest)
    | [] => some (.blank, [])
    | start => takeEntry? start
  let rest ← takeLineEnd? rest
  pure (line, rest)

def takeLines? : Nat → List Char → Option (List Line)
  | _, [] => some []
  | 0, _ => none
  | fuel + 1, text => do
    let (line, rest) ← takeLine? text
    let lines ← takeLines? fuel rest
    pure (line :: lines)

def group : List Line → List Entry × List Section
  | [] => ([], [])
  | .blank :: rest => group rest
  | .entry entry :: rest =>
    let (entries, sections) := group rest
    (entry :: entries, sections)
  | .header path isElement :: rest =>
    let (entries, sections) := group rest
    ([], ⟨path, isElement, entries⟩ :: sections)

def dropByteOrderMark : List Char → List Char
  | [] => []
  | c :: rest => if c = Char.ofNat 0xFEFF then rest else c :: rest

def read? (text : String) : Option Setting :=
  let plain := plainBreaks (dropByteOrderMark text.toList)
  (takeLines? (plain.length + 1) plain).bind fun lines =>
    Node.ofSections? (group lines).1 (group lines).2

end TableServer.Toml
