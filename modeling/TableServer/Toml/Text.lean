import TableServer.Text.Ascii

/-! The strings of TOML: basic ones with escapes and literal ones without, each on one line between
single marks or over several lines between triple marks. One automaton reads them all. -/

namespace TableServer.Toml

/-- What a string may hold besides its own mark and line breaks: no control characters but the
tab. -/
def isTextChar (c : Char) : Bool :=
  c == '\t' || (decide (' ' ≤ c) && c != Char.ofNat 0x7F)

structure TextForm where
  mark : Char
  long : Bool
  escapes : Bool

inductive TextState where
  | plain
  | marks (count : Nat)
  | escape
  | lineEnd
  | hidden
  | code (left value : Nat)

inductive TextStep where
  | goOn (state : TextState) (content : List Char)
  /-- The end, with the last content; the character is part of the string or stands after it. -/
  | finish (content : List Char) (inside : Bool)
  | fail

namespace TextForm

def simpleEscape? : Char → Option Char
  | 'b' => some (Char.ofNat 0x8)
  | 't' => some '\t'
  | 'n' => some '\n'
  | 'f' => some (Char.ofNat 0xC)
  | 'r' => some '\r'
  | '"' => some '"'
  | '\\' => some '\\'
  | _ => none

def isScalarValue (code : Nat) : Bool :=
  code < 0xD800 || (0xDFFF < code && code < 0x110000)

def plainStep (form : TextForm) (c : Char) : TextStep :=
  if c = form.mark then if form.long then .goOn (.marks 1) [] else .finish [] true
  else if c = '\\' ∧ form.escapes then .goOn .escape []
  else if isTextChar c || (form.long && c == '\n') then .goOn .plain [c]
  else .fail

def escapeStep (form : TextForm) (c : Char) : TextStep :=
  if c = 'u' then .goOn (.code 4 0) []
  else if c = 'U' then .goOn (.code 8 0) []
  else if form.long ∧ c = '\n' then .goOn .hidden []
  else if form.long ∧ (c = ' ' ∨ c = '\t') then .goOn .lineEnd []
  else
    match simpleEscape? c with
    | some value => .goOn .plain [value]
    | none => .fail

def codeStep (left value : Nat) (c : Char) : TextStep :=
  match hexValue? c with
  | none => .fail
  | some digit =>
    let code := value * 16 + digit
    if 1 < left then .goOn (.code (left - 1) code) []
    else if isScalarValue code then .goOn .plain [Char.ofNat code]
    else .fail

/-- Up to two marks in a row are content where more text follows, and so are up to two before the
three at the end. -/
def marksStep (form : TextForm) (count : Nat) (c : Char) : TextStep :=
  if c = form.mark then
    if count = 4 then .finish [form.mark, form.mark] true else .goOn (.marks (count + 1)) []
  else if 3 ≤ count then .finish (List.replicate (count - 3) form.mark) false
  else
    match form.plainStep c with
    | .goOn state content => .goOn state (List.replicate count form.mark ++ content)
    | other => other

def step (form : TextForm) (state : TextState) (c : Char) : TextStep :=
  match state with
  | .plain => form.plainStep c
  | .marks count => form.marksStep count c
  | .escape => form.escapeStep c
  | .code left value => codeStep left value c
  | .lineEnd =>
    if c = '\n' then .goOn .hidden []
    else if c = ' ' ∨ c = '\t' then .goOn .lineEnd []
    else .fail
  | .hidden =>
    if c = '\n' ∨ c = ' ' ∨ c = '\t' then .goOn .hidden [] else form.plainStep c

def run (form : TextForm) : TextState → List Char → Option (List Char × List Char)
  | .marks count, [] =>
    if 3 ≤ count then some (List.replicate (count - 3) form.mark, []) else none
  | _, [] => none
  | state, c :: rest =>
    match form.step state c with
    | .goOn next content =>
      (form.run next rest).map fun taken => (content ++ taken.1, taken.2)
    | .finish content inside => some (content, if inside then rest else c :: rest)
    | .fail => none

def ofMark (mark : Char) (long : Bool) : TextForm :=
  ⟨mark, long, mark == '"'⟩

def takeShort? : List Char → Option (String × List Char)
  | [] => none
  | mark :: rest =>
    if mark = '"' ∨ mark = '\'' then
      ((ofMark mark false).run .plain rest).map fun taken => (String.ofList taken.1, taken.2)
    else none

/-- A line break right after the opening marks is no content. -/
def dropLineBreak : List Char → List Char
  | '\n' :: rest => rest
  | text => text

def take? (text : List Char) : Option (String × List Char) :=
  match text with
  | a :: b :: c :: rest =>
    if (a = '"' ∨ a = '\'') ∧ b = a ∧ c = a then
      ((ofMark a true).run .plain (dropLineBreak rest)).map fun taken =>
        (String.ofList taken.1, taken.2)
    else takeShort? text
  | _ => takeShort? text

end TextForm

end TableServer.Toml
