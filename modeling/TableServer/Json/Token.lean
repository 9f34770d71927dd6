import TableServer.Json.NumberLiteral

/-! The tokens of a JSON text. White space between tokens is dropped; text that is no token ends
the list with `malformed`. -/

namespace TableServer

inductive JsonToken where
  | openArray
  | closeArray
  | openObject
  | closeObject
  | comma
  | colon
  | null
  | bool (value : Bool)
  | number (value : JsonNumber)
  | string (value : String)
  | malformed

namespace JsonToken

def isSpace (c : Char) : Bool :=
  c == ' ' || c == '\t' || c == '\n' || c == '\r'

def hexQuad? (a b c d : Char) : Option Nat := do
  let first ← hexValue? a
  let second ← hexValue? b
  let third ← hexValue? c
  let fourth ← hexValue? d
  pure (((first * 16 + second) * 16 + third) * 16 + fourth)

def escapeValue? : Char → Option Char
  | '"' => some '"'
  | '\\' => some '\\'
  | '/' => some '/'
  | 'b' => some '\x08'
  | 'f' => some '\x0c'
  | 'n' => some '\n'
  | 'r' => some '\r'
  | 't' => some '\t'
  | _ => none

/-- The rest of a string after its opening quote, and the text after the closing one. A unit from
`D800` to `DBFF` must be followed by one from `DC00` to `DFFF`, and the two are one character. -/
def stringBody : List Char → Option (List Char × List Char)
  | [] => none
  | '"' :: rest => some ([], rest)
  | '\\' :: 'u' :: a :: b :: c :: d :: rest =>
    match hexQuad? a b c d with
    | none => none
    | some high =>
      if 0xDC00 ≤ high ∧ high ≤ 0xDFFF then none
      else if 0xD800 ≤ high ∧ high ≤ 0xDBFF then
        match rest with
        | '\\' :: 'u' :: e :: f :: g :: h :: rest =>
          match hexQuad? e f g h with
          | none => none
          | some low =>
            if 0xDC00 ≤ low ∧ low ≤ 0xDFFF then
              (stringBody rest).map fun (text, after) =>
                (Char.ofNat (0x10000 + (high - 0xD800) * 0x400 + (low - 0xDC00)) :: text, after)
            else none
        | _ => none
      else (stringBody rest).map fun (text, after) => (Char.ofNat high :: text, after)
  | '\\' :: c :: rest =>
    match escapeValue? c with
    | none => none
    | some value => (stringBody rest).map fun (text, after) => (value :: text, after)
  | c :: rest =>
    if c.toNat < 0x20 ∨ c = '\\' then none
    else (stringBody rest).map fun (text, after) => (c :: text, after)

def first? : List Char → Option (JsonToken × List Char)
  | '[' :: rest => some (openArray, rest)
  | ']' :: rest => some (closeArray, rest)
  | '{' :: rest => some (openObject, rest)
  | '}' :: rest => some (closeObject, rest)
  | ',' :: rest => some (comma, rest)
  | ':' :: rest => some (colon, rest)
  | 'n' :: 'u' :: 'l' :: 'l' :: rest => some (null, rest)
  | 't' :: 'r' :: 'u' :: 'e' :: rest => some (bool true, rest)
  | 'f' :: 'a' :: 'l' :: 's' :: 'e' :: rest => some (bool false, rest)
  | '"' :: rest =>
    (stringBody rest).map fun (text, after) => (string (String.ofList text), after)
  | '-' :: rest => (JsonNumber.read? true rest).map fun (value, after) => (number value, after)
  | text => (JsonNumber.read? false text).map fun (value, after) => (number value, after)

def scan : Nat → List Char → List JsonToken
  | 0, _ => []
  | _ + 1, [] => []
  | fuel + 1, c :: rest =>
    if isSpace c then scan fuel rest
    else
      match first? (c :: rest) with
      | none => [malformed]
      | some (token, after) => token :: scan fuel after

/-- Each step of the scan takes at least one character, so the length of the text is enough. -/
def ofText (text : List Char) : List JsonToken :=
  scan text.length text

end JsonToken

end TableServer
