import TableServer.Json.Basic

/-! Writing a document as compact JSON text: no white space, and in strings only the quote, the
backslash and the control characters below `U+0020` are escaped. -/

namespace TableServer

/-- Doubles are positional from `0.00001` up to 16 places before the point, and then always have a
fraction. -/
def jsonLayout : Layout := ⟨-5, 16, ['.', '0']⟩

def JsonNumber.write : JsonNumber → List Char
  | .integer whole =>
    if whole.value < 0 then '-' :: digitsOf whole.value.natAbs else digitsOf whole.value.natAbs
  | .double value =>
    if value.significand = 0 then
      if value.negative then ['-', '0', '.', '0'] else ['0', '.', '0']
    else jsonLayout.write (value.shortest .even)

namespace Json

def hexDigit (value : Nat) : Char :=
  if value < 10 then Char.ofNat ('0'.toNat + value) else Char.ofNat ('a'.toNat + (value - 10))

def writeChar (c : Char) : List Char :=
  if c = '"' then ['\\', '"']
  else if c = '\\' then ['\\', '\\']
  else if c = '\x08' then ['\\', 'b']
  else if c = '\x0c' then ['\\', 'f']
  else if c = '\n' then ['\\', 'n']
  else if c = '\r' then ['\\', 'r']
  else if c = '\t' then ['\\', 't']
  else if c.toNat < 0x20 then
    ['\\', 'u', '0', '0', hexDigit (c.toNat / 16), hexDigit (c.toNat % 16)]
  else [c]

def writeString (text : String) : List Char :=
  '"' :: text.toList.flatMap writeChar ++ ['"']

mutual

def write : Json → List Char
  | .null => ['n', 'u', 'l', 'l']
  | .bool true => ['t', 'r', 'u', 'e']
  | .bool false => ['f', 'a', 'l', 's', 'e']
  | .number value => value.write
  | .string text => writeString text
  | .array items => '[' :: writeItems items
  | .object members => '{' :: writeMembers members

def writeItems : List Json → List Char
  | [] => [']']
  | [last] => last.write ++ [']']
  | item :: rest => item.write ++ ',' :: writeItems rest

def writeMembers : List (String × Json) → List Char
  | [] => ['}']
  | [(key, value)] => writeString key ++ ':' :: value.write ++ ['}']
  | (key, value) :: rest => writeString key ++ ':' :: value.write ++ ',' :: writeMembers rest

end

def render (document : Json) : String :=
  String.ofList document.write

end Json

end TableServer
