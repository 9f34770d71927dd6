import TableServer.Number.Layout
import TableServer.Text.Blank

/-! Numbers and texts as values that compare with each other: the text of a number, and the number
that a text stands for. -/

namespace TableServer

/-- A number compared as text is positional from `0.000001` up to 21 places before the point. -/
def comparedLayout : Layout := ⟨-6, 21, []⟩

/-- The two zeros have the same text. -/
def Double.text : Double → List Char
  | .nan => "NaN".toList
  | .infinite false => "Infinity".toList
  | .infinite true => "-Infinity".toList
  | .finite value =>
    if value.significand = 0 then ['0'] else comparedLayout.write (value.shortest .up)

namespace NumberText

def digit? (radix : Nat) (c : Char) : Option Nat :=
  let value :=
    if '0' ≤ c ∧ c ≤ '9' then c.toNat - '0'.toNat
    else if 'a' ≤ c ∧ c ≤ 'f' then c.toNat - 'a'.toNat + 10
    else if 'A' ≤ c ∧ c ≤ 'F' then c.toNat - 'A'.toNat + 10
    else radix
  if value < radix then some value else none

def append (radix : Nat) (value : Double) (digit : Nat) : Double :=
  match value with
  | .finite value => .ofRatio false (value.units * radix + digit * twoTo 1074) (twoTo 1074)
  | other => other

def readRadix (radix : Nat) (digits : List Char) : Double :=
  if digits.isEmpty then .nan
  else
    match digits.mapM (digit? radix) with
    | some values => values.foldl (append radix) .zero
    | none => .nan

def isSign (c : Char) : Bool := c == '+' || c == '-'

/-- The exponent of a decimal literal: nothing, or `e` and a whole number with an optional sign. -/
def exponent? : List Char → Option Int
  | [] => some 0
  | mark :: rest =>
    if mark = 'e' ∨ mark = 'E' then
      let digits := match rest with
        | c :: after => if isSign c then after else rest
        | [] => rest
      if digits.isEmpty ∨ !digits.all isDigit then none
      else
        let magnitude : Int := digitsValue digits
        some (if rest.head? = some '-' then -magnitude else magnitude)
    else none

/-- A decimal literal: an optional sign, digits with at most one point among or around them, and an
optional exponent. -/
def decimal? (text : List Char) : Option Decimal := do
  let unsigned := match text with
    | c :: rest => if isSign c then rest else text
    | [] => text
  let (whole, rest) := unsigned.span isDigit
  let (fraction, rest) := match rest with
    | '.' :: after => after.span isDigit
    | _ => ([], rest)
  if whole.isEmpty ∧ fraction.isEmpty then none
  let exponent ← exponent? rest
  pure (.ofDigits (text.head? = some '-') whole fraction exponent)

/-- The number that a text stands for: 0 for a blank one, a literal with a radix prefix, a decimal
literal or an infinity, white space around it aside; any other text is not a number. -/
def read (text : List Char) : Double :=
  let body := trimBlanks text
  if body.isEmpty then .zero
  else if body = "Infinity".toList ∨ body = "+Infinity".toList then .infinite false
  else if body = "-Infinity".toList then .infinite true
  else
    match body with
    | '0' :: 'x' :: digits | '0' :: 'X' :: digits => readRadix 16 digits
    | '0' :: 'o' :: digits | '0' :: 'O' :: digits => readRadix 8 digits
    | '0' :: 'b' :: digits | '0' :: 'B' :: digits => readRadix 2 digits
    | _ =>
      match decimal? body with
      | some value => value.toDouble
      | none => .nan

end NumberText

end TableServer
