import TableServer.Json.Basic
import TableServer.Number.Scaling

/-! Number literals. A literal is read into a significand of 64 bits: the digits it has room for
count, the digits of the whole part after them only scale it, and those of the fraction are
dropped. A double comes from the significand and a power of ten in steps, so that a literal of more
than 15 digits or with a large exponent need not be read as the double nearest to it. -/

namespace TableServer

namespace JsonNumber

def fractionPart : List Char → Option (Option (List Char) × List Char)
  | '.' :: rest =>
    match rest.span isDigit with
    | ([], _) => none
    | (digits, after) => some (some digits, after)
  | rest => some (none, rest)

def exponentPart (text : List Char) : Option (Option Int × List Char) :=
  match text with
  | c :: rest =>
    if c = 'e' ∨ c = 'E' then
      let (negative, unsigned) :=
        match rest with
        | '+' :: after => (false, after)
        | '-' :: after => (true, after)
        | after => (false, after)
      match unsigned.span isDigit with
      | ([], _) => none
      | (digits, after) =>
        let magnitude : Int := digitsValue digits
        some (some (if negative then -magnitude else magnitude), after)
    else some (none, text)
  | [] => some (none, [])

def maxSignificand : Nat := 18446744073709551615

/-- The significand that digits lead to, and the number of digits it had no room for. -/
def fillSignificand (significand : Nat) : List Char → Nat × Nat
  | [] => (significand, 0)
  | digit :: rest =>
    let longer := significand * 10 + digitValue digit
    if longer ≤ maxSignificand then fillSignificand longer rest
    else (significand, rest.length + 1)

/-- A literal without a point and an exponent is `plain`; it is whole where it fits 64 bits, `-0`
alone excepted. -/
def wholeOf? (negative plain : Bool) (significand surplus : Nat) : Option JsonInteger :=
  if plain && surplus == 0 && !(negative && significand == 0) then
    JsonInteger.ofInt? (if negative then -(significand : Int) else significand)
  else none

/-- The double of a significand and the digits after the point; it must be finite. -/
def doubleOf? (negative : Bool) (significand surplus : Nat) (digits : List Char)
    (exponent : Int) : Option FiniteDouble :=
  let (longer, dropped) := fillSignificand significand digits
  let scale : Int := surplus - (digits.length - dropped : Nat) + exponent
  match Double.scaled negative longer scale with
  | .finite value => some value
  | _ => none

/-- What is not whole is a double. -/
def ofParts? (negative : Bool) (whole : List Char) (fraction : Option (List Char))
    (exponent : Option Int) : Option JsonNumber :=
  let (significand, surplus) := fillSignificand 0 whole
  match wholeOf? negative (fraction.isNone && exponent.isNone) significand surplus with
  | some value => some (.integer value)
  | none =>
    (doubleOf? negative significand surplus (fraction.getD []) (exponent.getD 0)).map .double

/-- The literal that begins a text, its sign aside. The whole part is `0` or begins with another
digit. -/
def read? (negative : Bool) (text : List Char) : Option (JsonNumber × List Char) := do
  let (whole, rest) := text.span isDigit
  if whole.isEmpty ∨ (1 < whole.length ∧ whole.head? = some '0') then none
  let (fraction, rest) ← fractionPart rest
  let (exponent, rest) ← exponentPart rest
  let value ← ofParts? negative whole fraction exponent
  pure (value, rest)

end JsonNumber

end TableServer
