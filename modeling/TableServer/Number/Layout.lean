import TableServer.Number.Shortest

/-! Where the decimal point goes. Digits `d₁ d₂ … dₖ` and a point position `p` stand for the value
`0.d₁d₂…dₖ * 10 ^ p`. A layout says for which positions the number is written positionally; every
other position is written with an exponent. -/

namespace TableServer

/-- Positions above `lowest` and up to `highest` are positional. A positional number without a
fraction ends in `whole`. -/
structure Layout where
  lowest : Int
  highest : Int
  whole : List Char

namespace Layout

def exponentForm (digits : List Char) (exponent : Int) : List Char :=
  let sign := if exponent < 0 then '-' else '+'
  let power := 'e' :: sign :: digitsOf exponent.natAbs
  match digits with
  | [] => power
  | [first] => first :: power
  | first :: rest => first :: '.' :: rest ++ power

def place (layout : Layout) (digits : List Char) (point : Int) : List Char :=
  let count : Int := digits.length
  if count ≤ point ∧ point ≤ layout.highest then
    digits ++ List.replicate (point - count).toNat '0' ++ layout.whole
  else if 0 < point ∧ point ≤ layout.highest then
    digits.take point.toNat ++ '.' :: digits.drop point.toNat
  else if layout.lowest < point ∧ point ≤ 0 then
    '0' :: '.' :: List.replicate (-point).toNat '0' ++ digits
  else
    exponentForm digits (point - 1)

def write (layout : Layout) (value : Decimal) : List Char :=
  let digits := digitsOf value.coefficient
  let body := layout.place digits (value.exponent + digits.length)
  if value.negative then '-' :: body else body

end Layout

end TableServer
