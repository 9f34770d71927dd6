/-! Letters and digits of ASCII, told apart from all other characters of Unicode. -/

namespace TableServer

def isDigit (c : Char) : Bool :=
  decide ('0' ≤ c) && decide (c ≤ '9')

def isLetter (c : Char) : Bool :=
  (decide ('a' ≤ c) && decide (c ≤ 'z')) || (decide ('A' ≤ c) && decide (c ≤ 'Z'))

def digitValue (c : Char) : Nat :=
  c.toNat - '0'.toNat

def hexValue? (c : Char) : Option Nat :=
  if '0' ≤ c ∧ c ≤ '9' then some (c.toNat - '0'.toNat)
  else if 'a' ≤ c ∧ c ≤ 'f' then some (c.toNat - 'a'.toNat + 10)
  else if 'A' ≤ c ∧ c ≤ 'F' then some (c.toNat - 'A'.toNat + 10)
  else none

def isHexDigit (c : Char) : Bool := (hexValue? c).isSome

def valueInBase (base : Nat) (digits : List Char) : Nat :=
  digits.foldl (fun total digit => total * base + (hexValue? digit).getD 0) 0

/-- Changes the case of the letters `a` to `z` and of nothing else. -/
def asciiUpper (text : String) : String :=
  String.ofList (text.toList.map Char.toUpper)

def asciiLower (text : String) : String :=
  String.ofList (text.toList.map Char.toLower)

end TableServer
