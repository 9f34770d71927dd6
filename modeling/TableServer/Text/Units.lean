/-! Text in 16-bit units. A character up to `U+FFFF` is one unit; a character above it is a pair
from the range `D800` to `DFFF`, so it sorts before the characters from `U+E000` to `U+FFFF`. -/

namespace TableServer

def unitsOf (c : Char) : List Nat :=
  let code := c.toNat
  if code < 0x10000 then [code]
  else [0xD800 + (code - 0x10000) / 0x400, 0xDC00 + (code - 0x10000) % 0x400]

def textUnits (text : List Char) : List Nat :=
  text.flatMap unitsOf

/-- The order of two sequences by their first difference; a proper beginning is smaller. -/
def compareUnits : List Nat → List Nat → Ordering
  | [], [] => .eq
  | [], _ :: _ => .lt
  | _ :: _, [] => .gt
  | left :: lefts, right :: rights =>
    match compare left right with
    | .eq => compareUnits lefts rights
    | decided => decided

def compareText (left right : String) : Ordering :=
  compareUnits (textUnits left.toList) (textUnits right.toList)

end TableServer
