/-! White space as Unicode defines it, and its removal from both ends of a text. -/

namespace TableServer

def isBlank (c : Char) : Bool :=
  let code := c.toNat
  (decide (0x9 ≤ code) && decide (code ≤ 0xD)) || code == 0x20 || code == 0x85 || code == 0xA0 ||
    code == 0x1680 || (decide (0x2000 ≤ code) && decide (code ≤ 0x200A)) || code == 0x2028 ||
    code == 0x2029 || code == 0x202F || code == 0x205F || code == 0x3000

def trimBlanks (text : List Char) : List Char :=
  ((text.dropWhile isBlank).reverse.dropWhile isBlank).reverse

end TableServer
