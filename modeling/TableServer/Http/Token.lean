import TableServer.Text.Ascii

/-! Tokens: the names of methods and header fields. A token is one or more visible ASCII characters
that separate nothing. -/

namespace TableServer

def tokenMarks : List Char :=
  ['!', '#', '$', '%', '&', '\'', '*', '+', '-', '.', '^', '_', Char.ofNat 0x60, '|', '~']

def isTokenChar (c : Char) : Bool :=
  isLetter c || isDigit c || tokenMarks.contains c

def isToken (text : List Char) : Bool :=
  !text.isEmpty && text.all isTokenChar

end TableServer
