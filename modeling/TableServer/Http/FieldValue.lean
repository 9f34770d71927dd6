/-! Values of header fields: a tab, or anything that is no ASCII control character. -/

namespace TableServer

def isFieldValueChar (c : Char) : Bool :=
  c == '\t' || (decide (' ' ≤ c) && c != Char.ofNat 0x7F)

def isFieldValue (text : String) : Bool :=
  text.toList.all isFieldValueChar

end TableServer
