import TableServer.Http.Query

/-! Writing form-encoded queries. Letters, digits and `*`, `-`, `.`, `_` stand for themselves, a
space becomes `+`, and every other byte `%` and two hexadecimal digits. -/

namespace TableServer

namespace Query

def upperHexDigit (value : Nat) : Char :=
  if value < 10 then Char.ofNat ('0'.toNat + value) else Char.ofNat ('A'.toNat + (value - 10))

def percentEncoded (byte : UInt8) : List Char :=
  ['%', upperHexDigit (byte.toNat / 16), upperHexDigit (byte.toNat % 16)]

def isPlainByte (byte : UInt8) : Bool :=
  let code := byte.toNat
  (0x30 ≤ code && code ≤ 0x39) || (0x41 ≤ code && code ≤ 0x5A) || (0x61 ≤ code && code ≤ 0x7A) ||
    code == 0x2A || code == 0x2D || code == 0x2E || code == 0x5F

def encodeByte (byte : UInt8) : List Char :=
  if isPlainByte byte then [Char.ofNat byte.toNat]
  else if byte = 0x20 then ['+']
  else percentEncoded byte

def encodePart (text : String) : List Char :=
  (utf8Bytes text.toList).flatMap encodeByte

def encodePair (pair : String × String) : List Char :=
  encodePart pair.1 ++ '=' :: encodePart pair.2

def encodePairs : List (String × String) → List Char
  | [] => []
  | [pair] => encodePair pair
  | pair :: rest => encodePair pair ++ '&' :: encodePairs rest

def encode (pairs : List (String × String)) : String :=
  String.ofList (encodePairs pairs)

end Query

end TableServer
