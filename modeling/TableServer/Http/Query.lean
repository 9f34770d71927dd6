import TableServer.Text.Utf8

/-! Form-encoded queries: pairs separated by `&`, a key and a value separated by the first `=`,
spaces as `+`, and any byte as `%` and two hexadecimal digits. -/

namespace TableServer

abbrev Query := List (String × String)

namespace Query

def hexNibble? (byte : UInt8) : Option Nat :=
  let code := byte.toNat
  if 0x30 ≤ code ∧ code ≤ 0x39 then some (code - 0x30)
  else if 0x41 ≤ code ∧ code ≤ 0x46 then some (code - 0x41 + 10)
  else if 0x61 ≤ code ∧ code ≤ 0x66 then some (code - 0x61 + 10)
  else none

def percentValue? (byte high low : UInt8) : Option UInt8 :=
  if byte = 0x25 then do
    let first ← hexNibble? high
    let second ← hexNibble? low
    pure (UInt8.ofNat (first * 16 + second))
  else none

/-- A percent sign without two hexadecimal digits after it stands for itself. -/
def percentDecode : List UInt8 → List UInt8
  | [] => []
  | byte :: high :: low :: rest =>
    match percentValue? byte high low with
    | some value => value :: percentDecode rest
    | none => byte :: percentDecode (high :: low :: rest)
  | byte :: rest => byte :: percentDecode rest

def plusToSpace (bytes : List UInt8) : List UInt8 :=
  bytes.map fun byte => if byte = 0x2B then 0x20 else byte

def decodePart (bytes : List UInt8) : String :=
  String.ofList (decodeLossy (percentDecode (plusToSpace bytes)))

def isAmpersand (byte : UInt8) : Bool := byte == 0x26

def splitAt (isSeparator : UInt8 → Bool) : List UInt8 → List (List UInt8)
  | [] => [[]]
  | byte :: rest =>
    if isSeparator byte then [] :: splitAt isSeparator rest
    else
      match splitAt isSeparator rest with
      | [] => [[byte]]
      | piece :: pieces => (byte :: piece) :: pieces

def readPair (piece : List UInt8) : String × String :=
  (decodePart (piece.takeWhile (· != 0x3D)), decodePart ((piece.dropWhile (· != 0x3D)).drop 1))

/-- The pairs of a query; empty pieces are no pairs. -/
def ofText (text : String) : Query :=
  ((splitAt isAmpersand (utf8Bytes text.toList)).filter (!·.isEmpty)).map readPair

/-- The query of a request target is the text after its first question mark. -/
def ofTarget (target : String) : Query :=
  ofText (String.ofList ((target.toList.dropWhile (· != '?')).drop 1))

def first? (query : Query) (key : String) : Option String :=
  query.lookup key

end Query

end TableServer
