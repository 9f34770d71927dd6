import TableServer.Json.Writer

/-! Random identifiers: sixteen bytes as lower-case hexadecimal in five groups, with the marks of the
random kind in place of six bits. -/

namespace TableServer

def uuidBytes (random : List UInt8) : List UInt8 :=
  random.zipIdx.map fun (byte, index) =>
    if index = 6 then byte % 16 + 0x40
    else if index = 8 then byte % 64 + 0x80
    else byte

def uuidOf (random : List UInt8) : String :=
  String.ofList ((uuidBytes random).zipIdx.flatMap fun (byte, index) =>
    let digits := [Json.hexDigit (byte.toNat / 16), Json.hexDigit (byte.toNat % 16)]
    if index ∈ [4, 6, 8, 10] then '-' :: digits else digits)

end TableServer
