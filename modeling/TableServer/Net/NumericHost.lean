import TableServer.Net.SocketAddress
import TableServer.Number.Power

/-! Hosts given as one to four numbers with points between them. A number is decimal, octal after a
`0` or hexadecimal after `0x`. Each but the last is one byte of the address, and the last is all
the bytes that remain. -/

namespace TableServer

namespace NumericHost

def isOctalDigit (c : Char) : Bool := decide ('0' ≤ c) && decide (c ≤ '7')

def inBase? (ofBase : Char → Bool) (base : Nat) (digits : List Char) : Option Nat :=
  if !digits.isEmpty && digits.all ofBase then some (valueInBase base digits) else none

def number? : List Char → Option Nat
  | '0' :: mark :: digits =>
    if mark = 'x' ∨ mark = 'X' then inBase? isHexDigit 16 digits
    else inBase? isOctalDigit 8 (mark :: digits)
  | digits => inBase? isDigit 10 digits

def bytes : Nat → Nat → List Nat
  | 0, _ => []
  | count + 1, value => value / twoTo (8 * count) % 256 :: bytes count value

def octets? : Nat → List Nat → Option (List Nat)
  | room + 1, [last] => if last < twoTo (8 * (room + 1)) then some (bytes (room + 1) last) else none
  | room + 1, octet :: rest =>
    if octet < 256 then (octets? room rest).map (octet :: ·) else none
  | _, _ => none

def isPoint (c : Char) : Bool := c == '.'

def read? (text : List Char) : Option (Vector UInt8 4) := do
  let numbers ← (text.splitOnP isPoint).mapM number?
  let octets ← octets? 4 numbers
  SocketAddress.exactly? 4 (octets.map UInt8.ofNat)

end NumericHost

end TableServer
