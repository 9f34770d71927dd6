import TableServer.Text.Ascii

/-! Socket addresses in text: `a.b.c.d:port`, or an address of eight groups in brackets, `[…]:port`,
where `::` stands for the groups of zeros it takes, the last two groups may be written as an
address of four numbers, and a scope may follow after a percent sign. -/

namespace TableServer

inductive IpAddress where
  | v4 (octets : Vector UInt8 4)
  | v6 (groups : Vector UInt16 8) (scope : UInt32)
deriving DecidableEq

structure SocketAddress where
  ip : IpAddress
  port : UInt16
deriving DecidableEq

namespace SocketAddress

def takeNumber (ofBase : Char → Bool) (base bound : Nat) (text : List Char) :
    Option (Nat × List Char) :=
  let digits := text.takeWhile ofBase
  if digits.isEmpty || bound ≤ valueInBase base digits then none
  else some (valueInBase base digits, text.dropWhile ofBase)

/-- An octet has no needless zeros. -/
def takeOctet (text : List Char) : Option (Nat × List Char) :=
  let digits := text.takeWhile isDigit
  if digits.length ≤ 3 ∧ (digits.head? ≠ some '0' ∨ digits.length = 1) then
    takeNumber isDigit 10 256 text
  else none

def takeGroup (text : List Char) : Option (Nat × List Char) :=
  if (text.takeWhile isHexDigit).length ≤ 4 then takeNumber isHexDigit 16 65536 text else none

def takeChar (c : Char) : List Char → Option (List Char)
  | [] => none
  | d :: rest => if c = d then some rest else none

def takeOctets : Nat → List Char → Option (List Nat × List Char)
  | 0, text => some ([], text)
  | count + 1, text => do
    let (octet, rest) ← takeOctet text
    let rest ← if count = 0 then some rest else takeChar '.' rest
    let (octets, rest) ← takeOctets count rest
    pure (octet :: octets, rest)

def exactly? {α : Type} (count : Nat) (items : List α) : Option (Vector α count) :=
  if size : items.length = count then some ⟨items.toArray, by simpa using size⟩ else none

def takeV4 (text : List Char) : Option (Vector UInt8 4 × List Char) := do
  let (octets, rest) ← takeOctets 4 text
  pure (← exactly? 4 (octets.map UInt8.ofNat), rest)

def groupsOfOctets (octets : Vector UInt8 4) : List Nat :=
  [octets[0].toNat * 256 + octets[1].toNat, octets[2].toNat * 256 + octets[3].toNat]

/-- Groups from the beginning of a text, at most `room` of them, and whether four numbers ended
them. -/
def takeGroups (first : Bool) : Nat → List Char → List Nat × Bool × List Char
  | 0, text => ([], false, text)
  | room + 1, text =>
    let start := if first then some text else takeChar ':' text
    match (if room = 0 then none else start.bind takeV4) with
    | some (octets, rest) => (groupsOfOctets octets, true, rest)
    | none =>
      match start.bind takeGroup with
      | some (group, rest) =>
        let (groups, endedInOctets, rest) := takeGroups false room rest
        (group :: groups, endedInOctets, rest)
      | none => ([], false, text)

/-- The double colon stands for at least one group and has no four numbers before it. -/
def takeEightGroups (text : List Char) : Option (List Nat × List Char) :=
  match takeGroups true 8 text with
  | (head, endedInOctets, rest) =>
    if head.length = 8 then some (head, rest)
    else if endedInOctets then none
    else do
      let rest ← takeChar ':' rest
      let rest ← takeChar ':' rest
      let (tail, _, rest) := takeGroups true (7 - head.length) rest
      pure (head ++ List.replicate (8 - head.length - tail.length) 0 ++ tail, rest)

def takeV6 (text : List Char) : Option (Vector UInt16 8 × List Char) := do
  let (groups, rest) ← takeEightGroups text
  pure (← exactly? 8 (groups.map UInt16.ofNat), rest)

def takePort (text : List Char) : Option (Nat × List Char) := do
  let rest ← takeChar ':' text
  takeNumber isDigit 10 65536 rest

def takeScope : List Char → Option (Nat × List Char)
  | '%' :: rest => takeNumber isDigit 10 4294967296 rest
  | text => some (0, text)

def takeSocketV4 (text : List Char) : Option (SocketAddress × List Char) := do
  let (octets, rest) ← takeV4 text
  let (port, rest) ← takePort rest
  pure (⟨.v4 octets, UInt16.ofNat port⟩, rest)

def takeSocketV6 (text : List Char) : Option (SocketAddress × List Char) := do
  let rest ← takeChar '[' text
  let (groups, rest) ← takeV6 rest
  let (scope, rest) ← takeScope rest
  let rest ← takeChar ']' rest
  let (port, rest) ← takePort rest
  pure (⟨.v6 groups (UInt32.ofNat scope), UInt16.ofNat port⟩, rest)

def ofText? (text : String) : Option SocketAddress :=
  let whole (taken : Option (SocketAddress × List Char)) : Option SocketAddress :=
    match taken with
    | some (address, []) => some address
    | _ => none
  match takeSocketV4 text.toList with
  | some taken => whole (some taken)
  | none => whole (takeSocketV6 text.toList)

end SocketAddress

end TableServer
