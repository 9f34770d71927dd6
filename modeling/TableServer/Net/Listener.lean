import TableServer.Net.NumericHost

/-! Listening: the address a text stands for, and whether a machine lets a listener have it. The
machine has the loopback addresses only and no name service. -/

namespace TableServer

inductive BindError where
  | invalidAddress
  | invalidPort
  | zeroByte
  | unknownHost
  | noNameService
  | unavailable
  | invalidArgument
  | other (message : String)
deriving DecidableEq

def BindError.message : BindError → String
  | invalidAddress => "invalid socket address"
  | invalidPort => "invalid port value"
  | zeroByte => "file name contained an unexpected NUL byte"
  | unknownHost => "failed to lookup address information: Name or service not known"
  | noNameService => "failed to lookup address information: Temporary failure in name resolution"
  | unavailable => "Cannot assign requested address (os error 99)"
  | invalidArgument => "Invalid argument (os error 22)"
  | other message => message

namespace Listener

def portOf? (text : List Char) : Option UInt16 :=
  let digits := match text with
    | '+' :: rest => rest
    | other => other
  match SocketAddress.takeNumber isDigit 10 65536 digits with
  | some (port, []) => some (UInt16.ofNat port)
  | _ => none

def loopback : IpAddress := .v4 #v[127, 0, 0, 1]

def hostOfGroups? (text : List Char) : Option IpAddress := do
  let (groups, rest) ← SocketAddress.takeV6 text
  match SocketAddress.takeScope rest with
  | some (scope, []) => some (.v6 groups (UInt32.ofNat scope))
  | _ => none

def isNameChar (c : Char) : Bool :=
  isLetter c || isDigit c || c == '-' || c == '_'

/-- A host name that may be asked for: labels of up to 63 characters, 253 with the points between
them, and perhaps a point at the end. -/
def isHostName (text : List Char) : Bool :=
  let body := if text.getLast? = some '.' then text.dropLast else text
  let labels := body.splitOnP NumericHost.isPoint
  body.length ≤ 253 && text.head? != some '-' &&
    (labels.all (fun label => !label.isEmpty && label.length ≤ 63 && label.all isNameChar) ||
      text == ['.'])

def hostOf (text : List Char) : Except BindError IpAddress :=
  if text.contains (Char.ofNat 0) then .error .zeroByte
  else if asciiLower (String.ofList text) = "localhost" then .ok loopback
  else
    match NumericHost.read? text, hostOfGroups? text with
    | some octets, _ => .ok (.v4 octets)
    | none, some ip => .ok ip
    | none, none => .error (if isHostName text then .noNameService else .unknownHost)

/-- A socket address, or a host and a port around the last colon. -/
def resolve (text : String) : Except BindError SocketAddress :=
  match SocketAddress.ofText? text with
  | some address => .ok address
  | none =>
    let reversed := text.toList.reverse
    match reversed.dropWhile (· != ':') with
    | [] => .error .invalidAddress
    | _ :: host =>
      match portOf? (reversed.takeWhile (· != ':')).reverse with
      | none => .error .invalidPort
      | some port =>
        match hostOf host.reverse with
        | .ok ip => .ok ⟨ip, port⟩
        | .error error => .error error

/-- A listener may have the loopback addresses, the address that stands for all, and those that
stand for groups of machines. -/
def isAvailableV4 (octets : List Nat) : Bool :=
  match octets with
  | first :: rest =>
    first == 127 || (224 ≤ first && first < 240) || (first == 0 && rest.all (· == 0)) ||
      (first == 255 && rest.all (· == 255))
  | [] => false

def isLinkLocal (groups : List Nat) : Bool :=
  groups.head?.any fun group => 0xFE80 ≤ group && group < 0xFEC0

def isMulticast (groups : List Nat) : Bool :=
  groups.head?.any (0xFF00 ≤ ·)

/-- The last two groups of an address of four numbers that is written in eight groups. -/
def embedded? (groups : List Nat) : Option (List Nat) :=
  match groups with
  | [0, 0, 0, 0, 0, 0xFFFF, high, low] => some [high / 256, high % 256, low / 256, low % 256]
  | _ => none

/-- An address that holds on one link only cannot do without the scope that names the link. -/
def availability (ip : IpAddress) : Except BindError Unit :=
  match ip with
  | .v4 octets =>
    if isAvailableV4 (octets.toList.map UInt8.toNat) then .ok () else .error .unavailable
  | .v6 groups scope =>
    let values := groups.toList.map UInt16.toNat
    if isMulticast values || (isLinkLocal values && scope.toNat == 0) then .error .invalidArgument
    else
      match embedded? values with
      | some octets => if isAvailableV4 octets then .ok () else .error .unavailable
      | none =>
        if values.dropLast.all (· == 0) && values.getLast?.any (· ≤ 1) then .ok ()
        else .error .unavailable

def bind (text : String) : Except BindError SocketAddress :=
  match resolve text with
  | .error error => .error error
  | .ok address =>
    match availability address.ip with
    | .ok () => .ok address
    | .error error => .error error

end Listener

end TableServer
