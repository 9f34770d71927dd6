import TableServer.Http.Server
import TableServer.Http.Status

/-! Messages and responses as bytes on a connection, which carries one of each. A body comes in
chunks or has its length declared. -/

namespace TableServer

inductive Arrival (α : Type) where
  | incomplete
  | malformed
  | complete (value : α)

namespace Wire

def splitHead? : List UInt8 → Option (List UInt8 × List UInt8)
  | [] => none
  | byte :: rest =>
    if (byte :: rest).take 4 = [13, 10, 13, 10] then some ([], rest.drop 3)
    else (splitHead? rest).map fun split => (byte :: split.1, split.2)

def isBlank (c : Char) : Bool := c == ' ' || c == '\t'

def trimmed (text : List Char) : String :=
  String.ofList ((text.dropWhile isBlank).reverse.dropWhile isBlank).reverse

def fieldOf? (line : String) : Option (String × String) :=
  match line.toList.dropWhile (· != ':') with
  | [] => none
  | _ :: value => some (String.ofList (line.toList.takeWhile (· != ':')), trimmed value)

def linesOf? (head : List UInt8) : Option (List String) :=
  (String.fromUTF8? head.toByteArray).map fun text => text.splitOn "\r\n"

def isChunked (headers : Headers) : Bool :=
  (headers.first? "transfer-encoding").any fun value => asciiLower value == "chunked"

def takeLine? : List UInt8 → Option (List UInt8 × List UInt8)
  | [] => none
  | byte :: rest =>
    if (byte :: rest).take 2 = [13, 10] then some ([], rest.drop 1)
    else (takeLine? rest).map fun split => (byte :: split.1, split.2)

/-- The body in chunks, each after its length; one without length ends it. -/
def takeChunks : Nat → List UInt8 → Arrival (List UInt8)
  | 0, _ => .malformed
  | fuel + 1, bytes =>
    match takeLine? bytes with
    | none => .incomplete
    | some (line, rest) =>
      let digits := (line.map fun byte => Char.ofNat byte.toNat).takeWhile isHexDigit
      let length := valueInBase 16 digits
      if digits.isEmpty then .malformed
      else if length = 0 then .complete []
      else if rest.length < length + 2 then .incomplete
      else
        match takeChunks fuel (rest.drop (length + 2)) with
        | .complete body => .complete (rest.take length ++ body)
        | other => other

def takeLength (length : Nat) (bytes : List UInt8) : Arrival (List UInt8) :=
  if bytes.length < length then .incomplete else .complete (bytes.take length)

/-- A body that is declared longer than the limit is not waited for. -/
def takeBody (limit : Nat) (message : Message) (bytes : List UInt8) : Arrival (List UInt8) :=
  if isChunked message.headers then takeChunks (bytes.length + 1) bytes
  else
    match message.declaredLength? with
    | some length => if length > limit then .complete [] else takeLength length bytes
    | none => .complete []

def headOf? (head : List UInt8) : Option Message := do
  match ← linesOf? head with
  | [] => none
  | first :: lines =>
    match first.splitOn " " with
    | [method, target, version] =>
      if version.startsWith "HTTP/1." then
        Message.ofParts? method target (← lines.mapM fieldOf?) ByteArray.empty
      else none
    | _ => none

def longestHead : Nat := 65536

/-- The message that bytes from a client are or begin. -/
def messageOf (limit : Nat) (bytes : List UInt8) : Arrival Message :=
  match splitHead? (bytes.take longestHead) with
  | none => if bytes.length < longestHead then .incomplete else .malformed
  | some (head, _) =>
    match headOf? head with
    | none => .malformed
    | some message =>
      match takeBody limit message (bytes.drop (head.length + 4)) with
      | .complete body => .complete { message with body := body.toByteArray }
      | .incomplete => .incomplete
      | .malformed => .malformed

def fieldLine (name value : String) : String := name ++ ": " ++ value ++ "\r\n"

def writeResponse (response : Response) : ByteArray :=
  let fields :=
    ((response.contentType.map (fieldLine "content-type")).getD "") ++
      ((response.requestId.map (fieldLine Message.requestIdField)).getD "") ++
      (if response.status = 204 then ""
        else fieldLine "content-length" (toString response.body.utf8ByteSize)) ++
      fieldLine "connection" "close"
  ("HTTP/1.1 " ++ statusText response.status ++ "\r\n" ++ fields ++ "\r\n" ++ response.body).toUTF8

def writeMessage (message : Message) : ByteArray :=
  let fields := message.headers.map fun field => fieldLine field.1 field.2
  let head := message.method.name ++ " " ++ message.uri.target ++ " HTTP/1.1\r\n" ++
    String.join fields ++ fieldLine "connection" "close" ++ "\r\n"
  head.toUTF8 ++ message.body

def responseOf? (bytes : List UInt8) : Option Response := do
  let (head, rest) ← splitHead? bytes
  match ← linesOf? head with
  | [] => none
  | first :: lines =>
    let headers ← Headers.ofFields? (← lines.mapM fieldOf?)
    match first.splitOn " " with
    | version :: code :: _ =>
      let digits := code.toList
      if !version.startsWith "HTTP/1." || digits.isEmpty || !digits.all isDigit then none
      else
        let body ← if isChunked headers then
          match takeChunks (rest.length + 1) rest with
          | .complete body => some body
          | _ => none
        else some rest
        pure ⟨valueInBase 10 digits, headers.first? "content-type",
          headers.first? Message.requestIdField, String.ofList (decodeLossy body)⟩
    | _ => none

end Wire

end TableServer
