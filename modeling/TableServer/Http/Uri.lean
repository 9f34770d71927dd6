import TableServer.Http.Token

/-! The address a request names: a path with an optional query, the same after a scheme and an
authority, or an authority alone. A fragment is read over and kept nowhere. -/

namespace TableServer

structure PathQuery where
  path : String
  query : Option String
deriving DecidableEq

namespace PathQuery

def queryText : Option String → String
  | some query => "?" ++ query
  | none => ""

/-- An empty path without a query stands for the root. -/
def text (pathQuery : PathQuery) : String :=
  let joined := pathQuery.path ++ queryText pathQuery.query
  if joined.isEmpty then "/" else joined

def isPathChar (c : Char) : Bool :=
  let code := c.toNat
  code == 0x21 || code == 0x22 || (0x24 ≤ code && code ≤ 0x3B) || code == 0x3D ||
    (0x40 ≤ code && code ≤ 0x5F) || (0x61 ≤ code && code != 0x7F)

def isQueryChar (c : Char) : Bool :=
  let code := c.toNat
  code == 0x21 || (0x24 ≤ code && code ≤ 0x3B) || code == 0x3D || (0x3F ≤ code && code != 0x7F)

def endsPath (c : Char) : Bool := c == '?' || c == '#'

def readQuery? (text : List Char) : Option (Option String) :=
  match text with
  | '?' :: rest =>
    let query := rest.takeWhile (· != '#')
    if query.all isQueryChar then some (some (String.ofList query)) else none
  | _ => some none

def read? (text : List Char) : Option PathQuery :=
  let path := text.takeWhile (!endsPath ·)
  if path.all isPathChar then
    (readQuery? (text.dropWhile (!endsPath ·))).map (PathQuery.mk (String.ofList path))
  else none

end PathQuery

/-- What an authority has shown so far. The user part before an `@` and an address in brackets may
hold colons and percent signs; the host outside brackets may not, but for the colon of the port. -/
structure AuthorityScan where
  colons : Nat
  opened : Bool
  closed : Bool
  percent : Bool
  endsInAt : Bool

namespace AuthorityScan

def start : AuthorityScan := ⟨0, false, false, false, false⟩

def marks : List Char :=
  ['!', '$', '&', '\'', '(', ')', '*', '+', ',', '-', '.', ';', '=', '_', '~']

def step (scan : AuthorityScan) (c : Char) : Option AuthorityScan :=
  if c = ':' then
    if scan.colons < 8 then some { scan with colons := scan.colons + 1, endsInAt := false }
    else none
  else if c = '[' then
    if scan.percent || scan.opened then none
    else some { scan with opened := true, endsInAt := false }
  else if c = ']' then
    if !scan.opened || scan.closed then none
    else some { scan with colons := 0, closed := true, percent := false, endsInAt := false }
  else if c = '@' then some { scan with colons := 0, percent := false, endsInAt := true }
  else if c = '%' then some { scan with percent := true, endsInAt := false }
  else if isLetter c || isDigit c || marks.contains c then
    some { scan with endsInAt := false }
  else none

def isComplete (scan : AuthorityScan) : Bool :=
  scan.opened == scan.closed && scan.colons ≤ 1 && !scan.endsInAt && !scan.percent

end AuthorityScan

inductive Uri where
  | origin (pathQuery : PathQuery)
  | absolute (scheme host : String) (pathQuery : PathQuery)
  | authority (text : String)
deriving DecidableEq

namespace Uri

/-- The path and query that routes are matched with; an authority alone has none. -/
def target : Uri → String
  | .origin pathQuery => pathQuery.text
  | .absolute _ _ pathQuery => pathQuery.text
  | .authority _ => ""

def text : Uri → String
  | .origin pathQuery => pathQuery.text
  | .absolute scheme host pathQuery =>
    scheme ++ "://" ++ host ++ (if pathQuery.path.isEmpty then "/" else pathQuery.path) ++
      PathQuery.queryText pathQuery.query
  | .authority name => name

def endsAuthority (c : Char) : Bool := c == '/' || c == '?' || c == '#'

/-- The authority that begins a text, and what follows it. -/
def readAuthority? (text : List Char) : Option (List Char × List Char) :=
  let taken := text.takeWhile (!endsAuthority ·)
  match taken.foldlM AuthorityScan.step AuthorityScan.start with
  | some scan =>
    if scan.isComplete then some (taken, text.dropWhile (!endsAuthority ·)) else none
  | none => none

def isSchemeChar (c : Char) : Bool :=
  isLetter c || isDigit c || c == '+' || c == '-' || c == '.' || c == '~'

/-- The scheme of a text, if it has one, and what follows the mark after it. -/
def splitScheme (text : List Char) : Option (List Char) × List Char :=
  match text.dropWhile isSchemeChar with
  | ':' :: '/' :: '/' :: rest => (some (text.takeWhile isSchemeChar), rest)
  | _ => (none, text)

/-- The two schemes of the web are told apart from others regardless of case and are written in
lower case. -/
def schemeName (scheme : List Char) : String :=
  let lower := scheme.map Char.toLower
  if lower = ['h', 't', 't', 'p'] ∨ lower = ['h', 't', 't', 'p', 's'] then String.ofList lower
  else String.ofList scheme

def readFull? (text : List Char) : Option Uri :=
  match splitScheme text with
  | (none, _) =>
    match readAuthority? text with
    | some (taken, []) => some (.authority (String.ofList taken))
    | _ => none
  | (some scheme, rest) =>
    if scheme.length > 64 then none
    else
      match readAuthority? rest with
      | some (c :: taken, rest) =>
        (PathQuery.read? rest).map (.absolute (schemeName scheme) (String.ofList (c :: taken)))
      | _ => none

def longestBytes : Nat := 65534

def read? (text : String) : Option Uri :=
  if text.utf8ByteSize > longestBytes then none
  else
    match text.toList with
    | [] => none
    | ['*'] => some (.origin ⟨"*", none⟩)
    | '/' :: rest => (PathQuery.read? ('/' :: rest)).map .origin
    | other => readFull? other

end Uri

end TableServer
