import TableServer.Client.FormEncoding
import TableServer.Text.Ascii

/-! The URLs that a client sends requests to. A text becomes a URL by the rules of the web: the path
is taken apart at slashes, `.` and `..` are resolved, what a path or query cannot hold is percent
encoded, and a fragment is dropped. -/

namespace TableServer

structure Url where
  scheme : String
  host : String
  segments : List String
  query : Option String
deriving DecidableEq

namespace Url

/-- Tabs and line breaks count nowhere; blanks and control characters not at the ends. -/
def cleaned (text : List Char) : List Char :=
  let isEdge (c : Char) : Bool := c.toNat ≤ 0x20
  let trimmed := ((text.dropWhile isEdge).reverse.dropWhile isEdge).reverse
  trimmed.filter fun c => c != '\t' && c != '\n' && c != '\r'

def isSlash (c : Char) : Bool := c == '/' || c == '\\'

/-- Control characters, blanks and all beyond ASCII are encoded everywhere. -/
def isAlwaysEncoded (c : Char) : Bool :=
  c.toNat ≤ 0x20 || 0x7F ≤ c.toNat

def pathMarks : List Char :=
  ['"', '#', '<', '>', '?', Char.ofNat 0x60, '\x7b', '\x7d']

def queryMarks : List Char := ['"', '#', '<', '>', '\'']

def encodeChars (marks : List Char) (text : List Char) : String :=
  String.ofList (text.flatMap fun c =>
    if isAlwaysEncoded c || marks.contains c then
      (String.utf8EncodeChar c).flatMap Query.percentEncoded
    else [c])

/-- A dot may also be written as `%2e`. -/
def dotForms : List String := [".", "%2e"]

def isDot (segment : String) : Bool := dotForms.contains (asciiLower segment)

def isDoubleDot (segment : String) : Bool :=
  (dotForms.flatMap fun first => dotForms.map fun second => first ++ second).contains
    (asciiLower segment)

/-- The segments of a path. Dots at its end leave an empty segment there. -/
def resolve : List String → List String → List String
  | resolved, [] => resolved
  | resolved, [last] =>
    if isDoubleDot last then resolved.dropLast ++ [""]
    else if isDot last then resolved ++ [""]
    else resolved ++ [last]
  | resolved, segment :: rest =>
    if isDoubleDot segment then resolve resolved.dropLast rest
    else if isDot segment then resolve resolved rest
    else resolve (resolved ++ [segment]) rest

def segmentsOf (path : List Char) : List String :=
  let pieces := match path.splitOnP isSlash with
    | [] :: rest => if rest.isEmpty then [[]] else rest
    | pieces => pieces
  resolve [] (pieces.map (encodeChars pathMarks))

def splitScheme? (text : List Char) : Option (String × List Char) :=
  let scheme := asciiLower (String.ofList (text.takeWhile (· != ':')))
  match text.dropWhile (· != ':') with
  | _ :: rest =>
    if scheme == "http" || scheme == "https" then some (scheme, rest.dropWhile isSlash) else none
  | [] => none

def read? (text : String) : Option Url :=
  match splitScheme? (cleaned text.toList) with
  | none => none
  | some (scheme, rest) =>
    let whole := rest.takeWhile (· != '#')
    let beforeQuery := whole.takeWhile (· != '?')
    let host := beforeQuery.takeWhile (!isSlash ·)
    let query := match whole.dropWhile (· != '?') with
      | _ :: query => some (encodeChars queryMarks query)
      | [] => none
    if host.isEmpty then none
    else
      some ⟨scheme, asciiLower (String.ofList host), segmentsOf (beforeQuery.dropWhile (!isSlash ·)),
        query⟩

/-- Adds pairs to the query; where there is nothing to add, an empty query goes. -/
def withPairs (url : Url) (pairs : List (String × String)) : Url :=
  let added := Query.encode pairs
  let query := match url.query with
    | some before =>
      if before.isEmpty then added else if added.isEmpty then before else before ++ "&" ++ added
    | none => added
  { url with query := if query.isEmpty then none else some query }

def target (url : Url) : String :=
  "/" ++ "/".intercalate url.segments ++
    match url.query with
    | some query => "?" ++ query
    | none => ""

end Url

end TableServer
