import TableServer.Json.Writer

/-! Writing a document over several lines, each level of nesting two blanks further in. -/

namespace TableServer

namespace Json

def newLine (level : Nat) : List Char := '\n' :: List.replicate (2 * level) ' '

mutual

def writeAt (level : Nat) : Json → List Char
  | .array [] => ['[', ']']
  | .array items => '[' :: writeItemsAt level items
  | .object [] => ['\x7b', '\x7d']
  | .object members => '\x7b' :: writeMembersAt level members
  | other => other.write

def writeItemsAt (level : Nat) : List Json → List Char
  | [] => newLine level ++ [']']
  | [last] => newLine (level + 1) ++ last.writeAt (level + 1) ++ newLine level ++ [']']
  | item :: rest =>
    newLine (level + 1) ++ item.writeAt (level + 1) ++ ',' :: writeItemsAt level rest

def writeMembersAt (level : Nat) : List (String × Json) → List Char
  | [] => newLine level ++ ['\x7d']
  | [(key, value)] =>
    newLine (level + 1) ++ writeString key ++ [':', ' '] ++ value.writeAt (level + 1) ++
      newLine level ++ ['\x7d']
  | (key, value) :: rest =>
    newLine (level + 1) ++ writeString key ++ [':', ' '] ++ value.writeAt (level + 1) ++
      ',' :: writeMembersAt level rest

end

def renderPretty (document : Json) : String :=
  String.ofList (document.writeAt 0)

end Json

end TableServer
