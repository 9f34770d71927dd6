/-! Searching a text for another. -/

namespace TableServer

def containsText (haystack needle : List Char) : Bool :=
  needle.isPrefixOf haystack ||
    match haystack with
    | [] => false
    | _ :: rest => containsText rest needle

end TableServer
