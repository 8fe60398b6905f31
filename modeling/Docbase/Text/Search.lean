namespace Docbase.Text

def occursIn (needle : List Char) : List Char → Bool
  | [] => needle.isEmpty
  | c :: cs => needle.isPrefixOf (c :: cs) || occursIn needle cs

/-- Passes over `skip` characters, then replaces each occurrence of `found`, from left to right. -/
def replaceFrom (found put : List Char) : Nat → List Char → List Char
  | _, [] => []
  | skip + 1, _ :: cs => replaceFrom found put skip cs
  | 0, c :: cs =>
    if found.isPrefixOf (c :: cs) then put ++ replaceFrom found put (found.length - 1) cs
    else c :: replaceFrom found put 0 cs

/-- Replaces the occurrences of a text that is not empty, none overlapping another. -/
def replaceAll (found put cs : List Char) : List Char := replaceFrom found put 0 cs

def upperASCII (s : String) : String := String.ofList (s.toList.map Char.toUpper)

def sameIgnoringCase (s t : String) : Bool := s.toList.map Char.toLower == t.toList.map Char.toLower

end Docbase.Text
