namespace Docbase.Text

/-- The piece in front of the first separator and the pieces behind it; between two separators that
stand together lies an empty piece. -/
def splitAt (separator : Char) : List Char → List Char × List (List Char)
  | [] => ([], [])
  | c :: cs =>
    let (first, others) := splitAt separator cs
    if c = separator then ([], first :: others) else (c :: first, others)

def pieces (separator : Char) (cs : List Char) : List (List Char) :=
  let (first, others) := splitAt separator cs
  first :: others

end Docbase.Text
