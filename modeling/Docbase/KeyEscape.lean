import Docbase.Text.Search
import Docbase.Value.Basic

namespace Docbase.KeyEscape

/-- A reserved character and what is written in its place. -/
structure Spelling where
  reserved : Char
  spelled : List Char
  deriving DecidableEq, Repr

def spellings : List Spelling :=
  [⟨'.', "__dot__".toList⟩, ⟨'$', "__dollar__".toList⟩, ⟨'\x00', "__null__".toList⟩]

def sanitizeKey (key : String) : String :=
  String.ofList <|
    spellings.foldl (fun cs s => Text.replaceAll [s.reserved] s.spelled cs) key.toList

def restoreKey (key : String) : String :=
  String.ofList <|
    spellings.reverse.foldl (fun cs s => Text.replaceAll s.spelled [s.reserved] cs) key.toList

mutual

def mapKeys (f : String → String) : Value → Value
  | .document fields => .document (Document.ofList (mapFields f fields))
  | .array items => .array (mapItems f items)
  | v => v

def mapFields (f : String → String) : List (String × Value) → List (String × Value)
  | [] => []
  | (key, v) :: rest => (f key, mapKeys f v) :: mapFields f rest

def mapItems (f : String → String) : List Value → List Value
  | [] => []
  | v :: rest => mapKeys f v :: mapItems f rest

end

/-- The document with keys that every server can store. Keys that become equal leave one field, with
the last of their values. -/
def sanitize (d : Document) : Document := Document.ofList (mapFields sanitizeKey d)

def restore (d : Document) : Document := Document.ofList (mapFields restoreKey d)

end Docbase.KeyEscape
