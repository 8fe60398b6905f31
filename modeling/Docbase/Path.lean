import Docbase.Number.Reading
import Docbase.Text.Split
import Docbase.Value.Basic

namespace Docbase

structure Path where
  head : String
  tail : List String
  deriving DecidableEq, Repr

namespace Path

def ofString (s : String) : Path :=
  let (first, others) := Text.splitAt '.' s.toList
  ⟨String.ofList first, others.map String.ofList⟩

def segments (p : Path) : List String := p.head :: p.tail

def chars (p : Path) : List Char := p.head.toList ++ p.tail.flatMap fun s => '.' :: s.toList

def text (p : Path) : String := String.ofList p.chars

instance : ToString Path := ⟨text⟩

def identity : Path := ⟨"_id", []⟩

def append (p q : Path) : Path := ⟨p.head, p.tail ++ q.head :: q.tail⟩

instance : Append Path := ⟨append⟩

def splitLast? (p : Path) : Option (Path × String) :=
  p.tail.getLast?.map fun last => (⟨p.head, p.tail.dropLast⟩, last)

end Path

def Value.field? : Value → String → Option Value
  | .document fields, key => Document.get? fields key
  | _, _ => none

/-- The values at the end of a list of segments. Only documents directly inside an array are
searched for a field, not those in arrays inside it. -/
def Value.follow : List String → Value → List Value
  | [], v => [v]
  | s :: rest, .document fields => (Document.get? fields s).toList.flatMap (Value.follow rest)
  | s :: rest, .array items =>
    match Number.index? s with
    | some i => items[i]?.toList.flatMap (Value.follow rest)
    | none => (items.filterMap (·.field? s)).flatMap (Value.follow rest)
  | _ :: _, _ => []

/-- Every value that a path addresses in a document. -/
def Document.lookup (d : Document) (p : Path) : List Value :=
  (d.get? p.head).toList.flatMap (Value.follow p.tail)

end Docbase
