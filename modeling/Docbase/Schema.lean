import Docbase.Path
import Docbase.Text.Search

namespace Docbase

/-- The shape of a value. Shapes of documents are referred to by name, so that they may contain
themselves. -/
inductive Schema (ρ : Type) where
  | scalar
  | any
  | array (item : Schema ρ)
  | record (name : ρ)
  deriving DecidableEq

namespace Schema

variable {ρ : Type}

/-- The field that a segment names among these, exactly or, where only one answers to it, up to the
case of ASCII letters. -/
def matchField? (fields : List (String × Schema ρ)) (segment : String) :
    Option (String × Schema ρ) :=
  match fields.find? fun (name, _) => name = segment with
  | some field => some field
  | none =>
    match fields.filter fun (name, _) => Text.sameIgnoringCase name segment with
    | [field] => some field
    | _ => none

def isIndex (segment : String) : Bool := segment.toList.all Char.isDigit

variable (shapes : ρ → List (String × Schema ρ))

/-- The stored name of one segment, and the shape of what it leads to. Arrays are passed through,
unless the segment is a number, which picks an element. A free-form value takes any path. -/
def step? (segment : String) : Schema ρ → Option (String × Schema ρ)
  | scalar => none
  | any => if segment = "" then none else some (segment, any)
  | array item =>
    if segment = "" then none
    else if isIndex segment then some (segment, item)
    else step? segment item
  | record name => if segment = "" then none else matchField? (shapes name) segment

def walk? : List String → Schema ρ → Option (List String × Schema ρ)
  | [], s => some ([], s)
  | segment :: rest, s => do
    let (name, next) ← s.step? shapes segment
    let (names, last) ← walk? rest next
    some (name :: names, last)

def resolve? (s : Schema ρ) (p : Path) : Option Path := do
  let (head, next) ← s.step? shapes p.head
  let (tail, _) ← next.walk? shapes p.tail
  some ⟨head, tail⟩

end Schema

end Docbase
