import Docbase.Declaration.Grammar.Pattern

namespace Docbase.Declaration.Grammar

open Reader

def operators : List (String × Precedence) :=
  [("+=", .assignment), ("-=", .assignment), ("*=", .assignment), ("/=", .assignment),
    ("%=", .assignment), ("^=", .assignment), ("&=", .assignment), ("|=", .assignment),
    ("<<=", .assignment), (">>=", .assignment), ("&&", .and), ("||", .or), ("<<", .shift),
    (">>", .shift), ("==", .comparison), ("<=", .comparison), ("!=", .comparison),
    (">=", .comparison), ("+", .sum), ("-", .sum), ("*", .product), ("/", .product),
    ("%", .product), ("^", .bitXor), ("&", .bitAnd), ("|", .bitOr), ("<", .comparison),
    (">", .comparison)]

def operator? (ts : List Tree) : Option (String × Precedence) := operators.find? (begins ·.1 ts)

def nextPrecedence (ts : List Tree) : Precedence :=
  match operator? ts with
  | some (_, p) => p
  | none =>
    if beginsOnly "=" ["=>"] ts then .assignment
    else if begins ".." ts then .range
    else if beginsWord ["as"] ts then .cast
    else .jump

variable (inner : Inner) (structs : Bool)

/-- Reads on behind an operand as long as operators bind it more tightly than the one before it.
Assignments are read from the right. -/
def extendRight (p : Precedence) : (rounds : Nat) → Expression → Reader Expression
  | 0, e => return e
  | rounds + 1, e => do
    let ts ← ahead
    let next := nextPrecedence ts
    if compare p next = .lt || (next = p && p = .assignment) then
      let e ← inner.operations structs next e
      if (← ahead).length = ts.length then return e else extendRight p rounds e
    else return e

def rightOperand (p : Precedence) : Rule := do
  let e ← inner.operand structs
  return (← extendRight inner structs p ((← ahead).length + 1) e).trees

def dots : Rule := do
  let ts ← ahead
  if begins "..=" ts then take 3
  else if begins "..." ts then demand [.token "..", .token "..="]
  else take 2

def endsRange (ts : List Tree) : Bool :=
  ts.isEmpty || beginsOnly "." [".."] ts || (!structs && beginsGroup .curly ts) ||
    beginsWord ["as"] ts ||
    [",", ";", "?", "=>", "=", "+", "/", "%", "^", ">", "<=", "!=", "-=", "*=", "&=", "|=",
      "<<="].any (begins · ts)

def rangeEnd : Rule := do
  let dots ← dots
  if dots.length = 2 && endsRange structs (← ahead) then return dots
  else return dots ++ (← rightOperand inner structs .range)

end Docbase.Declaration.Grammar
