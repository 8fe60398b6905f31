import Docbase.Declaration.Grammar.Atom

namespace Docbase.Declaration.Grammar

open Reader

variable (inner : Inner) (structs : Bool)

/-- What stands behind the point behind an operand: a field, a call of a method, or the wait for a
result. -/
def selection : Rule := do
  let ts ← ahead
  let (goesOn, before) ← match number? ts with
    | some (negative, digits) =>
      if Literal.isFraction digits then places negative digits else pure (true, [])
    | none => pure (true, [])
  if !goesOn then return before
  if beginsWord ["await"] (← ahead) then return before ++ (← take 1)
  let (named, field) ← member
  if !named then return before ++ field
  let ts ← ahead
  let arguments ← if begins "::" ts then colonArguments inner else pure []
  if arguments.isEmpty && !beginsGroup .round ts then return before ++ field
  else return before ++ field ++ arguments ++ (← grouped .round (expressions inner))

def trailers : (rounds : Nat) → Expression → Reader Expression
  | 0, e => return e
  | rounds + 1, e => do
    let ts ← ahead
    let more (rule : Rule) : Reader Expression := do
      trailers rounds ⟨.other, e.trees ++ (← rule)⟩
    if beginsGroup .round ts then more (grouped .round (expressions inner))
    else if beginsOnly "." [".."] ts && e.kind ≠ .range then more (take 1 ++ selection inner)
    else if beginsGroup .square ts then more (grouped .square (expressionTrees inner true))
    else if begins "?" ts && e.kind ≠ .range then more (take 1)
    else return e

def withTrailers (e : Expression) : Reader Expression := do
  trailers inner ((← ahead).length + 1) e

def referenceMark : Rule := do
  let mark ← take 1
  let ts ← ahead
  if beginsWord ["raw"] ts && beginsWord ["mut", "const"] (ts.drop 1) then
    return mark ++ (← take 2)
  else return mark ++ (← acceptWord ["mut"])

def operand : Reader Expression := do
  let start ← ahead
  let attributes ← outerAttributes inner
  let ts ← ahead
  let operandTrees : Rule := return (← inner.operand structs).trees
  if begins "&" ts then return ⟨.other, attributes ++ (← referenceMark ++ operandTrees)⟩
  else if ["*", "!", "-"].any (begins · ts) then
    return ⟨.other, attributes ++ (← take 1 ++ operandTrees)⟩
  else
    let e ← withTrailers inner (← atom inner structs)
    if !attributes.isEmpty && e.kind = .range then misplace .attributeOfRange
    let trees ← if e.kind = .unshaped then readSince start else pure (attributes ++ e.trees)
    return { e with trees := trees }

def behindCast? (ts : List Tree) : Option String :=
  let behind := ts.drop 1
  if beginsOnly "." [".."] ts then
    if beginsWord ["await"] behind then some (inMarks ".await")
    else if beginsName behind && (beginsGroup .round (ts.drop 2) || begins "::" (ts.drop 2)) then
      some "a method call"
    else some "a field access"
  else if begins "?" ts then some (inMarks "?")
  else if beginsGroup .square ts then some "indexing"
  else if beginsGroup .round ts then some "a function call"
  else none

def cast : Rule := do
  let ts ← take 1 ++ typeTrees inner false
  match behindCast? (← ahead) with
  | some what => misplace (.behindCast what)
  | none => return ts

/-- Reads on behind a left operand, as far as operators bind at least as tightly as `loosest`. A
range is no left operand, and comparisons are not chained. -/
def operationsFrom (loosest : Precedence) : (rounds : Nat) → Expression → Reader Expression
  | 0, e => return e
  | rounds + 1, e => do
    let ts ← ahead
    let p := nextPrecedence ts
    let more (kind : ExpressionKind) (rule : Rule) : Reader Expression := do
      operationsFrom loosest rounds ⟨kind, e.trees ++ (← rule)⟩
    if e.kind = .range || compare p loosest = .lt then return e
    match operator? ts with
    | some (signs, _) =>
      if p = .comparison && e.kind = .comparison then misplace .secondComparison
      more (if p = .comparison then .comparison else .other)
        (take signs.length ++ rightOperand inner structs p)
    | none =>
      if p = .assignment then more .other (take 1 ++ rightOperand inner structs p)
      else if p = .range then more .range (rangeEnd inner structs)
      else if p = .cast then more .other (cast inner)
      else return e

def operations (loosest : Precedence) (e : Expression) : Reader Expression := do
  operationsFrom inner structs loosest ((← ahead).length + 1) e

def expression : Reader Expression := do
  operations inner structs .jump (← operand inner structs)

/-- An expression behind attributes where a statement may begin. One that ends with a block is read
on only if something of it is selected. -/
def leading (attributes : List Tree) : Reader Expression := do
  let attributes := attributes ++ (← outerAttributes inner)
  let e ← match blockExpression? inner (← ahead) with
    | some rule => pure ⟨.block, ← rule⟩
    | none => operand inner true
  let e := if e.kind = .unshaped then e else { e with trees := attributes ++ e.trees }
  let ts ← ahead
  if e.kind ≠ .block then operations inner true .jump e
  else if beginsOnly "." [".."] ts || begins "?" ts then
    operations inner true .jump (← withTrailers inner e)
  else return e

end Docbase.Declaration.Grammar
