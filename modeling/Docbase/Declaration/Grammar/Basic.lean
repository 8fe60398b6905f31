import Docbase.Declaration.Remainder
import Docbase.Declaration.TypeText.Basic

namespace Docbase.Declaration.Grammar

open Reader

inductive BoundKind where
  | lifetime
  | capture
  | trait
  deriving DecidableEq, Repr

structure Bound where
  kind : BoundKind
  trees : List Tree

inductive ExpressionKind where
  /-- It ends with a block, and neither comma nor semicolon has to follow. -/
  | block
  /-- A call of a macro with curly brackets; no semicolon has to follow. -/
  | curlyCall
  | range
  | comparison
  /-- It has no normal form, and attributes before it do not count where a statement may begin. -/
  | unshaped
  | other
  deriving DecidableEq, Repr

structure Expression where
  kind : ExpressionKind
  trees : List Tree

structure Pattern where
  isOpenRange : Bool
  trees : List Tree

/-- How tightly an operator binds, the loosest first. -/
inductive Precedence where
  | jump
  | assignment
  | range
  | or
  | and
  | binding
  | comparison
  | bitOr
  | bitXor
  | bitAnd
  | shift
  | sum
  | product
  | cast
  deriving DecidableEq, Ord, Repr

instance : LE Precedence := leOfOrd

instance : LT Precedence := ltOfOrd

structure Inner where
  /-- Reads a type; `sums` tells whether bounds may be added up to one. -/
  type : (sums : Bool) → Reader TypeText
  /-- Reads a bound, among those of an anonymous type also captured names. -/
  bound : (captures constants : Bool) → Reader Bound
  pattern : Reader Pattern
  /-- Reads an expression; `structs` tells whether a curly bracket may follow a path. -/
  expression : (structs : Bool) → Reader Expression
  operand : (structs : Bool) → Reader Expression
  /-- Reads on behind a left operand, as far as operators bind at least so tightly. -/
  operations : (structs : Bool) → Precedence → Expression → Reader Expression
  /-- Reads an expression behind attributes where a statement may begin; it ends with its first
  block. -/
  leading : (attributes : List Tree) → Reader Expression
  statements : Rule
  item : Rule
  /-- Reads what an item brings in from elsewhere; `rooted` tells whether paths may begin with a
  double colon. -/
  imports : (rooted : Bool) → Rule
  fields : Rule

section

variable (inner : Inner)

def typeTrees (sums : Bool) : Rule := return (← inner.type sums).trees

def boundTrees (captures constants : Bool) : Rule :=
  return (← inner.bound captures constants).trees

def expressionTrees (structs : Bool) : Rule := return (← inner.expression structs).trees

def block : Rule := grouped .curly inner.statements

end

def pathKeywords : List String := ["super", "self", "Self", "crate"]

def beginsPlainName (ts : List Tree) : Bool := beginsName ts || beginsWord pathKeywords ts

def plainNames : (rounds : Nat) → Rule
  | 0 => return []
  | rounds + 1 => do
    if beginsPlainName (← ahead) then take 1 ++ ifNext (begins "::") (take 2 ++ plainNames rounds)
    else demand [.pathSegment]

def plainPath : Rule := do
  let leading ← accept "::"
  let ts ← ahead
  if beginsPlainName ts then return leading ++ (← plainNames (ts.length + 1)) else name

def delimited : Rule := do
  match ← ahead with
  | .group _ _ :: _ => take 1
  | _ => demand [.delimiter]

def beginsCall (ts : List Tree) : Bool := beginsOnly "!" ["!="] ts

def interface : Rule :=
  ifNext (beginsWord ["extern"]) (take 1 ++ ifNext beginsString (take 1))

def visibility : Rule := do
  match ← ahead with
  | .word "pub" :: .group .round [.word w] :: _ =>
    take (if ["crate", "self", "super"].contains w then 2 else 1)
  | .word "pub" :: .group .round (.word "in" :: _) :: _ =>
    take 1 ++ grouped .round (take 1 ++ plainPath)
  | .word "pub" :: _ => take 1
  | _ => return []

section

variable (inner : Inner)

def attributeContent : Rule := do
  let path ← if beginsWord ["unsafe"] (← ahead) then take 1 else plainPath
  match ← ahead with
  | .group _ _ :: _ => return path ++ (← take 1)
  | ts =>
    if !beginsOnly "=" ["==", "=>"] ts then return path
    else if begins "#" (ts.drop 1) && beginsGroup .square (ts.drop 2) then
      misplace .attributeInAttribute
    else return path ++ (← take 1) ++ (← expressionTrees inner true)

def outerAttribute : Rule := require "#" ++ grouped .square (attributeContent inner)

def outerAttributes : Rule := whileNext (begins "#") (outerAttribute inner)

def innerAttributes : Rule :=
  whileNext (fun ts => begins "#" ts && begins "!" (ts.drop 1))
    (require "#" ++ require "!" ++ grouped .square (attributeContent inner))

def attributedBlock : Rule := grouped .curly (innerAttributes inner ++ inner.statements)

end

end Docbase.Declaration.Grammar
