import Docbase.Declaration.Grammar.Basic

namespace Docbase.Declaration.Grammar

open Reader

variable (inner : Inner)

def beginsConstant (ts : List Tree) : Bool := beginsLiteral ts || beginsGroup .curly ts

def constant : Rule := do
  let ts ← ahead
  if beginsLiteral ts then literal
  else if beginsName ts then take 1
  else if beginsGroup .curly ts then attributedBlock inner
  else demand []

def constraint : Rule := do
  let ts ← ahead
  if begins "=" ts then
    take 1 ++ if beginsConstant (ts.drop 1) then constant inner else typeTrees inner true
  else if begins ":" ts then
    take 1 ++ plusSum (fun ts => begins "," ts || begins ">" ts) (boundTrees inner false true)
  else return []

def argument : Reader Argument := do
  let ts ← ahead
  if beginsLifetime ts && !begins "+" (ts.drop 1) then return ⟨.lifetime, ← take 1, false⟩
  else if beginsConstant ts then return ⟨.other, ← constant inner, false⟩
  else
    let t ← inner.type true
    let said ← match t with
      | .path ⟨false, [_], []⟩ => constraint inner
      | _ => pure []
    return ⟨if said.isEmpty then .type else .other, t.trees ++ said, false⟩

def arguments : Reader (List Argument) := do
  let _ ← require "<"
  let items ← separated "," (begins ">") (argument inner)
  let _ ← require ">"
  return items.map fun (a, comma) => { a with comma := comma }

def colonArguments : Rule := do
  let colons ← require "::"
  return colons ++ .sign '<' false :: argumentTrees (← arguments inner) ++ [.sign '>' false]

def wordText : List Tree → String
  | .word text :: _ => text
  | _ => ""

/-- A name in a path. In an expression, a double colon has to stand before the arguments. -/
def segment (inExpression : Bool) : Reader Segment := do
  if beginsWord ["super", "self", "crate", "try"] (← ahead) then
    return ⟨wordText (← take 1), false, none⟩
  let name := wordText (← nameOr ["Self"])
  let ts ← ahead
  if !inExpression && beginsOnly "<" ["<=", "<<="] ts then
    return ⟨name, false, some (← arguments inner)⟩
  else if begins "::" ts && begins "<" (ts.drop 2) then
    let _ ← take 2
    return ⟨name, true, some (← arguments inner)⟩
  else return ⟨name, false, none⟩

/-- Segments with double colons between them; `stops` tells before which double colons to end. -/
def segments (inExpression : Bool) (stops : List Tree → Bool) :
    (rounds : Nat) → Reader (List Segment)
  | 0 => return []
  | rounds + 1 => do
    let s ← segment inner inExpression
    let ts ← ahead
    if begins "::" ts && !stops (ts.drop 2) then
      let _ ← take 2
      return s :: (← segments inExpression stops rounds)
    else return [s]

def path (inExpression : Bool) : Reader PathText := do
  let leading ← accept "::"
  let ts ← ahead
  let names ← segments inner inExpression (beginsGroup .round) (ts.length + 1)
  return ⟨!leading.isEmpty, names, []⟩

def qualifiedPath (inExpression : Bool) : Reader TypeText := do
  if !begins "<" (← ahead) then return .path (← path inner inExpression)
  let self ← take 1 ++ typeTrees inner true
  let trait ← if beginsWord ["as"] (← ahead) then
      take 1 ++ (return (← path inner false).trees)
    else pure []
  let closing ← require ">" ++ require "::"
  let names ← segments inner inExpression (fun _ => false) ((← ahead).length + 1)
  return .other (self ++ trait ++ closing ++ (PathText.mk false names []).trees)

def call? (p : TypeText) : Reader (Option (List Tree)) := do
  match p with
  | .path p =>
    if beginsCall (← ahead) && p.isPlain then
      return some (p.trees ++ (← take 1 ++ delimited))
    else return none
  | _ => return none

end Docbase.Declaration.Grammar
