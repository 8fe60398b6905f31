import Docbase.Declaration.Grammar.Path

namespace Docbase.Declaration.Grammar

open Reader

variable (inner : Inner)

def result (sums : Bool) : Rule := ifNext (begins "->") (take 2 ++ typeTrees inner sums)

def inputs (p : PathText) : Reader PathText := do
  let ts ← ahead
  let isFree := p.segments.getLast?.all (·.arguments.isNone)
  let colons := begins "::" ts && beginsGroup .round (ts.drop 2)
  if isFree && (colons || beginsGroup .round ts) then
    let _ ← take (if colons then 2 else 0)
    let inputs ← grouped .round (commas (typeTrees inner true)) ++ result inner false
    return { p with inputs := inputs }
  else return p

/-- The bounds that stand behind a colon; with none of them, the colon does not stand either. -/
def bounds (closes : List Tree → Bool) (bound : Rule) : Rule := do
  let colon ← accept ":"
  if colon.isEmpty then return []
  let ts ← plusSum closes bound
  return if ts.isEmpty then [] else colon ++ ts

def closesParameter (ts : List Tree) : Bool := begins "," ts || begins ">" ts

def lifetimeParameter : Rule := take 1 ++ bounds closesParameter requireLifetime

def typeParameter : Rule :=
  take 1 ++ bounds (fun ts => closesParameter ts || begins "=" ts) (boundTrees inner false true) ++
    ifNext (begins "=") (take 1 ++ typeTrees inner true)

def constantParameter : Rule :=
  take 1 ++ name ++ require ":" ++ typeTrees inner true ++
    ifNext (begins "=") (take 1 ++ constant inner)

def binder : Rule := do
  if !beginsWord ["for"] (← ahead) then return []
  let parameter := outerAttributes inner ++ oneOf [(.identifier, typeParameter inner),
    (.lifetime, lifetimeParameter), (.token "const", constantParameter inner)]
  take 1 ++ require "<" ++
    (return signTrees ',' (← separated "," (begins ">") parameter)) ++ require ">"

def beginsParameters (ts : List Tree) : Bool :=
  let first := ts.drop 1
  let second := ts.drop 2
  let named := beginsLifetime first || beginsName first
  let ends := [",", ">", "="].any (begins · second) || beginsOnly ":" ["::"] second
  begins "<" ts && (begins ">" first || begins "#" first || beginsWord ["const"] first ||
    (named && ends))

def parameters : Rule := do
  if !begins "<" (← ahead) then return []
  let parameter : Reader Argument := do
    let attributes ← outerAttributes inner
    let isUnnamed := beginsWord ["_"] (← ahead)
    let kind := if beginsLifetime (← ahead) then .lifetime else .other
    let ts ← if isUnnamed then take 1 else
      oneOf [(.lifetime, lifetimeParameter), (.identifier, typeParameter inner),
        (.token "const", constantParameter inner)]
    return ⟨kind, attributes ++ ts, false⟩
  let opening ← take 1
  let items ← separated "," (begins ">") parameter
  let closing ← require ">"
  if items.isEmpty then return []
  return opening ++ argumentTrees (items.map fun (a, comma) => { a with comma := comma }) ++ closing

def closesClause (ts : List Tree) : Bool :=
  ts.isEmpty || beginsGroup .curly ts || [",", ";", "="].any (begins · ts) ||
    beginsOnly ":" ["::"] ts

def predicate : Rule := do
  let ts ← ahead
  if beginsLifetime ts && begins ":" (ts.drop 1) then
    take 2 ++ plusSum (fun ts => closesClause ts || begins ":" ts) requireLifetime
  else
    binder inner ++ typeTrees inner true ++ require ":" ++
      plusSum closesClause (boundTrees inner false true)

def predicates : (rounds : Nat) → Rule
  | 0 => return []
  | rounds + 1 => do
    if closesClause (← ahead) then return []
    predicate inner ++ ifNext (begins ",") (take 1 ++ predicates rounds)

def whereClause : Rule := do
  let word ← acceptWord ["where"]
  if word.isEmpty then return []
  let ts ← ahead
  if beginsParameters ts then misplace .parametersOfWhere
  let said ← predicates inner (ts.length + 1)
  return if said.isEmpty then [] else word ++ said

def constancy (allowed : Bool) : Rule := do
  let ts ← ahead
  if beginsGroup .square ts then
    let group ← grouped .square (requireWord "const")
    if allowed then return group else misplace .conditionalBound
  else if beginsWord ["const"] ts then
    let word ← take 1
    if allowed then return word else misplace .constantBound
  else return []

/-- A trait with what stands before it. A question mark makes it one that need not hold. One that
holds only for constants has no normal form. -/
def trait (constants : Bool) : Reader (Bool × List Tree) := do
  let before ← binder inner
  let constancy ← constancy constants
  let relaxed ← accept "?"
  let behind ← if before.isEmpty && !relaxed.isEmpty then binder inner else pure []
  let p ← inputs inner (← path inner false)
  if !relaxed.isEmpty && !(before.isEmpty && behind.isEmpty) then misplace .relaxedBinder
  return (constancy.isEmpty, before ++ relaxed ++ p.trees)

def capturedNames : (rounds : Nat) → Reader (List Argument)
  | 0 => return []
  | rounds + 1 => do
    let ts ← ahead
    if begins ">" ts then return []
    let kind ← if beginsWord ["Self"] ts then pure .other else
      oneOf [(.lifetime, pure .lifetime), (.identifier, pure .other), (.token ">", pure .other)]
    let name ← take 1
    oneOf [(.token ",", do
        let _ ← take 1
        return ⟨kind, name, true⟩ :: (← capturedNames rounds)),
      (.token ">", return [⟨kind, name, false⟩])]

def captures : Rule := do
  let opening ← take 1 ++ require "<"
  let names ← capturedNames ((← ahead).length + 1)
  return opening ++ argumentTrees names ++ (← require ">")

def bound (allowed constants : Bool) : Reader Bound := do
  match ← ahead with
  | .lifetime _ :: _ => return ⟨.lifetime, ← take 1⟩
  | .word "use" :: _ =>
    let ts ← captures
    if allowed then return ⟨.capture, ts⟩ else misplace .capture
  | .group .round _ :: _ =>
    return ⟨.trait, ← normalOrWritten do
      let (isNormal, ts) ← inGroup .round (trait inner constants)
      return (isNormal, [.group .round ts])⟩
  | _ => return ⟨.trait, ← normalOrWritten (trait inner constants)⟩

def beginsBound (constants : Bool) (ts : List Tree) : Bool :=
  beginsAnyWord ts || begins "::" ts || begins "?" ts || beginsLifetime ts ||
    beginsGroup .round ts || (constants && beginsGroup .square ts)

/-- More bounds behind plus signs, and whether a trait is among them. Behind the last plus sign
nothing need follow. -/
def moreBounds (captures constants : Bool) : (rounds : Nat) → Reader (Bool × List Tree)
  | 0 => return (false, [])
  | rounds + 1 => do
    let plus ← accept "+"
    if plus.isEmpty || !beginsBound constants (← ahead) then return (false, plus)
    let b ← bound inner captures constants
    let (others, ts) ← moreBounds captures constants rounds
    return (b.kind = .trait || others, plus ++ b.trees ++ ts)

def boundSum (sums captures constants : Bool) (fault : Fault) : Rule := do
  let b ← bound inner captures constants
  let (others, ts) ← if sums then moreBounds inner captures constants (← ahead).length
    else pure (false, [])
  if b.kind = .trait || others then return b.trees ++ ts else throw fault

end Docbase.Declaration.Grammar
