import Docbase.Declaration.Grammar.Member

namespace Docbase.Declaration.Grammar

open Reader

variable (inner : Inner)

def beginsBar (ts : List Tree) : Bool := beginsOnly "|" ["||", "|="] ts

def patternTrees : Rule := return (← inner.pattern).trees

def alternatives : Reader Pattern := do
  let bar ← accept "|"
  let first ← inner.pattern
  let others ← whileNext beginsBar (take 1 ++ patternTrees inner)
  if bar.isEmpty && others.isEmpty then return first
  else return ⟨false, bar ++ first.trees ++ others⟩

def alternativeTrees : Rule := return (← alternatives inner).trees

def closesPattern (ts : List Tree) : Bool :=
  ts.isEmpty || ["|", "=", ",", ";"].any (begins · ts) || beginsOnly ":" ["::"] ts ||
    beginsWord ["if"] ts

def beginsPath (ts : List Tree) : Bool := beginsPlainName ts || begins "::" ts || begins "<" ts

def rangeBound : Rule := do
  let ts ← ahead
  if closesPattern ts then return []
  else if beginsLiteral ts then literal
  else if beginsPath ts then return (← qualifiedPath inner true).trees
  else if beginsWord ["const"] ts then take 1 ++ attributedBlock inner
  else
    demand [.literal, .identifier, .token "::", .token "<", .token "self", .token "Self",
      .token "super", .token "crate", .token "const"]

def rangeDots : Rule := do
  let ts ← ahead
  if begins "..." ts && !begins "..=" ts then
    let _ ← take 3
    return [.sign '.' true, .sign '.' true, .sign '=' false]
  else take (if begins "..=" ts then 3 else 2)

def rangeBehind (first : List Tree) : Reader Pattern := do
  let dots ← rangeDots
  let last ← rangeBound inner
  if last.isEmpty && dots.length = 3 then demand [.upperBound]
  return ⟨last.isEmpty, first ++ dots ++ last⟩

/-- A range without its first bound; without the other too, it stands for what is left out. -/
def openRange : Reader Pattern := do
  let dots ← rangeDots
  let last ← rangeBound inner
  if last.isEmpty && dots.length = 3 then demand [.upperBound]
  return ⟨!last.isEmpty, dots ++ last⟩

def fieldPattern : Rule := do
  let marks ← acceptWord ["box"] ++ acceptWord ["ref"] ++ acceptWord ["mut"]
  if !marks.isEmpty then return marks ++ (← name)
  let (named, field) ← member
  if begins ":" (← ahead) || !named then
    return field ++ (← require ":" ++ alternativeTrees inner)
  else return field

def fieldPatterns : (rounds : Nat) → Rule
  | 0 => return []
  | rounds + 1 => do
    if (← ahead).isEmpty then return []
    let attributes ← outerAttributes inner
    if begins ".." (← ahead) then return attributes ++ (← take 2)
    let field ← fieldPattern inner
    if (← ahead).isEmpty then return attributes ++ field
    return attributes ++ field ++ (← require "," ++ fieldPatterns rounds)

def pathPattern : Reader Pattern := do
  let p ← qualifiedPath inner true
  match ← call? p with
  | some ts => return ⟨false, ts⟩
  | none =>
    let ts ← ahead
    if beginsGroup .curly ts then
      let fields ← grouped .curly (do fieldPatterns inner ((← ahead).length + 1))
      return ⟨false, p.trees ++ fields⟩
    else if beginsGroup .round ts then
      return ⟨false, p.trees ++ (← grouped .round (commas (alternativeTrees inner)))⟩
    else if begins ".." ts then rangeBehind inner p.trees
    else return ⟨false, p.trees⟩

def namePattern : Rule :=
  acceptWord ["ref"] ++ acceptWord ["mut"] ++ nameOr ["self"] ++
    ifNext (begins "@") (take 1 ++ patternTrees inner)

def sliceElement : Rule := do
  let p ← alternatives inner
  if p.isOpenRange then misplace .openRangeInSlice
  return p.trees

def beginsPathPattern (ts : List Tree) : Bool :=
  let behind := ts.drop 1
  let goesOn := ["::", "!", ".."].any (begins · behind) || beginsGroup .curly behind ||
    beginsGroup .round behind
  (beginsName ts && goesOn) || (beginsWord ["self"] ts && begins "::" behind) ||
    begins "::" ts || begins "<" ts || beginsWord ["Self", "super", "crate"] ts

def pattern : Reader Pattern := do
  let ts ← ahead
  if beginsPathPattern ts then pathPattern inner
  else if beginsWord ["_"] ts then return ⟨false, ← take 1⟩
  else if beginsWord ["box"] ts then return ⟨false, ← asWritten (take 1 ++ patternTrees inner)⟩
  else if begins "-" ts || beginsLiteral ts || beginsWord ["const"] ts then
    let first ← rangeBound inner
    if begins ".." (← ahead) then rangeBehind inner first else return ⟨false, first⟩
  else if beginsName ts || beginsWord ["ref", "mut", "self"] ts then
    return ⟨false, ← namePattern inner⟩
  else if begins "&" ts then
    return ⟨false, ← take 1 ++ acceptWord ["mut"] ++ patternTrees inner⟩
  else if beginsGroup .round ts then
    return ⟨false, ← grouped .round (commas (alternativeTrees inner))⟩
  else if beginsGroup .square ts then
    return ⟨false, ← grouped .square (commas (sliceElement inner))⟩
  else if beginsOnly ".." ["..."] ts then openRange inner
  else
    demand [.identifier, .token "::", .token "<", .token "_", .literal, .token "const",
      .token "ref", .token "mut", .token "&", .group .round, .group .square, .token "..",
      .token "const"]

end Docbase.Declaration.Grammar
