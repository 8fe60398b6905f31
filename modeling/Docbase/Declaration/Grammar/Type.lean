import Docbase.Declaration.Grammar.Bound

namespace Docbase.Declaration.Grammar

open Reader

variable (inner : Inner)

/-- A type that begins with a path: the path itself, a macro that yields a type, or a sum of
traits. -/
def namedType (binder : List Tree) (sums : Bool) : Reader TypeText := do
  let p ← qualifiedPath inner false
  match p, ← call? p with
  | _, some ts => return .other ts
  | .path p, none =>
    let plus := sums && begins "+" (← ahead)
    if plus then
      return .other (binder ++ p.trees ++ (← moreBounds inner false false (← ahead).length).2)
    else if binder.isEmpty then return .path p
    else return .trait (binder ++ p.trees)
  | t, none => return t

def beginsMutableSelf (ts : List Tree) : Bool :=
  beginsWord ["mut"] ts && beginsWord ["self"] (ts.drop 1)

/-- A parameter of a function type, which may have a name. The first may stand for the value
itself. -/
def functionParameter (first : Bool) : Rule := do
  let names := if first then ["_", "self"] else ["_"]
  let named := fun ts => (beginsName ts || beginsWord names ts) &&
    beginsOnly ":" ["::"] (ts.drop 1)
  let ts ← ahead
  if first && beginsMutableSelf ts && named (ts.drop 1) then
    asWritten (take 3 ++ typeTrees inner true)
  else
    let name ← ifNext named (take 2)
    if first && !beginsWord ["self"] name && beginsMutableSelf (← ahead) then
      return name ++ (← take 2)
    else return name ++ (← typeTrees inner true)

def beginsDots (ts : List Tree) : Bool :=
  begins "..." ts || ((beginsName ts || beginsWord ["_"] ts) && begins ":" (ts.drop 1) &&
    begins "..." (ts.drop 2))

def functionParameters : (rounds : Nat) → (first : Bool) → Rule
  | 0, _ => return []
  | rounds + 1, first => do
    if (← ahead).isEmpty then return []
    let attributes ← outerAttributes inner
    if beginsDots (← ahead) then
      return attributes ++ (← ifNext (!begins "..." ·) (take 2) ++ take 3 ++ accept ",")
    let parameter ← functionParameter inner first
    if (← ahead).isEmpty then return attributes ++ parameter
    return attributes ++ parameter ++ (← require "," ++ functionParameters rounds false)

def functionType : Rule :=
  acceptWord ["unsafe"] ++ interface ++ requireWord "fn" ++
    grouped .round (do functionParameters inner ((← ahead).length + 1) true) ++ result inner false

def inRound? : TypeText → Option Tree
  | .path p => some (.group .round p.trees)
  | .trait [.group .round ts] | .trait ts => some (.group .round ts)
  | .other _ => none

/-- A type in round brackets, a list of types in them, or a sum of traits that begins with them. -/
def roundType (sums : Bool) (inside : List Tree) : Reader TypeText := do
  let more := whileNext (begins "+") (take 1 ++ boundTrees inner false false)
  if inside.isEmpty then return .other (← take 1)
  else if beginsLifetime inside then
    return .other (← grouped .round (boundSum inner true false false .objectWithoutTrait))
  else if begins "?" inside then
    let group ← grouped .round (return (← trait inner false).2)
    let others ← more
    if others.isEmpty then return .trait group else return .other (group ++ others)
  else
    let (first, list) ← inGroup .round do
      let first ← inner.type true
      let list ← ifNext (begins ",") (take 1 ++ commas (typeTrees inner true))
      return (first, list)
    match inRound? first with
    | some group =>
      if sums && list.isEmpty && begins "+" (← ahead) then return .other (group :: (← more))
    | none => pure ()
    return .other [.group .round (first.trees ++ list)]

def squareType : Rule := grouped .square
  (typeTrees inner true ++ ifNext (begins ";") (take 1 ++ expressionTrees inner true))

def pointerType : Rule :=
  take 1 ++ oneOf [(.token "const", take 1), (.token "mut", take 1)] ++ typeTrees inner false

def referenceType : Rule :=
  take 1 ++ acceptLifetime ++ acceptWord ["mut"] ++ typeTrees inner false

def objectType (sums : Bool) : Rule := normalOrWritten do
  let word ← take 1
  let star ← accept "*"
  return (star.isEmpty, word ++ (← boundSum inner sums false false .objectWithoutTrait))

def typeExpectations : List Expectation :=
  [.token "for", .group .round, .token "fn", .token "unsafe", .token "extern", .identifier,
    .token "::", .token "<", .token "dyn", .group .square, .token "*", .token "&", .token "!",
    .token "impl", .token "_", .lifetime]

def boundExpectations : List Expectation :=
  [.identifier, .token "fn", .token "unsafe", .token "extern", .token "super", .token "self",
    .token "Self", .token "crate"]

def type (sums : Bool) : Reader TypeText := do
  let binder ← binder inner
  let ts ← ahead
  if !binder.isEmpty && !boundExpectations.any (·.isNext ts) then demand boundExpectations
  match ts with
  | .group .round inside :: _ => roundType inner sums inside
  | .group .square _ :: _ => return .other (← squareType inner)
  | .lifetime _ :: _ =>
    return .other (← boundSum inner true false false .objectWithoutTrait)
  | _ =>
    if beginsWord ["fn", "unsafe", "extern"] ts then
      return .other (binder ++ (← functionType inner))
    else if beginsPlainName ts || begins "::" ts || begins "<" ts then
      namedType inner binder sums
    else if beginsWord ["dyn"] ts then return .other (← objectType inner sums)
    else if begins "*" ts then return .other (← pointerType inner)
    else if begins "&" ts then return .other (← referenceType inner)
    else if begins "!" ts || beginsWord ["_"] ts then return .other (← take 1)
    else if beginsWord ["impl"] ts then
      return .other (← take 1 ++ boundSum inner sums true true .anonymousWithoutTrait)
    else demand typeExpectations

end Docbase.Declaration.Grammar
