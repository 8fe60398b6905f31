import Docbase.Declaration.Grammar.Bound
import Docbase.Declaration.Grammar.Operator

namespace Docbase.Declaration.Grammar

open Reader

variable (inner : Inner) (structs : Bool)

def closureParameter : Rule :=
  outerAttributes inner ++ patternTrees inner ++
    ifNext (begins ":") (take 1 ++ typeTrees inner true)

def closure : Rule :=
  binder inner ++ acceptWord ["const"] ++ acceptWord ["static"] ++ acceptWord ["async"] ++
    acceptWord ["move"] ++ require "|" ++
    (return signTrees ',' (← separated "," (begins "|") (closureParameter inner))) ++
    require "|" ++ do
      if begins "->" (← ahead) then take 2 ++ typeTrees inner true ++ block inner
      else expressionTrees inner structs

def beginsClosure (ts : List Tree) : Bool :=
  let behind := ts.drop 1
  begins "|" ts || beginsWord ["move", "static"] ts ||
    (beginsWord ["for"] ts && beginsParameters behind) ||
    (beginsWord ["const"] ts && !beginsGroup .curly behind) ||
    (beginsWord ["async"] ts && (begins "|" behind || beginsWord ["move"] behind))

def fieldValue : Rule := do
  let attributes ← outerAttributes inner
  let (named, field) ← member
  if begins ":" (← ahead) || !named then
    return attributes ++ field ++ (← require ":" ++ expressionTrees inner true)
  else return attributes ++ field

def fieldValues : (rounds : Nat) → Rule
  | 0 => return []
  | rounds + 1 => do
    let ts ← ahead
    if ts.isEmpty then return []
    if begins ".." ts then take 2 ++ ifNext (!·.isEmpty) (expressionTrees inner true)
    else fieldValue inner ++ ifNext (!·.isEmpty) (require "," ++ fieldValues rounds)

def pathExpression : Reader Expression := do
  let p ← qualifiedPath inner true
  match ← call? p with
  | some ts =>
    return ⟨if beginsGroup .curly (ts.drop (ts.length - 1)) then .curlyCall else .other, ts⟩
  | none =>
    if structs && beginsGroup .curly (← ahead) then
      let fields ← grouped .curly (do fieldValues inner ((← ahead).length + 1))
      return ⟨.other, p.trees ++ fields⟩
    else return ⟨.other, p.trees⟩

def expressions : Rule := commas (expressionTrees inner true)

def elements : Rule := do
  if (← ahead).isEmpty then return []
  let first ← expressionTrees inner true
  let ts ← ahead
  if ts.isEmpty then return first
  else if begins "," ts then return first ++ (← take 1 ++ expressions inner)
  else if begins ";" ts then return first ++ (← take 1 ++ expressionTrees inner true)
  else demand [.token ",", .token ";"]

def beginsExpression (ts : List Tree) : Bool :=
  (beginsAnyWord ts && !beginsWord ["as"] ts) || beginsLiteral ts || beginsLifetime ts ||
    Bracket.list.any (beginsGroup · ts) || ["..", "::", "#"].any (begins · ts) ||
    beginsOnly "!" ["!="] ts || beginsOnly "-" ["-=", "->"] ts || beginsOnly "*" ["*="] ts ||
    beginsOnly "|" ["|="] ts || beginsOnly "&" ["&="] ts || beginsOnly "<" ["<=", "<<="] ts

def optionalExpression : Rule := ifNext beginsExpression (expressionTrees inner true)

def breakExpression : Rule := do
  let word ← take 1
  let ts ← ahead
  if beginsLifetime ts && begins ":" (ts.drop 1) then
    let _ ← inner.expression true
    misplace .labelBehindBreak
  let label ← acceptLifetime
  let hasValue := fun ts => beginsExpression ts && (structs || !beginsGroup .curly ts)
  return word ++ label ++ (← ifNext hasValue (expressionTrees inner true))

def ifExpression : (rounds : Nat) → Rule
  | 0 => return []
  | rounds + 1 =>
    take 1 ++ expressionTrees inner false ++ block inner ++
      ifNext (beginsWord ["else"])
        (take 1 ++ oneOf [(.token "if", ifExpression rounds), (.group .curly, block inner)])

/-- A case of a choice. Behind one that does not end with a block a comma stands, unless it is the
last. -/
def choiceCase : Rule := do
  let before ← outerAttributes inner ++ alternativeTrees inner ++
    ifNext (beginsWord ["if"]) (take 1 ++ expressionTrees inner true) ++ require "=>"
  let e ← inner.leading []
  let comma ← if e.kind = .block || (← ahead).isEmpty then accept "," else require ","
  return before ++ e.trees ++ comma

def choice : Rule :=
  take 1 ++ expressionTrees inner false ++
    grouped .curly (innerAttributes inner ++ whileNext (!·.isEmpty) (choiceCase inner))

def whileLoop : Rule := take 1 ++ expressionTrees inner false ++ attributedBlock inner

def forLoop : Rule :=
  take 1 ++ alternativeTrees inner ++ requireWord "in" ++ expressionTrees inner false ++
    attributedBlock inner

def labelled : Rule := do
  let label ← take 1 ++ require ":"
  let ts ← ahead
  if beginsWord ["while"] ts then return label ++ (← whileLoop inner)
  else if beginsWord ["for"] ts then return label ++ (← forLoop inner)
  else if beginsWord ["loop"] ts then return label ++ (← take 1 ++ attributedBlock inner)
  else if beginsGroup .curly ts then return label ++ (← attributedBlock inner)
  else demand [.loopOrBlock]

def blockExpression? (ts : List Tree) : Option Rule :=
  let behind := ts.drop 1
  if beginsWord ["if"] ts then some (ifExpression inner (ts.length + 1))
  else if beginsWord ["while"] ts then some (whileLoop inner)
  else if beginsWord ["for"] ts && !beginsParameters behind then some (forLoop inner)
  else if beginsWord ["match"] ts then some (choice inner)
  else if beginsWord ["try"] ts && beginsGroup .curly behind then some (take 1 ++ block inner)
  else if beginsWord ["loop", "unsafe"] ts || (beginsWord ["const"] ts && beginsGroup .curly behind)
  then some (take 1 ++ attributedBlock inner)
  else if beginsGroup .curly ts then some (attributedBlock inner)
  else if beginsLifetime ts then some (labelled inner)
  else none

def beginsAsyncBlock (ts : List Tree) : Bool :=
  beginsWord ["async"] ts && (beginsGroup .curly (ts.drop 1) ||
    (beginsWord ["move"] (ts.drop 1) && beginsGroup .curly (ts.drop 2)))

def beginsPathExpression (ts : List Tree) : Bool :=
  beginsPath ts ||
    (beginsWord ["try"] ts && (begins "!" (ts.drop 1) || begins "::" (ts.drop 1)))

def binding : Rule := do
  let before ← take 1 ++ alternativeTrees inner ++ require "="
  let e ← inner.operand structs
  return before ++ (← inner.operations structs .comparison e).trees

def builtin : Rule :=
  asWritten (take 2 ++ name ++ grouped .round (do take (← ahead).length))

def atom : Reader Expression := do
  let ts ← ahead
  let other (rule : Rule) : Reader Expression := return ⟨.other, ← rule⟩
  if beginsLiteral ts then other literal
  else if beginsAsyncBlock ts then other (take 1 ++ acceptWord ["move"] ++ block inner)
  else if beginsClosure ts then other (closure inner structs)
  else if beginsWord ["builtin"] ts && begins "#" (ts.drop 1) then
    return ⟨.unshaped, ← builtin⟩
  else if beginsPathExpression ts then pathExpression inner structs
  else if beginsGroup .round ts then other (grouped .round (expressions inner))
  else if beginsWord ["break"] ts then other (breakExpression inner structs)
  else if beginsWord ["continue"] ts then other (take 1 ++ acceptLifetime)
  else if beginsWord ["return", "yield"] ts then other (take 1 ++ optionalExpression inner)
  else if beginsWord ["become"] ts then
    return ⟨.unshaped, ← asWritten (take 1 ++ expressionTrees inner true)⟩
  else if beginsGroup .square ts then other (grouped .square (elements inner))
  else if beginsWord ["let"] ts then other (binding inner structs)
  else if beginsWord ["_"] ts then other (take 1)
  else if begins ".." ts then return ⟨.range, ← rangeEnd inner structs⟩
  else
    match blockExpression? inner ts with
    | some rule => return ⟨.block, ← rule⟩
    | none => demand [.expression]

end Docbase.Declaration.Grammar
