import Docbase.Declaration.Grammar.Bound
import Docbase.Declaration.Grammar.Expression

namespace Docbase.Declaration.Grammar

open Reader

def beginsItem (ts : List Tree) : Bool :=
  let second := ts.drop 1
  let third := ts.drop 2
  let alone := ["pub", "extern", "use", "fn", "mod", "type", "struct", "enum", "trait", "impl",
    "macro"]
  let asyncClosure := beginsWord ["async"] second && !beginsWord ["unsafe", "extern", "fn"] third
  let constant := !(beginsGroup .curly second || beginsWord ["static", "move"] second ||
    begins "|" second || asyncClosure)
  beginsWord alone ts ||
    (beginsWord ["crate"] ts && !begins "::" second) ||
    (beginsWord ["static"] ts && (beginsWord ["mut"] second || beginsName second)) ||
    (beginsWord ["const"] ts && constant) ||
    (beginsWord ["unsafe"] ts && !beginsGroup .curly second) ||
    (beginsWord ["async"] ts && beginsWord ["unsafe", "extern", "fn"] second) ||
    (beginsWord ["union"] ts && beginsName second) ||
    (beginsWord ["auto"] ts && beginsWord ["trait"] second) ||
    (beginsWord ["default"] ts && beginsWord ["unsafe", "impl"] second)

def beginsNamedCall (ts : List Tree) : Bool :=
  begins "!" ts && (beginsName (ts.drop 1) || beginsWord ["try"] (ts.drop 1))

def beginsLoneCall (ts : List Tree) : Bool :=
  let behind := ts.drop 2
  begins "!" ts && beginsGroup .curly (ts.drop 1) && !beginsOnly "." [".."] behind &&
    !begins "?" behind

variable (inner : Inner)

/-- A variable; a block may tell what to do if the pattern does not fit the value, unless the value
itself ends with one. -/
def variableStatement : Rule := do
  let pattern ← take 1 ++ patternTrees inner ++
    ifNext (begins ":") (take 1 ++ typeTrees inner true)
  let value ← ifNext (begins "=") (take 1 ++ expressionTrees inner true)
  let endsWithBlock := beginsGroup .curly (value.drop (value.length - 1))
  let otherwise ← if value.isEmpty || endsWithBlock then pure []
    else ifNext (beginsWord ["else"]) (take 1 ++ block inner)
  return pattern ++ value ++ otherwise ++ (← require ";")

def statement : Reader (Bool × List Tree) := do
  let start ← get
  let attributes ← outerAttributes inner
  let ts ← ahead
  let behindPath := match ← preview plainPath with
    | some (_, behind) => behind
    | none => []
  if beginsLoneCall behindPath then
    return (true, attributes ++ (← plainPath ++ take 1 ++ delimited ++ accept ";"))
  else if beginsWord ["let"] ts then return (true, attributes ++ (← variableStatement inner))
  else if beginsItem ts || beginsNamedCall behindPath then
    set start
    return (true, ← inner.item)
  else
    let e ← leading inner attributes
    let semicolon ← accept ";"
    let closed := !semicolon.isEmpty || e.kind = .block || e.kind = .curlyCall
    return (closed, e.trees ++ semicolon)

def statementsFrom : (rounds : Nat) → Rule
  | 0 => return []
  | rounds + 1 => do
    let empty ← whileNext (begins ";") (take 1)
    if (← ahead).isEmpty then return empty
    let (closed, ts) ← statement inner
    if !closed && !(← ahead).isEmpty then misplace .behindStatement
    return empty ++ ts ++ (← statementsFrom rounds)

def statements : Rule := do statementsFrom inner ((← ahead).length + 1)

end Docbase.Declaration.Grammar
