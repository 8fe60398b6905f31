import Docbase.Declaration.Grammar.Function

namespace Docbase.Declaration.Grammar

open Reader

variable (inner : Inner)

def namedField : Rule := do
  let before ← outerAttributes inner ++ visibility
  let isUnnamed := beginsWord ["_"] (← ahead)
  let name ← nameOr ["_"] ++ require ":"
  let ts ← ahead
  let isGroup := beginsWord ["struct"] ts ||
    (beginsWord ["union"] ts && beginsGroup .curly (ts.drop 1))
  let type ← if isUnnamed && isGroup then asWritten (take 1 ++ inner.fields)
    else typeTrees inner true
  return before ++ name ++ type

def namedFields : Rule := grouped .curly (commas (namedField inner))

def plainFields : Rule :=
  grouped .round (commas (outerAttributes inner ++ visibility ++ typeTrees inner true))

def variant : Rule := do
  let attributes ← outerAttributes inner
  let _ ← visibility
  let name ← name
  let ts ← ahead
  let fields ← if beginsGroup .curly ts then namedFields inner
    else if beginsGroup .round ts then plainFields inner
    else pure []
  return attributes ++ name ++ fields ++
    (← ifNext (begins "=") (take 1 ++ expressionTrees inner true))

def whereOr (choices : List (Expectation × Rule)) : Rule := do
  if !beginsWord ["where"] (← ahead) then
    oneOf ((.token "where", return []) :: choices)
  else whereClause inner ++ oneOf choices

def record : Rule := do
  let before ← take 1 ++ name ++ parameters inner
  let choices : List (Expectation × Rule) :=
    [(.group .curly, namedFields inner), (.token ";", take 1)]
  if beginsGroup .round (← ahead) then
    return before ++ (← plainFields inner ++ whereOr inner [(.token ";", take 1)])
  else if beginsWord ["where"] (← ahead) then
    return before ++ (← whereClause inner ++ oneOf choices)
  else
    return before ++ (← oneOf
      ((.token "where", return []) :: (.group .round, return []) :: choices))

def enumeration : Rule :=
  take 1 ++ name ++ parameters inner ++ whereClause inner ++
    grouped .curly (commas (variant inner))

def union : Rule :=
  take 1 ++ name ++ parameters inner ++ whereClause inner ++ namedFields inner

def imports (rooted : Bool) : Rule := do
  let ts ← ahead
  if beginsName ts || beginsWord ["self", "super", "crate", "try"] ts then
    let name ← take 1
    let ts ← ahead
    if begins "::" ts then return name ++ (← take 2 ++ inner.imports false)
    else if beginsWord ["as"] ts then
      return name ++ (← take 1 ++ oneOf [(.identifier, take 1), (.underscore, take 1)])
    else return name
  else if begins "*" ts then take 1
  else if beginsGroup .curly ts then
    grouped .curly (commas do
      let root ← if rooted then accept "::" else pure []
      return root ++ (← inner.imports (rooted && root.isEmpty)))
  else
    demand [.identifier, .token "self", .token "super", .token "crate", .token "try", .token "*",
      .group .curly]

def importItem : Rule := do
  let before ← take 1 ++ accept "::"
  return before ++ (← imports inner (before.length = 1) ++ require ";")

def closing (ts : List Tree) : Rule :=
  if beginsGroup .curly (ts.drop (ts.length - 1)) then return [] else require ";"

def beginsMacro (ts : List Tree) : Bool :=
  beginsName ts || beginsWord ["self", "super", "crate"] ts || begins "::" ts

def macroExpectations : List Expectation :=
  [.identifier, .token "self", .token "super", .token "crate", .token "::"]

def callItem (named : Bool) : Rule := do
  let before ← plainPath ++ require "!"
  let isNamed := fun ts => named && (beginsName ts || beginsWord ["try"] ts)
  let ts ← ifNext isNamed (take 1) ++ delimited
  return before ++ ts ++ (← closing ts)

def macroDefinition : Rule := do
  let before ← take 1 ++ name
  if beginsGroup .round (← ahead) then
    return before ++ (← take 1 ++ oneOf [(.group .curly, take 1)])
  else
    return before ++ (← oneOf [(.group .round, return []), (.group .curly, take 1)])

def static : Reader (Bool × List Tree) := do
  let before ← take 1 ++ acceptWord ["mut"] ++ name
  let value := take 1 ++ expressionTrees inner true ++ require ";"
  if begins "=" (← ahead) then return (false, before ++ (← value))
  let typed ← require ":" ++ typeTrees inner true
  let ts ← ahead
  if begins ";" ts then return (false, before ++ typed ++ (← take 1))
  return (true, before ++ typed ++ (← require "=" ++ expressionTrees inner true ++ require ";"))

/-- A constant behind its word. With parameters it has no normal form; `valued` tells whether
without a value it has none either. -/
def constantItem (valued : Bool) : Reader (Bool × List Tree) := do
  let name ← oneOf [(.identifier, take 1), (.token "_", take 1)]
  let isPlain := !begins "<" (← ahead)
  let typed ← parameters inner ++ require ":" ++ typeTrees inner true
  let value ← ifNext (begins "=") (take 1 ++ expressionTrees inner true)
  let isFree := !beginsWord ["where"] (← ahead)
  let rest ← whereClause inner ++ require ";"
  return (isPlain && isFree && !(valued && value.isEmpty), name ++ typed ++ value ++ rest)

def closedSum (closes : List Tree → Bool) : Rule :=
  return signTrees '+' (← separated "+" closes (boundTrees inner false true))

def closedBounds (closes : List Tree → Bool) : Rule := do
  let colon ← accept ":"
  if colon.isEmpty then return []
  let ts ← closedSum inner closes
  return if ts.isEmpty then [] else colon ++ ts

/-- Another name for a type, and whether it has bounds and a definition. The clauses stand before
the definition, behind it, or at either place. -/
structure TypeItem where
  bounded : Bool
  defined : Bool
  trees : List Tree

def typeItem (before after : Bool) : Reader TypeItem := do
  let named ← requireWord "type" ++ name ++ parameters inner
  let bounded := begins ":" (← ahead)
  let bounds ← closedBounds inner fun ts =>
    beginsWord ["where"] ts || begins "=" ts || begins ";" ts
  let early := before && beginsWord ["where"] (← ahead)
  let clause ← if early then whereClause inner else pure []
  let definition ← ifNext (begins "=") (take 1 ++ typeTrees inner true)
  let late ← if after && !early then whereClause inner else pure []
  let ending ← require ";"
  return ⟨bounded, !definition.isEmpty, named ++ bounds ++ clause ++ definition ++ late ++ ending⟩

/-- The member of a trait. It is as visible as the trait; marks of its own leave it no normal
form. -/
def traitMember : Rule := normalOrWritten do
  let attributes ← outerAttributes inner
  let marks ← visibility ++ acceptWord ["default"]
  let ts ← ahead
  let second := ts.drop 1
  let done (isNormal : Bool) (ts : List Tree) : Reader (Bool × List Tree) :=
    return (isNormal && marks.isEmpty, attributes ++ ts)
  let function : Reader (Bool × List Tree) := do
    let (_, head) ← signature inner false
    done true (head ++ (← oneOf [(.group .curly, attributedBlock inner), (.token ";", take 1)]))
  if beginsFunction false ts then function
  else if beginsWord ["const"] ts then
    if beginsWord ["async", "unsafe", "extern", "fn"] second then function
    else
      let word ← take 1
      if !(beginsName second || beginsWord ["_"] second) then
        demand [.identifier, .token "_", .token "async", .token "unsafe", .token "extern",
          .token "fn"]
      let (isNormal, ts) ← constantItem inner false
      done isNormal (word ++ ts)
  else if beginsWord ["type"] ts then done true (← typeItem inner false true).trees
  else if marks.isEmpty && beginsMacro ts then done true (← callItem false)
  else
    demand ([.token "fn", .token "const", .token "type"] ++
      if marks.isEmpty then macroExpectations else [])

def implementedMember : Rule := normalOrWritten do
  let before ← outerAttributes inner
  let visible ← visibility
  let isDefault := beginsWord ["default"] (← ahead) && !begins "!" ((← ahead).drop 1)
  let mark ← if isDefault then take 1 else pure []
  let marks := visible ++ mark
  let ts ← ahead
  let done (isNormal : Bool) (ts : List Tree) : Reader (Bool × List Tree) :=
    return (isNormal, before ++ marks ++ ts)
  if beginsFunction false ts then
    let (_, head) ← signature inner false
    if begins ";" (← ahead) then done false (← take 1)
    else done true (head ++ (← attributedBlock inner))
  else if beginsWord ["const"] ts then
    let word ← take 1
    let (isNormal, ts) ← constantItem inner true
    done isNormal (word ++ ts)
  else if beginsWord ["type"] ts then
    let t ← typeItem inner false true
    done (t.defined && !t.bounded) t.trees
  else if marks.isEmpty && beginsMacro ts then done true (← callItem false)
  else
    demand ((if isDefault then [] else [.token "default"]) ++
      [.token "fn", .token "const", .token "type"] ++
      if marks.isEmpty then macroExpectations else [])

def foreignMember : Rule := normalOrWritten do
  let before ← outerAttributes inner
  let visible ← visibility
  let ts ← ahead
  let done (isNormal : Bool) (ts : List Tree) : Reader (Bool × List Tree) :=
    return (isNormal, before ++ visible ++ ts)
  if beginsFunction true ts then
    let (isNormal, head) ← signature inner true
    if beginsGroup .curly (← ahead) then done false (← attributedBlock inner)
    else done isNormal (head ++ (← require ";"))
  else if beginsWord ["static"] ts ||
      (beginsWord ["unsafe", "safe"] ts && beginsWord ["static"] (ts.drop 1)) then
    let mark ← acceptWord ["unsafe", "safe"]
    let head ← take 1 ++ acceptWord ["mut"] ++ name ++ require ":" ++ typeTrees inner true
    let value ← ifNext (begins "=") (take 1 ++ expressionTrees inner true)
    let ending ← require ";"
    done (mark.isEmpty && value.isEmpty) (head ++ ending)
  else if beginsWord ["type"] ts then
    let t ← typeItem inner true true
    done (!t.defined && !t.bounded) t.trees
  else if visible.isEmpty && beginsMacro ts then done true (← callItem false)
  else
    demand ([.token "fn", .token "static", .token "type"] ++
      if visible.isEmpty then macroExpectations else [])

def members (member : Rule) : Rule :=
  grouped .curly (innerAttributes inner ++ whileNext (!·.isEmpty) member)

def module : Rule :=
  acceptWord ["unsafe"] ++ requireWord "mod" ++ nameOr ["try"] ++
    oneOf [(.token ";", take 1), (.group .curly, members inner inner.item)]

def traitBody : Rule :=
  closedBounds inner (fun ts => beginsWord ["where"] ts || beginsGroup .curly ts) ++
    whereClause inner ++ members inner (traitMember inner)

def markedTrait : Rule :=
  acceptWord ["unsafe"] ++ acceptWord ["auto"] ++ requireWord "trait" ++ name ++
    parameters inner ++ traitBody inner

def plainTrait : Rule :=
  let otherName := take 1 ++ closedSum inner (fun ts => beginsWord ["where"] ts || begins ";" ts) ++
    whereClause inner ++ require ";"
  take 1 ++ name ++ parameters inner ++
    oneOf [(.group .curly, traitBody inner), (.token ":", traitBody inner),
      (.token "where", traitBody inner), (.token "=", otherName)]

/-- An implementation, perhaps of a trait. One that is made for constants, or of something else than
a path, has no normal form. -/
def implementation : Reader (Bool × List Tree) := do
  let marks ← acceptWord ["default"] ++ acceptWord ["unsafe"] ++ requireWord "impl"
  let parameters ← if beginsParameters (← ahead) then parameters inner else pure []
  let ts ← ahead
  let constant ← if beginsWord ["const"] ts then take 1
    else if begins "?" ts && beginsWord ["const"] (ts.drop 1) then take 2
    else pure []
  let ts ← ahead
  let negation ← if begins "!" ts && !beginsGroup .curly (ts.drop 1) then take 1 else pure []
  let first ← inner.type true
  let isFor := beginsWord ["for"] (← ahead)
  if !isFor && !negation.isEmpty then misplace .negation
  let self ← ifNext (beginsWord ["for"]) (take 1 ++ typeTrees inner true)
  let body ← whereClause inner ++ members inner (implementedMember inner)
  let ofPath := match first with
    | .path _ => true
    | _ => false
  return (constant.isEmpty && (!isFor || ofPath),
    marks ++ parameters ++ negation ++ first.trees ++ self ++ body)

/-- What comes from another library: a name for it, or declarations of its members. The latter have
no visibility. -/
def foreign (visible : List Tree) : Rule :=
  let body : Rule := do
    if visible.isEmpty then members inner (foreignMember inner)
    else throw (.expected [.token "extern"] false)
  let library := take 1 ++ nameOr ["self"] ++
    ifNext (beginsWord ["as"]) (take 1 ++ nameOr ["_"]) ++ require ";"
  take 1 ++ oneOf [(.token "crate", library), (.group .curly, body),
    (.string, take 1 ++ oneOf [(.group .curly, body)])]

def itemExpectations : List Expectation :=
  ["fn", "extern", "use", "static", "const", "unsafe", "mod", "type", "struct", "enum", "union",
    "trait", "auto", "impl", "default", "macro"].map .token

def itemBody (visible : List Tree) : Reader (Bool × List Tree) := do
  let ts ← ahead
  let second := ts.drop 1
  let normal (rule : Rule) : Reader (Bool × List Tree) := return (true, visible ++ (← rule))
  let mixed (read : Reader (Bool × List Tree)) : Reader (Bool × List Tree) := do
    let (isNormal, ts) ← read
    return (isNormal, visible ++ ts)
  let implemented := do
    let (isNormal, ts) ← implementation inner
    return (isNormal && visible.isEmpty, visible ++ ts)
  if beginsFunction false ts then
    let (_, head) ← signature inner false
    if begins ";" (← ahead) then return (false, ← take 1)
    else return (true, visible ++ head ++ (← attributedBlock inner))
  else if beginsWord ["extern"] ts then normal (foreign inner visible)
  else if beginsWord ["use"] ts then normal (importItem inner)
  else if beginsWord ["static"] ts then mixed (static inner)
  else if beginsWord ["const"] ts then
    let word ← take 1
    let (isNormal, ts) ← constantItem inner true
    return (isNormal, visible ++ word ++ ts)
  else if beginsWord ["unsafe"] ts then
    let isAuto := beginsWord ["auto"] second && beginsWord ["trait"] (ts.drop 2)
    if isAuto || beginsWord ["trait"] second then normal (markedTrait inner)
    else if beginsWord ["impl"] second then implemented
    else if beginsWord ["extern"] second then
      if !visible.isEmpty then throw (.expected [.token "extern"] false)
      normal (take 1 ++ interface ++ members inner (foreignMember inner))
    else if beginsWord ["mod"] second then normal (module inner)
    else
      let _ ← take 1
      demand [.token "trait", .token "auto", .token "impl", .token "extern", .token "mod"]
  else if beginsWord ["mod"] ts then normal (module inner)
  else if beginsWord ["type"] ts then
    let t ← typeItem inner true false
    return (t.defined && !t.bounded, visible ++ t.trees)
  else if beginsWord ["struct"] ts then normal (record inner)
  else if beginsWord ["enum"] ts then normal (enumeration inner)
  else if beginsWord ["union"] ts && beginsName second then normal (union inner)
  else if beginsWord ["trait"] ts then normal (plainTrait inner)
  else if beginsWord ["auto"] ts && beginsWord ["trait"] second then normal (markedTrait inner)
  else if beginsWord ["impl"] ts || (beginsWord ["default"] ts && !begins "!" second) then
    implemented
  else if beginsWord ["macro"] ts then return (false, ← macroDefinition)
  else if visible.isEmpty && beginsMacro ts then normal (callItem true)
  else demand (itemExpectations ++ if visible.isEmpty then macroExpectations else [])

def item : Rule := normalOrWritten do
  let attributes ← outerAttributes inner
  let (isNormal, ts) ← itemBody inner (← visibility)
  return (isNormal, attributes ++ ts)

end Docbase.Declaration.Grammar
