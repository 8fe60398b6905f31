import Docbase.Declaration.Grammar.Bound
import Docbase.Declaration.Grammar.Pattern

namespace Docbase.Declaration.Grammar

open Reader

variable (inner : Inner)

def behindWord (words : List String) (ts : List Tree) : List Tree :=
  if beginsWord words ts then ts.drop 1 else ts

def beginsFunction (safe : Bool) (ts : List Tree) : Bool :=
  let marks := if safe && !beginsWord ["unsafe"] ts then ["safe"] else ["unsafe"]
  let ts := behindWord marks (behindWord ["async"] (behindWord ["const"] ts))
  let ts := if beginsWord ["extern"] ts then
      if beginsString (ts.drop 1) then ts.drop 2 else ts.drop 1
    else ts
  beginsWord ["fn"] ts

def receiver : Rule := do
  let mark ← accept "&"
  let lifetime ← if mark.isEmpty then pure [] else acceptLifetime
  let self ← acceptWord ["mut"] ++ requireWord "self"
  let said ← if mark.isEmpty then ifNext (begins ":") (take 1 ++ typeTrees inner true) else pure []
  return mark ++ lifetime ++ self ++ said

/-- The parameters of a function. The value itself may come first, dots for any number of others
last. A parameter that is only a type with arguments has no name. -/
def functionInputs : (rounds : Nat) → (first : Bool) → (received : Bool) → Rule
  | 0, _, _ => return []
  | rounds + 1, first, received => do
    if (← ahead).isEmpty then return []
    let attributes ← outerAttributes inner
    if begins "..." (← ahead) then
      return attributes ++ (← take 3 ++ ifNext (!·.isEmpty) (require ","))
    let before ← ahead
    match ← attempt (receiver inner) with
    | some self =>
      if received then misplace .secondReceiver
      if !first then misplace .receiver
      return attributes ++ self ++
        (← ifNext (!·.isEmpty) (require "," ++ functionInputs rounds false true))
    | none =>
      let isUnnamed := beginsName before && begins "<" (before.drop 1)
      let name ← if isUnnamed then pure [.word "_", .sign ':' false]
        else patternTrees inner ++ require ":"
      if !isUnnamed && begins "..." (← ahead) then
        return attributes ++ name ++ (← take 3 ++ ifNext (!·.isEmpty) (require ","))
      let type ← typeTrees inner true
      return attributes ++ name ++ type ++
        (← ifNext (!·.isEmpty) (require "," ++ functionInputs rounds false received))

def signature (safe : Bool) : Reader (Bool × List Tree) := do
  let before ← acceptWord ["const"] ++ acceptWord ["async"]
  let mark ← acceptWord (if safe then ["unsafe", "safe"] else ["unsafe"])
  let named ← interface ++ requireWord "fn" ++ name
  let parameters ← parameters inner
  let inputs ← grouped .round (do functionInputs inner ((← ahead).length + 1) true false)
  let result ← result inner true
  return (!beginsWord ["safe"] mark,
    before ++ mark ++ named ++ parameters ++ inputs ++ result ++ (← whereClause inner))

end Docbase.Declaration.Grammar
