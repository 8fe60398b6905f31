import Docbase.Declaration.Grammar.Path
import Docbase.Text.Split

namespace Docbase.Declaration.Grammar

open Reader

def place (negative : Bool) (digits : List Char) : Rule := do
  match Literal.whole? digits with
  | some (n, suffix) =>
    if Literal.isFraction digits then demand [.integerLiteral]
    else if !suffix.isEmpty then misplace .suffix
    else if negative then misplace .digit
    else if n < 4294967296 then return [.literal (toString n)]
    else misplace .largeNumber
  | none => demand [.integerLiteral]

def number? : List Tree → Option (Bool × List Char)
  | .literal text :: _ => if isNumber text then some (false, text.toList) else none
  | .sign '-' _ :: .literal text :: _ => if isNumber text then some (true, text.toList) else none
  | _ => none

def member : Reader (Bool × List Tree) := do
  let ts ← ahead
  if beginsName ts then return (true, ← take 1)
  match number? ts with
  | some (negative, digits) =>
    if Literal.isFraction digits then demand [.identifier, .integer]
    let ts ← place negative digits
    let _ ← literal
    return (false, ts)
  | none => demand [.identifier, .integer]

/-- Places with points between them, where a number with a point is next. If nothing stands behind
the point, what follows belongs to the last place. -/
def places (negative : Bool) (digits : List Char) : Reader (Bool × List Tree) := do
  let pieces := Text.pieces '.' digits
  let goesOn := pieces.getLast? = some []
  let point : List Tree := [.sign '.' false]
  let ts ← (pieces.filter (!·.isEmpty)).zipIdx.mapM fun (part, i) => place (negative && i = 0) part
  let _ ← literal
  return (goesOn, point.intercalate ts ++ if goesOn then point else [])

end Docbase.Declaration.Grammar
