import Docbase.Number.Double
import Docbase.Number.Width
import Docbase.Filter.Basic
import Docbase.Text.Search

namespace Docbase.Language

inductive Token where
  | word (text : String)
  | string (content : String)
  | int (n : Int64)
  | float (x : Double)
  | leftParen
  | rightParen
  | comma
  | equal
  | unequal
  | less
  | lessEqual
  | greater
  | greaterEqual
  | doubleAnd
  | doubleOr
  | bang
  deriving DecidableEq

namespace Token

def isWord (keyword : String) : Token → Bool
  | word text => Text.sameIgnoringCase text keyword
  | _ => false

def isConnective (t : Token) : Bool := t.isWord "and" || t.isWord "or" || t.isWord "not"

def isAnd (t : Token) : Bool := t = doubleAnd || t.isWord "and"

def isOr (t : Token) : Bool := t = doubleOr || t.isWord "or"

def isNot (t : Token) : Bool := t = bang || t.isWord "not"

def comparison? : Token → Option Operator
  | equal => some .eq
  | unequal => some .ne
  | less => some .lt
  | lessEqual => some .lte
  | greater => some .gt
  | greaterEqual => some .gte
  | _ => none

/-- The value that a token stands for as a literal. Integers that fit are kept in 32 bits. -/
def literal? : Token → Option Value
  | string content => some (.string content)
  | int n =>
    match Number.int32? n.toInt with
    | some short => some (.int32 short)
    | none => some (.int64 n)
  | float x => some (.double x)
  | t =>
    if t.isWord "true" then some (.bool true)
    else if t.isWord "false" then some (.bool false)
    else if t.isWord "null" then some .null
    else none

end Token

/-- A token and the byte offset of its first character. -/
structure Placed where
  token : Token
  position : Nat
  deriving DecidableEq

end Docbase.Language
