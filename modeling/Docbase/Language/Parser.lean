import Docbase.Language.Lexer

namespace Docbase.Language

/-- Deepest nesting of parentheses and negations. -/
def maxNesting : Nat := 128

abbrev Reader (α : Type) := List Placed → Except Fault (α × List Placed)

def nextPosition (finish : Nat) : List Placed → Nat
  | [] => finish
  | t :: _ => t.position

def unexpected {α : Type} (finish : Nat) (what : Expectation) (ts : List Placed) : Except Fault α :=
  .error ⟨nextPosition finish ts, .expected what (ts.head?.map Placed.token)⟩

def method? (name : String) : Option Operator :=
  if Text.sameIgnoringCase name "equals" then some .eq
  else if Text.sameIgnoringCase name "contains" then some .contains
  else if Text.sameIgnoringCase name "startswith" then some .startsWith
  else if Text.sameIgnoringCase name "endswith" then some .endsWith
  else none

def fieldWord? : Token → Option String
  | .word text => if (Token.word text).isConnective then none else some text
  | _ => none

variable (finish : Nat)

def literal : Reader Value
  | t :: rest =>
    match t.token.literal? with
    | some v => .ok (v, rest)
    | none => unexpected finish .literal (t :: rest)
  | [] => unexpected finish .literal []

def closingParen : Reader Unit
  | ⟨.rightParen, _⟩ :: rest => .ok ((), rest)
  | ts => unexpected finish .closingParen ts

def methodCall (call : String) (position : Nat) : Reader Filter := fun args =>
  match (Path.ofString call).splitLast? with
  | none => .error ⟨position, .noMethod call⟩
  | some (field, name) =>
    match method? name with
    | none => .error ⟨position + byteWidth field.chars + 1, .unsupportedMethod name⟩
    | some op => do
      let (value, rest) ← literal finish args
      let ((), rest) ← closingParen finish rest
      match op, value with
      | .eq, _ | _, .string _ => .ok (.comparison field op value, rest)
      | _, _ => .error ⟨position, .stringRequired name⟩

def atom : Reader Filter
  | [] => unexpected finish .fieldOrParen []
  | t :: rest =>
    match fieldWord? t.token with
    | none => unexpected finish .fieldOrParen (t :: rest)
    | some field =>
      match rest with
      | [] => .ok (.comparison (Path.ofString field) .eq (.bool true), [])
      | next :: more =>
        if next.token = .leftParen then methodCall finish field t.position more
        else
          match next.token.comparison? with
          | none => .ok (.comparison (Path.ofString field) .eq (.bool true), rest)
          | some op => do
            let (value, rest) ← literal finish more
            .ok (.comparison (Path.ofString field) op value, rest)

/-- Reads `separator item` again and again and combines from the left. Every round takes a token, so
the number of tokens bounds the rounds. -/
def chainFrom (separates : Token → Bool) (combine : Filter → Filter → Filter)
    (item : Reader Filter) : (rounds : Nat) → Filter → Reader Filter
  | 0, f, ts => .ok (f, ts)
  | _, f, [] => .ok (f, [])
  | rounds + 1, f, t :: rest =>
    if separates t.token then do
      let (g, rest) ← item rest
      chainFrom separates combine item rounds (combine f g) rest
    else .ok (f, t :: rest)

def chain (separates : Token → Bool) (combine : Filter → Filter → Filter) (item : Reader Filter) :
    Reader Filter := fun ts => do
  let (f, rest) ← item ts
  chainFrom separates combine item rest.length f rest

def conjunction (item : Reader Filter) : Reader Filter := chain Token.isAnd Filter.and item

def disjunction (item : Reader Filter) : Reader Filter :=
  chain Token.isOr Filter.or (conjunction item)

def opensLevel : List Placed → Bool
  | [] => false
  | t :: _ => t.token.isNot || t.token = .leftParen

/-- What `AND` and `OR` join, with `levels` more parentheses and negations allowed to be open. -/
def operand : (levels : Nat) → Reader Filter
  | _, [] => atom finish []
  | 0, t :: rest =>
    if opensLevel (t :: rest) then .error ⟨t.position, .nestedTooDeeply⟩
    else atom finish (t :: rest)
  | levels + 1, t :: rest =>
    if t.token.isNot then do
      let (f, rest) ← operand levels rest
      .ok (f.not, rest)
    else if t.token = .leftParen then do
      let (f, rest) ← disjunction (operand levels) rest
      let ((), rest) ← closingParen finish rest
      .ok (f, rest)
    else atom finish (t :: rest)

/-- The filter that a list of tokens stands for. `AND` binds tighter than `OR`, both group to the
left, and a field that stands alone is compared with `true`. -/
def filterOfTokens (ts : List Placed) : Except Fault Filter :=
  if ts.isEmpty then .error ⟨0, .empty .filter⟩
  else do
    let (f, rest) ← disjunction (operand finish maxNesting) ts
    if rest.isEmpty then .ok f else unexpected finish .connectiveOrEnd rest

def parseFilter (text : String) : Except Fault Filter := do
  filterOfTokens text.utf8ByteSize (← tokens text)

end Docbase.Language
