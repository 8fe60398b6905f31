import Docbase.Language.Fault
import Docbase.Number.Reading
import Docbase.Text.Alphabetic
import Docbase.Text.Blank

namespace Docbase.Language

def byteWidth (cs : List Char) : Nat := cs.foldr (fun c width => c.utf8Size + width) 0

def startsWord (c : Char) : Bool := Text.isAlphabetic c || c = '_'

def continuesWord (c : Char) : Bool :=
  Text.isAlphabetic c || Text.isNumeric c || c = '_' || c = '.'

def unescape? (c : Char) : Option Char :=
  if c = 'n' then some '\n'
  else if c = 't' then some '\t'
  else if c = 'r' then some '\r'
  else if c = '\\' || c = '"' || c = '\'' then some c
  else none

/-- Reads on inside a string up to the closing quote, and gives the content and how many characters
were read. `start` is where the string began, `position` where reading goes on. -/
def stringBody (quote : Char) (start : Nat) :
    (position : Nat) → List Char → Except Fault (List Char × Nat)
  | _, [] => .error ⟨start, .unterminatedString⟩
  | position, c :: cs =>
    if c = quote then .ok ([], 1)
    else if c = '\\' then
      match cs with
      | [] => .error ⟨start, .unterminatedString⟩
      | e :: rest =>
        match unescape? e with
        | none => .error ⟨position, .unknownEscape e⟩
        | some d => do
          let (content, read) ← stringBody quote start (position + 1 + e.utf8Size) rest
          .ok (d :: content, read + 2)
    else do
      let (content, read) ← stringBody quote start (position + c.utf8Size) cs
      .ok (c :: content, read + 1)

def numberToken (position : Nat) (cs : List Char) : Except Fault Token :=
  let whole := cs.takeWhile (· ≠ '.')
  let behind := (cs.dropWhile (· ≠ '.')).drop 1
  if behind.contains '.' then
    .error ⟨position + byteWidth whole + 1 + byteWidth (behind.takeWhile (· ≠ '.')), .secondPoint⟩
  else
    let token := if cs.contains '.' then (Number.doubleOfText? cs).map Token.float
      else (Number.int64OfText? cs).map Token.int
    match token with
    | some t => .ok t
    | none => .error ⟨position, .malformedNumber (String.ofList cs)⟩

/-- The token that starts with `c`, and how many of the characters behind it belong to it. -/
def lexeme (position : Nat) (c : Char) (cs : List Char) : Except Fault (Token × Nat) :=
  let orLonger (long : Char → Option Token) (short : Token) : Token × Nat :=
    match cs.head?.bind long with
    | some t => (t, 1)
    | none => (short, 0)
  if c = '(' then .ok (.leftParen, 0)
  else if c = ')' then .ok (.rightParen, 0)
  else if c = ',' then .ok (.comma, 0)
  else if c = '=' then .ok (orLonger (fun d => if d = '=' then some .equal else none) .equal)
  else if c = '!' then .ok (orLonger (fun d => if d = '=' then some .unequal else none) .bang)
  else if c = '<' then
    .ok (orLonger (fun d => if d = '=' then some .lessEqual else if d = '>' then some .unequal
      else none) .less)
  else if c = '>' then
    .ok (orLonger (fun d => if d = '=' then some .greaterEqual else none) .greater)
  else if c = '&' then
    if cs.head? = some '&' then .ok (.doubleAnd, 1) else .error ⟨position, .loneAmpersand⟩
  else if c = '|' then
    if cs.head? = some '|' then .ok (.doubleOr, 1) else .error ⟨position, .loneBar⟩
  else if c = '"' || c = '\'' then do
    let (content, read) ← stringBody c position (position + 1) cs
    .ok (.string (String.ofList content), read)
  else if c = '-' || c.isDigit then do
    let more := cs.takeWhile fun d => d.isDigit || d = '.'
    .ok (← numberToken position (c :: more), more.length)
  else if startsWord c then
    let more := cs.takeWhile continuesWord
    .ok (.word (String.ofList (c :: more)), more.length)
  else .error ⟨position, .unexpectedCharacter c⟩

/-- The tokens of a text from `position` on, after `skip` characters that belong to the token
before. The longest token is taken at each place; white space only separates. -/
def tokensFrom : (skip position : Nat) → List Char → Except Fault (List Placed)
  | _, _, [] => .ok []
  | skip + 1, position, c :: cs => tokensFrom skip (position + c.utf8Size) cs
  | 0, position, c :: cs =>
    if Text.isBlank c then tokensFrom 0 (position + c.utf8Size) cs
    else do
      let (token, more) ← lexeme position c cs
      let rest ← tokensFrom more (position + c.utf8Size) cs
      .ok (⟨token, position⟩ :: rest)

def tokens (text : String) : Except Fault (List Placed) := tokensFrom 0 0 text.toList

end Docbase.Language
