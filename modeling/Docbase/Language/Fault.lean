import Docbase.Language.Token
import Docbase.Number.Shortest
import Docbase.Text.Quoted

namespace Docbase.Language

inductive Expectation where
  | connectiveOrEnd
  | closingParen
  | fieldOrParen
  | field
  | literal
  | direction
  | commaOrEnd
  deriving DecidableEq

def Expectation.text : Expectation → String
  | .connectiveOrEnd => "AND, OR or end of input"
  | .closingParen => "')'"
  | .fieldOrParen => "a field name or '('"
  | .field => "a field name"
  | .literal => "a literal"
  | .direction => "a sort direction"
  | .commaOrEnd => "',' or end of input"

inductive Kind where
  | filter
  | order
  deriving DecidableEq

inductive Cause where
  | loneAmpersand
  | loneBar
  | unterminatedString
  | unknownEscape (c : Char)
  | secondPoint
  | malformedNumber (text : String)
  | unexpectedCharacter (c : Char)
  | empty (kind : Kind)
  | expected (what : Expectation) (found : Option Token)
  | nestedTooDeeply
  | noMethod (call : String)
  | unsupportedMethod (method : String)
  | stringRequired (method : String)
  deriving DecidableEq

/-- A cause and the byte offset it is reported at. -/
structure Fault where
  position : Nat
  cause : Cause
  deriving DecidableEq

def Token.shown : Token → String
  | .word text => Text.quoted text
  | .string content => "Str(" ++ Text.quoted content ++ ")"
  | .int n => "Int(" ++ toString n.toInt ++ ")"
  | .float x => "Float(" ++ x.literal ++ ")"
  | .leftParen => "LParen"
  | .rightParen => "RParen"
  | .comma => "Comma"
  | .equal => "Eq"
  | .unequal => "Ne"
  | .less => "Lt"
  | .lessEqual => "Lte"
  | .greater => "Gt"
  | .greaterEqual => "Gte"
  | .doubleAnd => "AndAnd"
  | .doubleOr => "OrOr"
  | .bang => "Bang"

def Cause.text : Cause → String
  | .loneAmpersand => "expected '&&'"
  | .loneBar => "expected '||'"
  | .unterminatedString => "unterminated string literal"
  | .unknownEscape c => "unknown escape sequence \\" ++ String.singleton c
  | .secondPoint => "malformed number"
  | .malformedNumber text => "malformed number " ++ Text.quoted text
  | .unexpectedCharacter c => "unexpected character " ++ Text.quotedChar c
  | .empty .filter => "filter expression is empty"
  | .empty .order => "order expression is empty"
  | .expected what none => "expected " ++ what.text ++ ", found end of input"
  | .expected what (some t) => "expected " ++ what.text ++ ", found " ++ t.shown
  | .nestedTooDeeply => "expression nested too deeply"
  | .noMethod call => Text.quoted call ++ " is not a method call on a field"
  | .unsupportedMethod method => "unsupported method " ++ Text.quoted method
  | .stringRequired method => method ++ " requires a string argument"

end Docbase.Language
