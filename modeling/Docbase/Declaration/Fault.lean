import Docbase.Declaration.Tree

namespace Docbase.Declaration

/-- What a declaration is turned into: a type of documents, or one for documents inside others. -/
inductive Target where
  | document
  | embedded
  deriving DecidableEq, Repr

def Target.name : Target → String
  | .document => "Document"
  | .embedded => "Embedded"

/-- A field with a part to play in every document. -/
inductive Role where
  | identity
  | timestamp
  deriving DecidableEq, Repr

/-- The option that marks a field with the role, and the name that a field has without it. -/
def Role.name : Role → String
  | .identity => "id"
  | .timestamp => "modified_on"

inductive Expectation where
  | token (text : String)
  | group (bracket : Bracket)
  | identifier
  | anyIdentifier
  | underscore
  | lifetime
  | literal
  | string
  | integer
  | integerLiteral
  | delimiter
  | expression
  | loopOrBlock
  | upperBound
  | pathSegment
  | nestedAttribute
  deriving DecidableEq, Repr

def inMarks (text : String) : String := "\x60" ++ text ++ "\x60"

def Expectation.text : Expectation → String
  | token text => inMarks text
  | group .round => "parentheses"
  | group .square => "square brackets"
  | group .curly => "curly braces"
  | identifier => "identifier"
  | anyIdentifier => "ident"
  | underscore => "underscore"
  | lifetime => "lifetime"
  | literal => "literal"
  | string => "string literal"
  | integer => "integer"
  | integerLiteral => "integer literal"
  | delimiter => "delimiter"
  | expression => "an expression"
  | loopOrBlock => "loop or block expression"
  | upperBound => "range upper bound"
  | pathSegment => "path segment after \x60::\x60"
  | nestedAttribute => "nested attribute"

def Expectation.choiceText : List Expectation → String
  | [a] => "expected " ++ a.text
  | [a, b] => "expected " ++ a.text ++ " or " ++ b.text
  | choices => "expected one of: " ++ ", ".intercalate (choices.map text)

/-- Something that can be read, but not where it stands. -/
inductive Misplaced where
  | capture
  | constantBound
  | conditionalBound
  | relaxedBinder
  | parametersOfWhere
  | attributeInAttribute
  | attributeOfRange
  | secondComparison
  | behindCast (what : String)
  | labelBehindBreak
  | openRangeInSlice
  | receiver
  | secondReceiver
  | negation
  | suffix
  | digit
  | largeNumber
  | literalForOption
  | tokenForOption
  | behindStatement
  deriving DecidableEq, Repr

def Misplaced.text : Misplaced → String
  | capture => inMarks "use<...>" ++ " precise capturing syntax is not allowed here"
  | constantBound => inMarks "const" ++ " is not allowed here"
  | conditionalBound => inMarks "[const]" ++ " is not allowed here"
  | relaxedBinder =>
    inMarks "for<...>" ++ " binder not allowed with " ++ inMarks "?" ++ " trait polarity modifier"
  | parametersOfWhere =>
    "generic parameters on " ++ inMarks "where" ++ " clauses are reserved for future use"
  | attributeInAttribute => "unexpected attribute inside of attribute"
  | attributeOfRange =>
    "attributes are not allowed on range expressions starting with " ++ inMarks ".."
  | secondComparison => "comparison operators cannot be chained"
  | behindCast what => "casts cannot be followed by " ++ what
  | labelBehindBreak => "parentheses required"
  | openRangeInSlice => "range pattern is not allowed unparenthesized inside slice pattern"
  | receiver => "unexpected method receiver"
  | secondReceiver => "unexpected second method receiver"
  | negation => "inherent impls cannot be negative"
  | suffix => "expected unsuffixed integer"
  | digit => "invalid digit found in string"
  | largeNumber => "number too large to fit in target type"
  | literalForOption => "unexpected literal in nested attribute, expected ident"
  | tokenForOption => "unexpected token in nested attribute, expected ident"
  | behindStatement => "unexpected token, expected " ++ inMarks ";"

inductive Fault where
  | unnamedFields (target : Target)
  | noStruct (target : Target)
  | unknownOption
  | unknownFieldOption
  | emptyCollection
  | unknownNaming (rule : String)
  | flattened (target : Target)
  | markedTwice (role : Role)
  | unmarked (role : Role)
  | unserialized
  | embeddedCollection
  | unreadable
  | expectedSign (sign : String)
  /-- One of some things was due where nothing follows (`atEnd`) or something else. -/
  | expected (choices : List Expectation) (atEnd : Bool)
  | keyword (word : String)
  | misplaced (what : Misplaced)
  /-- Something was left behind all that is read, inside of brackets or outside of all. -/
  | unread (inside : Option Bracket)
  | objectWithoutTrait
  | anonymousWithoutTrait
  deriving DecidableEq

def Fault.text : Fault → String
  | unnamedFields target => target.name ++ " requires a struct with named fields"
  | noStruct target => target.name ++ " can only be derived for structs"
  | unknownOption => "unknown document attribute"
  | unknownFieldOption => "unknown document field attribute"
  | emptyCollection => "collection name cannot be empty"
  | unknownNaming rule => "unsupported rename_all rule " ++ Text.quoted rule
  | flattened target => target.name ++ " does not support #[serde(flatten)] fields"
  | markedTwice role => "only one field can be marked #[document(" ++ role.name ++ ")]"
  | unmarked role =>
    "no " ++ inMarks role.name ++ " field; name one or mark it with #[document(" ++ role.name ++
      ")]"
  | unserialized => "identity and modification timestamp fields must be serialized"
  | embeddedCollection =>
    "embedded types are stored inside documents and cannot name a collection"
  | unreadable => "cannot parse string into token stream"
  | expectedSign sign => "expected " ++ inMarks sign
  | expected [] atEnd => if atEnd then "unexpected end of input" else "unexpected token"
  | expected choices atEnd =>
    (if atEnd then "unexpected end of input, " else "") ++ Expectation.choiceText choices
  | keyword word => "expected identifier, found keyword " ++ inMarks word
  | misplaced what => what.text
  | unread none => "unexpected token"
  | unread (some bracket) =>
    "unexpected token, expected " ++ inMarks (String.ofList [bracket.closing])
  | objectWithoutTrait => "at least one trait is required for an object type"
  | anonymousWithoutTrait => "at least one trait must be specified"

end Docbase.Declaration
