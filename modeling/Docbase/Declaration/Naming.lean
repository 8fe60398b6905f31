import Docbase.Text.Search
import Docbase.Text.Split

namespace Docbase.Declaration

inductive Naming where
  | lower
  | upper
  | pascal
  | camel
  | snake
  | screamingSnake
  | kebab
  | screamingKebab
  deriving DecidableEq, Repr

namespace Naming

def list : List Naming :=
  [.lower, .upper, .pascal, .camel, .snake, .screamingSnake, .kebab, .screamingKebab]

def name : Naming → String
  | lower => "lowercase"
  | upper => "UPPERCASE"
  | pascal => "PascalCase"
  | camel => "camelCase"
  | snake => "snake_case"
  | screamingSnake => "SCREAMING_SNAKE_CASE"
  | kebab => "kebab-case"
  | screamingKebab => "SCREAMING-KEBAB-CASE"

def ofName? (s : String) : Option Naming := list.find? fun rule => rule.name = s

def capitalize : List Char → List Char
  | [] => []
  | c :: cs => c.toUpper :: cs

def uncapitalize : List Char → List Char
  | [] => []
  | c :: cs => c.toLower :: cs

def joinWords (field : List Char) : List Char := (Text.pieces '_' field).flatMap capitalize

def hyphenate (field : List Char) : List Char := field.map fun c => if c = '_' then '-' else c

def spell (field : List Char) : Naming → List Char
  | lower | snake => field
  | upper | screamingSnake => field.map Char.toUpper
  | pascal => joinWords field
  | camel => uncapitalize (joinWords field)
  | kebab => hyphenate field
  | screamingKebab => (hyphenate field).map Char.toUpper

def apply (rule : Naming) (field : String) : String := String.ofList (rule.spell field.toList)

end Naming

end Docbase.Declaration
