import Docbase.Filter.Basic
import Docbase.Text.Search
import Docbase.Value.Order

namespace Docbase

/-- The value itself and, where it is an array, its elements. -/
def Value.candidates : Value → List Value
  | .array items => .array items :: items
  | v => [v]

def Value.isStringWith (test : List Char → Bool) : Value → Bool
  | .string s => test s.toList
  | _ => false

/-- Whether the value is an array with an element equal to each of those required. -/
def Value.holdsAll (required : List Value) : Value → Bool
  | .array items => required.all fun r => items.any (·.agrees r)
  | _ => false

namespace Operator

def anyCandidate (values : List Value) (test : Value → Bool) : Bool :=
  values.any fun v => v.candidates.any test

def holdsEq (values : List Value) (literal : Value) : Bool :=
  match values, literal with
  | [], .null => true
  | [], _ => false
  | _, _ => anyCandidate values (·.agrees literal)

def holdsContains (values : List Value) : Value → Bool
  | .string needle => anyCandidate values (·.isStringWith (Text.occursIn needle.toList))
  | .array required => values.any (·.holdsAll required)
  | literal => anyCandidate values (·.agrees literal)

/-- Equality with one of several literals, the elements of an array or a single value. -/
def holdsAnyOf (values : List Value) (literal : Value) : Bool :=
  let options := match literal with
    | .array items => items
    | single => [single]
  if values.isEmpty then options.any fun o => o.valueClass = .null
  else anyCandidate values fun c => options.any (·.agrees c)

/-- A test of the order between a candidate and the literal, inside one class of values. -/
def holdsOrdered (values : List Value) (literal : Value) (test : Ordering → Bool) : Bool :=
  anyCandidate values fun c => (c.compareWithin? literal).any test

/-- Whether the addressed values satisfy the operator with this literal: one of them, or an element
of an array among them. The negative operators hold when their positive forms do not, so a missing
field satisfies them. -/
def holds (values : List Value) (literal : Value) : Operator → Bool
  | .eq => holdsEq values literal
  | .ne => !holdsEq values literal
  | .gt => holdsOrdered values literal (· = .gt)
  | .gte => holdsOrdered values literal (· ≠ .lt)
  | .lt => holdsOrdered values literal (· = .lt)
  | .lte => holdsOrdered values literal (· ≠ .gt)
  | .contains => holdsContains values literal
  | .notContains => !holdsContains values literal
  | .startsWith =>
    match literal with
    | .string s => anyCandidate values (·.isStringWith (s.toList.isPrefixOf ·))
    | _ => false
  | .endsWith =>
    match literal with
    | .string s => anyCandidate values (·.isStringWith (s.toList.isSuffixOf ·))
    | _ => false
  | .anyOf => holdsAnyOf values literal
  | .noneOf => !holdsAnyOf values literal

end Operator

namespace Filter

mutual

/-- Whether the document satisfies the filter. -/
def accepts (d : Document) : Filter → Bool
  | all parts => acceptsAll d parts
  | any parts => acceptsAny d parts
  | negation inner => !accepts d inner
  | present path expected => (!(d.lookup path).isEmpty) == expected
  | comparison path op literal => op.holds (d.lookup path) literal

def acceptsAll (d : Document) : List Filter → Bool
  | [] => true
  | f :: rest => accepts d f && acceptsAll d rest

def acceptsAny (d : Document) : List Filter → Bool
  | [] => false
  | f :: rest => accepts d f || acceptsAny d rest

end

end Filter

end Docbase
