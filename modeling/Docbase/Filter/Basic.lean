import Docbase.Path
import Docbase.Value.Equality

namespace Docbase

inductive Operator where
  | eq
  | ne
  | gt
  | gte
  | lt
  | lte
  /-- A string holds a substring, or an array holds a value (each value of a given array). -/
  | contains
  | notContains
  | startsWith
  | endsWith
  | anyOf
  | noneOf
  deriving DecidableEq, Repr

namespace Operator

def list : List Operator :=
  [.eq, .ne, .gt, .gte, .lt, .lte, .contains, .notContains, .startsWith, .endsWith, .anyOf, .noneOf]

def name : Operator → String
  | .eq => "Eq"
  | .ne => "Ne"
  | .gt => "Gt"
  | .gte => "Gte"
  | .lt => "Lt"
  | .lte => "Lte"
  | .contains => "Contains"
  | .notContains => "NotContains"
  | .startsWith => "StartsWith"
  | .endsWith => "EndsWith"
  | .anyOf => "AnyOf"
  | .noneOf => "NoneOf"

end Operator

inductive Filter where
  | all (parts : List Filter)
  | any (parts : List Filter)
  | negation (inner : Filter)
  | present (path : Path) (expected : Bool)
  | comparison (path : Path) (op : Operator) (literal : Value)
  deriving Inhabited

namespace Filter

def and : Filter → Filter → Filter
  | all parts, other => all (parts ++ [other])
  | first, other => all [first, other]

def or : Filter → Filter → Filter
  | any parts, other => any (parts ++ [other])
  | first, other => any [first, other]

def not (f : Filter) : Filter := negation f

mutual

def usesOperator (p : Operator → Bool) : Filter → Bool
  | all parts => usesOperatorIn p parts
  | any parts => usesOperatorIn p parts
  | negation inner => usesOperator p inner
  | present .. => false
  | comparison _ op _ => p op

def usesOperatorIn (p : Operator → Bool) : List Filter → Bool
  | [] => false
  | f :: rest => usesOperator p f || usesOperatorIn p rest

end

mutual

def same : Filter → Filter → Bool
  | all xs, all ys => sameParts xs ys
  | any xs, any ys => sameParts xs ys
  | negation x, negation y => same x y
  | present p a, present q b => p = q && a == b
  | comparison p o v, comparison q r w => p = q && o = r && v == w
  | _, _ => false

def sameParts : List Filter → List Filter → Bool
  | [], [] => true
  | x :: xs, y :: ys => same x y && sameParts xs ys
  | _, _ => false

end

instance : BEq Filter := ⟨same⟩

end Filter

end Docbase
