import Docbase.Path
import Docbase.Value.Order

namespace Docbase

inductive Direction where
  | asc
  | desc
  deriving DecidableEq, Repr

def Direction.reversed : Direction → Direction
  | .asc => .desc
  | .desc => .asc

structure SortKey where
  path : Path
  direction : Direction
  deriving DecidableEq, Repr

namespace SortKey

/-- The values a document may sort by: those addressed, with the elements of arrays in the place of
the arrays. -/
def spread : Value → List Value
  | .array items => items
  | v => [v]

def prefer (direction : Direction) (x y : Value) : Value :=
  match direction with
  | .asc => if x.order y = .gt then y else x
  | .desc => if x.order y = .gt then x else y

/-- The value a document sorts by: of several the smallest in ascending order and the largest in
descending order. Nothing addressed and empty arrays count as `null`. -/
def valueOf (key : SortKey) (d : Document) : Value :=
  match (d.lookup key.path).flatMap spread with
  | [] => .null
  | v :: rest => rest.foldl (prefer key.direction) v

def compareBy (key : SortKey) (a b : Document) : Ordering :=
  match key.direction with
  | .asc => (key.valueOf a).order (key.valueOf b)
  | .desc => (key.valueOf b).order (key.valueOf a)

/-- The order of two documents under several keys, the most significant first. -/
def compareByAll (keys : List SortKey) (a b : Document) : Ordering :=
  match keys with
  | [] => .eq
  | key :: rest => (key.compareBy a b).then (compareByAll rest a b)

/-- Stable sort: documents that compare equal keep their order. -/
def sort (keys : List SortKey) (docs : List Document) : List Document :=
  docs.mergeSort fun a b => compareByAll keys a b ≠ .gt

end SortKey

end Docbase
