import Docbase.Value.Equality

namespace Docbase

/-- A number as queries see it. -/
inductive Number where
  | int (n : Int)
  | double (x : Double)
  deriving DecidableEq

namespace Number

def isNaN : Number → Bool
  | .int _ => false
  | .double x => x.isNaN

/-- Numeric order, without a rounding of either side; a NaN has no place in it. -/
def compare? : Number → Number → Option Ordering
  | .int a, .int b => some (compare a b)
  | .double a, .double b => a.compare? b
  | .int a, .double b => b.compareInt? a
  | .double a, .int b => (a.compareInt? b).map Ordering.swap

def order (a b : Number) : Ordering :=
  match a.isNaN, b.isNaN with
  | true, true => .eq
  | true, false => .lt
  | false, true => .gt
  | false, false => (a.compare? b).getD .eq

end Number

namespace Value

/-- The classes of values, from the lowest to the highest. -/
inductive Class where
  | null
  | number
  | text
  | document
  | array
  | binary
  | objectId
  | bool
  | dateTime
  | other
  deriving DecidableEq

def Class.rank : Class → Nat
  | .null => 1
  | .number => 2
  | .text => 3
  | .document => 4
  | .array => 5
  | .binary => 6
  | .objectId => 7
  | .bool => 8
  | .dateTime => 9
  | .other => 10

def valueClass : Value → Class
  | .null | .undefined => .null
  | .int32 _ | .int64 _ | .double _ => .number
  | .string _ | .symbol _ => .text
  | .document _ => .document
  | .array _ => .array
  | .binary .. => .binary
  | .objectId _ => .objectId
  | .bool _ => .bool
  | .dateTime _ => .dateTime
  | .minKey | .maxKey | .code _ | .scopedCode .. | .regex .. | .timestamp .. => .other

def number? : Value → Option Number
  | .int32 n => some (.int n.toInt)
  | .int64 n => some (.int n.toInt)
  | .double x => some (.double x)
  | _ => none

/-- The content of a string or a symbol, between which queries see no difference. -/
def text? : Value → Option String
  | .string s | .symbol s => some s
  | _ => none

def orderPlain (a b : Value) : Ordering :=
  match a.number?, b.number? with
  | some m, some n => m.order n
  | _, _ =>
    match a.text?, b.text? with
    | some s, some t => compare s t
    | _, _ =>
      match a, b with
      | .binary s xs, .binary t ys =>
        (compare xs.length ys.length).then ((compare s t).then (compare xs ys))
      | .objectId x, .objectId y => compare x.number.toNat y.number.toNat
      | .bool x, .bool y => compare x y
      | .dateTime x, .dateTime y => compare x.toInt y.toInt
      | _, _ => compare a.valueClass.rank b.valueClass.rank

mutual

/-- The total order: by class, then by content. All values of the class `other` rank equal. -/
def order : Value → Value → Ordering
  | .array xs, .array ys => orderItems xs ys
  | .document xs, .document ys => orderFields xs ys
  | a, b => orderPlain a b

/-- Item by item; of two arrays that agree as far as both go the shorter comes first. -/
def orderItems : List Value → List Value → Ordering
  | [], [] => .eq
  | [], _ :: _ => .lt
  | _ :: _, [] => .gt
  | x :: xs, y :: ys => (x.order y).then (orderItems xs ys)

def orderFields : List (String × Value) → List (String × Value) → Ordering
  | [], [] => .eq
  | [], _ :: _ => .lt
  | _ :: _, [] => .gt
  | (k, v) :: xs, (l, w) :: ys =>
    (v.order w).then ((compare k l).then (orderFields xs ys))

end

/-- The order within a class, and nothing across classes or for values of the class `other`. -/
def compareWithin? (a b : Value) : Option Ordering :=
  match a.number?, b.number? with
  | some m, some n => m.compare? n
  | _, _ =>
    if a.valueClass = .other || b.valueClass = .other then none
    else if a.valueClass = b.valueClass then some (a.order b)
    else none

/-- Equality as queries decide it. -/
def agrees (a b : Value) : Bool :=
  match a.number?, b.number? with
  | some m, some n => m.compare? n = some .eq
  | _, _ =>
    if a.valueClass = .other && b.valueClass = .other then a == b
    else a.valueClass = b.valueClass && a.order b = .eq

end Value

end Docbase
