import Docbase.Value.Basic

namespace Docbase

mutual

/-- Equality of values as data: the same kind and the same content, where documents may hold their
keys in any order, and doubles are compared as numbers. -/
def Value.same : Value → Value → Bool
  | .null, .null => true
  | .undefined, .undefined => true
  | .minKey, .minKey => true
  | .maxKey, .maxKey => true
  | .bool a, .bool b => a == b
  | .int32 a, .int32 b => a == b
  | .int64 a, .int64 b => a == b
  | .double a, .double b => a.numEq b
  | .string a, .string b => a == b
  | .symbol a, .symbol b => a == b
  | .code a, .code b => a == b
  | .scopedCode a xs, .scopedCode b ys =>
    a == b && (xs.length == ys.length && sameFields xs ys)
  | .regex a o, .regex b p => a == b && o == p
  | .timestamp a i, .timestamp b j => a == b && i == j
  | .dateTime a, .dateTime b => a == b
  | .objectId a, .objectId b => a == b
  | .binary s a, .binary t b => s == t && a == b
  | .array xs, .array ys => sameItems xs ys
  | .document xs, .document ys => xs.length == ys.length && sameFields xs ys
  | _, _ => false

def Value.sameItems : List Value → List Value → Bool
  | [], [] => true
  | x :: xs, y :: ys => x.same y && sameItems xs ys
  | _, _ => false

def Value.sameFields : List (String × Value) → List (String × Value) → Bool
  | [], _ => true
  | (k, v) :: rest, ys =>
    (match ys.lookup k with
      | some w => v.same w
      | none => false) && sameFields rest ys

end

instance : BEq Value := ⟨Value.same⟩

end Docbase
