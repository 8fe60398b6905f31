import Docbase.Number.Double
import Docbase.Value.Identifier

namespace Docbase

/-- A stored value. Decimals of 128 bits and pointers into other databases are left out: queries do
not look into them, so they would be compared as the other values of this kind are. -/
inductive Value where
  | null
  | undefined
  | minKey
  | maxKey
  | bool (b : Bool)
  | int32 (n : Int32)
  | int64 (n : Int64)
  | double (x : Double)
  | string (s : String)
  | symbol (s : String)
  | code (source : String)
  | scopedCode (source : String) (scope : List (String × Value))
  | regex (pattern options : String)
  | timestamp (time increment : UInt32)
  /-- Milliseconds since the start of 1970. -/
  | dateTime (millis : Int64)
  | objectId (id : ObjectId)
  | binary (subtype : UInt8) (bytes : List UInt8)
  | array (items : List Value)
  | document (fields : List (String × Value))
  deriving Inhabited

abbrev Document := List (String × Value)

namespace Document

def get? (d : Document) (key : String) : Option Value := d.lookup key

def keys (d : Document) : List String := d.map Prod.fst

def insert : Document → String → Value → Document
  | [], key, v => [(key, v)]
  | (k, w) :: rest, key, v =>
    if k = key then (key, v) :: rest else (k, w) :: insert rest key v

def erase : Document → String → Document
  | [], _ => []
  | (k, w) :: rest, key => if k = key then rest else (k, w) :: erase rest key

def ofList (fields : List (String × Value)) : Document :=
  fields.foldl (fun d (k, v) => d.insert k v) []

end Document

end Docbase
