import Docbase.Key
import Docbase.Schema

namespace Docbase

inductive FieldType where
  | string
  | bool
  | int32
  | int64
  | double
  | dateTime
  | objectId
  /-- A UUID as a binary. -/
  | uuid
  /-- A UUID as a string. -/
  | textUuid
  | any
  | anyDocument
  /-- A document with any keys, which are kept sorted. -/
  | map
  /-- The field may be `null` or missing. -/
  | optional (inner : FieldType)
  | list (item : FieldType)
  /-- A document with the fields declared under a name. -/
  | record (name : String)
  deriving DecidableEq

namespace FieldType

def isOptional : FieldType → Bool
  | optional _ => true
  | _ => false

def required : FieldType → FieldType
  | optional inner => inner.required
  | t => t

def schema : FieldType → Schema String
  | any | anyDocument | map => .any
  | optional inner => inner.schema
  | list item => .array item.schema
  | record name => .record name
  | _ => .scalar

def byte? (v : Value) : Option UInt8 := do
  let n ← v.integer?
  if 0 ≤ n && n < UInt8.size then some (UInt8.ofNat n.toNat) else none

def readDate? (v : Value) : Option Value :=
  match v.read? with
  | some (.dateTime millis) => some (.dateTime millis)
  | _ => none

def readObjectId? (v : Value) : Option ObjectId :=
  match v.readObjectId?, v.read? with
  | some id, _ => some id
  | none, some (.objectId id) => some id
  | none, _ => none

def readTextUuid? : Value → Option Uuid
  | .string s => Uuid.ofText? s
  | .binary subtype bytes => if subtype = genericSubtype then Uuid.ofBytes? bytes else none
  | .array items => do Uuid.ofBytes? (← (items.take 16).mapM byte?)
  | _ => none

def readDocument? (v : Value) : Option Value :=
  match v.read? with
  | some (.document fields) => some (.document fields)
  | _ => none

def sortByKey (fields : Document) : Document := fields.mergeSort fun a b => a.1 ≤ b.1

/-- A map from its fields, or from those of the document that is written for a value. The fields are
written as one document, which may be tagged by then. -/
def readMap? (v : Value) : Option Value := do
  let fields ←
    match v with
    | .document fields => some fields
    | v => v.tagged?
  let fields ← fields.mapM fun (key, v) => do some (key, ← v.read?)
  some (Value.document (sortByKey fields)).plain

def readPlain? : FieldType → Value → Option Value
  | string, v => v.readText?.map .string
  | bool, .bool b => some (.bool b)
  | int32, v => do some (.int32 (← Number.int32? (← v.integer?)))
  | int64, v => do some (.int64 (← Number.int64? (← v.integer?)))
  | double, .double x => some (.double x)
  | double, v => do some (.double (.ofInt (← v.integer?)))
  | dateTime, v => readDate? v
  | objectId, v => (readObjectId? v).map .objectId
  | uuid, v => (Uuid.ofValue? v).map fun u => .binary uuidSubtype u.bytes
  | textUuid, v => (readTextUuid? v).map fun u => .string u.text
  | any, v => v.read?
  | anyDocument, v => readDocument? v
  | map, v => readMap? v
  | _, _ => none

/-- Puts the fields that were found into the declared order and fills in absent optional ones. -/
def arrange? (declared : List (String × FieldType)) (found : Document) : Option Document :=
  declared.mapM fun (name, t) =>
    match found.get? name with
    | some v => some (name, v)
    | none => if t.isOptional then some (name, .null) else none

variable (records : String → List (String × FieldType))

mutual

/-- The typed form of a value, if it has one. A record may also be given as the array of its fields
in the declared order. -/
def read? (t : FieldType) : Value → Option Value
  | .null => if t.isOptional || t = any then some .null else none
  | .array items =>
    match t.required with
    | list item => (readItems? item items).map .array
    | record name => (readPositions? (records name) items).map .document
    | plain => plain.readPlain? (.array items)
  | .document fields =>
    match t.required with
    | record name => do
      let found ← readFields? (records name) fields
      (arrange? (records name) found).map .document
    | plain => plain.readPlain? (.document fields)
  | v => t.required.readPlain? v

def readItems? (item : FieldType) : List Value → Option (List Value)
  | [] => some []
  | v :: rest => do
    let v ← read? item v
    let rest ← readItems? item rest
    some (v :: rest)

def readPositions? : List (String × FieldType) → List Value → Option (List (String × Value))
  | [], _ => some []
  | (name, t) :: declared, v :: rest => do
    let v ← read? t v
    let rest ← readPositions? declared rest
    some ((name, v) :: rest)
  | _ :: _, [] => none

def readFields? (declared : List (String × FieldType)) :
    List (String × Value) → Option (List (String × Value))
  | [] => some []
  | (name, v) :: rest =>
    match declared.lookup name with
    | none => readFields? declared rest
    | some t => do
      let v ← read? t v
      let rest ← readFields? declared rest
      some ((name, v) :: rest)

end

end FieldType

/-- A type of documents and how it is bound to stored ones. A typed document has exactly the
declared fields in the declared order, with the identity under its own name and `null` for an absent
optional field. -/
structure DocumentType where
  /-- The name of the type, under which its fields are declared. -/
  name : String
  collection : Option String
  identity : String
  /-- The name of the field that holds the time of the last write. -/
  timestamp : String
  key : KeyKind
  records : String → List (String × FieldType)

namespace DocumentType

variable (T : DocumentType)

def fields : List (String × FieldType) := T.records T.name

def shapes (name : String) : List (String × Schema String) :=
  (T.records name).map fun (field, t) => (field, t.schema)

def schema : Schema String := .record T.name

def read? (v : Value) : Option Document :=
  match FieldType.read? T.records (.record T.name) v with
  | some (.document d) => some d
  | _ => none

def keyOf? (d : Document) : Option Key :=
  match d.get? T.identity with
  | none | some .null => none
  | some v => (T.key.ofValue v).toOption

def modifiedOn? (d : Document) : Option Int64 :=
  match d.get? T.timestamp with
  | some (.dateTime millis) => some millis
  | _ => none

def setKey (key : Key) (d : Document) : Document := d.insert T.identity key.field

def setModifiedOn (now : Int64) (d : Document) : Document := d.insert T.timestamp (.dateTime now)

/-- The stored form of a typed document of which these are the fields written out. The identity comes
first under `_id`; where there is none, the store has to assign one. -/
def encodeFields (fields d : Document) : Document :=
  let body := fields.erase T.identity
  match T.keyOf? d with
  | none => body
  | some key => Document.ofList (("_id", key.stored) :: body)

def encode (d : Document) : Document := T.encodeFields d d

/-- The typed form of a stored document. -/
def decode (stored : Document) : Except ReadFault Document := do
  let d ←
    match stored.get? "_id" with
    | none => .ok stored
    | some id => do .ok ((stored.erase "_id").insert T.identity (← T.key.ofValue id).field)
  match T.read? (.document d) with
  | some d => .ok d
  | none => .error .malformed

end DocumentType

end Docbase
