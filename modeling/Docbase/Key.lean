import Docbase.Value.Tagged

namespace Docbase

inductive KeyKind where
  | text
  | objectId
  | uuid
  | textUuid
  | int64
  | int32
  deriving DecidableEq, Repr

def KeyKind.name : KeyKind → String
  | .text => "alloc::string::String"
  | .objectId => "bson::oid::ObjectId"
  | .uuid | .textUuid => "bson::uuid::Uuid"
  | .int64 => "i64"
  | .int32 => "i32"

inductive Key where
  | text (s : String)
  | objectId (id : ObjectId)
  | uuid (u : Uuid)
  | textUuid (u : Uuid)
  | int64 (n : Int64)
  | int32 (n : Int32)
  deriving DecidableEq

inductive ReadFault where
  | noIdentity (value : Value) (kind : KeyKind)
  | malformed

namespace Key

def kind : Key → KeyKind
  | text _ => .text
  | objectId _ => .objectId
  | uuid _ => .uuid
  | textUuid _ => .textUuid
  | int64 _ => .int64
  | int32 _ => .int32

/-- The stored identity. A text that spells an object identifier is stored as one. -/
def stored : Key → Value
  | text s =>
    match ObjectId.ofText? s with
    | some id => .objectId id
    | none => .string s
  | objectId id => .objectId id
  | uuid u | textUuid u => .binary uuidSubtype u.bytes
  | int64 n => .int64 n
  | int32 n => .int32 n

def field : Key → Value
  | text s => .string s
  | objectId id => .objectId id
  | uuid u => .binary uuidSubtype u.bytes
  | textUuid u => .string u.text
  | int64 n => .int64 n
  | int32 n => .int32 n

end Key

namespace KeyKind

/-- The UUID that a value stands for. A string that spells none is no identity. -/
def uuidOf (kind : KeyKind) (v : Value) : Except ReadFault Uuid :=
  match Uuid.ofValue? v, v with
  | some u, _ => .ok u
  | none, .string s => .error (.noIdentity (.string s) kind)
  | none, _ => .error .malformed

/-- The key of this kind that a value, stored or given by a caller, stands for. -/
def ofValue (kind : KeyKind) (v : Value) : Except ReadFault Key :=
  match kind, v with
  | .text, .objectId id => .ok (.text id.hex)
  | .text, .string s => .ok (.text s)
  | .objectId, .objectId id => .ok (.objectId id)
  | .objectId, .string s =>
    match ObjectId.ofText? s with
    | some id => .ok (.objectId id)
    | none => .error (.noIdentity v kind)
  | .uuid, v => (uuidOf kind v).map .uuid
  | .textUuid, v => (uuidOf kind v).map .textUuid
  | .int64, .int64 n => .ok (.int64 n)
  | .int64, .int32 n => .ok (.int64 n.toInt64)
  | .int32, .int32 n => .ok (.int32 n)
  | .int32, .int64 n =>
    match Number.int32? n.toInt with
    | some n => .ok (.int32 n)
    | none => .error (.noIdentity v kind)
  | _, _ => .error (.noIdentity v kind)

end KeyKind

end Docbase
