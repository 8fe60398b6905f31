import Docbase.Text.Base64
import Docbase.Value.Basic
import Docbase.Value.Calendar

namespace Docbase

def genericSubtype : UInt8 := 0

def uuidSubtype : UInt8 := 4

/-- The last millisecond of the year 9999. Dates are read through a text whose years have four
digits, so a later one becomes this. -/
def lastMillis : Int64 := 253402300799999

def sortOptions (options : String) : String :=
  String.ofList (options.toList.mergeSort fun a b => a.toNat ≤ b.toNat)

/-- A regular expression whose options are in order; neither text may hold a zero character. -/
def regex? (pattern options : String) : Option Value :=
  if pattern.toList.contains '\x00' || options.toList.contains '\x00' then none
  else some (.regex pattern (sortOptions options))

namespace Value

def readText? : Value → Option String
  | .string s => some s
  | .binary subtype bytes =>
    if subtype = genericSubtype then String.fromUTF8? ⟨bytes.toArray⟩ else none
  | _ => none

def integer? : Value → Option Int
  | .int32 n => some n.toInt
  | .int64 n => some n.toInt
  | _ => none

def word? (v : Value) : Option UInt32 := do
  let n ← v.integer?
  if 0 ≤ n && n < UInt32.size then some (UInt32.ofNat n.toNat) else none

/-- The values under two keys, in a document that has no other key or at the front of an array. -/
def pair? (first second : String) : Value → Option (Value × Value)
  | .document [(k, v), (l, w)] =>
    if k = first && l = second then some (v, w)
    else if k = second && l = first then some (w, v)
    else none
  | .array (v :: w :: _) => some (v, w)
  | _ => none

def single? (key : String) : Value → Option Value
  | .document [(k, v)] => if k = key then some v else none
  | .array [v] => some v
  | _ => none

/-- A date as a count in a tagged document of its own, as a text, or as a bare count. -/
def readDate? (body : Value) : Option Value :=
  match (body.single? "$numberLong").bind readText? with
  | some digits => do .some (.dateTime (← Number.int64? (← Number.signed? digits.toList)))
  | none =>
    match body.readText? with
    | some s => do some (.dateTime (Int64.ofInt (← Calendar.ofText? s)))
    | none => do some (.dateTime (Int64.ofInt (← body.integer?)))

/-- A binary from its base 64 form and the two hexadecimal digits of its subtype. -/
def binary? (base64 subtype : String) : Option Value := do
  let bytes ← Text.bytesOfBase64? base64.toList
  match ← Text.bytesOfHex? subtype.toList with
  | [subtype] => some (.binary subtype bytes)
  | _ => none

/-- An object identifier from its digits, or from a generic binary of its bytes. -/
def readObjectId? : Value → Option ObjectId
  | .string s => ObjectId.ofText? s
  | .binary subtype bytes => if subtype = genericSubtype then ObjectId.ofBytes? bytes else none
  | _ => none

/-- The tags that have one body. The last three are those of the decimals and pointers that `Value`
leaves out. -/
def tags : List String :=
  ["$oid", "$symbol", "$numberInt", "$numberLong", "$numberDouble", "$binary", "$uuid",
    "$timestamp", "$regularExpression", "$date", "$minKey", "$maxKey", "$undefined",
    "$dbPointer", "$numberDecimal", "$numberDecimalBytes"]

def readTag? (body : Value) : (tag : String) → Option Value
  | "$oid" => body.readObjectId?.map .objectId
  | "$symbol" => body.readText?.map .symbol
  | "$numberInt" => do
    some (.int32 (← Number.int32? (← Number.signed? (← body.readText?).toList)))
  | "$numberLong" => do
    some (.int64 (← Number.int64? (← Number.signed? (← body.readText?).toList)))
  | "$numberDouble" => do some (.double (← Number.floating? (← body.readText?).toList))
  | "$binary" => do
    let (base64, subtype) ← body.pair? "base64" "subType"
    binary? (← base64.readText?) (← subtype.readText?)
  | "$uuid" => do some (.binary uuidSubtype (← Uuid.ofText? (← body.readText?)).bytes)
  | "$timestamp" => do
    let (time, increment) ← body.pair? "t" "i"
    some (.timestamp (← time.word?) (← increment.word?))
  | "$regularExpression" => do
    let (pattern, options) ← body.pair? "pattern" "options"
    regex? (← pattern.readText?) (← options.readText?)
  | "$date" => body.readDate?
  | "$minKey" => if body.integer? = some 1 then some .minKey else none
  | "$maxKey" => if body.integer? = some 1 then some .maxKey else none
  | "$undefined" =>
    match body with
    | .bool true => some .undefined
    | _ => none
  | _ => none

mutual

/-- The value that data stands for, read strictly: wherever a tag stands, the value that it stands
for takes the place of the document, and a tag with a wrong body is an error. -/
def read? : Value → Option Value
  | .array items => (readItems? items).map .array
  | .document fields => readFields? [] fields
  | .scopedCode source scope =>
    match readFields? [] scope with
    | some (.document scope) => some (.scopedCode source scope)
    | _ => none
  | .regex pattern options => some (.regex pattern (sortOptions options))
  | .dateTime millis => some (.dateTime (min millis lastMillis))
  | v => some v

def readItems? : List Value → Option (List Value)
  | [] => some []
  | v :: rest => do
    let v ← read? v
    let rest ← readItems? rest
    some (v :: rest)

/-- Reads the fields of a document up to the first tag, if there is one. The tags of code and of its
scope follow each other in either order. -/
def readFields? (before : List (String × Value)) : List (String × Value) → Option Value
  | [] => some (.document before.reverse)
  | (key, v) :: rest =>
    if key = "$code" then
      match rest with
      | [] => v.readText?.map .code
      | (next, scope) :: _ =>
        match read? scope with
        | some (.document scope) =>
          if next = "$scope" then v.readText?.map (.scopedCode · scope) else none
        | _ => none
    else
      match read? v with
      | some w =>
        if key = "$scope" then
          match w, rest with
          | .document scope, (next, source) :: _ =>
            if next = "$code" then source.readText?.map (.scopedCode · scope) else none
          | _, _ => none
        else if tags.contains key then v.readTag? key
        else readFields? ((key, w) :: before) rest
      | none => if tags.contains key then v.readTag? key else none

end

def untagOne? : (tag : String) → (body : Value) → Option Value
  | "$oid", .string s => (ObjectId.ofText? s).map .objectId
  | "$symbol", .string s => some (.symbol s)
  | "$numberInt", .string s => do some (.int32 (← Number.int32? (← Number.signed? s.toList)))
  | "$numberLong", .string s => do some (.int64 (← Number.int64? (← Number.signed? s.toList)))
  | "$numberDouble", .string s => (Number.floating? s.toList).map .double
  | "$binary", .document body =>
    match body.lookup "base64", body.lookup "subType", body.lookup "bytes" with
    | some (.string base64), some (.string subtype), _ => binary? base64 subtype
    | some (.string _), _, _ => none
    | _, some (.int32 subtype), some (.binary generic bytes) =>
      if generic = genericSubtype && 0 ≤ subtype && subtype < 256 then
        some (.binary (UInt8.ofNat subtype.toNatClampNeg) bytes)
      else none
    | _, _, _ => none
  | "$code", .string s => some (.code s)
  | "$timestamp", .document body =>
    match body.lookup "t", body.lookup "i" with
    | some (.int32 time), some (.int32 increment) =>
      some (.timestamp time.toUInt32 increment.toUInt32)
    | some (.int64 time), some (.int64 increment) => do
      some (.timestamp (← word? (.int64 time)) (← word? (.int64 increment)))
    | _, _ => none
  | "$regularExpression", .document body =>
    match body.lookup "pattern", body.lookup "options" with
    | some (.string pattern), some (.string options) => regex? pattern options
    | _, _ => none
  | "$date", .int64 millis => some (.dateTime millis)
  | "$date", .string s => (Calendar.ofText? s).map fun millis => .dateTime (Int64.ofInt millis)
  | "$minKey", body => if body.integer? = some 1 then some .minKey else none
  | "$maxKey", body => if body.integer? = some 1 then some .maxKey else none
  | "$undefined", .bool true => some .undefined
  | _, _ => none

def untag (fields : List (String × Value)) : Value :=
  match fields with
  | [(tag, body)] => (untagOne? tag body).getD (.document fields)
  | [("$code", .string source), ("$scope", .document scope)] => .scopedCode source scope
  | [("$scope", .document scope), ("$code", .string source)] => .scopedCode source scope
  | _ => .document fields

mutual

/-- Data read leniently: a document that is exactly a tag and its body becomes the value that it is
written for, and any other stays as it is. -/
def plain : Value → Value
  | .array items => .array (plainItems items)
  | .document fields => untag (plainFields fields)
  | .scopedCode source scope =>
    untag [("$code", .string source), ("$scope", untag (plainFields scope))]
  | .regex pattern options => .regex pattern (sortOptions options)
  | v => v

def plainItems : List Value → List Value
  | [] => []
  | v :: rest => v.plain :: plainItems rest

def plainFields : List (String × Value) → List (String × Value)
  | [] => []
  | (key, v) :: rest => (key, v.plain) :: plainFields rest

end

/-- The document that is written for a value of a kind without a syntax of its own. -/
def tagged? : Value → Option Document
  | .objectId id => some [("$oid", .string id.hex)]
  | .symbol s => some [("$symbol", .string s)]
  | .code source => some [("$code", .string source)]
  | .scopedCode source scope => some [("$code", .string source), ("$scope", .document scope)]
  | .regex pattern options =>
    some [("$regularExpression",
      .document [("pattern", .string pattern), ("options", .string (sortOptions options))])]
  | .timestamp time increment =>
    some [("$timestamp", .document [("t", ofWord time), ("i", ofWord increment)])]
  | .dateTime millis => some [("$date", .int64 (min millis lastMillis))]
  | .binary subtype bytes =>
    if subtype = genericSubtype then none
    else
      some [("$binary", .document [("base64", .string (String.ofList (Text.base64 bytes))),
        ("subType", .string (String.ofList (Text.hexOfBytes [subtype])))])]
  | .undefined => some [("$undefined", .bool true)]
  | .minKey => some [("$minKey", .int32 1)]
  | .maxKey => some [("$maxKey", .int32 1)]
  | _ => none
where
  ofWord (n : UInt32) : Value :=
    if n < 0x80000000 then .int32 (Int32.ofNat n.toNat) else .int64 (Int64.ofNat n.toNat)

end Value

/-- The UUID that a string in any spelling, a binary or a tagged document stands for. -/
def Uuid.ofValue? : Value → Option Uuid
  | .string s => Uuid.ofText? s
  | .binary subtype bytes => if subtype = uuidSubtype then Uuid.ofBytes? bytes else none
  | v =>
    match v.read? with
    | some (.binary subtype bytes) =>
      if subtype = uuidSubtype || subtype = genericSubtype then Uuid.ofBytes? bytes else none
    | _ => none

end Docbase
