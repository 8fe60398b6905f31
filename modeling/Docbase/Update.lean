import Docbase.Path
import Docbase.Value.Order

namespace Docbase

inductive UpdateOp where
  | set (path : Path) (value : Value)
  | unset (path : Path)
  | inc (path : Path) (delta : Value)
  | currentDate (path : Path)

/-- Operations to be applied one after the other. -/
abbrev Update := List UpdateOp

inductive UpdateError where
  | notADocument (path segment : String)
  | notNumeric (path : String)
  | indexOutOfRange (path : String)
  | immutableIdentity
  deriving DecidableEq

def Value.openFields? : Value → Option Document
  | .null => some []
  | .document fields => some fields
  | _ => none

/-- Replaces what stands at the end of the segments by `f` of it, where what is missing counts as
`null`. `trail` is the path since the innermost document and `segment` the part of it that led to
the value; they are named in errors. -/
def Value.alter (f : Value → Except UpdateError Value) (trail segment : Path) :
    List String → Value → Except UpdateError Value
  | [], v => f v
  | s :: rest, v =>
    match v with
    | .array items =>
      match Number.index? s with
      | none => .error (.notADocument trail.text segment.text)
      | some i =>
        match items[i]? with
        | none => .error (.indexOutOfRange trail.text)
        | some item => do
          let item ← Value.alter f trail ⟨s, rest⟩ rest item
          .ok (.array (items.set i item))
    | v =>
      match v.openFields? with
      | none => .error (.notADocument trail.text segment.text)
      | some fields => do
        let child ← Value.alter f ⟨s, rest⟩ ⟨s, []⟩ rest ((fields.get? s).getD .null)
        .ok (.document (fields.insert s child))

def Document.alter (f : Value → Except UpdateError Value) (p : Path) (d : Document) :
    Except UpdateError Document := do
  let child ← Value.alter f p ⟨p.head, []⟩ p.tail ((d.get? p.head).getD .null)
  .ok (d.insert p.head child)

/-- Takes a field out of a document, or puts `null` in the place of an array element. A path that
leads nowhere changes nothing. -/
def Value.unset (s : String) : List String → Value → Value
  | [], .document fields => .document (Document.erase fields s)
  | [], .array items =>
    match Number.index? s with
    | none => .array items
    | some i => .array (items.set i .null)
  | next :: rest, .document fields =>
    match Document.get? fields s with
    | none => .document fields
    | some child => .document (Document.insert fields s (child.unset next rest))
  | next :: rest, .array items =>
    match Number.index? s with
    | none => .array items
    | some i => .array (items.modify i fun item => item.unset next rest)
  | _, v => v

def Document.unset (p : Path) (d : Document) : Document :=
  match (Value.document d).unset p.head p.tail with
  | .document d => d
  | _ => d

namespace UpdateOp

def path : UpdateOp → Path
  | set path _ | unset path | inc path _ | currentDate path => path

def withPath (path : Path) : UpdateOp → UpdateOp
  | set _ value => set path value
  | unset _ => unset path
  | inc _ delta => inc path delta
  | currentDate _ => currentDate path

def toDouble? : Value → Option Double
  | .int32 n => some (.ofInt n.toInt)
  | .int64 n => some (.ofInt n.toInt)
  | .double x => some x
  | _ => none

/-- The sum of two numbers. Integers are added exactly and widen to 64 bits at most; with a double
the sum is a double. -/
def sum? (current delta : Value) : Option Value :=
  match current, delta with
  | .null, .int32 n => some (.int32 n)
  | .null, .int64 n => some (.int64 n)
  | .null, .double x => some (.double x)
  | .int32 a, .int32 b =>
    match Number.int32? (a.toInt + b.toInt) with
    | some sum => some (.int32 sum)
    | none => some (.int64 (Int64.ofInt (a.toInt + b.toInt)))
  | .int32 a, .int64 b => (Number.int64? (a.toInt + b.toInt)).map .int64
  | .int64 a, .int32 b => (Number.int64? (a.toInt + b.toInt)).map .int64
  | .int64 a, .int64 b => (Number.int64? (a.toInt + b.toInt)).map .int64
  | a, b => do some (.double ((← toDouble? a).add (← toDouble? b)))

/-- What the operation puts in the place of a value. -/
def replacement (now : Int64) : UpdateOp → Value → Except UpdateError Value
  | set _ value, _ => .ok value
  | unset _, current => .ok current
  | inc path delta, current =>
    match sum? current delta with
    | some sum => .ok sum
    | none => .error (.notNumeric path.text)
  | currentDate _, _ => .ok (.dateTime now)

def apply (now : Int64) (op : UpdateOp) (d : Document) : Except UpdateError Document :=
  if op.path.head = "_id" then .error .immutableIdentity
  else
    match op with
    | unset path => .ok (d.unset path)
    | op => d.alter (op.replacement now) op.path

/-- The document that a failing operation leaves behind: a place may have been made for a value that
then could not be computed. -/
def remains (op : UpdateOp) (d : Document) : Document :=
  if op.path.head = "_id" then d
  else
    match d.alter .ok op.path with
    | .ok d => d
    | .error _ => d

end UpdateOp

/-- Applies the operations in turn up to the first that fails, and gives the document as it is
then. -/
def Update.apply (now : Int64) : Update → Document → Except UpdateError Unit × Document
  | [], d => (.ok (), d)
  | op :: rest, d =>
    match op.apply now d with
    | .ok d => Update.apply now rest d
    | .error e => (.error e, op.remains d)

end Docbase
