import Docbase.Failure
import Docbase.Query

namespace Docbase

structure Entry where
  key : String
  document : Document

/-- Collections of documents held in memory. A collection keeps its documents in the order in which
they were inserted, each filed under the text of its identity, and no two under one text. -/
structure Store where
  collections : List (String × List Entry) := []
  unsupported : List Operator := []

/-- Whether a filter leaves the document; no filter leaves every one. -/
def Query.selects (filter : Option Filter) (d : Document) : Bool := filter.all (·.accepts d)

/-- The document after an update that succeeds as a whole. -/
def Update.run (now : Int64) (update : Update) (d : Document) : Except UpdateError Document :=
  match update.apply now d with
  | (.ok (), d) => .ok d
  | (.error e, _) => .error e

namespace Entry

def identify (newId : ObjectId) (d : Document) : Value × Document :=
  match d.get? "_id" with
  | some id => (id, d)
  | none => (.objectId newId, ("_id", .objectId newId) :: d)

def ofIdentified : Value × Document → Entry
  | (id, d) => ⟨id.display, d⟩

/-- The first of the entries whose key is taken, by others or by one before it. -/
def firstDuplicate? : (taken : List String) → List Entry → Option Entry
  | _, [] => none
  | taken, e :: rest => if e.key ∈ taken then some e else firstDuplicate? (e.key :: taken) rest

def update (now : Int64) (update : Update) (e : Entry) : Except WriteError Entry :=
  match update.run now e.document with
  | .ok d => .ok { e with document := d }
  | .error error => .error (.update error)

def replaceFirst (test : Entry → Bool) (d : Document) : List Entry → List Entry
  | [] => []
  | e :: rest =>
    if test e then { e with document := d } :: rest else e :: replaceFirst test d rest

end Entry

namespace Store

def entries (s : Store) (name : String) : List Entry := (s.collections.lookup name).getD []

def documents (s : Store) (name : String) : List Document := (s.entries name).map Entry.document

def supports (s : Store) (f : Filter) : Bool := !f.usesOperator (· ∈ s.unsupported)

def find (s : Store) (q : Query) (name : String) : List Document := q.run (s.documents name)

def count (s : Store) (filter : Option Filter) (name : String) : Nat :=
  (Query.select filter (s.documents name)).length

def create (s : Store) (name : String) : Store :=
  if (s.collections.lookup name).isSome then s
  else { s with collections := s.collections ++ [(name, [])] }

def drop (s : Store) (name : String) : Store :=
  { s with collections := s.collections.filter (·.1 ≠ name) }

def names (s : Store) : List String := (s.collections.map Prod.fst).mergeSort

def modify (s : Store) (name : String) (f : List Entry → List Entry) : Store :=
  { s with collections := s.collections.map fun (n, es) => (n, if n = name then f es else es) }

/-- Inserts all documents or, where an identity is taken, none. The collection is made in either
case. The document at place `i` gets the identity `newId i` if it has none; the identities are
given back. -/
def insertMany (newId : Nat → ObjectId) (docs : List Document) (name : String) (s : Store) :
    Except WriteError (List Value) × Store :=
  let s := s.create name
  let identified := docs.zipIdx.map fun (d, i) => Entry.identify (newId i) d
  let batch := identified.map Entry.ofIdentified
  match Entry.firstDuplicate? ((s.entries name).map Entry.key) batch with
  | some e => (.error (.duplicateKey e.key name), s)
  | none => (.ok (identified.map Prod.fst), s.modify name (· ++ batch))

/-- Updates every document that the filter selects or, where one of them cannot be updated, none. -/
def updateMany (now : Int64) (filter : Option Filter) (update : Update) (name : String)
    (s : Store) : Except WriteError Unit × Store :=
  let updated := (s.entries name).mapM fun e =>
    if Query.selects filter e.document then e.update now update else .ok e
  match updated with
  | .ok es => (.ok (), s.modify name fun _ => es)
  | .error e => (.error e, s)

/-- Replaces the first document that the filter accepts, and tells whether there was one. The
document keeps its identity, which comes first; a replacement with another identity is refused. -/
def replaceOne (filter : Filter) (replacement : Document) (name : String) (s : Store) :
    Except WriteError Bool × Store :=
  let test := fun (e : Entry) => filter.accepts e.document
  match (s.entries name).find? test with
  | none => (.ok false, s)
  | some e =>
    match e.document.get? "_id" with
    | none => (.ok false, s)
    | some id =>
      if (replacement.get? "_id").all (· == id) then
        let d := ("_id", id) :: replacement.erase "_id"
        (.ok true, s.modify name (Entry.replaceFirst test d))
      else (.error (.identityChanged e.key), s)

def deleteOne (filter : Filter) (name : String) (s : Store) : Store :=
  s.modify name (·.eraseP fun e => filter.accepts e.document)

def deleteMany (filter : Option Filter) (name : String) (s : Store) : Store :=
  s.modify name (·.filter fun e => !Query.selects filter e.document)

end Store

end Docbase
