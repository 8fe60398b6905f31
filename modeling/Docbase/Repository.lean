import Docbase.Binding
import Docbase.Collection
import Docbase.Criteria
import Docbase.Filter.Field

namespace Docbase

structure Repository where
  type : DocumentType
  collection : Collection

namespace Repository

def ofRegistry (r : Registry) (T : BoundType) (asked : Option String) : Repository :=
  ⟨T.toDocumentType, ⟨r.resolve T asked⟩⟩

variable (repo : Repository)

def name : String := repo.collection.name

def decodeAll (stored : List Document) : Except Failure (List Document) :=
  (stored.mapM repo.type.decode).mapError .serialization

/-- The stored forms of typed documents. Writing out the fields of a document may fail. -/
def encodeAll (fieldsOf : Document → Except Failure Document) (docs : List Document) :
    Except Failure (List Document) :=
  docs.mapM fun d => (fieldsOf d).map (repo.type.encodeFields · d)

def written {α : Type} : Except WriteError α × Store → Except Failure α × Store
  | (outcome, s) => (outcome.mapError .write, s)

def idFilter (id : Key) : Filter := Path.identity.eq id.stored

def requiredId (d : Document) : Except Failure Key :=
  match repo.type.keyOf? d with
  | some id => .ok id
  | none => .error (.invalidArgument (.noIdentity repo.type.name))

section Queries

variable (s : Store)

def find (c : Criteria) : Except Failure (List Document) := do
  repo.decodeAll (repo.collection.find s (← c.compile repo.type))

def findText (text : String) : Except Failure (List Document) := do
  repo.find s (← Criteria.parse repo.type text)

def findOrdered (text order : String) : Except Failure (List Document) := do
  repo.find s (← Criteria.parseOrdered repo.type text order)

def toList : Except Failure (List Document) := repo.find s {}

def getById (id : Key) : Except Failure (Option Document) :=
  match (repo.collection.find s { filter := some (idFilter id), limit := some 1 }).head? with
  | some stored => do .ok (some (← (repo.type.decode stored).mapError .serialization))
  | none => .ok none

def first (c : Criteria) : Except Failure (Option Document) := do
  let w := (c.window.map Window.first).getD Window.single
  .ok (← repo.find s (c.withWindow w)).head?

def firstText (text : String) : Except Failure (Option Document) := do
  repo.first s (← Criteria.parse repo.type text)

/-- The last document of the whole result; without sort keys the one with the greatest identity. -/
def last (c : Criteria) : Except Failure (Option Document) := do
  .ok (← repo.find s c.reversed).head?

def lastText (text : String) : Except Failure (Option Document) := do
  repo.last s (← Criteria.parse repo.type text)

def page (c : Criteria) (number size : UInt64) : Except Failure (List Document) := do
  repo.find s (← c.page number size)

def pageOrdered (text order : String) (number size : UInt64) : Except Failure (List Document) := do
  repo.page s (← Criteria.parseOrdered repo.type text order) number size

/-- A page together with the count of all documents and the numbers of the pages beside it, if they
fit into 64 bits. -/
def paginate (c : Criteria) (number size : UInt64) : Except Failure (Option (Page Document)) := do
  let c ← c.page number size
  let q ← c.compile repo.type
  let items ← repo.find s c
  .ok (Page.assemble items (UInt64.ofNat (repo.collection.count s q.filter)) number size)

def count : Nat := repo.collection.count s none

def countWhere (f : Filter) : Except Failure Nat := do
  .ok (repo.collection.count s (some (← repo.type.resolveFilter f)))

def countText (text : String) : Except Failure Nat := do
  repo.countWhere s (← repo.type.parseFilter text)

end Queries

section Writes

def withId (d : Document) (id : Value) : Except Failure Document :=
  match repo.type.key.ofValue id with
  | .ok key => .ok (repo.type.setKey key d)
  | .error fault => .error (.serialization fault)

/-- Inserts typed documents as one batch and gives them back with their identities and the time of
the write. -/
def insertWritten (fieldsOf : Document → Except Failure Document) (now : Int64)
    (newId : Nat → ObjectId) (docs : List Document) (s : Store) :
    Except Failure (List Document) × Store :=
  let docs := docs.map (repo.type.setModifiedOn now)
  match repo.encodeAll fieldsOf docs with
  | .error e => (.error e, s)
  | .ok batch =>
    match repo.collection.insertMany newId batch s with
    | (.ok ids, s) => ((docs.zip ids).mapM fun (d, id) => repo.withId d id, s)
    | (.error e, s) => (.error (.write e), s)

def insertMany (now : Int64) (newId : Nat → ObjectId) (docs : List Document) (s : Store) :
    Except Failure (List Document) × Store :=
  repo.insertWritten .ok now newId docs s

/-- Writes to the documents of a filter, if filter and update can be brought to stored form. -/
def updateStored (now : Int64) (filter : Except Failure Filter) (update : Update) (s : Store) :
    Except Failure Unit × Store :=
  match (do .ok (← filter, ← repo.type.resolveUpdate update)) with
  | .ok (f, ops) => written (repo.collection.updateMany now (some f) ops s)
  | .error e => (.error e, s)

def updateById (now : Int64) (id : Key) (update : Update) (s : Store) :
    Except Failure Unit × Store :=
  repo.updateStored now (.ok (idFilter id)) update s

def update (now : Int64) (f : Filter) (update : Update) (s : Store) :
    Except Failure Unit × Store :=
  repo.updateStored now (repo.type.resolveFilter f) update s

def updateField (now : Int64) (f : Filter) (field : Path) (v : Value) (s : Store) :
    Except Failure Unit × Store :=
  repo.update now f [.set field v] s

/-- Replaces the stored document with the identity of this one, and tells whether there was one. -/
def replaceWritten (fieldsOf : Document → Except Failure Document) (now : Int64) (d : Document)
    (s : Store) : Except Failure Bool × Store :=
  match repo.requiredId d with
  | .error e => (.error e, s)
  | .ok id =>
    let stamped := repo.type.setModifiedOn now d
    match fieldsOf stamped with
    | .error e => (.error e, s)
    | .ok fields =>
      written (repo.collection.replaceOne (idFilter id) (repo.type.encodeFields fields stamped) s)

def replaceOne (now : Int64) (d : Document) (s : Store) : Except Failure Bool × Store :=
  repo.replaceWritten .ok now d s

def deleteById (id : Key) (s : Store) : Store := repo.collection.deleteOne (idFilter id) s

def delete (d : Document) (s : Store) : Except Failure Unit × Store :=
  match repo.requiredId d with
  | .ok id => (.ok (), repo.deleteById id s)
  | .error e => (.error e, s)

def deleteMany (f : Filter) (s : Store) : Except Failure Unit × Store :=
  match repo.type.resolveFilter f with
  | .ok f => (.ok (), repo.collection.deleteMany (some f) s)
  | .error e => (.error e, s)

end Writes

end Repository

end Docbase
