import Docbase.Store

namespace Docbase

/-- A collection of a store by its name. Filters that the store does not evaluate itself are
evaluated here: a query fetches the whole collection, and a write first selects the documents and
then names them to the store by their identities. -/
structure Collection where
  name : String
  deriving DecidableEq

namespace Collection

variable (c : Collection)

def native (s : Store) (filter : Option Filter) : Bool := filter.all s.supports

def find (s : Store) (q : Query) : List Document :=
  if native s q.filter then s.find q c.name else q.run (s.find {} c.name)

def count (s : Store) (filter : Option Filter) : Nat :=
  if native s filter then s.count filter c.name
  else (Query.select filter (s.find {} c.name)).length

/-- The filter that accepts the documents with these identities; there is none for no identities. -/
def identityFilter? : List Value → Option Filter
  | [] => none
  | [id] => some (.comparison Path.identity .eq id)
  | ids => some (.any (ids.map (.comparison Path.identity .eq ·)))

def selection? (s : Store) (filter : Option Filter) (limit : Option UInt64) : Option Filter :=
  let found := Query.run { filter, limit } (s.find {} c.name)
  identityFilter? (found.filterMap (·.get? "_id"))

/-- Inserts documents as one batch. Nothing is sent for no documents. -/
def insertMany (newId : Nat → ObjectId) (docs : List Document) (s : Store) :
    Except WriteError (List Value) × Store :=
  if docs.isEmpty then (.ok [], s) else s.insertMany newId docs c.name

def updateMany (now : Int64) (filter : Option Filter) (update : Update) (s : Store) :
    Except WriteError Unit × Store :=
  if native s filter then s.updateMany now filter update c.name
  else
    match c.selection? s filter none with
    | some ids => s.updateMany now (some ids) update c.name
    | none => (.ok (), s)

/-- Replaces the first document that the filter accepts, and tells whether there was one. -/
def replaceOne (filter : Filter) (replacement : Document) (s : Store) :
    Except WriteError Bool × Store :=
  if s.supports filter then s.replaceOne filter replacement c.name
  else
    match c.selection? s (some filter) (some 1) with
    | some ids => s.replaceOne ids replacement c.name
    | none => (.ok false, s)

def deleteOne (filter : Filter) (s : Store) : Store :=
  if s.supports filter then s.deleteOne filter c.name
  else
    match c.selection? s (some filter) (some 1) with
    | some ids => s.deleteOne ids c.name
    | none => s

def deleteMany (filter : Option Filter) (s : Store) : Store :=
  if native s filter then s.deleteMany filter c.name
  else
    match c.selection? s filter none with
    | some ids => s.deleteMany (some ids) c.name
    | none => s

end Collection

end Docbase
