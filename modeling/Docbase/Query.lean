import Docbase.Filter.Matching
import Docbase.Sorting

namespace Docbase

structure Query where
  filter : Option Filter := none
  sort : List SortKey := []
  skip : Option UInt64 := none
  limit : Option UInt64 := none

namespace Query

def unpaged (q : Query) : Query := { q with skip := none, limit := none }

def select (filter : Option Filter) (docs : List Document) : List Document :=
  match filter with
  | none => docs
  | some f => docs.filter (f.accepts ·)

def window (skip limit : Option UInt64) (docs : List Document) : List Document :=
  let rest := docs.drop ((skip.map UInt64.toNat).getD 0)
  match limit with
  | none => rest
  | some n => rest.take n.toNat

def run (q : Query) (docs : List Document) : List Document :=
  window q.skip q.limit (SortKey.sort q.sort (select q.filter docs))

end Query

end Docbase
