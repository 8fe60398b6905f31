import Docbase.Proofs.Collection
import Docbase.Proofs.Except
import Docbase.Repository

namespace Docbase.Repository

variable {repo : Repository} {c : Criteria} {q : Query} {s : Store}

/-- The documents of the collection that the filter leaves. -/
def matching (repo : Repository) (s : Store) (q : Query) : List Document :=
  Query.select q.filter (s.documents repo.name)

theorem mem_matching {d : Document} :
    d ∈ repo.matching s q ↔ d ∈ s.documents repo.name ∧ Query.selects q.filter d := by
  rw [matching, Query.select_eq_filter, List.mem_filter]

theorem find_of_compile (hq : c.compile repo.type = .ok q) (s : Store) :
    repo.find s c = repo.decodeAll (q.run (s.documents repo.name)) := by
  unfold find
  rw [hq]
  change repo.decodeAll (repo.collection.find s q) = _
  rw [Collection.find_eq]
  rfl

theorem find_of_compile_error {e : Failure} (he : c.compile repo.type = .error e) (s : Store) :
    repo.find s c = .error e := by
  unfold find
  rw [he]
  rfl

theorem find_idFilter (repo : Repository) (s : Store) (id : Key) :
    (repo.collection.find s { filter := some (idFilter id), limit := some 1 }).head? =
      (s.documents repo.name).find? fun d => (idFilter id).accepts d := by
  have hone : (1 : UInt64).toNat = 1 := rfl
  rw [Collection.find_eq, Store.find, Query.run, SortKey.sort_nil, Query.select_eq_filter]
  simp only [Query.window, Option.map_none, Option.getD_none, List.drop_zero, hone, List.take_one,
    Option.head?_toList, List.head?_filter]
  rfl

theorem getById_of_find? {id : Key} {stored : Document}
    (h : (s.documents repo.name).find? (fun d => (idFilter id).accepts d) = some stored) :
    repo.getById s id = ((repo.type.decode stored).mapError .serialization).map some := by
  unfold getById
  rw [find_idFilter, h]
  dsimp only
  cases repo.type.decode stored <;> rfl

theorem getById_of_decode {id : Key} {stored d : Document}
    (h : (s.documents repo.name).find? (fun d => (idFilter id).accepts d) = some stored)
    (hd : repo.type.decode stored = .ok d) : repo.getById s id = .ok (some d) := by
  rw [getById_of_find? h, hd]
  rfl

theorem getById_of_find?_eq_none {id : Key}
    (h : (s.documents repo.name).find? (fun d => (idFilter id).accepts d) = none) :
    repo.getById s id = .ok none := by
  unfold getById
  rw [find_idFilter, h]

theorem exists_of_getById {id : Key} {d : Document} (h : repo.getById s id = .ok (some d)) :
    ∃ stored, (s.documents repo.name).find? (fun d => (idFilter id).accepts d) = some stored ∧
      repo.type.decode stored = .ok d := by
  cases hfirst : (s.documents repo.name).find? fun d => (idFilter id).accepts d with
  | none =>
    rw [getById_of_find?_eq_none hfirst] at h
    cases h
  | some stored =>
    rw [getById_of_find? hfirst] at h
    refine ⟨stored, rfl, ?_⟩
    cases hdecode : repo.type.decode stored <;> rw [hdecode] at h <;> cases h
    rfl

end Docbase.Repository
