import Docbase.Proofs.Store.Reachable
import Docbase.Proofs.Store.Documents

namespace Docbase.Store

variable {s : Store} {newId : Nat → ObjectId} {docs : List Document} {name : String}

theorem insertMany_of_error {e : WriteError} (h : (s.insertMany newId docs name).1 = .error e) :
    (s.insertMany newId docs name).2 = s.create name := by
  revert h
  rw [insertMany]
  dsimp only
  split
  next => exact fun _ => rfl
  next => exact fun h => nomatch h

theorem create_of_has (h : s.Has name) : s.create name = s := by
  obtain ⟨es, hes⟩ := h
  rw [create, hes]
  rfl

theorem names_perm (s : Store) : s.names.Perm (s.collections.map Prod.fst) :=
  List.mergeSort_perm _ _

theorem names_create_perm (h : ¬ s.Has name) : (s.create name).names.Perm (name :: s.names) := by
  have hnone : s.collections.lookup name = none :=
    Option.eq_none_iff_forall_ne_some.mpr fun es hes => h ⟨es, hes⟩
  have hcollections : (s.create name).collections = s.collections ++ [(name, [])] := by
    rw [create, hnone]
    rfl
  refine (names_perm _).trans ?_
  rw [hcollections, List.map_append]
  exact (List.perm_append_singleton _ _).trans (s.names_perm.symm.cons name)

theorem names_create_eq_iff : (s.create name).names = s.names ↔ s.Has name := by
  constructor
  · intro h
    by_contra hnone
    have hlength := (names_create_perm hnone).length_eq
    rw [h, List.length_cons] at hlength
    exact Nat.succ_ne_self _ hlength.symm
  · intro h
    rw [create_of_has h]

/-- After an insertion that was refused every query finds, and every count gives, what it did before.
The collections are listed as before exactly if the one of the insertion was there; otherwise it is
listed beside them. -/
theorem refused_insert_unseen_iff {e : WriteError}
    (h : (s.insertMany newId docs name).1 = .error e) :
    (∀ (q : Query) (other : String),
      (s.insertMany newId docs name).2.find q other = s.find q other) ∧
    (∀ (filter : Option Filter) (other : String),
      (s.insertMany newId docs name).2.count filter other = s.count filter other) ∧
    ((s.insertMany newId docs name).2.names = s.names ↔ s.Has name) ∧
    (¬ s.Has name → (s.insertMany newId docs name).2.names.Perm (name :: s.names)) := by
  rw [insertMany_of_error h]
  refine ⟨fun q other => ?_, fun filter other => ?_, names_create_eq_iff, names_create_perm⟩
  · rw [find, documents_create, find]
  · rw [count, documents_create, count]

theorem refused_insert_unseen_of_stored :
    let newId : Nat → ObjectId := fun i => ⟨BitVec.ofNat 96 i⟩
    let s := Store.after {} (.insertMany newId [[("_id", .int32 1), ("name", .string "a")]] "c")
    let docs : List Document := [[("_id", .int32 2)], [("_id", .int32 1), ("name", .string "c")]]
    let outcome := s.insertMany newId docs "c"
    s.Has "c" ∧ outcome.1 = .error (.duplicateKey "1" "c") ∧ outcome.2.names = s.names ∧
      ∀ q other, outcome.2.find q other = s.find q other := by
  intro newId s docs outcome
  have hhas : s.Has "c" := ⟨_, rfl⟩
  have hrefused : outcome.1 = .error (.duplicateKey "1" "c") := by rfl
  obtain ⟨hfind, -, hnames, -⟩ := refused_insert_unseen_iff hrefused
  exact ⟨hhas, hrefused, hnames.mpr hhas, hfind⟩

/-- Two documents of one identity are refused, and leave a collection that was not there. -/
theorem refused_insert_seen_in_names : ∃ (s : Store) (newId : Nat → ObjectId)
    (docs : List Document) (name : String) (e : WriteError),
    Reachable [] s ∧ (s.insertMany newId docs name).1 = .error e ∧
      (s.insertMany newId docs name).2.names ≠ s.names := by
  have hrefused : (insertMany (fun _ => ⟨0⟩) [[("_id", .int32 1)], [("_id", .int32 1)]] "c" {}).1 =
      .error (.duplicateKey "1" "c") := by rfl
  refine ⟨{}, _, _, _, _, .empty, hrefused, fun hnames => ?_⟩
  rw [insertMany_of_error hrefused, names_create_eq_iff] at hnames
  obtain ⟨es, hes⟩ := hnames
  cases hes

end Docbase.Store
