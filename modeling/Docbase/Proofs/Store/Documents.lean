import Docbase.Proofs.Lookup
import Docbase.Store

namespace Docbase.Store

variable {s : Store} {name other : String} {f : List Entry → List Entry}

/-- Whether there is a collection of the name, if only an empty one. -/
def Has (s : Store) (name : String) : Prop := ∃ es, s.collections.lookup name = some es

theorem lookup_modify : (s.modify name f).collections.lookup other =
    (s.collections.lookup other).map fun es => if other = name then f es else es := by
  unfold modify
  dsimp only
  induction s.collections with
  | nil => rfl
  | cons c cs ih =>
    obtain ⟨n, es⟩ := c
    by_cases h : other = n
    · simp [h]
    · simp only [List.map_cons, lookup_cons, h, if_false, ih]

theorem entries_modify (h : f [] = [] ∨ s.Has name) :
    (s.modify name f).entries name = f (s.entries name) := by
  unfold entries
  rw [lookup_modify]
  cases hl : s.collections.lookup name with
  | some es => simp
  | none =>
    have hf : f [] = [] := by
      obtain hf | ⟨es, hes⟩ := h
      · exact hf
      · rw [hl] at hes
        cases hes
    simp [hf]

theorem lookup_modify_of_ne (h : other ≠ name) :
    (s.modify name f).collections.lookup other = s.collections.lookup other := by
  rw [lookup_modify]
  simp [h]

theorem modify_modify (s : Store) (name : String) (f g : List Entry → List Entry) :
    (s.modify name f).modify name g = s.modify name (g ∘ f) := by
  simp only [modify, List.map_map]
  congr 1
  refine List.map_congr_left fun (n, es) _ => ?_
  by_cases h : n = name <;> simp [h]

theorem lookup_create_of_ne (h : other ≠ name) :
    (s.create name).collections.lookup other = s.collections.lookup other := by
  unfold create
  split
  · rfl
  · rw [List.lookup_append]
    cases s.collections.lookup other <;> simp [lookup_cons, h]

theorem has_create : (s.create name).Has name := by
  unfold create Has
  split
  next h => exact Option.isSome_iff_exists.mp h
  next h =>
    have hnone : s.collections.lookup name = none := Option.not_isSome_iff_eq_none.mp h
    exact ⟨[], by simp [List.lookup_append, hnone]⟩

@[simp]
theorem entries_create : (s.create name).entries other = s.entries other := by
  unfold create
  split
  · rfl
  · unfold entries
    rw [List.lookup_append]
    by_cases h : other = name <;> cases s.collections.lookup other <;> simp [lookup_cons, h]

@[simp]
theorem documents_create : (s.create name).documents other = s.documents other := by
  rw [documents, entries_create, documents]

theorem lookup_drop_self : (s.drop name).collections.lookup name = none := by
  rw [lookup_eq_none_iff]
  intro h
  obtain ⟨c, hc, rfl⟩ := List.mem_map.mp h
  simpa using (List.mem_filter.mp hc).2

theorem lookup_drop_of_ne (h : other ≠ name) :
    (s.drop name).collections.lookup other = s.collections.lookup other := by
  unfold drop
  dsimp only
  induction s.collections with
  | nil => rfl
  | cons c cs ih =>
    obtain ⟨n, es⟩ := c
    by_cases hn : n = name
    · have hother : other ≠ n := fun ho => h (ho.trans hn)
      rw [List.filter_cons_of_neg (by simpa using hn), ih, lookup_cons, if_neg hother]
    · rw [List.filter_cons_of_pos (by simpa using hn), lookup_cons, lookup_cons, ih]

theorem entries_drop_self : (s.drop name).entries name = [] := by
  rw [entries, lookup_drop_self, Option.getD_none]

end Docbase.Store
