import Docbase.Path
import Docbase.Proofs.Lookup
import Mathlib.Data.List.Perm.Subperm

namespace Docbase.Document

variable (d : Document) (k key : String) (v : Value)

@[simp]
theorem get?_nil : get? [] key = none := rfl

theorem get?_cons : get? ((k, v) :: d) key = if k = key then some v else get? d key := by
  rw [get?, List.lookup_cons]
  by_cases h : k = key
  · simp [h]
  · have hne : (key == k) = false := by simpa using Ne.symm h
    simp only [hne, h, if_false]
    rfl

@[simp]
theorem get?_cons_self : get? ((k, v) :: d) k = some v := by simp [get?_cons]

theorem get?_insert : (d.insert k v).get? key = if k = key then some v else d.get? key := by
  induction d with
  | nil => exact get?_cons [] k key v
  | cons field d ih =>
    obtain ⟨l, w⟩ := field
    rw [insert]
    split
    next hlk => simp only [get?_cons, hlk]; split <;> rfl
    next hlk =>
      rw [get?_cons, get?_cons, ih]
      split
      next hkey => rw [if_neg fun hk => hlk (hkey.trans hk.symm)]
      next => rfl

variable {k key} {v}

theorem insert_insert (w : Value) : (d.insert k v).insert k w = d.insert k w := by
  induction d with
  | nil => exact if_pos rfl
  | cons field d ih =>
    obtain ⟨l, u⟩ := field
    rw [insert, insert]
    split
    next => exact if_pos rfl
    next hlk => rw [insert, if_neg hlk, ih]

theorem get?_insert_of_ne (h : k ≠ key) : (d.insert k v).get? key = d.get? key := by
  rw [get?_insert, if_neg h]

theorem get?_erase_of_ne (h : k ≠ key) : (d.erase k).get? key = d.get? key := by
  induction d with
  | nil => rfl
  | cons field d ih =>
    obtain ⟨l, w⟩ := field
    rw [erase, get?_cons]
    split
    next hlk => rw [if_neg fun hl => h (hlk.symm.trans hl)]
    next => rw [get?_cons, ih]

theorem get?_of_mem (hn : d.keys.Nodup) (h : (k, v) ∈ d) : d.get? k = some v := lookup_of_mem hn h

theorem get?_foldl_insert {fields : Document} (h : fields.get? key = none) :
    (fields.foldl (fun d (k, v) => d.insert k v) d).get? key = d.get? key := by
  induction fields generalizing d with
  | nil => rfl
  | cons field fields ih =>
    obtain ⟨k, v⟩ := field
    rw [get?_cons] at h
    by_cases hk : k = key
    · simp [hk] at h
    · rw [if_neg hk] at h
      rw [List.foldl_cons, ih _ h, get?_insert_of_ne _ hk]

theorem get?_ofList_cons (h : d.get? key = none) :
    (ofList ((key, v) :: d)).get? key = some v := by
  rw [ofList, List.foldl_cons, get?_foldl_insert _ h]
  simp [insert]

theorem erase_sublist : List.Sublist (d.erase k) d := by
  induction d with
  | nil => exact .slnil
  | cons field d ih =>
    rw [erase]
    split
    next => exact List.sublist_cons_self _ _
    next => exact ih.cons_cons field

theorem nodup_keys_erase (hn : d.keys.Nodup) : (d.erase k).keys.Nodup :=
  hn.sublist ((erase_sublist d).map Prod.fst)

theorem get?_erase_self (hn : d.keys.Nodup) : (d.erase k).get? k = none := by
  induction d with
  | nil => rfl
  | cons field d ih =>
    obtain ⟨l, w⟩ := field
    obtain ⟨hl, hrest⟩ := List.nodup_cons.mp hn
    rw [erase]
    split
    next hlk => exact lookup_eq_none_iff.mpr (hlk ▸ hl)
    next hlk => rw [get?_cons, if_neg hlk, ih hrest]

theorem mem_keys_insert {l : String} : l ∈ (d.insert k v).keys ↔ l = k ∨ l ∈ d.keys := by
  induction d with
  | nil => simp [insert, keys]
  | cons field d ih =>
    obtain ⟨m, w⟩ := field
    rw [insert]
    split
    next hm => simp [keys, hm]
    next => exact List.mem_cons.trans ((or_congr_right ih).trans (by simp [keys, or_left_comm]))

theorem mem_of_mem_insert {field : String × Value} (h : field ∈ d.insert k v) :
    field = (k, v) ∨ field ∈ d := by
  induction d with
  | nil => exact .inl (List.mem_singleton.mp h)
  | cons first d ih =>
    obtain ⟨l, w⟩ := first
    rw [insert] at h
    split at h
    next => exact (List.mem_cons.mp h).imp_right (List.mem_cons_of_mem _)
    next =>
      obtain rfl | h := List.mem_cons.mp h
      · exact .inr (List.mem_cons_self ..)
      · exact (ih h).imp_right (List.mem_cons_of_mem _)

theorem nodup_keys_insert (hn : d.keys.Nodup) : (d.insert k v).keys.Nodup := by
  induction d with
  | nil => exact List.nodup_cons.mpr ⟨List.not_mem_nil, List.nodup_nil⟩
  | cons field d ih =>
    obtain ⟨l, w⟩ := field
    obtain ⟨hl, hrest⟩ := List.nodup_cons.mp hn
    rw [insert]
    split
    next hlk => exact List.nodup_cons.mpr ⟨hlk ▸ hl, hrest⟩
    next hlk =>
      refine List.nodup_cons.mpr ⟨fun hmem => ?_, ih hrest⟩
      obtain heq | hmem := (mem_keys_insert d).mp hmem
      · exact hlk heq
      · exact hl hmem

theorem insert_of_get?_eq_none (h : d.get? k = none) : d.insert k v = d ++ [(k, v)] := by
  induction d with
  | nil => rfl
  | cons field d ih =>
    obtain ⟨l, w⟩ := field
    rw [get?_cons] at h
    split at h
    next => cases h
    next hlk => rw [insert, if_neg hlk, ih h, List.cons_append]

theorem prefix_keys_insert : d.keys <+: (d.insert k v).keys := by
  induction d with
  | nil => exact List.nil_prefix
  | cons field d ih =>
    obtain ⟨l, w⟩ := field
    rw [insert]
    split
    next hl => exact List.cons_prefix_cons.mpr ⟨hl, List.prefix_refl _⟩
    next => exact List.cons_prefix_cons.mpr ⟨rfl, ih⟩

theorem keys_insert_of_get?_eq_some {w : Value} (h : d.get? k = some w) :
    (d.insert k v).keys = d.keys := by
  induction d with
  | nil => cases h
  | cons field d ih =>
    obtain ⟨l, u⟩ := field
    rw [get?_cons] at h
    rw [insert]
    split
    next hl => exact congrArg (· :: keys d) hl.symm
    next hl =>
      rw [if_neg hl] at h
      exact congrArg (l :: ·) (ih h)

theorem foldl_insert {fields : Document} (hn : (d ++ fields).keys.Nodup) :
    fields.foldl (fun d (k, v) => d.insert k v) d = d ++ fields := by
  induction fields generalizing d with
  | nil => rw [List.foldl_nil, List.append_nil]
  | cons field fields ih =>
    obtain ⟨k, v⟩ := field
    rw [List.append_cons] at hn ⊢
    have hk : d.get? k = none := by
      rw [keys, List.append_assoc, List.map_append, List.nodup_append] at hn
      exact lookup_eq_none_iff.mpr fun hmem => hn.2.2 k hmem k (by simp) rfl
    rw [← insert_of_get?_eq_none d hk] at hn ⊢
    exact ih _ hn

theorem ofList_of_nodup (hn : d.keys.Nodup) : ofList d = d :=
  foldl_insert [] hn

theorem nodup_keys_foldl_insert {fields : Document} (hn : d.keys.Nodup) :
    (fields.foldl (fun d (k, v) => d.insert k v) d).keys.Nodup := by
  induction fields generalizing d with
  | nil => exact hn
  | cons field fields ih => exact ih _ (nodup_keys_insert d hn)

theorem mem_keys_foldl_insert {fields : Document} {l : String} :
    l ∈ (fields.foldl (fun d (k, v) => d.insert k v) d).keys ↔ l ∈ d.keys ∨ l ∈ fields.keys := by
  induction fields generalizing d with
  | nil => simp [keys]
  | cons field fields ih =>
    rw [List.foldl_cons, ih, mem_keys_insert, or_assoc, or_left_comm]
    exact or_congr_right List.mem_cons.symm

theorem mem_keys_ofList {l : String} : l ∈ (ofList d).keys ↔ l ∈ d.keys :=
  (mem_keys_foldl_insert []).trans (or_iff_right List.not_mem_nil)

theorem nodup_keys_ofList : (ofList d).keys.Nodup := nodup_keys_foldl_insert [] List.nodup_nil

theorem keys_ofList_subset : (ofList d).keys ⊆ d.keys := fun _ => (mem_keys_ofList d).mp

theorem mem_of_mem_foldl_insert {fields : Document} {field : String × Value}
    (h : field ∈ fields.foldl (fun d (k, v) => d.insert k v) d) : field ∈ d ∨ field ∈ fields := by
  induction fields generalizing d with
  | nil => exact .inl h
  | cons first fields ih =>
    obtain h | h := ih _ h
    · obtain rfl | h := mem_of_mem_insert d h
      · exact .inr (List.mem_cons_self ..)
      · exact .inl h
    · exact .inr (List.mem_cons_of_mem _ h)

variable {d} in
theorem mem_of_mem_ofList {field : String × Value} (h : field ∈ ofList d) : field ∈ d :=
  (mem_of_mem_foldl_insert [] h).resolve_left List.not_mem_nil

theorem length_ofList_le : (ofList d).length ≤ d.length := by
  simpa [keys] using (nodup_keys_ofList d).length_le_of_subset (keys_ofList_subset d)

theorem nodup_of_length_le (h : d.length ≤ (ofList d).length) : d.keys.Nodup := by
  have hperm : (ofList d).keys.Perm d.keys :=
    (List.subperm_of_subset (nodup_keys_ofList d) (keys_ofList_subset d)).perm_of_length_le
      (by simpa [keys] using h)
  exact hperm.nodup_iff.mp (nodup_keys_ofList d)

theorem lookup_single : d.lookup ⟨key, []⟩ = (d.get? key).toList := by
  cases h : d.get? key <;> simp [lookup, h, Value.follow]

end Docbase.Document
