namespace Docbase

variable {β : Type} {xs : List (String × β)} {k : String} {v : β}

theorem lookup_cons (l : String) :
    ((l, v) :: xs).lookup k = if k = l then some v else xs.lookup k := by
  by_cases h : k = l
  · simp [h]
  · have hk : (k == l) = false := by simpa using h
    simp [List.lookup_cons, h, hk]

theorem mem_of_lookup (h : xs.lookup k = some v) : (k, v) ∈ xs := by
  induction xs with
  | nil => cases h
  | cons field rest ih =>
    rw [List.lookup_cons] at h
    split at h
    next heq =>
      cases h
      rw [beq_iff_eq.mp heq]
      exact List.mem_cons_self
    next => exact List.mem_cons_of_mem _ (ih h)

theorem exists_lookup_of_mem (h : (k, v) ∈ xs) : ∃ w, xs.lookup k = some w := by
  induction xs with
  | nil => cases h
  | cons field rest ih =>
    rw [List.lookup_cons]
    split
    next => exact ⟨field.2, rfl⟩
    next hne =>
      obtain rfl | hrest := List.mem_cons.mp h
      · simp at hne
      · exact ih hrest

theorem lookup_of_mem (hn : (xs.map Prod.fst).Nodup) (h : (k, v) ∈ xs) :
    xs.lookup k = some v := by
  induction xs with
  | nil => cases h
  | cons field rest ih =>
    rw [List.map_cons, List.nodup_cons] at hn
    rw [List.lookup_cons]
    obtain rfl | hrest := List.mem_cons.mp h
    · rw [beq_self_eq_true]
    · have hne : k ≠ field.1 := by
        rintro rfl
        exact hn.1 (List.mem_map.mpr ⟨_, hrest, rfl⟩)
      rw [beq_eq_false_iff_ne.mpr hne]
      exact ih hn.2 hrest

theorem find?_of_lookup (h : xs.lookup k = some v) : xs.find? (fun x => x.1 = k) = some (k, v) := by
  induction xs with
  | nil => cases h
  | cons field rest ih =>
    rw [List.find?_cons]
    rw [lookup_cons] at h
    split at h
    next heq =>
      obtain rfl := Option.some.inj h
      simp [heq]
    next hne => simpa [Ne.symm hne] using ih h

theorem lookup_eq_none_iff : xs.lookup k = none ↔ k ∉ xs.map Prod.fst := by
  constructor
  · intro h hmem
    obtain ⟨⟨l, u⟩, hl, rfl⟩ := List.mem_map.mp hmem
    obtain ⟨w, hw⟩ := exists_lookup_of_mem hl
    rw [h] at hw
    cases hw
  · intro h
    cases hv : xs.lookup k with
    | none => rfl
    | some v => exact absurd (List.mem_map_of_mem (mem_of_lookup hv)) h

end Docbase
