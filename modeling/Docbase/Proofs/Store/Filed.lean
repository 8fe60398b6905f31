import Docbase.Proofs.Update

namespace Docbase

/-- Whether the entry is filed under the text of its document's identity. -/
def Entry.IsFiled (e : Entry) : Prop :=
  ∃ id, e.document.get? "_id" = some id ∧ e.key = id.display

/-- Each entry is filed, and no two under one text. -/
structure Entry.AllFiled (es : List Entry) : Prop where
  filed : ∀ e ∈ es, e.IsFiled
  nodup : (es.map Entry.key).Nodup

namespace Entry.AllFiled

variable {es : List Entry}

theorem nil : AllFiled [] := ⟨nofun, List.nodup_nil⟩

theorem of_sublist {fewer : List Entry} (h : AllFiled es) (hs : fewer.Sublist es) :
    AllFiled fewer :=
  ⟨fun e he => h.filed e (hs.subset he), h.nodup.sublist (hs.map key)⟩

end Entry.AllFiled

namespace Entry

theorem eq_of_key_eq {es : List Entry} (hn : (es.map key).Nodup) {e f : Entry} (he : e ∈ es)
    (hf : f ∈ es) (h : e.key = f.key) : e = f := by
  induction es with
  | nil => cases he
  | cons g es ih =>
    rw [List.map_cons, List.nodup_cons] at hn
    have hother : ∀ {k : Entry}, k ∈ es → g.key ≠ k.key := fun hk hkey =>
      hn.1 (hkey ▸ List.mem_map_of_mem hk)
    obtain rfl | hes := List.mem_cons.mp he <;> obtain rfl | hfs := List.mem_cons.mp hf
    · rfl
    · exact absurd h (hother hfs)
    · exact absurd h.symm (hother hes)
    · exact ih hn.2 hes hfs

theorem AllFiled.pair {es : List Entry} (h : AllFiled es) {e f : Entry} (he : e ∈ es) (hf : f ∈ es)
    (hne : e ≠ f) : AllFiled [e, f] := by
  have hkey : e.key ≠ f.key := fun hkey => hne (eq_of_key_eq h.nodup he hf hkey)
  refine ⟨fun g hg => ?_, by simpa using hkey⟩
  simp only [List.mem_cons, List.not_mem_nil, or_false] at hg
  obtain rfl | rfl := hg
  · exact h.filed g he
  · exact h.filed g hf

theorem map_key_replaceFirst (test : Entry → Bool) (d : Document) (es : List Entry) :
    (replaceFirst test d es).map key = es.map key := by
  induction es with
  | nil => rfl
  | cons e es ih =>
    rw [replaceFirst]
    split
    · rfl
    · rw [List.map_cons, List.map_cons, ih]

theorem replaceFirst_append {test : Entry → Bool} {before : List Entry} {e : Entry}
    (hbefore : ∀ b ∈ before, test b = false) (he : test e) (d : Document) (after : List Entry) :
    replaceFirst test d (before ++ e :: after) = before ++ { e with document := d } :: after := by
  induction before with
  | nil => rw [List.nil_append, replaceFirst, if_pos he, List.nil_append]
  | cons b before ih =>
    have hb : test b = false := hbefore b (by simp)
    rw [List.cons_append, replaceFirst, if_neg (by simp [hb]), List.cons_append,
      ih fun c hc => hbefore c (by simp [hc])]

theorem AllFiled.replaceFirst {es : List Entry} {test : Entry → Bool} {e : Entry} {id : Value}
    {d : Document} (h : AllFiled es) (he : es.find? test = some e)
    (hid : e.document.get? "_id" = some id) (hd : d.get? "_id" = some id) :
    AllFiled (replaceFirst test d es) := by
  obtain ⟨htest, before, after, rfl, hbefore⟩ := List.find?_eq_some_iff_append.mp he
  refine ⟨?_, by rw [map_key_replaceFirst]; exact h.nodup⟩
  rw [replaceFirst_append (by simpa using hbefore) htest]
  intro e' he'
  obtain hb | ha := List.mem_append.mp he'
  · exact h.filed e' (by simp [hb])
  · obtain rfl | ha := List.mem_cons.mp ha
    · obtain ⟨id', hid', hkey⟩ := h.filed e (by simp)
      obtain rfl := Option.some.inj (hid.symm.trans hid')
      exact ⟨id, hd, hkey⟩
    · exact h.filed e' (by simp [ha])

theorem isFiled_update {now : Int64} {update : Update} {e e' : Entry}
    (h : e.update now update = .ok e') : e'.key = e.key ∧ (e.IsFiled → e'.IsFiled) := by
  unfold Entry.update at h
  split at h
  next d hd =>
    cases h
    refine ⟨rfl, fun ⟨id, hid, hkey⟩ => ⟨id, ?_, hkey⟩⟩
    rw [← hid]
    exact Update.get?_run_identity hd
  next => cases h

theorem AllFiled.mapM {es updated : List Entry} {f : Entry → Except WriteError Entry}
    (hf : ∀ e e', f e = .ok e' → e'.key = e.key ∧ (e.IsFiled → e'.IsFiled)) (h : AllFiled es)
    (hm : es.mapM f = .ok updated) : AllFiled updated := by
  have hall : updated.map key = es.map key ∧ ∀ e' ∈ updated, e'.IsFiled := by
    have hfiled := h.filed
    clear h
    induction es generalizing updated with
    | nil =>
      cases hm
      exact ⟨rfl, nofun⟩
    | cons e es ih =>
      obtain ⟨e', rest, he, hrest, rfl⟩ := exists_of_mapM_cons_eq_ok hm
      obtain ⟨hkey, hkept⟩ := hf e e' he
      obtain ⟨hkeys, hkepts⟩ := ih hrest fun e he => hfiled e (by simp [he])
      refine ⟨by rw [List.map_cons, List.map_cons, hkey, hkeys], ?_⟩
      intro e'' he''
      obtain rfl | hr := List.mem_cons.mp he''
      · exact hkept (hfiled e (by simp))
      · exact hkepts e'' hr
  exact ⟨hall.2, hall.1 ▸ h.nodup⟩

theorem firstDuplicate?_eq_none_iff {taken : List String} {es : List Entry} :
    firstDuplicate? taken es = none ↔
      (es.map key).Nodup ∧ ∀ e ∈ es, e.key ∉ taken := by
  induction es generalizing taken with
  | nil => simp [firstDuplicate?]
  | cons e es ih =>
    rw [firstDuplicate?]
    split
    next hmem => simp [hmem]
    next hmem =>
      rw [ih]
      simp only [List.map_cons, List.nodup_cons, List.mem_cons, not_or, List.mem_map, not_exists,
        not_and, forall_eq_or_imp, hmem, not_false_eq_true, true_and]
      constructor
      · rintro ⟨hn, hkeys⟩
        exact ⟨⟨fun e' he' => (hkeys e' he').1, hn⟩, fun e' he' => (hkeys e' he').2⟩
      · rintro ⟨⟨hne, hn⟩, hkeys⟩
        exact ⟨hn, fun e' he' => ⟨hne e' he', hkeys e' he'⟩⟩

theorem isFiled_ofIdentified (newId : ObjectId) (d : Document) :
    (ofIdentified (identify newId d)).IsFiled := by
  unfold identify
  split
  next id hid => exact ⟨id, hid, rfl⟩
  next => exact ⟨.objectId newId, Document.get?_cons_self _ _ _, rfl⟩

theorem AllFiled.append {es batch : List Entry} (h : AllFiled es)
    (hfiled : ∀ e ∈ batch, e.IsFiled) (hnone : firstDuplicate? (es.map key) batch = none) :
    AllFiled (es ++ batch) := by
  obtain ⟨hn, hkeys⟩ := firstDuplicate?_eq_none_iff.mp hnone
  refine ⟨fun e he => ?_, ?_⟩
  · obtain he | he := List.mem_append.mp he
    · exact h.filed e he
    · exact hfiled e he
  · rw [List.map_append, List.nodup_append]
    refine ⟨h.nodup, hn, fun k hk l hl hkl => ?_⟩
    obtain ⟨e, he, rfl⟩ := List.mem_map.mp hl
    exact hkeys e he (hkl ▸ hk)

end Entry

end Docbase
