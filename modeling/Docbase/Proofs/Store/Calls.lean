import Docbase.Proofs.Store.Acts
import Docbase.Proofs.Store.Documents
import Docbase.Proofs.Store.Reachable

namespace Docbase

namespace Entry

theorem identifies_identify (newId : ObjectId) (d : Document) :
    d.Identifies newId (identify newId d).1 (identify newId d).2 := by
  unfold identify
  split
  next id hid => exact .own hid
  next hid => exact .new hid

theorem idTexts_of_isFiled {es : List Entry} (h : ∀ e ∈ es, e.IsFiled) :
    (es.map document).filterMap Document.idText? = es.map key := by
  induction es with
  | nil => rfl
  | cons e es ih =>
    obtain ⟨id, hid, hkey⟩ := h e (by simp)
    have htext : e.document.idText? = some e.key := by rw [Document.idText?, hid, hkey]; rfl
    have hrest := ih fun e' he' => h e' (by simp [he'])
    rw [List.map_cons, List.filterMap_cons, htext, hrest, List.map_cons]

theorem exists_of_firstDuplicate? {taken : List String} {es : List Entry} {e : Entry}
    (h : firstDuplicate? taken es = some e) :
    ∃ front rest, es = front ++ e :: rest ∧ firstDuplicate? taken front = none ∧
      e.key ∈ taken ++ front.map key := by
  induction es generalizing taken with
  | nil => cases h
  | cons e' es ih =>
    rw [firstDuplicate?] at h
    by_cases hmem : e'.key ∈ taken
    · rw [if_pos hmem] at h
      cases h
      exact ⟨[], es, rfl, rfl, by simpa using hmem⟩
    · rw [if_neg hmem] at h
      obtain ⟨front, rest, rfl, hfront, hkey⟩ := ih h
      refine ⟨e' :: front, rest, rfl, ?_, ?_⟩
      · rw [firstDuplicate?, if_neg hmem, hfront]
      · simpa [or_left_comm] using hkey

end Entry

namespace Store

variable {s : Store}

theorem stores_identify (newId : Nat → ObjectId) (docs : List Document) :
    Stores newId docs (docs.zipIdx.map fun (d, i) => Entry.identify (newId i) d) := by
  rw [Stores, List.forall₂_map_right_iff, List.forall₂_same]
  exact fun p _ => Entry.identifies_identify (newId p.2) p.1

theorem acts_insertMany (h : s.IsFiled) (newId : Nat → ObjectId) (docs : List Document)
    (name : String) : Acts (.insertMany newId docs name) (s.documents name)
      ((s.insertMany newId docs name).1.map .inserted)
      ((s.insertMany newId docs name).2.documents name) := by
  have hstores := stores_identify newId docs
  have hfiled := h.allFiled name
  have htexts : ∀ batch : List (Value × Document), idTexts (s.documents name) batch =
      (s.entries name).map Entry.key ++ (batch.map Entry.ofIdentified).map Entry.key := by
    intro batch
    rw [idTexts, documents, Entry.idTexts_of_isFiled hfiled.filed, List.map_map]
    rfl
  have hnodup : ∀ batch : List (Value × Document),
      Entry.firstDuplicate? ((s.entries name).map Entry.key) (batch.map Entry.ofIdentified) = none →
      (idTexts (s.documents name) batch).Nodup := by
    intro batch hnone
    obtain ⟨hn, hkeys⟩ := Entry.firstDuplicate?_eq_none_iff.mp hnone
    rw [htexts, List.nodup_append]
    refine ⟨hfiled.nodup, hn, ?_⟩
    rintro k hk l hl rfl
    obtain ⟨e, he, rfl⟩ := List.mem_map.mp hl
    exact hkeys e he hk
  unfold insertMany
  simp only [entries_create]
  generalize docs.zipIdx.map _ = ids at hstores ⊢
  cases hdup : Entry.firstDuplicate? ((s.entries name).map Entry.key)
      (ids.map Entry.ofIdentified) with
  | none =>
    have hafter : ((s.create name).modify name
        (· ++ ids.map Entry.ofIdentified)).documents name =
          s.documents name ++ ids.map Prod.snd := by
      rw [documents, entries_modify (.inr has_create), entries_create, List.map_append,
        List.map_map]
      rfl
    rw [hafter]
    exact .inserted hstores (hnodup ids hdup)
  | some e =>
    obtain ⟨front', rest', hsplit, hfront, hkey⟩ := Entry.exists_of_firstDuplicate? hdup
    obtain ⟨front, tail, rfl, rfl, htail⟩ := List.map_eq_append_iff.mp hsplit
    obtain ⟨⟨id, d⟩, rest, rfl, rfl, rfl⟩ := List.map_eq_cons_iff.mp htail
    rw [documents_create]
    exact .duplicate hstores (hnodup front hfront) (by rw [htexts]; exact hkey)

theorem apply_of_update_eq_ok {now : Int64} {update : Update} {e e' : Entry}
    (h : e.update now update = .ok e') :
    Update.apply now update e.document = (.ok (), e'.document) := by
  unfold Entry.update Update.run at h
  cases happly : Update.apply now update e.document with
  | mk outcome d =>
    rw [happly] at h
    cases outcome <;> cases h
    rfl

theorem apply_of_update_eq_error {now : Int64} {update : Update} {e : Entry} {error : WriteError}
    (h : e.update now update = .error error) : ∃ fault left, error = .update fault ∧
      Update.apply now update e.document = (.error fault, left) := by
  unfold Entry.update Update.run at h
  cases happly : Update.apply now update e.document with
  | mk outcome d =>
    rw [happly] at h
    cases outcome <;> cases h
    exact ⟨_, d, rfl, rfl⟩

theorem acts_updateMany (now : Int64) (filter : Option Filter) (update : Update) (name : String) :
    Acts (.updateMany now filter update name) (s.documents name)
      ((s.updateMany now filter update name).1.map fun _ => .done)
      ((s.updateMany now filter update name).2.documents name) := by
  unfold updateMany
  dsimp only
  cases hes : (s.entries name).mapM fun e =>
      if Query.selects filter e.document then e.update now update else .ok e with
  | ok es =>
    have hafter : (s.modify name fun _ => es).documents name = es.map Entry.document := by
      cases hbefore : s.entries name with
      | nil =>
        rw [hbefore] at hes
        cases hes
        rw [documents, entries_modify (.inl rfl)]
      | cons e rest =>
        have hhas : s.Has name := by
          unfold entries at hbefore
          cases hl : s.collections.lookup name with
          | none =>
            rw [hl] at hbefore
            cases hbefore
          | some found => exact ⟨found, hl⟩
        rw [documents, entries_modify (.inr hhas)]
    rw [hafter]
    apply Acts.updated
    rw [documents, List.forall₂_map_left_iff, List.forall₂_map_right_iff]
    refine (forall₂_of_mapM_eq_ok hes).imp fun e e' he => ?_
    by_cases hsel : Query.selects filter e.document
    · rw [if_pos hsel] at he ⊢
      exact apply_of_update_eq_ok he
    · rw [if_neg hsel] at he ⊢
      cases he
      rfl
  | error error =>
    obtain ⟨front, e, rest, hsplit, hfront, he⟩ := exists_of_mapM_eq_error hes
    by_cases hsel : Query.selects filter e.document
    · rw [if_pos hsel] at he
      obtain ⟨fault, left, rfl, hleft⟩ := apply_of_update_eq_error he
      have hdocuments : s.documents name =
          front.map Entry.document ++ e.document :: rest.map Entry.document := by
        rw [documents, hsplit, List.map_append, List.map_cons]
      refine .notUpdated hdocuments ?_ hsel hleft
      intro c hc hcsel
      obtain ⟨b, hb, rfl⟩ := List.mem_map.mp hc
      obtain ⟨b', hb'⟩ := hfront b hb
      rw [if_pos hcsel] at hb'
      exact ⟨b'.document, apply_of_update_eq_ok hb'⟩
    · rw [if_neg hsel] at he
      cases he

theorem first_cases (s : Store) (name : String) (filter : Filter) :
    ((s.entries name).find? (fun e => filter.accepts e.document) = none ∧
      ∀ d ∈ s.documents name, filter.accepts d = false) ∨
    ∃ front e rest, (s.entries name).find? (fun e => filter.accepts e.document) = some e ∧
      s.entries name = front ++ e :: rest ∧
      (∀ c ∈ front, filter.accepts c.document = false) ∧ filter.accepts e.document := by
  cases hfirst : (s.entries name).find? fun e => filter.accepts e.document with
  | none =>
    refine .inl ⟨rfl, ?_⟩
    intro d hd
    obtain ⟨e, he, rfl⟩ := List.mem_map.mp hd
    simpa using List.find?_eq_none.mp hfirst e he
  | some e =>
    obtain ⟨he, front, rest, hsplit, hfront⟩ := List.find?_eq_some_iff_append.mp hfirst
    exact .inr ⟨front, e, rest, rfl, hsplit, by simpa using hfront, he⟩

theorem documents_of_entries {name : String} {front rest : List Entry} {e : Entry}
    (h : s.entries name = front ++ e :: rest) : s.documents name =
      front.map Entry.document ++ e.document :: rest.map Entry.document := by
  rw [documents, h, List.map_append, List.map_cons]

theorem acts_replaceOne (h : s.IsFiled) (filter : Filter) (replacement : Document)
    (name : String) : Acts (.replaceOne filter replacement name) (s.documents name)
      ((s.replaceOne filter replacement name).1.map .replaced)
      ((s.replaceOne filter replacement name).2.documents name) := by
  unfold replaceOne
  dsimp only
  obtain ⟨hnone, hall⟩ | ⟨front, e, rest, hfirst, hsplit, hfront, he⟩ := first_cases s name filter
  · rw [hnone]
    exact .noneReplaced hall
  · have hmem : e ∈ s.entries name := by rw [hsplit]; simp
    obtain ⟨id, hid, hkey⟩ := (h.allFiled name).filed e hmem
    have hfront' : ∀ c ∈ front.map Entry.document, filter.accepts c = false := by
      intro c hc
      obtain ⟨b, hb, rfl⟩ := List.mem_map.mp hc
      exact hfront b hb
    rw [hfirst]
    dsimp only
    rw [hid]
    dsimp only
    by_cases hsame : (Document.get? replacement "_id").all (· == id)
    · rw [if_pos hsame]
      have hafter : ∀ d, (s.modify name
          (Entry.replaceFirst (fun e => filter.accepts e.document) d)).documents name =
            front.map Entry.document ++ d :: rest.map Entry.document := by
        intro d
        rw [documents, entries_modify (.inl rfl), hsplit, Entry.replaceFirst_append hfront he,
          List.map_append, List.map_cons]
      rw [hafter]
      refine .replaced (documents_of_entries hsplit) hfront' he hid ?_
      intro other hother
      simpa [hother] using hsame
    · rw [if_neg hsame, hkey]
      cases hother : Document.get? replacement "_id" with
      | none => simp [hother] at hsame
      | some other =>
        exact .notReplaced (documents_of_entries hsplit) hfront' he hid hother
          (by simpa [hother] using hsame)

theorem acts_deleteOne (filter : Filter) (name : String) :
    Acts (.deleteOne filter name) (s.documents name) (.ok .done)
      ((s.deleteOne filter name).documents name) := by
  have hafter : (s.deleteOne filter name).documents name =
      ((s.entries name).eraseP fun e => filter.accepts e.document).map Entry.document := by
    rw [documents, deleteOne, entries_modify (.inl rfl)]
  rw [hafter]
  obtain ⟨hnone, hall⟩ | ⟨front, e, rest, -, hsplit, hfront, he⟩ := first_cases s name filter
  · rw [List.eraseP_of_forall_not (List.find?_eq_none.mp hnone)]
    exact .noneDeleted hall
  · obtain ⟨test, htest⟩ : ∃ test, test = fun e : Entry => filter.accepts e.document := ⟨_, rfl⟩
    have herase : (s.entries name).eraseP test = front ++ rest := by
      rw [hsplit, List.eraseP_append_right _ (by simpa [htest] using hfront),
        List.eraseP_cons_of_pos (by rw [htest]; exact he)]
    rw [← htest]
    rw [herase, List.map_append]
    refine .deleted (documents_of_entries hsplit) ?_ he
    intro c hc
    obtain ⟨b, hb, rfl⟩ := List.mem_map.mp hc
    exact hfront b hb

theorem acts_deleteMany (filter : Option Filter) (name : String) :
    Acts (.deleteMany filter name) (s.documents name) (.ok .done)
      ((s.deleteMany filter name).documents name) := by
  have hafter : (s.deleteMany filter name).documents name =
      (s.documents name).filter fun d => !Query.selects filter d := by
    rw [documents, deleteMany, entries_modify (.inl rfl), documents, List.filter_map]
    rfl
  rw [hafter]
  exact .allDeleted

/-- What each call does to the documents of its collection. -/
theorem IsFiled.acts (h : s.IsFiled) (call : Call) :
    Acts call (s.documents call.name) (s.answer call) ((s.after call).documents call.name) := by
  cases call with
  | insertMany newId docs name => exact acts_insertMany h newId docs name
  | updateMany now filter update name => exact acts_updateMany now filter update name
  | replaceOne filter replacement name => exact acts_replaceOne h filter replacement name
  | deleteOne filter name => exact acts_deleteOne filter name
  | deleteMany filter name => exact acts_deleteMany filter name
  | create name =>
    change Acts _ _ _ ((s.create name).documents name)
    rw [documents_create]
    exact .created
  | drop name =>
    have hafter : (s.drop name).documents name = [] := by
      rw [documents, entries_drop_self, List.map_nil]
    change Acts _ _ _ ((s.drop name).documents name)
    rw [hafter]
    exact .dropped

theorem updateMany_of_error {now : Int64} {filter : Option Filter} {update : Update} {name : String}
    {e : WriteError} (h : (s.updateMany now filter update name).1 = .error e) :
    s.updateMany now filter update name = (.error e, s) := by
  refine Prod.ext h ?_
  revert h
  unfold updateMany
  dsimp only
  split
  · exact nofun
  · exact fun _ => rfl

theorem replaceOne_of_error {filter : Filter} {replacement : Document} {name : String}
    {e : WriteError} (h : (s.replaceOne filter replacement name).1 = .error e) :
    s.replaceOne filter replacement name = (.error e, s) := by
  refine Prod.ext h ?_
  revert h
  unfold replaceOne
  dsimp only
  split
  · exact nofun
  · split
    · exact nofun
    · split
      · exact nofun
      · exact fun _ => rfl

/-- The first document that the filter accepts is replaced, unless the replacement has another
identity. -/
theorem IsFiled.replaceOne_first_cases (h : s.IsFiled) {filter : Filter} {name : String}
    {front rest : List Document} {d : Document} {id : Value}
    (hsplit : s.documents name = front ++ d :: rest)
    (hfront : ∀ c ∈ front, filter.accepts c = false) (hd : filter.accepts d)
    (hid : d.get? "_id" = some id) (replacement : Document) :
    (∀ other, replacement.get? "_id" = some other → other == id) ∧
      (s.replaceOne filter replacement name).1 = .ok true ∧
      (s.replaceOne filter replacement name).2.documents name =
        front ++ (("_id", id) :: replacement.erase "_id") :: rest ∨
    (¬ ∀ other, replacement.get? "_id" = some other → other == id) ∧
      s.replaceOne filter replacement name = (.error (.identityChanged id.display), s) := by
  have hacts := h.acts (.replaceOne filter replacement name)
  by_cases hsame : ∀ other, replacement.get? "_id" = some other → other == id
  · obtain ⟨hanswer, hafter⟩ := hacts.unique (.replaced hsplit hfront hd hid hsame)
    obtain ⟨found, hok, hreplaced⟩ := exists_of_map_eq_ok hanswer
    cases hreplaced
    exact .inl ⟨hsame, hok, hafter⟩
  · refine .inr ⟨hsame, ?_⟩
    simp only [not_forall] at hsame
    obtain ⟨other, hother, hne⟩ := hsame
    obtain ⟨hanswer, -⟩ :=
      hacts.unique (.notReplaced hsplit hfront hd hid hother (Bool.eq_false_iff.mpr hne))
    exact replaceOne_of_error (eq_error_of_map_eq_error hanswer)

theorem lookup_after_of_ne (s : Store) {call : Call} {name : String} (h : name ≠ call.name) :
    (s.after call).collections.lookup name = s.collections.lookup name := by
  have hmodify : ∀ f, (s.modify call.name f).collections.lookup name = s.collections.lookup name :=
    fun f => lookup_modify_of_ne h
  cases call with
  | insertMany newId docs name' =>
    have hcreate : (s.create name').collections.lookup name = s.collections.lookup name :=
      lookup_create_of_ne h
    simp only [after, insertMany]
    split
    · exact hcreate
    · exact (lookup_modify_of_ne h).trans hcreate
  | updateMany now filter update name' =>
    simp only [after, updateMany]
    split
    · exact hmodify _
    · rfl
  | replaceOne filter replacement name' =>
    simp only [after, replaceOne]
    split
    · rfl
    · split
      · rfl
      · split
        · exact hmodify _
        · rfl
  | deleteOne filter name' => exact hmodify _
  | deleteMany filter name' => exact hmodify _
  | create name' => exact lookup_create_of_ne h
  | drop name' => exact lookup_drop_of_ne h

theorem documents_after_of_ne (s : Store) {call : Call} {name : String} (h : name ≠ call.name) :
    (s.after call).documents name = s.documents name := by
  rw [documents, documents, entries, entries, lookup_after_of_ne s h]

end Store

end Docbase
