import Docbase.Proofs.Repository.Find
import Docbase.Proofs.Repository.Keyed

namespace Docbase

open FieldType (Restores)

namespace Repository

variable {repo : Repository} {fieldsOf : Document → Except Failure Document} {now : Int64}
  {newId : Nat → ObjectId} {docs inserted : List Document} {s s' : Store}

/-- `Files repo fieldsOf d id stored`: the document, written out, is stored in this form under this
identity. -/
def Files (repo : Repository) (fieldsOf : Document → Except Failure Document) (d : Document)
    (id : Value) (stored : Document) : Prop :=
  ∃ fields newId, fieldsOf d = .ok fields ∧
    (repo.type.encodeFields fields d).Identifies newId id stored

/-- `Inserts repo fieldsOf held d d'`: the document is among those that are held, and was given back as
`d'`. -/
def Inserts (repo : Repository) (fieldsOf : Document → Except Failure Document)
    (held : List Document) (d d' : Document) : Prop :=
  ∃ id stored key, stored ∈ held ∧ repo.Files fieldsOf d id stored ∧
    repo.type.key.ofValue id = .ok key ∧ d' = repo.type.setKey key d

theorem Inserts.mono {held more : List Document} {d d' : Document}
    (h : repo.Inserts fieldsOf held d d') (hmore : held ⊆ more) :
    repo.Inserts fieldsOf more d d' := by
  obtain ⟨id, stored, key, hstored, hrest⟩ := h
  exact ⟨id, stored, key, hmore hstored, hrest⟩

theorem forall₂_files {typed batch : List Document} {filed : List (Value × Document)}
    (hbatch : repo.encodeAll fieldsOf typed = .ok batch) (hfiled : Store.Stores newId batch filed) :
    List.Forall₂ (fun d q => repo.Files fieldsOf d q.1 q.2) typed filed := by
  have hencoded := forall₂_of_mapM_eq_ok hbatch
  clear hbatch
  unfold Store.Stores at hfiled
  generalize 0 = n at hfiled
  induction hencoded generalizing filed n with
  | nil =>
    cases hfiled
    exact .nil
  | cons hd _ ih =>
    rw [List.zipIdx_cons] at hfiled
    cases hfiled with
    | cons hfirst hrest =>
      obtain ⟨fields, hfields, rfl⟩ := exists_of_map_eq_ok hd
      exact .cons ⟨fields, _, hfields, hfirst⟩ (ih _ hrest)

theorem exists_of_withId {d d' : Document} {id : Value} (h : repo.withId d id = .ok d') :
    ∃ key, repo.type.key.ofValue id = .ok key ∧ d' = repo.type.setKey key d := by
  unfold withId at h
  split at h
  next key hkey => exact ⟨key, hkey, (Except.ok.inj h).symm⟩
  next => cases h

theorem forall₂_inserts {typed : List Document} {filed : List (Value × Document)}
    (hfiles : List.Forall₂ (fun d q => repo.Files fieldsOf d q.1 q.2) typed filed)
    (h : ((typed.zip (filed.map Prod.fst)).mapM fun (d, id) => repo.withId d id) = .ok inserted) :
    List.Forall₂ (repo.Inserts fieldsOf (filed.map Prod.snd)) typed inserted := by
  induction hfiles generalizing inserted with
  | nil =>
    cases h
    exact .nil
  | cons hfirst _ ih =>
    obtain ⟨d', rest, hd', hrest, rfl⟩ := exists_of_mapM_cons_eq_ok h
    obtain ⟨key, hkey, rfl⟩ := exists_of_withId hd'
    refine .cons ⟨_, _, key, List.mem_cons_self, hfirst, hkey, rfl⟩ ((ih hrest).imp ?_)
    exact fun _ _ hinserts => hinserts.mono (List.subset_cons_self _ _)

theorem forall₂_of_insertWritten (hs : s.IsFiled)
    (h : repo.insertWritten fieldsOf now newId docs s = (.ok inserted, s')) :
    List.Forall₂ (repo.Inserts fieldsOf (s'.documents repo.name))
      (docs.map (repo.type.setModifiedOn now)) inserted := by
  cases hbatch : repo.encodeAll fieldsOf (docs.map (repo.type.setModifiedOn now)) with
  | error e =>
    rw [insertWritten_of_encodeAll_error hbatch] at h
    cases h
  | ok batch =>
    by_cases hne : batch = []
    · subst hne
      have htyped := List.forall₂_nil_right_iff.mp (forall₂_of_mapM_eq_ok hbatch)
      obtain rfl : docs = [] := List.map_eq_nil_iff.mp htyped
      cases h
      exact .nil
    · obtain ⟨⟨key, hrefused⟩, -⟩ | ⟨-, hids, filed, hfiled, hafter⟩ :=
        hs.insertMany_cases newId batch repo.name
      · rw [insertWritten_of_refused hbatch hne hrefused] at h
        cases h
      · rw [insertWritten_of_taken hbatch hne hids, ← hfiled.map_fst] at h
        obtain ⟨hinserted, rfl⟩ := Prod.mk.inj h
        rw [hafter]
        refine (forall₂_inserts (forall₂_files hbatch hfiled) hinserted).imp ?_
        exact fun _ _ hinserts => hinserts.mono (List.subset_append_right _ _)

theorem getById_of_mem (h : s.IsTyped) {stored d : Document} {key : Key}
    (hstored : stored ∈ s.documents repo.name) (hid : stored.HasIdentity key.identity)
    (hd : repo.type.decode stored = .ok d) : repo.getById s key = .ok (some d) := by
  have hfind : (s.documents repo.name).find? (fun d => (idFilter key).accepts d) = some stored := by
    cases hfirst : (s.documents repo.name).find? fun d => (idFilter key).accepts d with
    | none =>
      exact absurd ((h.accepts_iff hstored key).mpr hid) (List.find?_eq_none.mp hfirst _ hstored)
    | some first =>
      have hmem := List.mem_of_find?_eq_some hfirst
      have haccepts := List.find?_some (p := fun d => (idFilter key).accepts d) hfirst
      rw [h.filed.eq_of_hasIdentity hmem hstored ((h.accepts_iff hmem key).mp haccepts) hid]
  exact getById_of_decode hfind hd

/-- The store files a document under its own identity or, if it has none, under a new one. The rest of
it is written out as it is. -/
theorem Files.cases {d : Document} {id : Value} {stored : Document} (hT : repo.type.IsDeclared)
    (h : repo.Files fieldsOf d id stored)
    (hfields : ∀ fields, fieldsOf d = .ok fields →
      Restores repo.type.records repo.type.fields fields d) :
    ∃ fields, fieldsOf d = .ok fields ∧ stored = ("_id", id) :: fields.erase repo.type.identity ∧
      ((∃ newId, repo.type.keyOf? d = none ∧ id = .objectId newId) ∨
        ∃ own, repo.type.keyOf? d = some own ∧ id = own.stored) := by
  obtain ⟨fields, newId, hwritten, hidentifies⟩ := h
  refine ⟨fields, hwritten, ?_⟩
  have hbody := hT.get?_body (hfields fields hwritten)
  obtain ⟨hnone, hencoded⟩ | ⟨own, hown, hencoded⟩ := hT.encodeFields_cases (hfields fields hwritten)
  · rw [hencoded] at hidentifies
    cases hidentifies with
    | own hid => cases hbody.symm.trans hid
    | new => exact ⟨rfl, .inl ⟨newId, hnone, rfl⟩⟩
  · rw [hencoded] at hidentifies
    cases hidentifies with
    | own hid =>
      rw [Document.get?_cons_self] at hid
      obtain rfl := Option.some.inj hid
      exact ⟨rfl, .inr ⟨own, hown, rfl⟩⟩
    | new hid =>
      rw [Document.get?_cons_self] at hid
      cases hid

/-- `ReadsBack repo now s d d'`: the document came back with a key and the time of the write, and with
nothing else changed, and it is found by this key as it came back. -/
structure ReadsBack (repo : Repository) (now : Int64) (s : Store) (d d' : Document) (key : Key) :
    Prop where
  echo : d' = repo.type.setKey key (repo.type.setModifiedOn now d)
  identity : repo.type.keyOf? d' = some key
  time : repo.type.modifiedOn? d' = some now
  fields : ∀ name, name ≠ repo.type.identity → name ≠ repo.type.timestamp →
    d'.get? name = d.get? name
  /-- The key is the document's own as it is read back, or one that the store made. -/
  own : ∀ own, repo.type.keyOf? d = some own → key = own.normal
  found : repo.getById s key = .ok (some d')

theorem Inserts.readsBack {d d' : Document} (hT : repo.type.IsDeclared) (hs : s.IsTyped)
    (h : repo.Inserts fieldsOf (s.documents repo.name) (repo.type.setModifiedOn now d) d')
    (hfields : ∀ fields, fieldsOf (repo.type.setModifiedOn now d) = .ok fields →
      Restores repo.type.records repo.type.fields fields (repo.type.setModifiedOn now d)) :
    ∃ key, repo.ReadsBack now s d d' key := by
  obtain ⟨id, stored, key, hstored, hfiles, hread, rfl⟩ := h
  obtain ⟨fields, hwritten, rfl, horigin⟩ := hfiles.cases hT hfields
  have hrestores := hfields fields hwritten
  have hne := hT.timestamp_ne hrestores
  rw [DocumentType.keyOf?_setModifiedOn hne] at horigin
  have hid : key.stored = id ∧ ∀ own, repo.type.keyOf? d = some own → key = own.normal := by
    obtain ⟨newId, hnone, rfl⟩ | ⟨own, hown, rfl⟩ := horigin
    · refine ⟨KeyKind.stored_of_ofValue_objectId hread, fun own hown => ?_⟩
      cases hnone.symm.trans hown
    · have hnormal := own.ofValue_stored
      rw [DocumentType.kind_of_keyOf? hown, hread] at hnormal
      obtain rfl := Except.ok.inj hnormal
      refine ⟨own.stored_normal, fun other hother => ?_⟩
      rw [Option.some.inj (hown.symm.trans hother)]
  obtain ⟨rfl, hown⟩ := hid
  have hidentity : Document.HasIdentity
      (("_id", key.stored) :: Document.erase fields repo.type.identity) key.identity :=
    ⟨_, Document.get?_cons_self _ _ _, key.isIdentity_stored⟩
  refine ⟨key, rfl, ?_, ?_, ?_, hown, ?_⟩
  · refine DocumentType.keyOf?_of_field ?_ (KeyKind.kind_of_ofValue hread)
    rw [DocumentType.setKey, Document.get?_insert, if_pos rfl]
  · rw [DocumentType.modifiedOn?, DocumentType.setKey, Document.get?_insert_of_ne _ (Ne.symm hne),
      DocumentType.setModifiedOn, Document.get?_insert, if_pos rfl]
  · intro name hidentity htimestamp
    rw [DocumentType.setKey, Document.get?_insert_of_ne _ (Ne.symm hidentity),
      DocumentType.setModifiedOn, Document.get?_insert_of_ne _ (Ne.symm htimestamp)]
  · exact getById_of_mem hs hstored hidentity (hT.decode_filed hrestores hread)

theorem forall₂_readsBack (hs : s.IsTyped) (hT : repo.type.IsDeclared)
    (hfields : ∀ d ∈ docs, ∀ fields, fieldsOf (repo.type.setModifiedOn now d) = .ok fields →
      Restores repo.type.records repo.type.fields fields (repo.type.setModifiedOn now d))
    (h : repo.insertWritten fieldsOf now newId docs s = (.ok inserted, s')) :
    List.Forall₂ (fun d d' => ∃ key, repo.ReadsBack now s' d d' key) docs inserted := by
  have hkinds : repo.KeepsKinds fieldsOf now docs := .of_get?_eq_none fun d hd fields hwritten =>
    hT.get?_body (hfields d hd fields hwritten)
  have hs' : s'.IsTyped := by
    have hafter := isTyped_after hs (w := .insertMany fieldsOf now newId docs) hkinds
    rwa [after, h] at hafter
  have hinserts := List.forall₂_map_left_iff.mp (forall₂_of_insertWritten hs.filed h)
  refine ((List.forall₂_and_left _ _).mpr ⟨hfields, hinserts⟩).imp ?_
  rintro d d' ⟨hd, hinserted⟩
  exact hinserted.readsBack hT hs' hd

/-- What an insertion gives back are the documents as they were inserted, except for their keys and the
times of the write, and each of them is found by its key. -/
theorem inserted_reads_back {ops : List Operator} {s s' : Store} (hs : Store.TypedReachable ops s)
    (repo : Repository) (hT : repo.type.IsDeclared)
    (fieldsOf : Document → Except Failure Document) (now : Int64) (newId : Nat → ObjectId)
    (docs inserted : List Document)
    (hfields : ∀ d ∈ docs, ∀ fields, fieldsOf (repo.type.setModifiedOn now d) = .ok fields →
      Restores repo.type.records repo.type.fields fields (repo.type.setModifiedOn now d))
    (h : repo.insertWritten fieldsOf now newId docs s = (.ok inserted, s')) :
    List.Forall₂ (fun d d' => ∃ key, repo.ReadsBack now s' d d' key) docs inserted :=
  forall₂_readsBack hs.isTyped hT hfields h

/-- An inspection without an identity comes into a store that holds another one. -/
theorem inserted_reads_back_of_inspection :
    let repo : Repository := ⟨Catalogue.inspection, ⟨"Inspection"⟩⟩
    let a : Document := [("id", .string "a"), ("modified_on", .null), ("grade", .string "A")]
    let b : Document := [("id", .null), ("modified_on", .null), ("grade", .string "B")]
    let s := repo.after {} (.insertMany .ok 0 (fun _ => ⟨0⟩) [a])
    ∃ d' s' key, repo.insertMany 7 (fun _ => ⟨1⟩) [b] s = (.ok [d'], s') ∧
      repo.ReadsBack 7 s' b d' key := by
  intro repo a b s
  have hT : repo.type.IsDeclared :=
    DocumentType.isDeclared_of_mem_types (by simp [repo, Catalogue.types])
  have hs : Store.TypedReachable [] s := by
    refine .write repo _ (KeepsKinds.of_get?_eq_none ?_) .empty
    rintro d hd fields ⟨⟩
    obtain rfl := List.mem_singleton.mp hd
    rfl
  have hfields : ∀ d ∈ [b], ∀ fields,
      Except.ok (repo.type.setModifiedOn 7 d) = (.ok fields : Except Failure Document) →
      Restores repo.type.records repo.type.fields fields (repo.type.setModifiedOn 7 d) := by
    rintro d hd fields ⟨⟩
    obtain rfl := List.mem_singleton.mp hd
    exact .cons (by decide) rfl (.cons (by decide) rfl (.cons (by decide) rfl .nil))
  have hinsert : repo.insertWritten .ok 7 (fun _ => ⟨1⟩) [b] s =
      (.ok [[("id", .string "000000000000000000000001"), ("modified_on", .dateTime 7),
        ("grade", .string "B")]], (repo.insertWritten .ok 7 (fun _ => ⟨1⟩) [b] s).2) := by rfl
  obtain ⟨⟨key, hback⟩, -⟩ := List.forall₂_cons.mp
    (inserted_reads_back hs repo hT .ok 7 (fun _ => ⟨1⟩) [b] _ hfields hinsert)
  exact ⟨_, _, key, hinsert, hback⟩

theorem getById_normal (repo : Repository) (s : Store) (key : Key) :
    repo.getById s key.normal = repo.getById s key := by
  unfold getById idFilter
  rw [key.stored_normal]

/-- Exactly the settled keys come back from the store as they were given. A document that is inserted
with a key is found by it, but it holds the key that is read back. -/
theorem keys_survive_iff (key : Key) :
    (key.kind.ofValue key.stored = .ok key ↔ key.IsSettled) ∧
    ∀ {ops : List Operator} {s s' : Store}, Store.TypedReachable ops s → ∀ repo : Repository,
      repo.type.IsDeclared → ∀ fieldsOf now newId docs,
      (∀ d ∈ docs, ∀ fields, fieldsOf (repo.type.setModifiedOn now d) = .ok fields →
        Restores repo.type.records repo.type.fields fields (repo.type.setModifiedOn now d)) →
      ∀ inserted, repo.insertWritten fieldsOf now newId docs s = (.ok inserted, s') →
      List.Forall₂ (fun d d' => repo.type.keyOf? d = some key →
        repo.type.keyOf? d' = some key.normal ∧ repo.getById s' key = .ok (some d') ∧
        (repo.type.keyOf? d' = some key ↔ key.IsSettled)) docs inserted := by
  constructor
  · rw [key.ofValue_stored, Except.ok.injEq, key.normal_eq_iff]
  · intro ops s s' hs repo hT fieldsOf now newId docs hfields inserted h
    refine (forall₂_readsBack hs.isTyped hT hfields h).imp ?_
    rintro d d' ⟨back, hback⟩ hkey
    obtain rfl := hback.own key hkey
    have hfound := hback.found
    rw [getById_normal] at hfound
    refine ⟨hback.identity, hfound, ?_⟩
    rw [hback.identity, Option.some.injEq, key.normal_eq_iff]

theorem keys_survive_of_lower_case :
    let repo : Repository := ⟨Catalogue.inspection, ⟨"Inspection"⟩⟩
    let key : Key := .text "507f1f77bcf86cd799439011"
    let d : Document := [("id", key.field), ("modified_on", .null), ("grade", .string "A")]
    ∃ d' s', repo.insertMany 0 (fun _ => ⟨0⟩) [d] {} = (.ok [d'], s') ∧
      repo.type.keyOf? d' = some key ∧ repo.getById s' key = .ok (some d') := by
  intro repo key d
  have hT : repo.type.IsDeclared :=
    DocumentType.isDeclared_of_mem_types (by simp [repo, Catalogue.types])
  have hfields : ∀ c ∈ [d], ∀ fields,
      Except.ok (repo.type.setModifiedOn 0 c) = (.ok fields : Except Failure Document) →
      Restores repo.type.records repo.type.fields fields (repo.type.setModifiedOn 0 c) := by
    rintro c hc fields ⟨⟩
    obtain rfl := List.mem_singleton.mp hc
    exact .cons (by decide) rfl (.cons (by decide) rfl (.cons (by decide) rfl .nil))
  have hinsert : repo.insertWritten .ok 0 (fun _ => ⟨0⟩) [d] {} =
      (.ok [repo.type.setModifiedOn 0 d], (repo.insertWritten .ok 0 (fun _ => ⟨0⟩) [d] {}).2) := by
    rfl
  obtain ⟨hback, -⟩ := List.forall₂_cons.mp
    ((keys_survive_iff key).2 (.empty : Store.TypedReachable [] {}) repo hT .ok 0 (fun _ => ⟨0⟩) [d]
      hfields _ hinsert)
  have hlower : "507f1f77bcf86cd799439011".toList.all fun c => !c.isUpper := by rfl
  have hsettled : key.IsSettled := fun _ c hc => by simpa using List.all_eq_true.mp hlower c hc
  obtain ⟨-, hfound, hkey⟩ := hback rfl
  exact ⟨_, _, hinsert, hkey.mpr hsettled, hfound⟩

/-- The same key in capital letters comes back in lower case. -/
theorem not_keys_survive_of_capitals :
    let repo : Repository := ⟨Catalogue.inspection, ⟨"Inspection"⟩⟩
    let key : Key := .text "507F1F77BCF86CD799439011"
    let d : Document := [("id", key.field), ("modified_on", .null), ("grade", .string "A")]
    key.kind.ofValue key.stored ≠ .ok key ∧ repo.type.keyOf? d = some key ∧
      ∃ d', (repo.insertMany 0 (fun _ => ⟨0⟩) [d] {}).1 = .ok [d'] ∧
        repo.type.keyOf? d' ≠ some key := by
  intro repo key d
  have hback : key.kind.ofValue key.stored = .ok (.text "507f1f77bcf86cd799439011") := by rfl
  have hinsert : (repo.insertMany 0 (fun _ => ⟨0⟩) [d] {}).1 =
      .ok [[("id", .string "507f1f77bcf86cd799439011"), ("modified_on", .dateTime 0),
        ("grade", .string "A")]] := by rfl
  have hne : Key.text "507f1f77bcf86cd799439011" ≠ key := by decide
  refine ⟨?_, rfl, _, hinsert, fun hkept => hne (Option.some.inj hkept)⟩
  rw [hback]
  exact fun hkept => hne (Except.ok.inj hkept)

end Repository

end Docbase
