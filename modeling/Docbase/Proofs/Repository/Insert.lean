import Docbase.Proofs.DocumentType.Encoding
import Docbase.Proofs.Store.Duplicate
import Docbase.Repository

namespace Docbase

namespace Document

variable {d : Document}

theorem Identifies.getD_get? {newId : ObjectId} {id : Value} {stored : Document}
    (h : d.Identifies newId id stored) : (d.get? "_id").getD (.objectId newId) = id := by
  cases h with
  | own hid => rw [hid, Option.getD_some]
  | new hid => rw [hid, Option.getD_none]

end Document

namespace Store

variable {s : Store} {newId : Nat → ObjectId}

theorem Stores.map_fst {docs : List Document} {batch : List (Value × Document)}
    (h : Stores newId docs batch) : batch.map Prod.fst = batchIdentities newId docs := by
  unfold Stores at h
  unfold batchIdentities
  generalize docs.zipIdx = indexed at h ⊢
  induction h with
  | nil => rfl
  | cons hfirst _ ih => rw [List.map_cons, List.map_cons, ih, ← hfirst.getD_get?]

theorem IsFiled.insertMany_cases (h : s.IsFiled) (newId : Nat → ObjectId) (docs : List Document)
    (name : String) :
    (s.RefusesBatch newId docs name ∧
      (s.insertMany newId docs name).2.documents name = s.documents name) ∨
    (¬ s.RefusesBatch newId docs name ∧
      (s.insertMany newId docs name).1 = .ok (batchIdentities newId docs) ∧
      ∃ batch, Stores newId docs batch ∧
        (s.insertMany newId docs name).2.documents name =
          s.documents name ++ batch.map Prod.snd) := by
  have hacts := acts_insertMany h newId docs name
  unfold RefusesBatch
  generalize (s.insertMany newId docs name).2.documents name = after at hacts ⊢
  generalize s.documents name = before at hacts ⊢
  generalize hanswer : (s.insertMany newId docs name).1.map Answer.inserted = answer at hacts
  cases hacts with
  | inserted hbatch hnew =>
    obtain ⟨ids, hids, hsame⟩ := exists_of_map_eq_ok hanswer
    cases hsame
    right
    refine ⟨by simp [hids], by rw [hids, hbatch.map_fst], _, hbatch, rfl⟩
  | duplicate hbatch hfront hid =>
    left
    refine ⟨?_, rfl⟩
    cases hrefused : (s.insertMany newId docs name).1 with
    | ok ids =>
      rw [hrefused] at hanswer
      cases hanswer
    | error e =>
      rw [hrefused] at hanswer
      cases hanswer
      exact ⟨_, rfl⟩

theorem documents_insertMany_of_ne {docs : List Document} {name other : String}
    (h : other ≠ name) :
    (s.insertMany newId docs name).2.documents other = s.documents other :=
  @documents_after_of_ne s (.insertMany newId docs name) other h

end Store

theorem KeyKind.ofValue_objectId_eq_error_iff {kind : KeyKind} {id : ObjectId} :
    (∃ fault, kind.ofValue (.objectId id) = .error fault) ↔ kind ≠ .text ∧ kind ≠ .objectId := by
  have huuid : Uuid.ofValue? (.objectId id) = none := rfl
  cases kind <;> simp [ofValue, uuidOf, huuid, Except.map]

theorem KeyKind.stored_of_ofValue_objectId {kind : KeyKind} {id : ObjectId} {key : Key}
    (h : kind.ofValue (.objectId id) = .ok key) : key.stored = .objectId id := by
  cases kind with
  | text =>
    cases h
    simp [Key.stored, ObjectId.ofText?_hex]
  | objectId =>
    cases h
    rfl
  | uuid | textUuid | int64 | int32 => cases h

namespace DocumentType

variable {T : DocumentType} {d : Document}

theorem kind_of_keyOf? {key : Key} (h : T.keyOf? d = some key) : key.kind = T.key := by
  unfold keyOf? at h
  split at h
  · cases h
  · cases h
  next v _ _ =>
    cases hv : T.key.ofValue v with
    | error fault =>
      rw [hv] at h
      cases h
    | ok found =>
      rw [hv] at h
      cases h
      exact KeyKind.kind_of_ofValue hv

end DocumentType

namespace Repository

variable (repo : Repository) (fieldsOf : Document → Except Failure Document) (now : Int64)
  (newId : Nat → ObjectId) (docs : List Document) (s : Store)

/-- Whether the store takes the batch and one of its identities is no key of the type. -/
def LeavesBatch : Prop :=
  ∃ batch, repo.encodeAll fieldsOf (docs.map (repo.type.setModifiedOn now)) = .ok batch ∧
    ¬ s.RefusesBatch newId batch repo.name ∧
    ∃ id ∈ Store.batchIdentities newId batch, ∃ fault, repo.type.key.ofValue id = .error fault

variable {repo fieldsOf now newId docs s}

theorem exists_withId_eq_error_iff {d : Document} {id : Value} :
    (∃ e, repo.withId d id = .error e) ↔ ∃ fault, repo.type.key.ofValue id = .error fault := by
  unfold withId
  cases repo.type.key.ofValue id <;> simp

theorem exists_mapM_withId_eq_error_iff (repo : Repository) {ids : List Value}
    (h : ids.length = docs.length) :
    (∃ e, ((docs.zip ids).mapM fun (d, id) => repo.withId d id) = .error e) ↔
      ∃ id ∈ ids, ∃ fault, repo.type.key.ofValue id = .error fault := by
  rw [exists_mapM_eq_error_iff]
  constructor
  · rintro ⟨⟨d, id⟩, hmem, hfault⟩
    exact ⟨id, (List.of_mem_zip hmem).2, exists_withId_eq_error_iff.mp hfault⟩
  · rintro ⟨id, hmem, hfault⟩
    have hsnd : (docs.zip ids).map Prod.snd = ids := List.map_snd_zip (Nat.le_of_eq h)
    rw [← hsnd] at hmem
    obtain ⟨p, hp, rfl⟩ := List.mem_map.mp hmem
    exact ⟨p, hp, exists_withId_eq_error_iff.mpr hfault⟩

theorem insertWritten_of_encodeAll_error {e : Failure}
    (h : repo.encodeAll fieldsOf (docs.map (repo.type.setModifiedOn now)) = .error e) :
    repo.insertWritten fieldsOf now newId docs s = (.error e, s) := by
  simp only [insertWritten, h]

theorem insertWritten_of_encodeAll_nil
    (h : repo.encodeAll fieldsOf (docs.map (repo.type.setModifiedOn now)) = .ok []) :
    (repo.insertWritten fieldsOf now newId docs s).2 = s := by
  simp only [insertWritten, h, Collection.insertMany, List.isEmpty_nil, if_true]

theorem insertWritten_of_refused {batch : List Document} {e : WriteError}
    (h : repo.encodeAll fieldsOf (docs.map (repo.type.setModifiedOn now)) = .ok batch)
    (hne : batch ≠ []) (he : (s.insertMany newId batch repo.name).1 = .error e) :
    repo.insertWritten fieldsOf now newId docs s =
      (.error (.write e), (s.insertMany newId batch repo.name).2) := by
  unfold name at he ⊢
  rw [← List.isEmpty_eq_false_iff] at hne
  simp only [insertWritten, h, Collection.insertMany, hne, Bool.false_eq_true, if_false]
  generalize s.insertMany newId batch repo.collection.name = outcome at he ⊢
  obtain ⟨result, after⟩ := outcome
  cases he
  rfl

theorem insertWritten_of_taken {batch : List Document} {ids : List Value}
    (h : repo.encodeAll fieldsOf (docs.map (repo.type.setModifiedOn now)) = .ok batch)
    (hne : batch ≠ []) (hids : (s.insertMany newId batch repo.name).1 = .ok ids) :
    repo.insertWritten fieldsOf now newId docs s =
      (((docs.map (repo.type.setModifiedOn now)).zip ids).mapM fun (d, id) => repo.withId d id,
        (s.insertMany newId batch repo.name).2) := by
  unfold name at hids ⊢
  rw [← List.isEmpty_eq_false_iff] at hne
  simp only [insertWritten, h, Collection.insertMany, hne, Bool.false_eq_true, if_false]
  generalize s.insertMany newId batch repo.collection.name = outcome at hids ⊢
  obtain ⟨result, after⟩ := outcome
  cases hids
  rfl

/-- An insertion that is not refused puts the batch behind what is there, and fails when it leaves
the batch. Any other insertion keeps the documents. -/
theorem insertWritten_cases (repo : Repository) (fieldsOf : Document → Except Failure Document)
    (now : Int64) (newId : Nat → ObjectId) (docs : List Document) (hs : s.IsFiled) :
    (¬ repo.LeavesBatch fieldsOf now newId docs s ∧
      (repo.insertWritten fieldsOf now newId docs s).2.documents repo.name =
        s.documents repo.name) ∨
    ∃ batch filed, repo.encodeAll fieldsOf (docs.map (repo.type.setModifiedOn now)) = .ok batch ∧
      Store.Stores newId batch filed ∧ filed ≠ [] ∧
      ((∃ e, (repo.insertWritten fieldsOf now newId docs s).1 = .error e) ↔
        repo.LeavesBatch fieldsOf now newId docs s) ∧
      (repo.insertWritten fieldsOf now newId docs s).2.documents repo.name =
        s.documents repo.name ++ filed.map Prod.snd := by
  cases hbatch : repo.encodeAll fieldsOf (docs.map (repo.type.setModifiedOn now)) with
  | error e =>
    left
    rw [insertWritten_of_encodeAll_error hbatch]
    exact ⟨by simp [LeavesBatch, hbatch], rfl⟩
  | ok batch =>
    have hleaves : repo.LeavesBatch fieldsOf now newId docs s ↔
        ¬ s.RefusesBatch newId batch repo.name ∧ ∃ id ∈ Store.batchIdentities newId batch,
          ∃ fault, repo.type.key.ofValue id = .error fault := by
      simp only [LeavesBatch, hbatch, Except.ok.injEq, exists_eq_left']
    by_cases hne : batch = []
    · left
      subst hne
      rw [insertWritten_of_encodeAll_nil hbatch, hleaves]
      exact ⟨by simp [Store.batchIdentities], rfl⟩
    · obtain ⟨hrefused, hkept⟩ | ⟨htaken, hids, filed, hfiled, hadded⟩ :=
        hs.insertMany_cases newId batch repo.name
      · left
        obtain ⟨key, hkey⟩ := hrefused
        rw [insertWritten_of_refused hbatch hne hkey, hleaves]
        exact ⟨fun h => h.1 ⟨key, hkey⟩, hkept⟩
      · right
        have hlength : (Store.batchIdentities newId batch).length =
            (docs.map (repo.type.setModifiedOn now)).length := by
          rw [(forall₂_of_mapM_eq_ok hbatch).length_eq]
          simp [Store.batchIdentities]
        have hfail := exists_mapM_withId_eq_error_iff repo hlength
        have hsome : filed ≠ [] := by
          rintro rfl
          have hnone := hfiled.map_fst
          simp [Store.batchIdentities, hne] at hnone
        rw [insertWritten_of_taken hbatch hne hids, hleaves]
        refine ⟨batch, filed, rfl, hfiled, hsome, ?_, hadded⟩
        rw [hfail]
        exact ⟨fun h => ⟨htaken, h⟩, And.right⟩

theorem insertWritten_snd_cases (repo : Repository) (fieldsOf : Document → Except Failure Document)
    (now : Int64) (newId : Nat → ObjectId) (docs : List Document) (s : Store) :
    (repo.insertWritten fieldsOf now newId docs s).2 = s ∨
      ∃ batch, repo.encodeAll fieldsOf (docs.map (repo.type.setModifiedOn now)) = .ok batch ∧
        (repo.insertWritten fieldsOf now newId docs s).2 = (s.insertMany newId batch repo.name).2 := by
  cases hbatch : repo.encodeAll fieldsOf (docs.map (repo.type.setModifiedOn now)) with
  | error e => exact .inl (by rw [insertWritten_of_encodeAll_error hbatch])
  | ok batch =>
    by_cases hne : batch = []
    · subst hne
      exact .inl (insertWritten_of_encodeAll_nil hbatch)
    · refine .inr ⟨batch, rfl, ?_⟩
      cases hinsert : (s.insertMany newId batch repo.name).1 with
      | error e => rw [insertWritten_of_refused hbatch hne hinsert]
      | ok ids => rw [insertWritten_of_taken hbatch hne hinsert]

theorem documents_insertWritten_of_ne {other : String} (h : other ≠ repo.name) :
    (repo.insertWritten fieldsOf now newId docs s).2.documents other = s.documents other := by
  obtain hsame | ⟨batch, -, hafter⟩ := repo.insertWritten_snd_cases fieldsOf now newId docs s
  · rw [hsame]
  · rw [hafter]
    exact Store.documents_insertMany_of_ne h

/-- Where nothing but the identity is stored as `_id`, the store files each document under its own
identity or under a new one. -/
theorem batchIdentities_of_encodeAll {typed batch : List Document}
    (h : repo.encodeAll fieldsOf typed = .ok batch)
    (hid : ∀ d ∈ typed, ∀ fields, fieldsOf d = .ok fields →
      Document.get? (fields.erase repo.type.identity) "_id" = none) :
    Store.batchIdentities newId batch = typed.zipIdx.map fun (d, i) =>
      ((repo.type.keyOf? d).map Key.stored).getD (.objectId (newId i)) := by
  unfold Store.batchIdentities
  generalize 0 = n
  induction typed generalizing batch n with
  | nil =>
    cases h
    rfl
  | cons d typed ih =>
    obtain ⟨stored, rest, hstored, hrest, rfl⟩ := exists_of_mapM_cons_eq_ok h
    obtain ⟨fields, hfields, rfl⟩ := exists_of_map_eq_ok hstored
    have hown := DocumentType.get?_encodeFields (d := d) (hid d (by simp) fields hfields)
    rw [List.zipIdx_cons, List.zipIdx_cons, List.map_cons, List.map_cons,
      ih hrest (fun d hd => hid d (by simp [hd]))]
    dsimp only
    rw [hown]

theorem exists_ofValue_eq_error_iff (d : Document) (id : ObjectId) :
    (∃ fault, repo.type.key.ofValue (((repo.type.keyOf? d).map Key.stored).getD (.objectId id)) =
      .error fault) ↔
    (repo.type.key ≠ .text ∧ repo.type.key ≠ .objectId) ∧ repo.type.keyOf? d = none := by
  cases hkey : repo.type.keyOf? d with
  | none => simpa using KeyKind.ofValue_objectId_eq_error_iff
  | some key =>
    have hread := key.ofValue_stored
    rw [DocumentType.kind_of_keyOf? hkey] at hread
    simp [hread]

/-- Where nothing but the identity is stored as `_id`, just the documents without an identity are
left, and only by types whose keys the store does not make. -/
theorem leavesBatch_iff
    (hid : ∀ d ∈ docs, ∀ fields, fieldsOf (repo.type.setModifiedOn now d) = .ok fields →
      Document.get? (fields.erase repo.type.identity) "_id" = none) :
    repo.LeavesBatch fieldsOf now newId docs s ↔
      (repo.type.key ≠ .text ∧ repo.type.key ≠ .objectId) ∧
      (∃ d ∈ docs, repo.type.keyOf? (repo.type.setModifiedOn now d) = none) ∧
      ∃ batch, repo.encodeAll fieldsOf (docs.map (repo.type.setModifiedOn now)) = .ok batch ∧
        ¬ s.RefusesBatch newId batch repo.name := by
  have hids : ∀ batch,
      repo.encodeAll fieldsOf (docs.map (repo.type.setModifiedOn now)) = .ok batch →
      Store.batchIdentities newId batch =
        (docs.map (repo.type.setModifiedOn now)).zipIdx.map fun (d, i) =>
          ((repo.type.keyOf? d).map Key.stored).getD (.objectId (newId i)) :=
    fun batch hbatch => batchIdentities_of_encodeAll hbatch (by simpa using hid)
  constructor
  · rintro ⟨batch, hbatch, htaken, id, hmem, hfault⟩
    rw [hids batch hbatch] at hmem
    obtain ⟨⟨d', i⟩, hzip, rfl⟩ := List.mem_map.mp hmem
    obtain ⟨d, hd, rfl⟩ := List.mem_map.mp (List.fst_mem_of_mem_zipIdx hzip)
    obtain ⟨hkind, hnone⟩ := (exists_ofValue_eq_error_iff _ (newId i)).mp hfault
    exact ⟨hkind, ⟨d, hd, hnone⟩, batch, hbatch, htaken⟩
  · rintro ⟨hkind, ⟨d, hd, hnone⟩, batch, hbatch, htaken⟩
    have hmem : repo.type.setModifiedOn now d ∈
        ((docs.map (repo.type.setModifiedOn now)).zipIdx).map Prod.fst := by
      rw [List.zipIdx_map_fst]
      exact List.mem_map_of_mem hd
    obtain ⟨⟨d', i⟩, hzip, rfl⟩ := List.mem_map.mp hmem
    have hfault := (exists_ofValue_eq_error_iff _ (newId i)).mpr ⟨hkind, hnone⟩
    refine ⟨batch, hbatch, htaken, _, ?_, hfault⟩
    rw [hids batch hbatch]
    exact List.mem_map_of_mem hzip

/-- A failed insertion keeps all documents, unless it leaves the batch: then it fails and the
collection holds the batch behind the documents it held. Where nothing but the identity is stored as
`_id`, this happens to a batch that the store takes, by a type with integer or UUID keys, when one of
the documents has no identity. -/
theorem failed_insert_keeps_iff {ops : List Operator} (repo : Repository) (hs : Store.Reachable ops s)
    (fieldsOf : Document → Except Failure Document) (now : Int64) (newId : Nat → ObjectId)
    (docs : List Document) :
    ((∀ e, (repo.insertWritten fieldsOf now newId docs s).1 = .error e → ∀ name,
        (repo.insertWritten fieldsOf now newId docs s).2.documents name = s.documents name) ↔
      ¬ repo.LeavesBatch fieldsOf now newId docs s) ∧
    (repo.LeavesBatch fieldsOf now newId docs s →
      (∃ e, (repo.insertWritten fieldsOf now newId docs s).1 = .error e) ∧
      ∃ batch filed, repo.encodeAll fieldsOf (docs.map (repo.type.setModifiedOn now)) = .ok batch ∧
        Store.Stores newId batch filed ∧ filed ≠ [] ∧
        (repo.insertWritten fieldsOf now newId docs s).2.documents repo.name =
          s.documents repo.name ++ filed.map Prod.snd) ∧
    ((∀ d ∈ docs, ∀ fields, fieldsOf (repo.type.setModifiedOn now d) = .ok fields →
        Document.get? (fields.erase repo.type.identity) "_id" = none) →
      (repo.LeavesBatch fieldsOf now newId docs s ↔
        (repo.type.key ≠ .text ∧ repo.type.key ≠ .objectId) ∧
        (∃ d ∈ docs, repo.type.keyOf? (repo.type.setModifiedOn now d) = none) ∧
        ∃ batch, repo.encodeAll fieldsOf (docs.map (repo.type.setModifiedOn now)) = .ok batch ∧
          ¬ s.RefusesBatch newId batch repo.name)) := by
  refine ⟨?_, ?_, leavesBatch_iff⟩
  · obtain ⟨hnone, hkept⟩ | ⟨batch, filed, -, -, hsome, hfails, hadded⟩ :=
      insertWritten_cases repo fieldsOf now newId docs hs.isFiled
    · refine ⟨fun _ => hnone, fun _ e _ name => ?_⟩
      by_cases hname : name = repo.name
      · rw [hname, hkept]
      · exact documents_insertWritten_of_ne hname
    · rw [← hfails]
      constructor
      · rintro hkeeps ⟨e, he⟩
        have hsame := hkeeps e he repo.name
        rw [hadded] at hsame
        simp [hsome] at hsame
      · intro hok e he
        exact absurd ⟨e, he⟩ hok
  · intro hleaves
    obtain ⟨hnone, -⟩ | ⟨batch, filed, hbatch, hfiled, hsome, hfails, hadded⟩ :=
      insertWritten_cases repo fieldsOf now newId docs hs.isFiled
    · exact absurd hleaves hnone
    · exact ⟨hfails.mpr hleaves, batch, filed, hbatch, hfiled, hsome, hadded⟩

theorem failed_insert_keeps_of_text_keys :
    let repo : Repository := ⟨Catalogue.inspection, ⟨"Inspection"⟩⟩
    let d : Document := [("id", .string "a"), ("modified_on", .null), ("grade", .string "A")]
    let outcome := repo.insertMany 0 (fun i => ⟨BitVec.ofNat 96 i⟩) [d, d] {}
    (∃ e, outcome.1 = .error e) ∧
      ∀ name, outcome.2.documents name = Store.documents {} name := by
  intro repo d outcome
  have hfails : outcome.1 = .error (.write (.duplicateKey "\"a\"" "Inspection")) := by rfl
  obtain ⟨hkeeps, -, hleaves⟩ := failed_insert_keeps_iff repo (.empty : Store.Reachable [] {}) .ok 0
    (fun i => ⟨BitVec.ofNat 96 i⟩) [d, d]
  have hid : ∀ c ∈ [d, d], ∀ fields,
      Except.ok (repo.type.setModifiedOn 0 c) = (.ok fields : Except Failure Document) →
      Document.get? (fields.erase repo.type.identity) "_id" = none := by
    intro c hc fields hfields
    obtain rfl : c = d := by simpa using hc
    cases hfields
    decide
  refine ⟨⟨_, hfails⟩, hkeeps.mpr ?_ _ hfails⟩
  rw [hleaves hid]
  rintro ⟨⟨htext, -⟩, -⟩
  exact htext rfl

/-- A permit without a number gets an identity that is no number: the insertion fails, and the permit
stays in the store. -/
theorem failed_insert_leaves_permit :
    let repo : Repository := ⟨Catalogue.permit, ⟨"Permit"⟩⟩
    let d : Document := [("permitNumber", .null), ("lastChanged", .null), ("issuedTo", .string "x")]
    let outcome := repo.insertMany 0 (fun i => ⟨BitVec.ofNat 96 i⟩) [d] {}
    Store.Reachable [] {} ∧ (∃ e, outcome.1 = .error e) ∧
      outcome.2.documents "Permit" ≠ Store.documents {} "Permit" := by
  intro repo d outcome
  have hafter : outcome.2.documents "Permit" =
      [[("_id", .objectId ⟨0⟩), ("lastChanged", .dateTime 0), ("issuedTo", .string "x")]] := by rfl
  refine ⟨.empty, ⟨.serialization (.noIdentity (.objectId ⟨0⟩) .int64), by rfl⟩, ?_⟩
  rw [hafter]
  exact List.cons_ne_nil _ _

end Repository

end Docbase
