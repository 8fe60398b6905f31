import Docbase.Proofs.Collection
import Docbase.Proofs.DocumentType.Encoding
import Docbase.Proofs.Filter.Literal
import Docbase.Proofs.Repository.Find
import Docbase.Proofs.Store.Calls

namespace Docbase

namespace Value.IsIdentity

variable {v w : Value} {i : Identity}

theorem exchangeable (hv : v.IsIdentity i) (hw : w.IsIdentity i) : v.Exchangeable w := by
  obtain rfl | ⟨m, n, rfl, rfl, hmn⟩ | ⟨m, n, rfl, rfl, hmn⟩ := hv.eq_or_widths hw
  · exact .refl v
  · exact .number rfl rfl (by rw [hmn])
  · exact .number rfl rfl (by rw [hmn])

theorem beq_iff (hv : v.IsIdentity i) : (w == v) = true ↔ w = v := by
  change w.same v ↔ w = v
  cases hv <;> cases w <;> simp [same]

end Value.IsIdentity

theorem Filter.accepts_identity_congr {v w : Value} {i : Identity} (hv : v.IsIdentity i)
    (hw : w.IsIdentity i) (d : Document) :
    (Path.identity.eq v).accepts d = (Path.identity.eq w).accepts d :=
  Operator.holdsEq_exchange (Document.Exchangeable.refl d Path.identity) (hv.exchangeable hw)

namespace Key

variable {key key' : Key} {v : Value}

/-- Of the values that are equal to the stored form of a key, those that can be read as a key of its
kind store the same identity. -/
theorem isIdentity_of_agrees (hagrees : v.agrees key.stored)
    (hread : key.kind.ofValue v = .ok key') : v.IsIdentity key.identity := by
  obtain h | ⟨s, rfl, hclass⟩ | ⟨x, rfl, hclass⟩ := key.isIdentity_stored.cases_of_agrees hagrees
  · exact h
  · cases key with
    | text => cases hread
    | _ => cases hclass
  · cases key with
    | int64 | int32 => cases hread
    | text s => cases hs : ObjectId.ofText? s <;> simp [stored, hs, Value.valueClass] at hclass
    | _ => cases hclass

/-- The identity of a key is stored as the key's own form or, if it is a number, in the other
width. -/
theorem eq_stored_or_width (h : v.IsIdentity key.identity) : v = key.stored ∨
    (∃ m n, v = .int32 m ∧ key = .int64 n ∧ m.toInt = n.toInt) ∨
      ∃ m n, v = .int64 m ∧ key = .int32 n ∧ m.toInt = n.toInt := by
  obtain rfl | ⟨m, n, rfl, hstored, hmn⟩ | ⟨m, n, rfl, hstored, hmn⟩ :=
    h.eq_or_widths key.isIdentity_stored
  · exact .inl rfl
  · cases key with
    | int64 l =>
      cases hstored
      exact .inr (.inl ⟨m, n, rfl, rfl, hmn⟩)
    | text s => cases hs : ObjectId.ofText? s <;> simp [stored, hs] at hstored
    | _ => cases hstored
  · cases key with
    | int32 l =>
      cases hstored
      exact .inr (.inr ⟨m, n, rfl, rfl, hmn⟩)
    | text s => cases hs : ObjectId.ofText? s <;> simp [stored, hs] at hstored
    | _ => cases hstored

theorem stored_eq_of_isIdentity (h : v.IsIdentity key.identity)
    (hread : key.kind.ofValue v = .ok key') : key'.stored = key.stored := by
  obtain rfl | ⟨m, n, rfl, rfl, hmn⟩ | ⟨m, n, rfl, rfl, hmn⟩ := eq_stored_or_width h
  · rw [key.ofValue_stored] at hread
    cases hread
    exact key.stored_normal
  · cases hread
    have hwide : m.toInt64 = n := Int64.toInt_inj.mp (by rw [Int32.toInt_toInt64, hmn])
    rw [stored, stored, hwide]
  · have hnarrow : Number.int32? m.toInt = some n := by rw [hmn, Number.int32?_toInt]
    simp only [kind, KeyKind.ofValue, hnarrow] at hread
    cases hread
    rfl

end Key

namespace Store

theorem replaceOne_congr_filter {f g : Filter} (h : ∀ d, f.accepts d = g.accepts d) (s : Store)
    (replacement : Document) (name : String) :
    s.replaceOne f replacement name = s.replaceOne g replacement name := by
  have htest : (fun e : Entry => f.accepts e.document) = fun e => g.accepts e.document :=
    funext fun e => h e.document
  unfold replaceOne
  rw [htest]

end Store

/-- A replacement by an identity is the store's own, also where the identity has to be looked up first
and is found in another width. -/
theorem Collection.replaceOne_of_identity (c : Collection) {s : Store} {v id : Value} {i : Identity}
    {stored : Document}
    (hfirst : (s.documents c.name).find? (fun d => (Path.identity.eq v).accepts d) = some stored)
    (hid : stored.get? "_id" = some id) (hv : v.IsIdentity i) (hi : id.IsIdentity i)
    (replacement : Document) : c.replaceOne (Path.identity.eq v) replacement s =
      s.replaceOne (Path.identity.eq v) replacement c.name := by
  have hselected : c.selection? s (some (Path.identity.eq v)) (some 1) =
      some (Path.identity.eq id) := by
    rw [Store.documents, List.find?_map] at hfirst
    obtain ⟨e, he, rfl⟩ := Option.map_eq_some_iff.mp hfirst
    have he' : (s.entries c.name).find? (fun e => (Path.identity.eq v).accepts e.document) = some e :=
      he
    rw [selection?_first, he']
    simp only [Option.toList_some, List.filterMap_cons, hid, List.filterMap_nil]
    rfl
  unfold replaceOne
  split
  · rfl
  · rw [hselected]
    exact Store.replaceOne_congr_filter (Filter.accepts_identity_congr hi hv) s replacement c.name

namespace Repository

variable {repo : Repository} {s : Store} {key : Key} {d : Document}

theorem replaceWritten_of_keyOf? {fieldsOf : Document → Except Failure Document} {now : Int64}
    {fields : Document} (hkey : repo.type.keyOf? d = some key)
    (hfields : fieldsOf (repo.type.setModifiedOn now d) = .ok fields) :
    repo.replaceWritten fieldsOf now d s = written (repo.collection.replaceOne (idFilter key)
      (repo.type.encodeFields fields (repo.type.setModifiedOn now d)) s) := by
  unfold replaceWritten requiredId
  rw [hkey]
  dsimp only
  rw [hfields]

/-- `Reads repo s key d front stored id rest`: by the key the document is read from this place. -/
structure Reads (repo : Repository) (s : Store) (key : Key) (d : Document) (front : List Document)
    (stored : Document) (id : Value) (rest : List Document) : Prop where
  split : s.documents repo.name = front ++ stored :: rest
  front : ∀ c ∈ front, (idFilter key).accepts c = false
  accepted : (idFilter key).accepts stored
  identity : stored.get? "_id" = some id
  stores : id.IsIdentity key.identity
  decoded : repo.type.decode stored = .ok d

theorem Reads.find? {front rest : List Document} {stored : Document} {id : Value}
    (h : repo.Reads s key d front stored id rest) :
    (s.documents repo.name).find? (fun c => (idFilter key).accepts c) = some stored :=
  List.find?_eq_some_iff_append.mpr ⟨h.accepted, front, rest, h.split, by simpa using h.front⟩

theorem exists_reads (hs : s.IsFiled)
    (hidentity : ∃ t, repo.type.fields.lookup repo.type.identity = some t ∧
      t.required = repo.type.key.fieldType) (hkind : key.kind = repo.type.key)
    (h : repo.getById s key = .ok (some d)) :
    ∃ front stored id rest own, repo.Reads s key d front stored id rest ∧
      repo.type.keyOf? d = some own ∧ own.stored = key.stored := by
  obtain ⟨stored, hfirst, hdecoded⟩ := exists_of_getById h
  obtain ⟨haccepts, front, rest, hsplit, hfront⟩ := List.find?_eq_some_iff_append.mp hfirst
  obtain ⟨e, he, rfl⟩ := List.mem_map.mp (List.mem_of_find?_eq_some hfirst)
  obtain ⟨id, hid, -⟩ := (hs.allFiled repo.name).filed e he
  obtain ⟨own, hread, hown⟩ := DocumentType.exists_keyOf?_of_decode hdecoded hidentity hid
  have harray : ∀ items, id ≠ .array items := by
    rintro items rfl
    exact KeyKind.ofValue_array _ items own hread
  have hagrees : id.agrees key.stored := by
    rwa [idFilter, Path.eq, Filter.accepts_identity_of_ne_array hid harray] at haccepts
  rw [← hkind] at hread
  have hstores := Key.isIdentity_of_agrees hagrees hread
  exact ⟨front, e.document, id, rest, own,
    ⟨hsplit, by simpa using hfront, haccepts, hid, hstores, hdecoded⟩, hown,
    Key.stored_eq_of_isIdentity hstores hread⟩

namespace Reads

variable {front rest : List Document} {stored fields : Document} {id : Value} {own : Key}
  {fieldsOf : Document → Except Failure Document} {now : Int64}
  (h : repo.Reads s key d front stored id rest) (hown : repo.type.keyOf? d = some own)
  (hstored : own.stored = key.stored)
  (hfields : fieldsOf (repo.type.setModifiedOn now d) = .ok fields)
include h hown hstored hfields

theorem replaceWritten_eq : repo.replaceWritten fieldsOf now d s =
    written (s.replaceOne (idFilter key)
      (repo.type.encodeFields fields (repo.type.setModifiedOn now d)) repo.name) := by
  have hfilter : idFilter own = idFilter key := by rw [idFilter, idFilter, hstored]
  rw [replaceWritten_of_keyOf? hown hfields, hfilter]
  exact congrArg written (repo.collection.replaceOne_of_identity h.find? h.identity
    key.isIdentity_stored h.stores _)

theorem replaceWritten_cases (hs : s.IsFiled) :
    (∀ other, (repo.type.encodeFields fields (repo.type.setModifiedOn now d)).get? "_id" = some other →
        other == id) ∧
      (repo.replaceWritten fieldsOf now d s).1 = .ok true ∧
      (repo.replaceWritten fieldsOf now d s).2.documents repo.name =
        front ++ (("_id", id) ::
          (repo.type.encodeFields fields (repo.type.setModifiedOn now d)).erase "_id") :: rest ∨
    (¬ ∀ other, (repo.type.encodeFields fields (repo.type.setModifiedOn now d)).get? "_id" =
        some other → other == id) ∧
      repo.replaceWritten fieldsOf now d s = (.error (.write (.identityChanged id.display)), s) := by
  rw [h.replaceWritten_eq hown hstored hfields]
  generalize repo.type.encodeFields fields (repo.type.setModifiedOn now d) = replacement
  obtain ⟨hsame, hok, hafter⟩ | ⟨hchanged, hrefused⟩ :=
    hs.replaceOne_first_cases h.split h.front h.accepted h.identity replacement
  · refine .inl ⟨hsame, ?_, hafter⟩
    rw [written, hok]
    rfl
  · refine .inr ⟨hchanged, ?_⟩
    rw [hrefused]
    rfl

omit h hfields in
/-- Where nothing but the identity is stored as `_id`, a document is written out under the key's own
form. -/
theorem same_iff (h : repo.Reads s key d front stored id rest)
    (htimestamp : repo.type.timestamp ≠ repo.type.identity)
    (hbody : (fields.erase repo.type.identity).get? "_id" = none) :
    (∀ other, (repo.type.encodeFields fields (repo.type.setModifiedOn now d)).get? "_id" = some other →
      other == id) ↔ id = key.stored := by
  rw [DocumentType.get?_encodeFields hbody, DocumentType.keyOf?_setModifiedOn htimestamp, hown,
    Option.map_some, hstored]
  simp only [Option.some.injEq, forall_eq', h.stores.beq_iff]
  exact eq_comm

end Reads

/-- A document that is read by a key is replaced by itself exactly if it would be written out under
the identity that it is stored under. Where nothing else is stored as `_id`, that is the key's own form.
A document that is stored under the other width of a number can be read, but its replacement is refused
as a change of its identity. -/
theorem replaces_read_iff {ops : List Operator} {s : Store} (hs : Store.Reachable ops s)
    (repo : Repository) (hidentity : ∃ t, repo.type.fields.lookup repo.type.identity = some t ∧
      t.required = repo.type.key.fieldType)
    (htimestamp : repo.type.timestamp ≠ repo.type.identity) (key : Key)
    (hkind : key.kind = repo.type.key) (d : Document) (h : repo.getById s key = .ok (some d)) :
    ∃ front stored id rest, repo.Reads s key d front stored id rest ∧
      (id = key.stored ∨ (∃ m n, id = .int32 m ∧ key = .int64 n ∧ m.toInt = n.toInt) ∨
        ∃ m n, id = .int64 m ∧ key = .int32 n ∧ m.toInt = n.toInt) ∧
      ∀ fieldsOf now fields, fieldsOf (repo.type.setModifiedOn now d) = .ok fields →
        let replacement := repo.type.encodeFields fields (repo.type.setModifiedOn now d)
        let after := repo.replaceWritten fieldsOf now d s
        (after.1 = .ok true ↔ ∀ other, replacement.get? "_id" = some other → other == id) ∧
        ((fields.erase repo.type.identity).get? "_id" = none →
          (after.1 = .ok true ↔ id = key.stored)) ∧
        (after.1 = .ok true → after.2.documents repo.name =
          front ++ (("_id", id) :: replacement.erase "_id") :: rest) ∧
        (after.1 ≠ .ok true → after = (.error (.write (.identityChanged id.display)), s)) := by
  obtain ⟨front, stored, id, rest, own, hreads, hown, hstored⟩ :=
    exists_reads hs.isFiled hidentity hkind h
  refine ⟨front, stored, id, rest, hreads, Key.eq_stored_or_width hreads.stores, ?_⟩
  intro fieldsOf now fields hfields replacement after
  have hiff : after.1 = .ok true ↔ ∀ other, replacement.get? "_id" = some other → other == id := by
    obtain ⟨hsame, hok, -⟩ | ⟨hchanged, hrefused⟩ :=
      hreads.replaceWritten_cases hown hstored hfields hs.isFiled
    · exact iff_of_true hok hsame
    · refine iff_of_false (fun hok => ?_) hchanged
      cases (congrArg Prod.fst hrefused).symm.trans hok
  refine ⟨hiff, fun hbody => hiff.trans (hreads.same_iff hown hstored htimestamp hbody), ?_, ?_⟩
  · intro hok
    obtain ⟨-, -, hafter⟩ | ⟨hchanged, -⟩ :=
      hreads.replaceWritten_cases hown hstored hfields hs.isFiled
    · exact hafter
    · exact absurd (hiff.mp hok) hchanged
  · intro hnot
    obtain ⟨hsame, -⟩ | ⟨-, hrefused⟩ := hreads.replaceWritten_cases hown hstored hfields hs.isFiled
    · exact absurd (hiff.mpr hsame) hnot
    · exact hrefused

theorem replaces_read_of_permit :
    let repo : Repository := ⟨Catalogue.permit, ⟨"Permit"⟩⟩
    let s := Store.after {} (.insertMany (fun _ => ⟨0⟩)
      [[("_id", .int64 7), ("lastChanged", .null), ("issuedTo", .string "x")]] "Permit")
    let d : Document := [("permitNumber", .int64 7), ("lastChanged", .null), ("issuedTo", .string "x")]
    repo.getById s (.int64 7) = .ok (some d) ∧ (repo.replaceOne 1 d s).1 = .ok true := by
  intro repo s d
  have hs : Store.Reachable [] s := .after _ .empty
  have hidentity : ∃ t, repo.type.fields.lookup repo.type.identity = some t ∧
      t.required = repo.type.key.fieldType := ⟨_, rfl, rfl⟩
  have hdecode : repo.type.decode
      [("_id", .int64 7), ("lastChanged", .null), ("issuedTo", .string "x")] = .ok d := by rfl
  have hget : repo.getById s (.int64 7) = .ok (some d) := getById_of_decode (by rfl) hdecode
  refine ⟨hget, ?_⟩
  obtain ⟨front, stored, id, rest, hreads, -, hall⟩ :=
    replaces_read_iff hs repo hidentity (by decide) (.int64 7) rfl d hget
  obtain ⟨-, hiff, -⟩ := hall .ok 1 (repo.type.setModifiedOn 1 d) rfl
  have hmem : stored ∈ s.documents "Permit" := by
    rw [show s.documents "Permit" = front ++ stored :: rest from hreads.split]
    simp
  obtain rfl := List.mem_singleton.mp hmem
  exact (hiff rfl).mpr (Option.some.inj (hreads.identity.symm.trans rfl))

/-- A permit under a number of the other width is read and cannot be replaced. -/
theorem not_replaces_read_of_permit :
    let repo : Repository := ⟨Catalogue.permit, ⟨"Permit"⟩⟩
    let s := Store.after {} (.insertMany (fun _ => ⟨0⟩)
      [[("_id", .int32 7), ("lastChanged", .null), ("issuedTo", .string "x")]] "Permit")
    let d : Document := [("permitNumber", .int64 7), ("lastChanged", .null), ("issuedTo", .string "x")]
    Store.Reachable [] s ∧ repo.getById s (.int64 7) = .ok (some d) ∧
      (repo.replaceOne 1 d s).1 = .error (.write (.identityChanged "7")) := by
  intro repo s d
  have hdecode : repo.type.decode
      [("_id", .int32 7), ("lastChanged", .null), ("issuedTo", .string "x")] = .ok d := by rfl
  exact ⟨.after _ .empty, getById_of_decode (by rfl) hdecode, by rfl⟩

end Repository

end Docbase
