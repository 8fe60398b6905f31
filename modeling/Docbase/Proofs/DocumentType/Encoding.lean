import Docbase.Catalogue
import Docbase.Failure
import Docbase.Proofs.Document
import Docbase.Proofs.DocumentType.Resolution
import Docbase.Proofs.Number.Decimal

namespace Docbase

def KeyKind.fieldType : KeyKind → FieldType
  | .text => .string
  | .objectId => .objectId
  | .uuid => .uuid
  | .textUuid => .textUuid
  | .int64 => .int64
  | .int32 => .int32

namespace FieldType

variable {records : String → List (String × FieldType)} {declared : List (String × FieldType)}
  {kind : KeyKind} {t : FieldType} {v w : Value} {fields d : Document}

/-- `Restores records declared fields d`: the declared fields are written out as `fields`, and each
is read from there as it is in `d`. An optional field without a value need not be written. -/
structure Restores (records : String → List (String × FieldType))
    (declared : List (String × FieldType)) (fields d : Document) : Prop where
  typed : d.keys = declared.map Prod.fst
  distinct : fields.keys.Nodup
  written : ∀ name ∈ fields.keys, name ∈ declared.map Prod.fst
  values : ∀ name t, declared.lookup name = some t → ∃ v, d.get? name = some v ∧
    ((fields.get? name).bind (read? records t) = some v ∨
      fields.get? name = none ∧ v = .null ∧ t.isOptional)

namespace Restores

theorem nil : Restores records [] [] [] := ⟨rfl, List.nodup_nil, nofun, nofun⟩

theorem cons {name : String} (hname : name ∉ declared.map Prod.fst)
    (hread : read? records t w = some v) (h : Restores records declared fields d) :
    Restores records ((name, t) :: declared) ((name, w) :: fields) ((name, v) :: d) where
  typed := congrArg (name :: ·) h.typed
  distinct := List.nodup_cons.mpr ⟨fun hmem => hname (h.written name hmem), h.distinct⟩
  written := by
    intro other hother
    obtain rfl | hother := List.mem_cons.mp hother
    · exact List.mem_cons_self
    · exact List.mem_cons_of_mem _ (h.written other hother)
  values := by
    intro other u hu
    rw [lookup_cons] at hu
    simp only [Document.get?_cons]
    by_cases heq : other = name
    · rw [if_pos heq] at hu
      obtain rfl := Option.some.inj hu
      exact ⟨v, if_pos heq.symm, .inl (by rw [if_pos heq.symm]; exact hread)⟩
    · rw [if_neg heq] at hu
      simp only [if_neg (Ne.symm heq)]
      exact h.values other u hu

theorem omitted {name : String} (hname : name ∉ declared.map Prod.fst) (ht : t.isOptional)
    (h : Restores records declared fields d) :
    Restores records ((name, t) :: declared) fields ((name, .null) :: d) where
  typed := congrArg (name :: ·) h.typed
  distinct := h.distinct
  written := fun other hother => List.mem_cons_of_mem _ (h.written other hother)
  values := by
    intro other u hu
    rw [lookup_cons] at hu
    simp only [Document.get?_cons]
    by_cases heq : other = name
    · rw [if_pos heq] at hu
      obtain rfl := Option.some.inj hu
      have hmissing : fields.get? other = none :=
        lookup_eq_none_iff.mpr fun hmem => hname (heq ▸ h.written other hmem)
      exact ⟨.null, if_pos heq.symm, .inr ⟨hmissing, rfl, ht⟩⟩
    · rw [if_neg heq] at hu
      simp only [if_neg (Ne.symm heq)]
      exact h.values other u hu

theorem insert {name : String} (h : Restores records declared fields d)
    (ht : declared.lookup name = some t) (hread : read? records t w = some v) :
    Restores records declared (fields.insert name w) (d.insert name v) where
  typed := by
    obtain ⟨old, hold, -⟩ := h.values name t ht
    rw [d.keys_insert_of_get?_eq_some hold, h.typed]
  distinct := Document.nodup_keys_insert _ h.distinct
  written := by
    intro other hother
    obtain rfl | hother := (Document.mem_keys_insert _).mp hother
    · exact List.mem_map_of_mem (mem_of_lookup ht)
    · exact h.written other hother
  values := by
    intro other u hu
    simp only [Document.get?_insert]
    by_cases heq : name = other
    · subst heq
      obtain rfl := Option.some.inj (ht.symm.trans hu)
      exact ⟨v, if_pos rfl, .inl (by rw [if_pos rfl]; exact hread)⟩
    · simp only [if_neg heq]
      exact h.values other u hu

end Restores

theorem forall₂_of_keys {d : Document} (h : d.keys = declared.map Prod.fst) :
    List.Forall₂ (fun f g => f ∈ declared ∧ g ∈ d ∧ f.1 = g.1) declared d := by
  induction declared generalizing d with
  | nil =>
    obtain rfl : d = [] := List.map_eq_nil_iff.mp h
    exact .nil
  | cons f declared ih =>
    obtain ⟨g, rest, rfl, hname, hrest⟩ := List.map_eq_cons_iff.mp h
    refine .cons ⟨List.mem_cons_self, List.mem_cons_self, hname.symm⟩ ((ih hrest).imp ?_)
    rintro f' g' ⟨hf, hg, heq⟩
    exact ⟨List.mem_cons_of_mem _ hf, List.mem_cons_of_mem _ hg, heq⟩

theorem get?_of_readFields? {stored found : Document}
    (h : readFields? records declared stored = some found) {name : String}
    (ht : declared.lookup name = some t) :
    found.get? name = (stored.get? name).bind (read? records t) := by
  induction stored generalizing found with
  | nil =>
    rw [readFields?] at h
    cases h
    rfl
  | cons field stored ih =>
    obtain ⟨k, w⟩ := field
    rw [readFields?] at h
    rw [Document.get?_cons]
    cases hk : declared.lookup k with
    | none =>
      rw [hk] at h
      have hne : k ≠ name := by
        rintro rfl
        cases hk.symm.trans ht
      rw [if_neg hne]
      exact ih h
    | some u =>
      rw [hk] at h
      obtain ⟨v, hv, h⟩ := Option.bind_eq_some_iff.mp h
      obtain ⟨rest, hrest, h⟩ := Option.bind_eq_some_iff.mp h
      obtain rfl := Option.some.inj h
      rw [Document.get?_cons]
      split
      next heq =>
        subst heq
        obtain rfl := Option.some.inj (hk.symm.trans ht)
        exact hv.symm
      next => exact ih hrest

theorem exists_readFields? {stored : Document}
    (h : ∀ name w, (name, w) ∈ stored → ∀ t, declared.lookup name = some t →
      ∃ v, read? records t w = some v) :
    ∃ found, readFields? records declared stored = some found := by
  induction stored with
  | nil => exact ⟨[], by rw [readFields?]⟩
  | cons field stored ih =>
    obtain ⟨k, w⟩ := field
    obtain ⟨found, hfound⟩ := ih fun name u hmem => h name u (by simp [hmem])
    rw [readFields?]
    cases hk : declared.lookup k with
    | none => exact ⟨found, hfound⟩
    | some t =>
      obtain ⟨v, hv⟩ := h k w (by simp) t hk
      exact ⟨(k, v) :: found, by simp [hv, hfound]⟩

theorem get?_of_arrange? {found : Document} (h : arrange? declared found = some d) {name : String}
    (ht : declared.lookup name = some t) (hv : found.get? name = some v) :
    d.get? name = some v := by
  induction declared generalizing d with
  | nil => cases ht
  | cons field declared ih =>
    obtain ⟨k, u⟩ := field
    rw [arrange?, List.mapM_cons] at h
    obtain ⟨⟨k', w⟩, hfirst, h⟩ := Option.bind_eq_some_iff.mp h
    obtain ⟨rest, hrest, h⟩ := Option.bind_eq_some_iff.mp h
    obtain rfl := Option.some.inj h
    rw [lookup_cons] at ht
    rw [Document.get?_cons]
    by_cases hname : name = k
    · subst hname
      simp only [hv] at hfirst
      cases hfirst
      rw [if_pos rfl]
    · have hk : k' = k := by
        dsimp only at hfirst
        split at hfirst
        · cases hfirst
          rfl
        · split at hfirst <;> cases hfirst
          rfl
      rw [if_neg hname] at ht
      rw [hk, if_neg (Ne.symm hname)]
      exact ih hrest ht

theorem mapM_eq_some_of_forall₂ {α β : Type} {f : α → Option β} {xs : List α} {ys : List β}
    (h : List.Forall₂ (fun x y => f x = some y) xs ys) : xs.mapM f = some ys := by
  induction h with
  | nil => rfl
  | cons hx _ ih => simp [List.mapM_cons, hx, ih]

theorem ne_any (ht : t.required = kind.fieldType) : t ≠ any := by
  rintro rfl
  cases kind <;> cases ht

theorem read?_of_required (ht : t.required = kind.fieldType) (hw : w ≠ .null) :
    read? records t w = kind.fieldType.readPlain? w := by
  cases w with
  | null => exact absurd rfl hw
  | array | document =>
    rw [read?, ht]
    cases kind <;> rfl
  | _ => simp only [read?, ht]

theorem exists_key_of_readPlain? (h : kind.fieldType.readPlain? w = some v) :
    ∃ key : Key, key.kind = kind ∧ v = key.field := by
  cases kind with
  | text =>
    obtain ⟨s, -, rfl⟩ := Option.map_eq_some_iff.mp h
    exact ⟨.text s, rfl, rfl⟩
  | objectId =>
    obtain ⟨id, -, rfl⟩ := Option.map_eq_some_iff.mp h
    exact ⟨.objectId id, rfl, rfl⟩
  | uuid =>
    obtain ⟨u, -, rfl⟩ := Option.map_eq_some_iff.mp h
    exact ⟨.uuid u, rfl, rfl⟩
  | textUuid =>
    obtain ⟨u, -, rfl⟩ := Option.map_eq_some_iff.mp h
    exact ⟨.textUuid u, rfl, rfl⟩
  | int64 =>
    obtain ⟨i, -, h⟩ := Option.bind_eq_some_iff.mp h
    obtain ⟨n, -, h⟩ := Option.bind_eq_some_iff.mp h
    exact ⟨.int64 n, rfl, (Option.some.inj h).symm⟩
  | int32 =>
    obtain ⟨i, -, h⟩ := Option.bind_eq_some_iff.mp h
    obtain ⟨n, -, h⟩ := Option.bind_eq_some_iff.mp h
    exact ⟨.int32 n, rfl, (Option.some.inj h).symm⟩

theorem key_of_read? (ht : t.required = kind.fieldType) (h : read? records t w = some v) :
    (v = .null ∧ t.isOptional) ∨ ∃ key : Key, key.kind = kind ∧ v = key.field := by
  by_cases hw : w = .null
  · subst hw
    rw [read?, decide_eq_false (ne_any ht), Bool.or_false] at h
    split at h
    next hoptional => exact .inl ⟨(Option.some.inj h).symm, hoptional⟩
    next => cases h
  · rw [read?_of_required ht hw] at h
    exact .inr (exists_key_of_readPlain? h)

theorem read?_field (key : Key) (ht : t.required = key.kind.fieldType) :
    read? records t key.field = some key.field := by
  rw [read?_of_required ht key.field_ne_null]
  cases key with
  | text s => rfl
  | objectId id => rfl
  | uuid u => simp [Key.kind, Key.field, KeyKind.fieldType, readPlain?, Uuid.ofValue?,
      Uuid.ofBytes?_bytes]
  | textUuid u => simp [Key.kind, Key.field, KeyKind.fieldType, readPlain?, readTextUuid?,
      Uuid.ofText?_text]
  | int64 n => simp [Key.kind, Key.field, KeyKind.fieldType, readPlain?, Value.integer?,
      Number.int64?_toInt]
  | int32 n => simp [Key.kind, Key.field, KeyKind.fieldType, readPlain?, Value.integer?,
      Number.int32?_toInt]

end FieldType

namespace DocumentType

open FieldType (Restores)

/-- What the declaration of a document type sees to: every field has a name of its own, the identity
is one of the fields and holds a key, and no other field is stored as `_id`. -/
structure IsDeclared (T : DocumentType) : Prop where
  names : (T.fields.map Prod.fst).Nodup
  keepsIdentity : T.KeepsIdentity
  identity : ∃ t, T.fields.lookup T.identity = some t ∧ t.required = T.key.fieldType

variable {T : DocumentType} {fields d stored : Document}

theorem isDeclared_of_mem_types (hT : T ∈ Catalogue.types) : T.IsDeclared := by
  have hall : ∀ T ∈ Catalogue.types, (T.fields.map Prod.fst).Nodup ∧ "_id" ∉ T.fields.map Prod.fst ∧
      (T.fields.lookup T.identity).map FieldType.required = some T.key.fieldType := by decide
  obtain ⟨hnames, hid, hkey⟩ := hall T hT
  exact ⟨hnames, fun t ht => absurd (List.mem_map_of_mem ht) hid, Option.map_eq_some_iff.mp hkey⟩

theorem get?_encodeFields (h : (fields.erase T.identity).get? "_id" = none) :
    (T.encodeFields fields d).get? "_id" = (T.keyOf? d).map Key.stored := by
  unfold encodeFields
  cases T.keyOf? d with
  | none => exact h
  | some key => exact Document.get?_ofList_cons _ h

theorem keyOf?_of_field {key : Key} (hget : d.get? T.identity = some key.field)
    (hkind : key.kind = T.key) : T.keyOf? d = some key := by
  have hread : T.key.ofValue key.field = .ok key := hkind ▸ key.ofValue_field
  unfold keyOf?
  rw [hget]
  split
  next h => cases h
  next h => exact absurd (Option.some.inj h) key.field_ne_null
  next v _ h =>
    obtain rfl := Option.some.inj h
    rw [hread]
    rfl

theorem get?_of_read? (h : T.read? (.document stored) = some d) {name : String} {t : FieldType}
    (ht : T.fields.lookup name = some t) {v w : Value} (hw : stored.get? name = some w)
    (hv : FieldType.read? T.records t w = some v) : d.get? name = some v := by
  unfold read? at h
  split at h
  next hrecord =>
    obtain rfl := Option.some.inj h
    rw [FieldType.read?] at hrecord
    obtain ⟨found, hfound, hrecord⟩ := Option.bind_eq_some_iff.mp hrecord
    obtain ⟨_, harrange, heq⟩ := Option.map_eq_some_iff.mp hrecord
    cases heq
    have hget := FieldType.get?_of_readFields? hfound ht
    rw [hw, Option.bind_some, hv] at hget
    exact FieldType.get?_of_arrange? harrange ht hget
  next => cases h

theorem exists_keyOf?_of_decode (h : T.decode stored = .ok d)
    (hidentity : ∃ t, T.fields.lookup T.identity = some t ∧ t.required = T.key.fieldType)
    {id : Value} (hid : stored.get? "_id" = some id) :
    ∃ key, T.key.ofValue id = .ok key ∧ T.keyOf? d = some key := by
  unfold decode at h
  rw [hid] at h
  obtain ⟨key, hkey, h⟩ := exists_of_bind_eq_ok h
  obtain ⟨named, hnamed, h⟩ := exists_of_bind_eq_ok h
  obtain rfl := Except.ok.inj hnamed
  dsimp only at h
  obtain ⟨t, ht, hrequired⟩ := hidentity
  have hkind : key.kind = T.key := KeyKind.kind_of_ofValue hkey
  split at h
  next d' hread =>
    obtain rfl := Except.ok.inj h
    refine ⟨key, hkey, keyOf?_of_field ?_ hkind⟩
    refine get?_of_read? hread ht ?_ (FieldType.read?_field key (hrequired.trans (by rw [hkind])))
    rw [Document.get?_insert, if_pos rfl]
  next => cases h

namespace IsDeclared

/-- Either a document has no identity and need not have one, or its identity is the field of a
key. -/
theorem keyOf?_cases (hT : T.IsDeclared) (h : Restores T.records T.fields fields d) :
    ∃ t, T.fields.lookup T.identity = some t ∧
      (T.keyOf? d = none ∧ d.get? T.identity = some .null ∧ t.isOptional ∨
        ∃ key, T.keyOf? d = some key ∧ d.get? T.identity = some key.field ∧
          FieldType.read? T.records t key.field = some key.field) := by
  obtain ⟨t, ht, hrequired⟩ := hT.identity
  obtain ⟨v, hget, hvalue⟩ := h.values T.identity t ht
  have habsent : v = .null → T.keyOf? d = none ∧ d.get? T.identity = some .null := by
    rintro rfl
    exact ⟨by simp [keyOf?, hget], hget⟩
  refine ⟨t, ht, ?_⟩
  obtain hread | ⟨-, hnull, hoptional⟩ := hvalue
  · obtain ⟨w, -, hread⟩ := Option.bind_eq_some_iff.mp hread
    obtain ⟨hnull, hoptional⟩ | ⟨key, hkind, rfl⟩ := FieldType.key_of_read? hrequired hread
    · exact .inl ⟨(habsent hnull).1, (habsent hnull).2, hoptional⟩
    · right
      exact ⟨key, keyOf?_of_field hget hkind, hget,
        FieldType.read?_field key (hrequired.trans (by rw [hkind]))⟩
  · exact .inl ⟨(habsent hnull).1, (habsent hnull).2, hoptional⟩

/-- A document with the fields as they were written and the identity as a field of its own holds
every value of the typed document, unless it is absent in both. -/
theorem value_cases (hT : T.IsDeclared) (h : Restores T.records T.fields fields d)
    (hid : stored.get? T.identity = (T.keyOf? d).map Key.field)
    (hother : ∀ name, name ≠ T.identity → stored.get? name = fields.get? name)
    {name : String} {t : FieldType} {v : Value} (ht : T.fields.lookup name = some t)
    (hget : d.get? name = some v) :
    (stored.get? name).bind (FieldType.read? T.records t) = some v ∨
      stored.get? name = none ∧ v = .null ∧ t.isOptional := by
  by_cases hname : name = T.identity
  · subst hname
    obtain ⟨t', ht', hcases⟩ := hT.keyOf?_cases h
    obtain rfl := Option.some.inj (ht.symm.trans ht')
    obtain ⟨hnone, hnull, hoptional⟩ | ⟨key, hkey, hfield, hread⟩ := hcases
    · right
      rw [hid, hnone]
      exact ⟨rfl, Option.some.inj (hget.symm.trans hnull), hoptional⟩
    · left
      obtain rfl := Option.some.inj (hget.symm.trans hfield)
      rw [hid, hkey]
      exact hread
  · obtain ⟨v', hget', hvalue⟩ := h.values name t ht
    obtain rfl := Option.some.inj (hget.symm.trans hget')
    rwa [hother name hname]

theorem read?_eq (hT : T.IsDeclared) (h : Restores T.records T.fields fields d)
    (hn : stored.keys.Nodup) (hid : stored.get? T.identity = (T.keyOf? d).map Key.field)
    (hother : ∀ name, name ≠ T.identity → stored.get? name = fields.get? name) :
    T.read? (.document stored) = some d := by
  have hreads : ∀ name w, (name, w) ∈ stored → ∀ t, T.fields.lookup name = some t →
      ∃ v, FieldType.read? T.records t w = some v := by
    intro name w hmem t ht
    have hw := stored.get?_of_mem hn hmem
    obtain ⟨v, hv, -⟩ := h.values name t ht
    obtain hread | ⟨hnone, -⟩ := hT.value_cases h hid hother ht hv
    · rw [hw] at hread
      exact ⟨v, hread⟩
    · rw [hw] at hnone
      cases hnone
  obtain ⟨found, hfound⟩ := FieldType.exists_readFields? hreads
  have harrange : FieldType.arrange? T.fields found = some d := by
    refine FieldType.mapM_eq_some_of_forall₂ ((FieldType.forall₂_of_keys h.typed).imp ?_)
    rintro ⟨name, t⟩ ⟨-, v⟩ ⟨ht, hv, rfl⟩
    have hlookup := lookup_of_mem hT.names ht
    have hget := FieldType.get?_of_readFields? hfound hlookup
    obtain hread | ⟨hnone, rfl, hoptional⟩ :=
      hT.value_cases h hid hother hlookup (d.get?_of_mem (h.typed ▸ hT.names) hv)
    · simp only [hget, hread]
    · rw [hnone, Option.bind_none] at hget
      simp only [hget, hoptional, if_true]
  have hrecord : FieldType.read? T.records (.record T.name) (.document stored) =
      some (.document d) := by
    rw [FieldType.read?]
    change (FieldType.readFields? T.records T.fields stored >>= fun found =>
      (FieldType.arrange? T.fields found).map Value.document) = _
    rw [hfound]
    exact congrArg (Option.map Value.document) harrange
  rw [read?, hrecord]

theorem get?_body (hT : T.IsDeclared) (h : Restores T.records T.fields fields d) :
    (fields.erase T.identity).get? "_id" = none := by
  by_cases hid : T.identity = "_id"
  · rw [hid]
    exact fields.get?_erase_self h.distinct
  · rw [fields.get?_erase_of_ne hid]
    refine lookup_eq_none_iff.mpr fun hmem => ?_
    replace hmem := h.written _ hmem
    obtain ⟨⟨name, t⟩, ht, rfl⟩ := List.mem_map.mp hmem
    exact hid (hT.keepsIdentity t ht)

theorem encodeFields_cases (hT : T.IsDeclared) (h : Restores T.records T.fields fields d) :
    (T.keyOf? d = none ∧ T.encodeFields fields d = fields.erase T.identity) ∨
      ∃ key, T.keyOf? d = some key ∧
        T.encodeFields fields d = ("_id", key.stored) :: fields.erase T.identity := by
  unfold encodeFields
  cases T.keyOf? d with
  | none => exact .inl ⟨rfl, rfl⟩
  | some key =>
    right
    refine ⟨key, rfl, ?_⟩
    apply Document.ofList_of_nodup
    exact List.nodup_cons.mpr ⟨lookup_eq_none_iff.mp (hT.get?_body h),
      fields.nodup_keys_erase h.distinct⟩

end IsDeclared

theorem decode_of_get?_eq_none (hid : stored.get? "_id" = none)
    (hread : T.read? (.document stored) = some d) : T.decode stored = .ok d := by
  unfold decode
  rw [hid]
  simp only [bind, Except.bind, hread]

theorem decode_cons {body : Document} {id : Value} {key : Key} (hkey : T.key.ofValue id = .ok key)
    (hread : T.read? (.document (body.insert T.identity key.field)) = some d) :
    T.decode (("_id", id) :: body) = .ok d := by
  unfold decode
  rw [Document.get?_cons_self, Document.erase, if_pos rfl]
  simp only [bind, Except.bind, hkey, hread]

theorem IsDeclared.decode_filed (hT : T.IsDeclared) (h : Restores T.records T.fields fields d)
    {id : Value} {key : Key} (hkey : T.key.ofValue id = .ok key) :
    T.decode (("_id", id) :: fields.erase T.identity) = .ok (T.setKey key d) := by
  have hkind : key.kind = T.key := KeyKind.kind_of_ofValue hkey
  obtain ⟨t, ht, hrequired⟩ := hT.identity
  have hread : FieldType.read? T.records t key.field = some key.field :=
    FieldType.read?_field key (hrequired.trans (by rw [hkind]))
  have hset : T.keyOf? (T.setKey key d) = some key :=
    keyOf?_of_field (by rw [setKey, Document.get?_insert, if_pos rfl]) hkind
  refine decode_cons hkey (hT.read?_eq (h.insert ht hread) ?_ ?_ fun name hname => ?_)
  · exact Document.nodup_keys_insert _ (fields.nodup_keys_erase h.distinct)
  · rw [hset, Document.get?_insert, if_pos rfl, Option.map_some]
  · rw [Document.get?_insert_of_ne _ (Ne.symm hname), Document.get?_insert_of_ne _ (Ne.symm hname),
      fields.get?_erase_of_ne (Ne.symm hname)]

theorem IsDeclared.timestamp_ne (hT : T.IsDeclared) {now : Int64}
    (h : Restores T.records T.fields fields (T.setModifiedOn now d)) : T.timestamp ≠ T.identity := by
  intro hname
  have hget : (T.setModifiedOn now d).get? T.identity = some (.dateTime now) := by
    rw [setModifiedOn, Document.get?_insert, if_pos hname]
  obtain ⟨-, -, ⟨-, hnull, -⟩ | ⟨key, -, hfield, -⟩⟩ := hT.keyOf?_cases h
  · cases hget.symm.trans hnull
  · have hkey := Option.some.inj (hget.symm.trans hfield)
    cases key <;> cases hkey

theorem keyOf?_setModifiedOn (h : T.timestamp ≠ T.identity) (now : Int64) (d : Document) :
    T.keyOf? (T.setModifiedOn now d) = T.keyOf? d := by
  unfold keyOf?
  rw [setModifiedOn, Document.get?_insert_of_ne _ h]

/-- Decoding undoes encoding: where each field is read from the form that it is written in, and the
identity is absent or the key that its stored form is read as, the typed document can be encoded and
is decoded again. The stored form starts with `_id` if there is an identity, and has no field of the
identity's own name besides. -/
theorem decode_encodeFields (hT : T.IsDeclared) {fieldsOf : Document → Except Failure Document}
    (hwritten : fieldsOf d = .ok fields) (h : Restores T.records T.fields fields d)
    (hkey : ∀ key, T.keyOf? d = some key → T.key.ofValue key.stored = .ok key) :
    ∃ stored, (fieldsOf d).map (T.encodeFields · d) = .ok stored ∧
      (stored.keys.head? = some "_id" ↔ (T.keyOf? d).isSome) ∧
      (T.identity ∈ stored.keys → T.identity = "_id") ∧ T.decode stored = .ok d := by
  have hbody := hT.get?_body h
  have hown := fields.get?_erase_self (k := T.identity) h.distinct
  have hothers : ∀ name, name ≠ T.identity →
      (fields.erase T.identity).get? name = fields.get? name :=
    fun name hname => fields.get?_erase_of_ne (Ne.symm hname)
  refine ⟨T.encodeFields fields d, by rw [hwritten]; rfl, ?_⟩
  obtain ⟨hnone, hstored⟩ | ⟨key, hsome, hstored⟩ := hT.encodeFields_cases h
  · rw [hstored, hnone]
    have hread := hT.read?_eq h (fields.nodup_keys_erase h.distinct) (by rw [hown, hnone]; rfl) hothers
    refine ⟨?_, fun hmem => absurd hmem (lookup_eq_none_iff.mp hown), ?_⟩
    · constructor
      · exact fun hhead => absurd (List.mem_of_head? hhead) (lookup_eq_none_iff.mp hbody)
      · exact nofun
    · exact decode_of_get?_eq_none hbody hread
  · have hread : T.read? (.document ((fields.erase T.identity).insert T.identity key.field)) =
        some d := by
      refine hT.read?_eq h ?_ ?_ fun name hname => ?_
      · exact Document.nodup_keys_insert _ (fields.nodup_keys_erase h.distinct)
      · rw [hsome, Document.get?_insert, if_pos rfl, Option.map_some]
      · rw [Document.get?_insert, if_neg (Ne.symm hname), hothers name hname]
    rw [hstored, hsome]
    refine ⟨by simp [Document.keys], ?_, ?_⟩
    · intro hmem
      obtain heq | hmem := List.mem_cons.mp hmem
      · exact heq
      · exact absurd hmem (lookup_eq_none_iff.mp hown)
    · exact decode_cons (hkey key hsome) hread

/-- The UUID of a device is a string in its own field and a binary as the stored identity. A time that
there is not is not written. -/
theorem decode_encodeFields_of_device :
    let T := Catalogue.device
    let u : Uuid := ⟨0x00112233445566778899AABBCCDDEEFF⟩
    let d : Document := [("deviceKey", .string u.text), ("touched", .null), ("label", .string "x"),
      ("meta", .document [("a", .array [.int32 1, .null])])]
    T.keyOf? d = some (.textUuid u) ∧
      ∃ stored, stored.get? "_id" = some (.binary uuidSubtype u.bytes) ∧
        "deviceKey" ∉ stored.keys ∧ T.decode stored = .ok d := by
  intro T u d
  let fields : Document := [("deviceKey", .string u.text), ("label", .string "x"),
    ("meta", .document [("a", .array [.int32 1, .null])])]
  have hT : T.IsDeclared := isDeclared_of_mem_types (by simp [T, Catalogue.types])
  have hmeta : FieldType.read? Catalogue.records .map (.document [("a", .array [.int32 1, .null])]) =
      some (.document [("a", .array [.int32 1, .null])]) := by
    rw [FieldType.read?]
    change (some (Value.document (List.mergeSort [("a", .array [.int32 1, .null])] _)).plain) = _
    rw [List.mergeSort_singleton]
    rfl
  have hfields : Restores T.records T.fields fields d :=
    .cons (by decide) (FieldType.read?_field (.textUuid u) rfl)
      (.omitted (by decide) rfl (.cons (by decide) rfl (.cons (by decide) hmeta .nil)))
  have hkey : T.keyOf? d = some (.textUuid u) := keyOf?_of_field rfl rfl
  have hread : T.key.ofValue (Key.textUuid u).stored = .ok (.textUuid u) := by
    have hbytes : Uuid.ofValue? (.binary uuidSubtype u.bytes) = some u := u.ofBytes?_bytes
    simp [T, Catalogue.device, Key.stored, KeyKind.ofValue, KeyKind.uuidOf, hbytes, Except.map]
  let fieldsOf : Document → Except Failure Document := fun _ => .ok fields
  have hwritten : fieldsOf d = .ok fields := rfl
  obtain ⟨stored, hstored, -, hname, hdecode⟩ := decode_encodeFields hT hwritten hfields
    fun key h => by
      obtain rfl := Option.some.inj (hkey.symm.trans h)
      exact hread
  obtain rfl : T.encodeFields fields d = stored := Except.ok.inj hstored
  have hid := get?_encodeFields (d := d) (hT.get?_body hfields)
  rw [hkey] at hid
  exact ⟨hkey, _, hid, fun hmem => absurd (hname hmem) (by decide), hdecode⟩

end DocumentType

end Docbase
