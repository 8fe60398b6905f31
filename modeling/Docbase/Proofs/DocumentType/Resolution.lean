import Docbase.Catalogue
import Docbase.Criteria
import Docbase.Proofs.Key
import Docbase.Proofs.Schema

namespace Docbase.DocumentType

variable {T : DocumentType}

/-- Whether no field but the identity can be stored under the key of the identity. -/
def KeepsIdentity (T : DocumentType) : Prop := ∀ t, ("_id", t) ∈ T.fields → T.identity = "_id"

theorem exists_field_of_shape {name : String} {s : Schema String}
    (h : (name, s) ∈ T.shapes T.name) : ∃ t, (name, t) ∈ T.fields := by
  obtain ⟨⟨name', t⟩, hmem, heq⟩ := List.mem_map.mp h
  cases heq
  exact ⟨t, hmem⟩

theorem resolvePath_identity : T.resolvePath Path.identity = .ok Path.identity := by
  simp [resolvePath, Path.identity]

theorem resolvePath_cases {p q : Path} (h : T.resolvePath p = .ok q) :
    (p.head = "_id" ∨ Text.sameIgnoringCase p.head T.identity) ∧ p.tail = [] ∧ q = Path.identity ∨
      ¬(p.head = "_id" ∨ Text.sameIgnoringCase p.head T.identity) ∧
        T.schema.resolve? T.shapes p = some q := by
  unfold resolvePath at h
  split at h
  next hp =>
    rw [Bool.or_eq_true, decide_eq_true_eq] at hp
    split at h
    next htail =>
      cases h
      exact .inl ⟨hp, List.isEmpty_iff.mp htail, rfl⟩
    next => cases h
  next hp =>
    rw [Bool.or_eq_true, decide_eq_true_eq] at hp
    split at h
    next q' hq =>
      cases h
      exact .inr ⟨hp, hq⟩
    next => cases h

theorem resolvePath_of_resolve? {p q : Path}
    (hp : ¬(p.head = "_id" ∨ Text.sameIgnoringCase p.head T.identity))
    (hq : T.schema.resolve? T.shapes p = some q) : T.resolvePath p = .ok q := by
  unfold resolvePath
  rw [if_neg (by simpa using hp), hq]

theorem head_of_resolve? (hT : T.KeepsIdentity) {p q : Path}
    (hp : ¬(p.head = "_id" ∨ Text.sameIgnoringCase p.head T.identity))
    (hq : T.schema.resolve? T.shapes p = some q) :
    ¬(q.head = "_id" ∨ Text.sameIgnoringCase q.head T.identity) := by
  obtain ⟨hhead, s, hs⟩ := Schema.head_of_resolve? hq
  have hidentity : ¬Text.sameIgnoringCase q.head T.identity := fun hid =>
    hp (.inr (Text.sameIgnoringCase_trans (Text.sameIgnoringCase_symm hhead) hid))
  rintro (hkey | hid)
  · rw [hkey] at hs hidentity
    obtain ⟨t, ht⟩ := exists_field_of_shape hs
    rw [hT t ht] at hidentity
    exact hidentity (Text.sameIgnoringCase_refl _)
  · exact hidentity hid

theorem resolvePath_resolved (hT : T.KeepsIdentity) {p q : Path} (h : T.resolvePath p = .ok q) :
    T.resolvePath q = .ok q := by
  obtain ⟨-, -, rfl⟩ | ⟨hp, hq⟩ := resolvePath_cases h
  · exact resolvePath_identity
  · exact resolvePath_of_resolve? (head_of_resolve? hT hp hq) (Schema.resolve?_resolved hq)

theorem normalizeKey_cases (v : Value) :
    T.normalizeKey v = v ∨ ∃ key : Key, T.normalizeKey v = key.stored := by
  unfold normalizeKey
  cases T.key.ofValue v with
  | ok key => exact .inr ⟨key, rfl⟩
  | error fault => exact .inl rfl

theorem normalizeKey_normalized (v : Value) : T.normalizeKey (T.normalizeKey v) = T.normalizeKey v := by
  cases hv : T.key.ofValue v with
  | error fault =>
    have hkept : T.normalizeKey v = v := by simp [normalizeKey, hv]
    rw [hkept, hkept]
  | ok key =>
    have hstored : T.normalizeKey v = key.stored := by simp [normalizeKey, hv]
    have hread := key.ofValue_stored
    rw [KeyKind.kind_of_ofValue hv] at hread
    rw [hstored]
    simp [normalizeKey, hread, key.stored_normal]

theorem normalizeLiteral_stored (op : Operator) (key : Key) :
    T.normalizeLiteral op key.stored = T.normalizeKey key.stored := by
  obtain ⟨harray, hnull⟩ := key.valueClass_stored
  unfold normalizeLiteral
  split
  next items heq => exact absurd (by rw [heq]; rfl) harray
  next items heq => exact absurd (by rw [heq]; rfl) harray
  next heq => exact absurd (by rw [heq]; rfl) hnull
  next => rfl

theorem normalizeLiteral_normalized (op : Operator) (v : Value) :
    T.normalizeLiteral op (T.normalizeLiteral op v) = T.normalizeLiteral op v := by
  have hitems : ∀ items : List Value,
      (items.map T.normalizeKey).map T.normalizeKey = items.map T.normalizeKey := by
    intro items
    simp [Function.comp_def, normalizeKey_normalized]
  have hother : T.normalizeLiteral op v = T.normalizeKey v →
      T.normalizeLiteral op (T.normalizeKey v) = T.normalizeKey v := by
    intro hv
    obtain hkept | ⟨key, hkey⟩ := T.normalizeKey_cases v
    · rw [hkept] at hv ⊢
      exact hv
    · rw [hkey, normalizeLiteral_stored, ← hkey, normalizeKey_normalized]
  cases v with
  | array items =>
    cases op with
    | anyOf | noneOf => exact congrArg Value.array (hitems items)
    | _ => exact hother rfl
  | null => cases op <;> rfl
  | _ =>
    cases op <;> exact hother rfl

mutual

theorem resolveFilter_resolved (hT : T.KeepsIdentity) (f f' : Filter)
    (h : T.resolveFilter f = .ok f') : T.resolveFilter f' = .ok f' := by
  cases f with
  | all parts =>
    obtain ⟨parts', hparts, h⟩ := exists_of_bind_eq_ok h
    cases h
    rw [resolveFilter, resolveFilters_resolved hT parts parts' hparts]
    rfl
  | any parts =>
    obtain ⟨parts', hparts, h⟩ := exists_of_bind_eq_ok h
    cases h
    rw [resolveFilter, resolveFilters_resolved hT parts parts' hparts]
    rfl
  | negation inner =>
    obtain ⟨inner', hinner, h⟩ := exists_of_bind_eq_ok h
    cases h
    rw [resolveFilter, resolveFilter_resolved hT inner inner' hinner]
    rfl
  | present path expected =>
    obtain ⟨path', hpath, h⟩ := exists_of_bind_eq_ok h
    cases h
    rw [resolveFilter, resolvePath_resolved hT hpath]
    rfl
  | comparison path op v =>
    obtain ⟨path', hpath, h⟩ := exists_of_bind_eq_ok h
    cases h
    have hliteral : (if path' = Path.identity then T.normalizeLiteral op
        (if path' = Path.identity then T.normalizeLiteral op v else v)
        else if path' = Path.identity then T.normalizeLiteral op v else v) =
          if path' = Path.identity then T.normalizeLiteral op v else v := by
      by_cases hid : path' = Path.identity
      · simp only [hid, if_true, normalizeLiteral_normalized]
      · simp only [hid, if_false]
    rw [resolveFilter, resolvePath_resolved hT hpath]
    exact congrArg (fun w => Except.ok (Filter.comparison path' op w)) hliteral

theorem resolveFilters_resolved (hT : T.KeepsIdentity) (fs fs' : List Filter)
    (h : T.resolveFilters fs = .ok fs') : T.resolveFilters fs' = .ok fs' := by
  cases fs with
  | nil =>
    cases h
    rfl
  | cons f rest =>
    obtain ⟨f', hf, h⟩ := exists_of_bind_eq_ok h
    obtain ⟨rest', hrest, h⟩ := exists_of_bind_eq_ok h
    cases h
    rw [resolveFilters, resolveFilter_resolved hT f f' hf,
      resolveFilters_resolved hT rest rest' hrest]
    rfl

end

theorem resolveSort_resolved (hT : T.KeepsIdentity) {key key' : SortKey}
    (h : T.resolveSort key = .ok key') : T.resolveSort key' = .ok key' := by
  obtain ⟨path, hpath, h⟩ := exists_of_bind_eq_ok h
  cases h
  rw [resolveSort, resolvePath_resolved hT hpath]
  rfl

theorem resolveFilter_of_parseFilter (hT : T.KeepsIdentity) {text : String} {f : Filter}
    (h : T.parseFilter text = .ok f) : T.resolveFilter f = .ok f := by
  unfold parseFilter at h
  split at h
  next parsed _ => exact resolveFilter_resolved hT parsed f h
  next => cases h

theorem resolveSorts_resolved (hT : T.KeepsIdentity) {keys keys' : List SortKey}
    (h : keys.mapM T.resolveSort = .ok keys') : keys'.mapM T.resolveSort = .ok keys' := by
  have hall := forall₂_of_mapM_eq_ok h
  refine mapM_of_forall_ok ?_
  clear h
  induction hall with
  | nil => nofun
  | cons hkey _ ih =>
    intro key hmem
    obtain rfl | hmem := List.mem_cons.mp hmem
    · exact resolveSort_resolved hT hkey
    · exact ih key hmem

theorem resolveSorts_of_parseOrder (hT : T.KeepsIdentity) {text : String} {keys : List SortKey}
    (h : T.parseOrder text = .ok keys) : keys.mapM T.resolveSort = .ok keys := by
  unfold parseOrder at h
  split at h
  next => exact resolveSorts_resolved hT h
  next => cases h

theorem compile_of_parseOrdered (hT : T.KeepsIdentity) {text order : String} {c : Criteria}
    (h : Criteria.parseOrdered T text order = .ok c) : c.compile T = .ok c.toQuery := by
  obtain ⟨parsed, hparsed, h⟩ := exists_of_bind_eq_ok h
  obtain ⟨f, hf, hparsed⟩ := exists_of_bind_eq_ok hparsed
  cases hparsed
  obtain ⟨keys, hkeys, h⟩ := exists_of_bind_eq_ok h
  cases h
  have hfilter : (some f).mapM T.resolveFilter = .ok (some f) := by
    simp only [Option.mapM_some, resolveFilter_of_parseFilter hT hf]
    rfl
  simp only [Criteria.compile, Criteria.ofFilter, hfilter, resolveSorts_of_parseOrder hT hkeys]
  rfl

/-- Filters and sort keys in stored form are their own stored form. -/
theorem resolve_resolved (hT : T.KeepsIdentity) :
    (∀ f f', T.resolveFilter f = .ok f' → T.resolveFilter f' = .ok f') ∧
    ∀ key key', T.resolveSort key = .ok key' → T.resolveSort key' = .ok key' :=
  ⟨resolveFilter_resolved hT, fun _ _ => resolveSort_resolved hT⟩

theorem resolve_resolved_of_restaurants :
    let f : Filter := .all [.present ⟨"GRADES", ["0", "Score"]⟩ true,
      .comparison ⟨"ID", []⟩ .anyOf (.array [.string "507F1F77BCF86CD799439011", .string "a"])]
    let f' : Filter := .all [.present ⟨"grades", ["0", "score"]⟩ true,
      .comparison Path.identity .anyOf
        (.array [.objectId ⟨0x507f1f77bcf86cd799439011⟩, .string "a"])]
    Catalogue.restaurant.resolveFilter f = .ok f' ∧ Catalogue.restaurant.resolveFilter f' = .ok f' := by
  intro f f'
  have hT : Catalogue.restaurant.KeepsIdentity := by
    intro t ht
    have hname : "_id" ∈ Catalogue.restaurant.fields.map Prod.fst := List.mem_map_of_mem ht
    exact absurd hname (by decide)
  have hpath : Catalogue.restaurant.resolvePath ⟨"GRADES", ["0", "Score"]⟩ =
      .ok ⟨"grades", ["0", "score"]⟩ := by rfl
  have hid : Catalogue.restaurant.resolvePath ⟨"ID", []⟩ = .ok Path.identity := by rfl
  have hf : Catalogue.restaurant.resolveFilter f = .ok f' := by
    simp only [f, resolveFilter, resolveFilters, hpath, hid]
    rfl
  exact ⟨hf, (resolve_resolved hT).1 f f' hf⟩

end Docbase.DocumentType
