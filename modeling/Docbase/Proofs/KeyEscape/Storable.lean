import Docbase.Proofs.KeyEscape
import Docbase.Proofs.Location

namespace Docbase

def Step.mapKey (f : String → String) : Step → Step
  | key k => key (f k)
  | index i => index i

namespace Value

/-- `v.Holds loc w`: through documents and arrays the location leads from `v` to `w`, which may be any
of several values if a key is repeated. -/
inductive Holds : Value → Location → Value → Prop where
  | here (v : Value) : Holds v [] v
  | field {fields : List (String × Value)} {k : String} {c w : Value} {loc : Location} :
    (k, c) ∈ fields → Holds c loc w → Holds (document fields) (.key k :: loc) w
  | item {items : List Value} {i : Nat} {c w : Value} {loc : Location} :
    items[i]? = some c → Holds c loc w → Holds (array items) (.index i :: loc) w

/-- Whether the value is neither a document nor an array. -/
def IsLeaf (v : Value) : Prop := (∀ fields, v ≠ document fields) ∧ ∀ items, v ≠ array items

end Value

namespace KeyEscape

open Value

variable {f : String → String}

theorem mapKeys_eq_self_of_isLeaf {v : Value} (h : (mapKeys f v).IsLeaf) : mapKeys f v = v := by
  cases v with
  | document fields => exact absurd rfl (h.1 _)
  | array items => exact absurd rfl (h.2 _)
  | _ => rfl

theorem exists_of_mem_ofList_mapFields {fields : Document} {k : String} {c : Value}
    (h : (k, c) ∈ Document.ofList (mapFields f fields)) :
    ∃ l v, (l, v) ∈ fields ∧ f l = k ∧ mapKeys f v = c := by
  have hmem := Document.mem_of_mem_ofList h
  rw [mapFields_eq_map, List.mem_map] at hmem
  obtain ⟨⟨l, v⟩, hfield, heq⟩ := hmem
  obtain ⟨hk, hc⟩ := Prod.mk.inj heq
  exact ⟨l, v, hfield, hk, hc⟩

/-- Whatever the changed value holds was held by the value, at a location with the keys before the
change. -/
theorem exists_of_holds_mapKeys {v w : Value} {loc : Location} (h : (mapKeys f v).Holds loc w) :
    ∃ loc' w', v.Holds loc' w' ∧ loc'.map (Step.mapKey f) = loc ∧ mapKeys f w' = w := by
  generalize hu : mapKeys f v = u at h
  induction h generalizing v with
  | here u => exact ⟨[], v, .here v, rfl, hu⟩
  | field hmem _ ih =>
    cases v with
    | document fields =>
      rw [mapKeys, document.injEq] at hu
      obtain ⟨l, c, hfield, rfl, hc⟩ := exists_of_mem_ofList_mapFields (hu ▸ hmem)
      obtain ⟨loc', w', hholds, rfl, hw⟩ := ih hc
      exact ⟨.key l :: loc', w', .field hfield hholds, rfl, hw⟩
    | _ => cases hu
  | item hget _ ih =>
    cases v with
    | array items =>
      rw [mapKeys, array.injEq, mapItems_eq_map] at hu
      rw [← hu, List.getElem?_map, Option.map_eq_some_iff] at hget
      obtain ⟨c, hitem, hc⟩ := hget
      obtain ⟨loc', w', hholds, rfl, hw⟩ := ih hc
      exact ⟨_ :: loc', w', .item hitem hholds, rfl, hw⟩
    | _ => cases hu

theorem mapFields_eq_self {fields : List (String × Value)}
    (h : ∀ field ∈ fields, f field.1 = field.1 ∧ mapKeys f field.2 = field.2) :
    mapFields f fields = fields := by
  rw [mapFields_eq_map]
  exact (List.map_congr_left fun field hfield =>
    Prod.ext (h field hfield).1 (h field hfield).2).trans (List.map_id fields)

theorem ofList_mapFields_ofList_mapFields (hf : ∀ key, f (f key) = f key) {fields : Document}
    (h : ∀ field ∈ fields, mapKeys f (mapKeys f field.2) = mapKeys f field.2) :
    Document.ofList (mapFields f (Document.ofList (mapFields f fields))) =
      Document.ofList (mapFields f fields) := by
  have hself : mapFields f (Document.ofList (mapFields f fields)) =
      Document.ofList (mapFields f fields) := by
    refine mapFields_eq_self fun (k, c) hmem => ?_
    obtain ⟨l, v, hfield, rfl, rfl⟩ := exists_of_mem_ofList_mapFields hmem
    exact ⟨hf l, h _ hfield⟩
  rw [hself, Document.ofList_of_nodup _ (Document.nodup_keys_ofList _)]

mutual

theorem mapKeys_mapKeys (hf : ∀ key, f (f key) = f key) (v : Value) :
    mapKeys f (mapKeys f v) = mapKeys f v := by
  match v with
  | .document fields =>
    rw [mapKeys, mapKeys, ofList_mapFields_ofList_mapFields hf (mapKeys_mapKeys_of_field hf fields)]
  | .array items =>
    rw [mapKeys, mapKeys, mapItems_eq_map, mapItems_eq_map, List.map_map]
    exact congrArg array (List.map_congr_left (mapKeys_mapKeys_of_item hf items))
  | .null | .undefined | .minKey | .maxKey | .bool _ | .int32 _ | .int64 _ | .double _ | .string _
  | .symbol _ | .code _ | .scopedCode .. | .regex .. | .timestamp .. | .dateTime _ | .objectId _
  | .binary .. => rfl

theorem mapKeys_mapKeys_of_field (hf : ∀ key, f (f key) = f key) (fields : List (String × Value)) :
    ∀ field ∈ fields, mapKeys f (mapKeys f field.2) = mapKeys f field.2 := by
  match fields with
  | [] => exact List.forall_mem_nil _
  | (key, v) :: rest =>
    exact List.forall_mem_cons.mpr ⟨mapKeys_mapKeys hf v, mapKeys_mapKeys_of_field hf rest⟩

theorem mapKeys_mapKeys_of_item (hf : ∀ key, f (f key) = f key) (items : List Value) :
    ∀ v ∈ items, mapKeys f (mapKeys f v) = mapKeys f v := by
  match items with
  | [] => exact List.forall_mem_nil _
  | v :: rest =>
    exact List.forall_mem_cons.mpr ⟨mapKeys_mapKeys hf v, mapKeys_mapKeys_of_item hf rest⟩

end

theorem reserved_not_mem_sanitizeKey {s : Spelling} (hs : s ∈ spellings) (key : String) :
    s.reserved ∉ (sanitizeKey key).toList := by
  rw [sanitizeKey, String.toList_ofList]
  exact reserved_not_mem_spellOut (List.Subset.refl _) hs

theorem sanitizeKey_sanitizeKey (key : String) :
    sanitizeKey (sanitizeKey key) = sanitizeKey key := by
  have hplain : ∀ c ∈ (sanitizeKey key).toList, ∀ s ∈ spellings, s.reserved ≠ c := by
    rintro c hc s hs rfl
    exact reserved_not_mem_sanitizeKey hs key hc
  have hspell : spellOut spellings (sanitizeKey key).toList = (sanitizeKey key).toList := by
    rw [spellOut_eq_flatMap (List.Subset.refl _), flatMap_token_of_not_reserved hplain]
  rw [spellOut] at hspell
  rw [sanitizeKey, hspell, String.ofList_toList]

theorem mapKeys_sanitizeKey (d : Document) :
    mapKeys sanitizeKey (document d) = document (sanitize d) := by
  rw [mapKeys, sanitize]

/-- On the way to whatever a sanitized document holds no key has a reserved character. The values in
it that are neither documents nor arrays are values of the document as they were, at locations that
are spelled to theirs. Every field of the document is there, and sanitizing it again changes
nothing. -/
theorem sanitized_is_storable (d : Document) :
    (∀ loc w, (document (sanitize d)).Holds loc w →
      (∀ key, .key key ∈ loc → ∀ c ∈ ['.', '$', '\x00'], c ∉ key.toList) ∧
      (w.IsLeaf → ∃ loc', (document d).Holds loc' w ∧
        loc'.map (Step.mapKey sanitizeKey) = loc)) ∧
    (∀ key, key ∈ (sanitize d).keys ↔ ∃ k ∈ d.keys, sanitizeKey k = key) ∧
    sanitize (sanitize d) = sanitize d := by
  refine ⟨fun loc w h => ?_, fun key => ?_, ?_⟩
  · rw [← mapKeys_sanitizeKey] at h
    obtain ⟨loc', w', hholds, rfl, rfl⟩ := exists_of_holds_mapKeys h
    refine ⟨fun key hkey c hc => ?_, fun hleaf => ⟨loc', ?_, rfl⟩⟩
    · obtain ⟨_ | _, -, hstep⟩ := List.mem_map.mp hkey <;> cases hstep
      obtain ⟨s, hs, rfl⟩ : ∃ s ∈ spellings, s.reserved = c := List.mem_map.mp hc
      exact reserved_not_mem_sanitizeKey hs _
    · rwa [mapKeys_eq_self_of_isLeaf hleaf]
  · rw [sanitize, Document.mem_keys_ofList, keys_mapFields, List.mem_map]
  · have htwice := mapKeys_mapKeys sanitizeKey_sanitizeKey (document d)
    rw [mapKeys_sanitizeKey, mapKeys_sanitizeKey] at htwice
    exact document.inj htwice

theorem sanitized_is_storable_of_nested :
    let d : Document := [("a.b", .array [.document [("$c", .string "x.$")]]),
      ("\x00", .int32 1), ("__null__", .int32 2)]
    let loc : Location := [.key "a__dot__b", .index 0, .key "__dollar__c"]
    (document (sanitize d)).Holds loc (.string "x.$") ∧
      (∀ key, .key key ∈ loc → ∀ c ∈ ['.', '$', '\x00'], c ∉ key.toList) ∧
      (∃ loc', (document d).Holds loc' (.string "x.$") ∧
        loc'.map (Step.mapKey sanitizeKey) = loc) := by
  intro d loc
  have hsanitize : sanitize d = [("a__dot__b", .array [.document [("__dollar__c", .string "x.$")]]),
      ("__null__", .int32 2)] := by rfl
  have hholds : (document (sanitize d)).Holds loc (.string "x.$") := by
    rw [hsanitize]
    exact .field (List.mem_cons_self ..) (.item rfl (.field (List.mem_cons_self ..) (.here _)))
  have hleaf : (Value.string "x.$").IsLeaf := ⟨nofun, nofun⟩
  obtain ⟨hkeys, hleaves⟩ := (sanitized_is_storable d).1 loc _ hholds
  exact ⟨hholds, hkeys, hleaves hleaf⟩

end KeyEscape

end Docbase
