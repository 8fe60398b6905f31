import Docbase.Proofs.Lookup
import Docbase.Value.Equality

namespace Docbase.Value

mutual

/-- Whether no document in the value has a key twice. -/
def hasDistinctKeys : Value → Bool
  | .array items => haveDistinctKeys items
  | .document fields => fieldsHaveDistinctKeys fields
  | .scopedCode _ scope => fieldsHaveDistinctKeys scope
  | _ => true

def haveDistinctKeys : List Value → Bool
  | [] => true
  | v :: rest => v.hasDistinctKeys && haveDistinctKeys rest

def fieldsHaveDistinctKeys : List (String × Value) → Bool
  | [] => true
  | (k, v) :: rest => (rest.lookup k).isNone && v.hasDistinctKeys && fieldsHaveDistinctKeys rest

end

variable {xs ys : List (String × Value)} {k : String} {v w : Value}

theorem nodup_of_fieldsHaveDistinctKeys (h : fieldsHaveDistinctKeys xs) :
    (xs.map Prod.fst).Nodup := by
  induction xs with
  | nil => exact List.nodup_nil
  | cons field rest ih =>
    simp only [fieldsHaveDistinctKeys, Bool.and_eq_true, Option.isNone_iff_eq_none,
      lookup_eq_none_iff] at h
    exact List.nodup_cons.mpr ⟨h.1.1, ih h.2⟩

theorem fieldsHaveDistinctKeys_iff : fieldsHaveDistinctKeys xs ↔
    (xs.map Prod.fst).Nodup ∧ ∀ k v, (k, v) ∈ xs → v.hasDistinctKeys := by
  induction xs with
  | nil => simp [fieldsHaveDistinctKeys]
  | cons field rest ih =>
    obtain ⟨k, v⟩ := field
    rw [fieldsHaveDistinctKeys, Bool.and_eq_true, Bool.and_eq_true, ih, Option.isNone_iff_eq_none,
      lookup_eq_none_iff, List.map_cons, List.nodup_cons]
    constructor
    · rintro ⟨⟨hk, hv⟩, hn, hrest⟩
      refine ⟨⟨hk, hn⟩, fun l w hmem => ?_⟩
      obtain heq | hmem := List.mem_cons.mp hmem
      · cases heq
        exact hv
      · exact hrest l w hmem
    · rintro ⟨⟨hk, hn⟩, hall⟩
      exact ⟨⟨hk, hall k v (List.mem_cons_self ..)⟩, hn, fun l w hmem =>
        hall l w (List.mem_cons_of_mem _ hmem)⟩

theorem haveDistinctKeys_iff {items : List Value} :
    haveDistinctKeys items ↔ ∀ v ∈ items, v.hasDistinctKeys := by
  induction items with
  | nil => simp [haveDistinctKeys]
  | cons v rest ih => rw [haveDistinctKeys, Bool.and_eq_true, ih, List.forall_mem_cons]

theorem sameFields_cons : sameFields ((k, v) :: xs) ys ↔
    (∃ w, ys.lookup k = some w ∧ v.same w) ∧ sameFields xs ys := by
  rw [sameFields, Bool.and_eq_true]
  cases ys.lookup k <;> simp

theorem sameFields_iff :
    sameFields xs ys ↔ ∀ k v, (k, v) ∈ xs → ∃ w, ys.lookup k = some w ∧ v.same w := by
  induction xs with
  | nil => simp [sameFields]
  | cons field rest ih =>
    obtain ⟨l, u⟩ := field
    rw [sameFields_cons, ih]
    simp only [List.mem_cons, Prod.mk.injEq]
    constructor
    · rintro ⟨hl, hrest⟩ k v (⟨rfl, rfl⟩ | h)
      · exact hl
      · exact hrest k v h
    · exact fun h => ⟨h l u (.inl ⟨rfl, rfl⟩), fun k v hkv => h k v (.inr hkv)⟩

/-- Of two documents with as many fields the one has all keys of the other if the other has all of
this one. -/
theorem exists_lookup_of_sameFields (hd : fieldsHaveDistinctKeys xs) (hlen : xs.length = ys.length)
    (h : sameFields xs ys) (hk : (k, w) ∈ ys) : ∃ v, xs.lookup k = some v := by
  cases hv : xs.lookup k with
  | some v => exact ⟨v, rfl⟩
  | none =>
    have hnodup : (k :: xs.map Prod.fst).Nodup :=
      List.nodup_cons.mpr ⟨lookup_eq_none_iff.mp hv, nodup_of_fieldsHaveDistinctKeys hd⟩
    have hsubset : k :: xs.map Prod.fst ⊆ ys.map Prod.fst := by
      intro l hl
      obtain rfl | hl := List.mem_cons.mp hl
      · exact List.mem_map_of_mem hk
      · obtain ⟨⟨m, u⟩, hmem, rfl⟩ := List.mem_map.mp hl
        obtain ⟨u', hu', -⟩ := sameFields_iff.mp h m u hmem
        exact List.mem_map.mpr ⟨_, mem_of_lookup hu', rfl⟩
    have hle := hnodup.length_le_of_subset hsubset
    simp only [List.length_cons, List.length_map] at hle
    omega

theorem sameFields_symm (hx : fieldsHaveDistinctKeys xs) (hy : fieldsHaveDistinctKeys ys)
    (hlen : xs.length = ys.length) (h : sameFields xs ys)
    (hvalues : ∀ k v, (k, v) ∈ xs → ∀ w, v.same w → (k, w) ∈ ys → w.same v) :
    sameFields ys xs := by
  refine sameFields_iff.mpr fun k w hk => ?_
  obtain ⟨v, hv⟩ := exists_lookup_of_sameFields hx hlen h hk
  obtain ⟨w', hw', hsame⟩ := sameFields_iff.mp h k v (mem_of_lookup hv)
  rw [lookup_of_mem (nodup_of_fieldsHaveDistinctKeys hy) hk] at hw'
  obtain rfl := Option.some.inj hw'
  exact ⟨v, hv, hvalues k v (mem_of_lookup hv) w hsame hk⟩

def isAtom : Value → Bool
  | .double _ | .array _ | .document _ | .scopedCode .. => false
  | _ => true

theorem same_of_isAtom {a b : Value} (ha : a.isAtom) : a.same b ↔ a = b := by
  cases a <;> cases b <;> simp_all [same, isAtom]

theorem same_double {x : Double} {b : Value} :
    (double x).same b ↔ ∃ y, b = .double y ∧ x.numEq y := by
  cases b with
  | double y => exact ⟨fun h => ⟨y, rfl, h⟩, fun ⟨_, rfl, h⟩ => h⟩
  | _ => exact ⟨nofun, nofun⟩

theorem same_array {items : List Value} {b : Value} :
    (array items).same b ↔ ∃ others, b = .array others ∧ sameItems items others := by
  cases b with
  | array others => exact ⟨fun h => ⟨others, rfl, h⟩, fun ⟨_, rfl, h⟩ => h⟩
  | _ => exact ⟨nofun, nofun⟩

theorem same_document {b : Value} : (document xs).same b ↔
    ∃ ys, b = .document ys ∧ xs.length = ys.length ∧ sameFields xs ys := by
  cases b with
  | document ys =>
    change (xs.length == ys.length && sameFields xs ys) ↔ _
    simp
  | _ => exact ⟨nofun, nofun⟩

theorem same_scopedCode {source : String} {b : Value} : (scopedCode source xs).same b ↔
    ∃ ys, b = .scopedCode source ys ∧ xs.length = ys.length ∧ sameFields xs ys := by
  cases b with
  | scopedCode other ys =>
    change (source == other && (xs.length == ys.length && sameFields xs ys)) ↔ _
    simp only [Bool.and_eq_true, beq_iff_eq, scopedCode.injEq]
    constructor
    · rintro ⟨rfl, h⟩
      exact ⟨ys, ⟨rfl, rfl⟩, h⟩
    · rintro ⟨_, ⟨rfl, rfl⟩, h⟩
      exact ⟨rfl, h⟩
  | _ => exact ⟨nofun, nofun⟩

theorem numEq_iff {x y : Double} :
    x.numEq y ↔ x.isNaN = false ∧ y.isNaN = false ∧ x.units = y.units := by
  cases hx : x.isNaN <;> cases hy : y.isNaN <;>
    simp [Double.numEq, Double.compare?, hx, hy]

mutual

theorem same_trans (a b c : Value) (hab : a.same b) (hbc : b.same c) : a.same c := by
  cases a with
  | double x =>
    obtain ⟨y, rfl, hxy⟩ := same_double.mp hab
    obtain ⟨z, rfl, hyz⟩ := same_double.mp hbc
    rw [numEq_iff] at hxy hyz
    exact same_double.mpr
      ⟨z, rfl, numEq_iff.mpr ⟨hxy.1, hyz.2.1, hxy.2.2.trans hyz.2.2⟩⟩
  | array xs =>
    obtain ⟨ys, rfl, hxy⟩ := same_array.mp hab
    obtain ⟨zs, rfl, hyz⟩ := same_array.mp hbc
    exact same_array.mpr ⟨zs, rfl, sameItems_trans xs ys zs hxy hyz⟩
  | document xs =>
    obtain ⟨ys, rfl, hlen, hxy⟩ := same_document.mp hab
    obtain ⟨zs, rfl, hlen', hyz⟩ := same_document.mp hbc
    exact same_document.mpr
      ⟨zs, rfl, hlen.trans hlen', sameFields_trans xs ys zs hxy hyz⟩
  | scopedCode source xs =>
    obtain ⟨ys, rfl, hlen, hxy⟩ := same_scopedCode.mp hab
    obtain ⟨zs, rfl, hlen', hyz⟩ := same_scopedCode.mp hbc
    exact same_scopedCode.mpr
      ⟨zs, rfl, hlen.trans hlen', sameFields_trans xs ys zs hxy hyz⟩
  | _ =>
    obtain rfl := (same_of_isAtom rfl).mp hab
    exact hbc

theorem sameItems_trans : ∀ xs ys zs : List Value, sameItems xs ys → sameItems ys zs →
    sameItems xs zs
  | [], [], zs, _, hyz => hyz
  | x :: xs, y :: ys, z :: zs, hxy, hyz => by
    simp only [sameItems, Bool.and_eq_true] at hxy hyz ⊢
    exact ⟨same_trans x y z hxy.1 hyz.1, sameItems_trans xs ys zs hxy.2 hyz.2⟩

theorem sameFields_trans : ∀ xs ys zs : List (String × Value), sameFields xs ys →
    sameFields ys zs → sameFields xs zs
  | [], _, _, _, _ => rfl
  | (k, v) :: xs, ys, zs, hxy, hyz => by
    obtain ⟨⟨w, hw, hvw⟩, hrest⟩ := sameFields_cons.mp hxy
    obtain ⟨u, hu, hwu⟩ := sameFields_iff.mp hyz k w (mem_of_lookup hw)
    exact sameFields_cons.mpr
      ⟨⟨u, hu, same_trans v w u hvw hwu⟩, sameFields_trans xs ys zs hrest hyz⟩

end

theorem hasDistinctKeys_of_mem (hd : fieldsHaveDistinctKeys xs) (h : (k, v) ∈ xs) :
    v.hasDistinctKeys := by
  induction xs with
  | nil => cases h
  | cons field rest ih =>
    simp only [fieldsHaveDistinctKeys, Bool.and_eq_true] at hd
    obtain rfl | h := List.mem_cons.mp h
    · exact hd.1.2
    · exact ih hd.2 h

mutual

theorem same_symm (a b : Value) (ha : a.hasDistinctKeys) (hb : b.hasDistinctKeys)
    (h : a.same b) : b.same a := by
  cases a with
  | double x =>
    obtain ⟨y, rfl, hxy⟩ := same_double.mp h
    rw [numEq_iff] at hxy
    exact same_double.mpr ⟨x, rfl, numEq_iff.mpr ⟨hxy.2.1, hxy.1, hxy.2.2.symm⟩⟩
  | array xs =>
    obtain ⟨ys, rfl, hxy⟩ := same_array.mp h
    exact same_array.mpr ⟨xs, rfl, sameItems_symm xs ys ha hb hxy⟩
  | document xs =>
    obtain ⟨ys, rfl, hlen, hxy⟩ := same_document.mp h
    exact same_document.mpr ⟨xs, rfl, hlen.symm,
      sameFields_symm ha hb hlen hxy (values_same_symm xs ys ha hb)⟩
  | scopedCode source xs =>
    obtain ⟨ys, rfl, hlen, hxy⟩ := same_scopedCode.mp h
    exact same_scopedCode.mpr ⟨xs, rfl, hlen.symm,
      sameFields_symm ha hb hlen hxy (values_same_symm xs ys ha hb)⟩
  | _ =>
    obtain rfl := (same_of_isAtom rfl).mp h
    exact h

theorem sameItems_symm : ∀ xs ys : List Value, haveDistinctKeys xs → haveDistinctKeys ys →
    sameItems xs ys → sameItems ys xs
  | [], [], _, _, h => h
  | x :: xs, y :: ys, hx, hy, h => by
    simp only [haveDistinctKeys, sameItems, Bool.and_eq_true] at hx hy h ⊢
    exact ⟨same_symm x y hx.1 hy.1 h.1, sameItems_symm xs ys hx.2 hy.2 h.2⟩

theorem values_same_symm : ∀ xs ys : List (String × Value), fieldsHaveDistinctKeys xs →
    fieldsHaveDistinctKeys ys → ∀ k v, (k, v) ∈ xs → ∀ w, v.same w → (k, w) ∈ ys → w.same v
  | (l, u) :: xs, ys, hx, hy, k, v, hv, w, h, hw => by
    simp only [fieldsHaveDistinctKeys, Bool.and_eq_true] at hx
    obtain heq | hv := List.mem_cons.mp hv
    · cases heq
      exact same_symm u w hx.1.2 (hasDistinctKeys_of_mem hy hw) h
    · exact values_same_symm xs ys hx.2 hy k v hv w h hw

end

end Docbase.Value
