import Docbase.OperatorDocument
import Docbase.Proofs.Document
import Docbase.Proofs.Path
import Docbase.Proofs.Sorting.Turned
import Mathlib.Data.List.Induction

namespace Docbase.SortKey

/-- The keys without those that are on the path of an earlier one. -/
def firsts : List SortKey → List SortKey
  | [] => []
  | key :: rest => key :: (firsts rest).filter (·.path ≠ key.path)

def direction? : Value → Option Direction
  | .int32 n => if n = 1 then some .asc else if n = -1 then some .desc else none
  | _ => none

/-- The keys that the fields of a document stand for. -/
def ofOperatorDocument (d : Document) : List SortKey :=
  d.filterMap fun (field, v) => (direction? v).map (SortKey.mk (Path.ofString field))

/-- The first of the keys that separates two documents goes back on an earlier one. -/
def SeparatedBackwards (keys : List SortKey) (a b : Document) : Prop :=
  ∃ front key back, keys = front ++ key :: back ∧ key.turned ∈ front ∧
    compareByAll front a b = .eq ∧ key.compareBy a b ≠ .eq

def withIdentity (keys : List SortKey) : List SortKey := keys ++ [⟨Path.identity, .asc⟩]

variable {key other : SortKey} {keys : List SortKey} {a b d : Document}

theorem direction?_directionValue (direction : Direction) :
    direction? (directionValue direction) = some direction := by
  cases direction <;> rfl

theorem firsts_concat (keys : List SortKey) (key : SortKey) : firsts (keys ++ [key]) =
    if key.path ∈ keys.map path then firsts keys else firsts keys ++ [key] := by
  induction keys with
  | nil => rfl
  | cons first rest ih =>
    rw [List.cons_append, firsts, ih, firsts]
    by_cases hrest : key.path ∈ rest.map path
    · have hmem : key.path ∈ (first :: rest).map path := List.mem_cons_of_mem _ hrest
      rw [if_pos hrest, if_pos hmem]
    · rw [if_neg hrest, List.filter_append, List.map_cons]
      by_cases hfirst : key.path = first.path
      · simp [hfirst]
      · simp [hfirst, hrest]

theorem compareByAll_eq_eq_iff :
    compareByAll keys a b = .eq ↔ ∀ key ∈ keys, key.compareBy a b = .eq := by
  induction keys with
  | nil => simp [compareByAll]
  | cons key rest ih => rw [compareByAll, Ordering.then_eq_eq, ih, List.forall_mem_cons]

theorem eq_or_eq_turned (h : other.path = key.path) : other = key ∨ other = key.turned := by
  obtain ⟨p, direction⟩ := key
  obtain ⟨q, direction'⟩ := other
  obtain rfl : q = p := h
  cases direction <;> cases direction' <;> simp [turned, Direction.reversed]

theorem compareByAll_firsts (keys : List SortKey) (a b : Document) :
    compareByAll (firsts keys) a b = compareByAll keys a b ∨ SeparatedBackwards keys a b := by
  induction keys using List.reverseRecOn with
  | nil => exact .inl rfl
  | append_singleton front last ih =>
    obtain hfront | ⟨front, key, back, rfl, hback⟩ := ih
    · rw [firsts_concat]
      split
      next hmem =>
        rw [compareByAll_append, hfront]
        by_cases htie : compareByAll front a b = .eq
        · obtain ⟨other, hother, hpath⟩ := List.mem_map.mp hmem
          obtain rfl | rfl := eq_or_eq_turned hpath
          · have hlast : other.compareBy a b = .eq := compareByAll_eq_eq_iff.mp htie other hother
            rw [htie, compareByAll, hlast]
            exact .inl rfl
          · by_cases hlast : last.compareBy a b = .eq
            · rw [htie, compareByAll, hlast]
              exact .inl rfl
            · exact .inr ⟨front, last, [], rfl, hother, htie, hlast⟩
        · refine .inl ?_
          cases h : compareByAll front a b with
          | eq => exact absurd h htie
          | lt | gt => rfl
      next =>
        rw [compareByAll_append, compareByAll_append, hfront]
        exact .inl rfl
    · exact .inr ⟨front, key, back ++ [last], by simp, hback⟩

theorem not_separatedBackwards (ha : ∀ key ∈ keys, key.turned ∈ keys → (key.choices a).length ≤ 1)
    (hb : ∀ key ∈ keys, key.turned ∈ keys → (key.choices b).length ≤ 1) :
    ¬ SeparatedBackwards keys a b := by
  rintro ⟨front, key, back, rfl, hturned, htie, hkey⟩
  have hmem : key ∈ front ++ key :: back := by simp
  have hmem' : key.turned ∈ front ++ key :: back := List.mem_append_left _ hturned
  have hswap := compareBy_turned (ha key hmem hmem') (hb key hmem hmem')
  rw [compareByAll_eq_eq_iff.mp htie key.turned hturned] at hswap
  exact hkey (Ordering.swap_eq_eq.mp hswap.symm)

theorem isSome_get?_addField (d : Document) (key : SortKey) (field : String) :
    ((addField d key).get? field).isSome ↔ (d.get? field).isSome ∨ key.path.text = field := by
  rw [addField]
  split
  next hsome =>
    refine ⟨.inl, ?_⟩
    rintro (h | rfl)
    · exact h
    · exact hsome
  next =>
    have hlast : (Document.get? [(key.path.text, directionValue key.direction)] field).isSome ↔
        key.path.text = field := by
      rw [Document.get?_cons]
      split <;> simp_all
    rw [Document.get?, List.lookup_append, Option.isSome_or, Bool.or_eq_true]
    exact or_congr_right hlast

theorem isSome_get?_foldl_addField (keys : List SortKey) (field : String) :
    ((keys.foldl addField []).get? field).isSome ↔ field ∈ keys.map fun key => key.path.text := by
  induction keys using List.reverseRecOn with
  | nil => simp
  | append_singleton front last ih =>
    rw [List.foldl_append, List.foldl_cons, List.foldl_nil, isSome_get?_addField, ih]
    simp [eq_comm]

theorem ofOperatorDocument_addField (hkey : Path.ofString key.path.text = key.path) :
    ofOperatorDocument (addField d key) = if (d.get? key.path.text).isSome then
      ofOperatorDocument d else ofOperatorDocument d ++ [key] := by
  rw [addField]
  split
  next => rfl
  next =>
    rw [ofOperatorDocument, List.filterMap_append, ← ofOperatorDocument]
    simp [direction?_directionValue, hkey]

theorem ofOperatorDocument_foldl_addField
    (hpaths : ∀ key ∈ keys, Path.ofString key.path.text = key.path) :
    ofOperatorDocument (keys.foldl addField []) = firsts keys := by
  induction keys using List.reverseRecOn with
  | nil => rfl
  | append_singleton front last ih =>
    obtain ⟨hfront, hlast⟩ := List.forall_mem_append.mp hpaths
    have hpath : Path.ofString last.path.text = last.path := hlast last (List.mem_singleton_self last)
    have hmem : last.path.text ∈ front.map (fun key => key.path.text) ↔
        last.path ∈ front.map path := by
      simp only [List.mem_map]
      refine exists_congr fun key => and_congr_right fun hkey => ⟨fun h => ?_, congrArg Path.text⟩
      rw [← hfront key hkey, h, hpath]
    rw [List.foldl_append, List.foldl_cons, List.foldl_nil, ofOperatorDocument_addField hpath,
      ih hfront, firsts_concat]
    simp only [isSome_get?_foldl_addField, hmem]

/-- The document of sort keys puts documents in the order of the keys and then of their identities,
unless the first key that separates two of them goes back on another. None does where the documents
have no choice of values under a key that is listed in both directions. -/
theorem operatorDocument_keeps_order (hkeys : keys ≠ [])
    (hpaths : ∀ key ∈ keys, Path.ofString key.path.text = key.path) :
    ∃ d, operatorDocument? keys = some d ∧ ofOperatorDocument d = firsts (withIdentity keys) ∧
      ∀ a b, (compareByAll (ofOperatorDocument d) a b = compareByAll (withIdentity keys) a b ∨
          SeparatedBackwards (withIdentity keys) a b) ∧
        ((∀ key ∈ withIdentity keys, key.turned ∈ withIdentity keys →
            (key.choices a).length ≤ 1 ∧ (key.choices b).length ≤ 1) →
          compareByAll (ofOperatorDocument d) a b = compareByAll (withIdentity keys) a b) := by
  have hidentity : Path.ofString Path.identity.text = Path.identity := by decide
  have hall : ∀ key ∈ withIdentity keys, Path.ofString key.path.text = key.path :=
    List.forall_mem_append.mpr ⟨hpaths, List.forall_mem_singleton.mpr hidentity⟩
  have hread := ofOperatorDocument_foldl_addField hall
  refine ⟨_, if_neg (mt List.isEmpty_iff.mp hkeys), hread, fun a b => ?_⟩
  have horder := compareByAll_firsts (withIdentity keys) a b
  rw [← hread] at horder
  refine ⟨horder, fun hchoices => horder.resolve_right ?_⟩
  exact not_separatedBackwards (fun key hkey hturned => (hchoices key hkey hturned).1)
    fun key hkey hturned => (hchoices key hkey hturned).2

theorem operatorDocument_keeps_order_of_numbers :
    let keys : List SortKey := [⟨⟨"n", []⟩, .asc⟩, ⟨⟨"m", []⟩, .desc⟩, ⟨⟨"n", []⟩, .desc⟩]
    let a : Document := [("_id", .int32 1), ("n", .int32 5), ("m", .int32 2)]
    let b : Document := [("_id", .int32 2), ("n", .int32 5), ("m", .int32 2)]
    ∃ d, operatorDocument? keys = some d ∧
      compareByAll (ofOperatorDocument d) a b = compareByAll (withIdentity keys) a b := by
  intro keys a b
  have hpaths : ∀ key ∈ keys, Path.ofString key.path.text = key.path := by decide
  obtain ⟨d, hd, -, horder⟩ := operatorDocument_keeps_order (by simp [keys]) hpaths
  exact ⟨d, hd, (horder a b).2 (by decide +kernel)⟩

/-- Of two lists with the same least number the one with the greater number comes first, but the
document that the keys come to has forgotten about the second of them. -/
theorem operatorDocument_reorders_lists :
    let keys : List SortKey := [⟨⟨"a", []⟩, .asc⟩, ⟨⟨"a", []⟩, .desc⟩]
    let a : Document := [("_id", .int32 1), ("a", .array [.int32 1, .int32 2])]
    let b : Document := [("_id", .int32 2), ("a", .array [.int32 1, .int32 3])]
    ∃ d, operatorDocument? keys = some d ∧ compareByAll (ofOperatorDocument d) a b = .lt ∧
      compareByAll (withIdentity keys) a b = .gt := by
  intro keys a b
  exact ⟨_, rfl, by decide +kernel, by decide +kernel⟩

end Docbase.SortKey
