import Docbase.Catalogue
import Docbase.Binding
import Docbase.Proofs.Lookup
import Mathlib.Data.Finset.Card
import Mathlib.Logic.Relation

namespace Docbase.Registry

open Relation

variable {r r' : Registry} {T A B : BoundType} {visited visited' : List String}

/-- `r.Inherits T B`: the type was last bound to the collection of the base. -/
def Inherits (r : Registry) (T B : BoundType) : Prop :=
  r.bindings.lookup T.fullName = some (.inherits B)

/-- The chain of bases of the type comes back to none of its types. -/
def Acyclic (r : Registry) (T : BoundType) : Prop :=
  ∀ A B, ReflTransGen r.Inherits T A → TransGen r.Inherits A B → B.fullName ≠ A.fullName

/-- The collection that the type has without its bases. -/
def own? (r : Registry) (T : BoundType) : Option String := (r.registered? T).or T.collection

theorem Inherits.unique (h : r.Inherits T A) (h' : r.Inherits T B) : A = B := by
  cases h.symm.trans h'
  rfl

theorem Inherits.registered? (h : r.Inherits T B) : r.registered? T = none := by
  rw [Registry.registered?, h]

theorem Acyclic.base (hac : r.Acyclic T) (h : r.Inherits T B) : r.Acyclic B :=
  fun C D hC hD => hac C D (.head h hC) hD

theorem acyclic_of_end (h : ∀ B, ¬ r.Inherits T B) : r.Acyclic T := by
  intro A C hA hC
  obtain rfl | ⟨B, hB, -⟩ := hA.cases_head
  · obtain ⟨B, hB, -⟩ := TransGen.head'_iff.mp hC
    exact absurd hB (h B)
  · exact absurd hB (h B)

theorem Acyclic.derived (hB : r.Acyclic B) (h : r.Inherits T B)
    (hT : ∀ A, ReflTransGen r.Inherits B A → A.fullName ≠ T.fullName) : r.Acyclic T := by
  intro A C hA hC
  obtain rfl | ⟨D, hD, hDA⟩ := hA.cases_head
  · obtain ⟨D, hD, hDC⟩ := TransGen.head'_iff.mp hC
    obtain rfl := h.unique hD
    exact hT C hDC
  · obtain rfl := h.unique hD
    exact hB A C hDA hC

theorem basesFrom_of_end (h : ∀ B, ¬ r.Inherits T B) (rounds : Nat) (visited : List String) :
    r.basesFrom rounds visited T.fullName = [] := by
  cases rounds with
  | zero => rfl
  | succ n =>
    rw [basesFrom]
    split
    next B hB => exact absurd hB (h B)
    next => rfl

theorem basesFrom_of_inherits (h : r.Inherits T B) (rounds : Nat) (visited : List String) :
    r.basesFrom (rounds + 1) visited T.fullName =
      if B.fullName ∈ visited then []
      else B :: r.basesFrom rounds (B.fullName :: visited) B.fullName := by
  rw [Inherits] at h
  rw [basesFrom, h]

/-- The bound types whose bases may still be asked for, if `name` was visited last. -/
def unasked (r : Registry) (visited : List String) (name : String) : Finset String :=
  (r.bindings.map Prod.fst).toFinset.filter fun k => k ∉ visited ∨ k = name

theorem card_unasked_le (r : Registry) (visited : List String) (name : String) :
    (r.unasked visited name).card ≤ r.bindings.length := by
  calc (r.unasked visited name).card
      ≤ (r.bindings.map Prod.fst).toFinset.card := Finset.card_filter_le _ _
    _ ≤ (r.bindings.map Prod.fst).length := List.toFinset_card_le _
    _ = r.bindings.length := List.length_map _

theorem Inherits.mem_unasked (h : r.Inherits T B) : T.fullName ∈ r.unasked visited T.fullName := by
  refine Finset.mem_filter.mpr ⟨List.mem_toFinset.mpr ?_, .inr rfl⟩
  exact List.mem_map_of_mem (mem_of_lookup h)

theorem Inherits.card_unasked_pos (h : r.Inherits T B) (visited : List String) :
    0 < (r.unasked visited T.fullName).card := Finset.card_pos.mpr ⟨_, h.mem_unasked⟩

theorem Inherits.card_unasked_lt (h : r.Inherits T B) (hT : T.fullName ∈ visited)
    (hB : B.fullName ∉ visited) :
    (r.unasked (B.fullName :: visited) B.fullName).card < (r.unasked visited T.fullName).card := by
  apply Finset.card_lt_card
  refine Finset.ssubset_iff_subset_ne.mpr ⟨?_, ?_⟩
  · intro k hk
    obtain ⟨hkey, hk⟩ := Finset.mem_filter.mp hk
    refine Finset.mem_filter.mpr ⟨hkey, .inl fun hv => ?_⟩
    obtain hk | rfl := hk
    · exact hk (List.mem_cons_of_mem _ hv)
    · exact hB hv
  · intro heq
    have hmem : T.fullName ∈ r.unasked visited T.fullName := h.mem_unasked
    rw [← heq] at hmem
    obtain hk | hk := (Finset.mem_filter.mp hmem).2
    · exact hk (List.mem_cons_of_mem _ hT)
    · exact hB (hk ▸ hT)

theorem basesFrom_rounds {n m : Nat} (hT : T.fullName ∈ visited)
    (hn : (r.unasked visited T.fullName).card ≤ n) (hm : (r.unasked visited T.fullName).card ≤ m) :
    r.basesFrom n visited T.fullName = r.basesFrom m visited T.fullName := by
  induction n generalizing m visited T with
  | zero =>
    have hend : ∀ B, ¬ r.Inherits T B := fun B hB => by
      have hpos := hB.card_unasked_pos visited
      omega
    rw [basesFrom_of_end hend, basesFrom_of_end hend]
  | succ n ih =>
    by_cases hinherits : ∃ B, r.Inherits T B
    · obtain ⟨B, hB⟩ := hinherits
      have hpos := hB.card_unasked_pos visited
      obtain ⟨m, rfl⟩ : ∃ k, m = k + 1 := ⟨m - 1, by omega⟩
      rw [basesFrom_of_inherits hB, basesFrom_of_inherits hB]
      split
      next => rfl
      next hvisited =>
        have hlt := hB.card_unasked_lt hT hvisited
        exact congrArg (B :: ·) (ih (List.mem_cons_self ..) (by omega) (by omega))
    · have hend : ∀ B, ¬ r.Inherits T B := not_exists.mp hinherits
      rw [basesFrom_of_end hend, basesFrom_of_end hend]

theorem bases_eq_basesFrom {n : Nat} (hn : r.bindings.length ≤ n) :
    r.bases T = r.basesFrom n [T.fullName] T.fullName := by
  have hle := r.card_unasked_le [T.fullName] T.fullName
  exact basesFrom_rounds (List.mem_cons_self ..) hle (hle.trans hn)

theorem basesFrom_visited (n : Nat)
    (h : ∀ A, TransGen r.Inherits T A → (A.fullName ∈ visited ↔ A.fullName ∈ visited')) :
    r.basesFrom n visited T.fullName = r.basesFrom n visited' T.fullName := by
  induction n generalizing T visited visited' with
  | zero => rfl
  | succ n ih =>
    by_cases hinherits : ∃ B, r.Inherits T B
    · obtain ⟨B, hB⟩ := hinherits
      have hrest : r.basesFrom n (B.fullName :: visited) B.fullName =
          r.basesFrom n (B.fullName :: visited') B.fullName := by
        refine ih fun A hA => ?_
        simp only [List.mem_cons, h A (.head hB hA)]
      rw [basesFrom_of_inherits hB, basesFrom_of_inherits hB, hrest]
      simp only [h B (.single hB)]
    · have hend : ∀ B, ¬ r.Inherits T B := not_exists.mp hinherits
      rw [basesFrom_of_end hend, basesFrom_of_end hend]

theorem Acyclic.bases_eq (hac : r.Acyclic T) (h : r.Inherits T B) :
    r.bases T = B :: r.bases B := by
  have hne : ∀ A, TransGen r.Inherits T A → A.fullName ≠ T.fullName := fun A => hac T A .refl
  have hle := r.card_unasked_le [T.fullName] T.fullName
  rw [bases_eq_basesFrom (Nat.le_succ _), basesFrom_of_inherits h,
    if_neg (by simpa using hne B (.single h)), bases]
  refine congrArg (B :: ·) (basesFrom_visited _ fun A hA => ?_)
  simp [hne A (.head h hA)]

theorem transGen_of_mem_basesFrom {n : Nat} (h : A ∈ r.basesFrom n visited T.fullName) :
    TransGen r.Inherits T A := by
  induction n generalizing T visited with
  | zero => cases h
  | succ n ih =>
    by_cases hinherits : ∃ B, r.Inherits T B
    · obtain ⟨B, hB⟩ := hinherits
      rw [basesFrom_of_inherits hB] at h
      split at h
      next => cases h
      next =>
        obtain rfl | h := List.mem_cons.mp h
        · exact .single hB
        · exact .head hB (ih h)
    · rw [basesFrom_of_end (not_exists.mp hinherits)] at h
      cases h

theorem Acyclic.mem_bases_iff (hac : r.Acyclic T) : A ∈ r.bases T ↔ TransGen r.Inherits T A := by
  constructor
  · exact transGen_of_mem_basesFrom
  · intro h
    induction h using TransGen.head_induction_on with
    | single h =>
      rw [hac.bases_eq h]
      exact List.mem_cons_self ..
    | head h _ ih =>
      rw [hac.bases_eq h]
      exact List.mem_cons_of_mem _ (ih (hac.base h))

theorem Acyclic.inherited?_eq (hac : r.Acyclic T) (h : r.Inherits T B) :
    r.inherited? T = (r.own? B).or (r.inherited? B) := by
  rw [inherited?, hac.bases_eq h, List.findSome?_cons]
  cases hown : (r.registered? B).or B.collection <;> simp [own?, inherited?, hown]

theorem basesFrom_congr (h : ∀ k, r.bindings.lookup k = r'.bindings.lookup k) (n : Nat)
    (visited : List String) (k : String) : r.basesFrom n visited k = r'.basesFrom n visited k := by
  induction n generalizing visited k with
  | zero => rfl
  | succ n ih => simp only [basesFrom, h k, ih]

theorem resolve_congr (h : ∀ k, r.bindings.lookup k = r'.bindings.lookup k) (T : BoundType)
    (asked : Option String) : r.resolve T asked = r'.resolve T asked := by
  have hregistered : ∀ A, r.registered? A = r'.registered? A := fun A => by
    rw [registered?, registered?, h]
  have hbases : r.bases T = r'.bases T := by
    rw [bases_eq_basesFrom (Nat.le_max_left _ r'.bindings.length),
      bases_eq_basesFrom (Nat.le_max_right r.bindings.length _), basesFrom_congr h]
  have hinherited : r.inherited? T = r'.inherited? T := by
    rw [inherited?, inherited?, hbases]
    simp only [hregistered]
  rw [resolve, resolve, hregistered, hinherited]

/-- Whether some type on the chain from this one on has a collection of its own. -/
def IsNamed (r : Registry) (T : BoundType) : Prop :=
  ∃ A, ReflTransGen r.Inherits T A ∧ (r.own? A).isSome

theorem Acyclic.isNamed_iff (hac : r.Acyclic T) :
    r.IsNamed T ↔ ((r.own? T).or (r.inherited? T)).isSome := by
  have hinherited : (r.inherited? T).isSome ↔ ∃ A, TransGen r.Inherits T A ∧ (r.own? A).isSome := by
    rw [inherited?, List.findSome?_isSome_iff]
    exact exists_congr fun A => and_congr_left fun _ => hac.mem_bases_iff
  rw [Option.isSome_or, Bool.or_eq_true, hinherited]
  constructor
  · rintro ⟨A, hA, hown⟩
    obtain rfl | hA := reflTransGen_iff_eq_or_transGen.mp hA
    · exact .inl hown
    · exact .inr ⟨A, hA, hown⟩
  · rintro (hown | ⟨A, hA, hown⟩)
    · exact ⟨T, .refl, hown⟩
    · exact ⟨A, hA.to_reflTransGen, hown⟩

theorem resolve_none : r.resolve T none = ((r.own? T).or (r.inherited? T)).getD T.name := by
  rw [resolve, Option.none_or, own?, Option.or_assoc]

theorem resolve_of_lookup {name : String} (h : r.bindings.lookup T.fullName = some (.named name)) :
    r.resolve T none = name := by
  rw [resolve, registered?, h]
  rfl

/-- A type that inherits shares the collection of its base exactly if some type from the base on has
a collection of its own; where none has one, each of the two is stored under its own name. -/
theorem shares_collection_iff (h : r.Inherits T B) (hT : T.collection = none) (hac : r.Acyclic T) :
    (r.resolve T none = r.resolve B none ↔ r.IsNamed B ∨ T.name = B.name) ∧
    (¬ r.IsNamed B → r.resolve T none = T.name ∧ r.resolve B none = B.name) := by
  have hown : r.own? T = none := by rw [own?, h.registered?, hT, Option.none_or]
  rw [resolve_none, resolve_none, hown, Option.none_or, hac.inherited?_eq h,
    (hac.base h).isNamed_iff]
  cases (r.own? B).or (r.inherited? B) with
  | none => simp
  | some name => simp

/-- A type without a collection of its own inherits from one that inherits from a named one. -/
theorem shares_collection_of_restaurants :
    let r := ((({} : Registry).inherit Catalogue.inspection Catalogue.permit).inherit
      Catalogue.permit Catalogue.restaurant)
    r.Inherits Catalogue.inspection Catalogue.permit ∧ r.Acyclic Catalogue.inspection ∧
      r.resolve Catalogue.inspection none = r.resolve Catalogue.permit none := by
  intro r
  have hend : r.Acyclic Catalogue.restaurant := acyclic_of_end nofun
  have hpermit : r.Acyclic Catalogue.permit := by
    refine hend.derived rfl fun A hA => ?_
    obtain rfl | ⟨B, hB, -⟩ := hA.cases_head
    · decide
    · cases hB
  have hac : r.Acyclic Catalogue.inspection := by
    refine hpermit.derived rfl fun A hA => ?_
    obtain rfl | ⟨B, hB, hA⟩ := hA.cases_head
    · decide
    · cases hB
      obtain rfl | ⟨B, hB, -⟩ := hA.cases_head
      · decide
      · cases hB
  have hinherits : r.Inherits Catalogue.inspection Catalogue.permit := rfl
  exact ⟨hinherits, hac, (shares_collection_iff hinherits rfl hac).1.mpr
    (.inl ⟨Catalogue.restaurant, .single rfl, rfl⟩)⟩

/-- A type that inherits from an unnamed one is stored apart from it. -/
theorem not_shares_collection_of_unnamed :
    let r := ({} : Registry).inherit Catalogue.closedRestaurant Catalogue.inspection
    r.Inherits Catalogue.closedRestaurant Catalogue.inspection ∧
      Catalogue.closedRestaurant.collection = none ∧ r.Acyclic Catalogue.closedRestaurant ∧
      r.resolve Catalogue.closedRestaurant none ≠ r.resolve Catalogue.inspection none := by
  intro r
  have hend : r.Acyclic Catalogue.inspection := acyclic_of_end nofun
  refine ⟨rfl, rfl, ?_, by decide⟩
  refine hend.derived (T := Catalogue.closedRestaurant) rfl fun A hA => ?_
  obtain rfl | ⟨B, hB, -⟩ := hA.cases_head
  · decide
  · cases hB

end Docbase.Registry
