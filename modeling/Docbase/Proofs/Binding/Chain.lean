import Docbase.Proofs.Binding
import Mathlib.Data.List.Chain
import Mathlib.Data.List.Nodup

namespace Docbase.Registry

open Relation

variable {r : Registry} {T A B C : BoundType} {visited : List String} {bs : List BoundType}

/-- What a search has visited, and the type whose base it looks at next. -/
structure Search where
  visited : List String
  current : BoundType

namespace Search

def start (T : BoundType) : Search := ⟨[T.fullName], T⟩

/-- `s.Answers r n found`: after `n` rounds the search is left with this answer. A round goes on
from the base of the current type, if that was not visited before and has no collection of its
own. -/
inductive Answers (r : Registry) : Search → Nat → Option String → Prop where
  | unbound {s : Search} : (∀ B, ¬ r.Inherits s.current B) → Answers r s 0 none
  | visited {s : Search} {B : BoundType} : r.Inherits s.current B → B.fullName ∈ s.visited →
      Answers r s 0 none
  | named {s : Search} {B : BoundType} {name : String} : r.Inherits s.current B →
      B.fullName ∉ s.visited → r.own? B = some name → Answers r s 0 (some name)
  | round {s : Search} {B : BoundType} {n : Nat} {found : Option String} :
      r.Inherits s.current B → B.fullName ∉ s.visited → r.own? B = none →
      Answers r ⟨B.fullName :: s.visited, B⟩ n found → Answers r s (n + 1) found

theorem Answers.unique {s : Search} {n m : Nat} {found found' : Option String}
    (h : s.Answers r n found) (h' : s.Answers r m found') : n = m ∧ found = found' := by
  induction h generalizing m with
  | unbound hend =>
    cases h' with
    | unbound => exact ⟨rfl, rfl⟩
    | visited hB => exact absurd hB (hend _)
    | named hB => exact absurd hB (hend _)
    | round hB => exact absurd hB (hend _)
  | visited hB hv =>
    cases h' with
    | unbound hend => exact absurd hB (hend _)
    | visited => exact ⟨rfl, rfl⟩
    | named hB' hv' => exact absurd (hB.unique hB' ▸ hv) hv'
    | round hB' hv' => exact absurd (hB.unique hB' ▸ hv) hv'
  | named hB hv hown =>
    cases h' with
    | unbound hend => exact absurd hB (hend _)
    | visited hB' hv' => exact absurd (hB'.unique hB ▸ hv') hv
    | named hB' _ hown' =>
      obtain rfl := hB.unique hB'
      exact ⟨rfl, hown.symm.trans hown'⟩
    | round hB' _ hown' =>
      obtain rfl := hB.unique hB'
      cases hown.symm.trans hown'
  | round hB hv hown _ ih =>
    cases h' with
    | unbound hend => exact absurd hB (hend _)
    | visited hB' hv' => exact absurd (hB'.unique hB ▸ hv') hv
    | named hB' _ hown' =>
      obtain rfl := hB.unique hB'
      cases hown.symm.trans hown'
    | round hB' _ _ hrest =>
      obtain rfl := hB.unique hB'
      obtain ⟨rfl, rfl⟩ := ih hrest
      exact ⟨rfl, rfl⟩

end Search

/-- As long as there are rounds for all that can be asked for, the search ends, with the collection
of the nearest base that has one. -/
theorem answers_of_rounds {n : Nat} (hT : T.fullName ∈ visited)
    (hn : (r.unasked visited T.fullName).card ≤ n) :
    ∃ m ≤ n, Search.Answers r ⟨visited, T⟩ m
      ((r.basesFrom n visited T.fullName).findSome? r.own?) := by
  induction n generalizing visited T with
  | zero =>
    have hend : ∀ B, ¬ r.Inherits T B := fun B hB => by
      have hpos := hB.card_unasked_pos visited
      omega
    exact ⟨0, le_rfl, .unbound hend⟩
  | succ n ih =>
    by_cases hinherits : ∃ B, r.Inherits T B
    · obtain ⟨B, hB⟩ := hinherits
      rw [basesFrom_of_inherits hB]
      by_cases hv : B.fullName ∈ visited
      · rw [if_pos hv]
        exact ⟨0, Nat.zero_le _, .visited hB hv⟩
      · rw [if_neg hv, List.findSome?_cons]
        cases hown : r.own? B with
        | some name => exact ⟨0, Nat.zero_le _, .named hB hv hown⟩
        | none =>
          have hlt := hB.card_unasked_lt hT hv
          obtain ⟨m, hm, hanswers⟩ := ih (List.mem_cons_self (a := B.fullName) (l := visited))
            (by omega)
          exact ⟨m + 1, Nat.succ_le_succ hm, .round hB hv hown hanswers⟩
    · have hend : ∀ B, ¬ r.Inherits T B := not_exists.mp hinherits
      rw [basesFrom_of_end hend]
      exact ⟨0, Nat.zero_le _, .unbound hend⟩

theorem inherited?_eq_findSome? : r.inherited? T = (r.bases T).findSome? r.own? := rfl

theorem answers_iff (r : Registry) (T : BoundType) :
    ∃ n ≤ r.bindings.length, ∀ m found,
      (Search.start T).Answers r m found ↔ m = n ∧ found = r.inherited? T := by
  obtain ⟨n, hn, hanswers⟩ :=
    answers_of_rounds (List.mem_cons_self ..) (r.card_unasked_le [T.fullName] T.fullName)
  refine ⟨n, hn, fun m found => ⟨fun h => h.unique hanswers, ?_⟩⟩
  rintro ⟨rfl, rfl⟩
  exact hanswers

/-- The bases of the type one after the other, as far as one likes. The chain ends before it comes
back to a type. -/
def Chain (r : Registry) (T : BoundType) (bs : List BoundType) : Prop :=
  (T :: bs).IsChain r.Inherits ∧ ((T :: bs).map BoundType.fullName).Nodup

theorem isPrefix_basesFrom_iff {n : Nat} (hT : T.fullName ∈ visited)
    (hn : (r.unasked visited T.fullName).card ≤ n) :
    bs <+: r.basesFrom n visited T.fullName ↔
      (T :: bs).IsChain r.Inherits ∧ (bs.map BoundType.fullName).Nodup ∧
        ∀ B ∈ bs, B.fullName ∉ visited := by
  -- Behind a base comes a chain that stays away from it, too.
  induction n generalizing visited T bs with
  | zero =>
    have hend : ∀ B, ¬ r.Inherits T B := fun B hB => by
      have hpos := hB.card_unasked_pos visited
      omega
    cases bs with
    | nil => simp
    | cons B bs => simp [basesFrom, hend]
  | succ n ih =>
    cases bs with
    | nil => simp
    | cons B bs =>
      by_cases hB : r.Inherits T B
      · rw [basesFrom_of_inherits hB]
        by_cases hv : B.fullName ∈ visited
        · simp [hv]
        · have hlt := hB.card_unasked_lt hT hv
          have hself : B.fullName ∈ B.fullName :: visited := List.mem_cons_self
          have hrest : bs <+: r.basesFrom n (B.fullName :: visited) B.fullName ↔ _ :=
            ih hself (by omega)
          rw [if_neg hv, List.cons_prefix_cons, hrest]
          simp only [true_and, List.isChain_cons_cons, hB, List.map_cons, List.nodup_cons,
            List.mem_cons, forall_eq_or_imp, hv, not_false_eq_true, List.mem_map, not_or,
            not_exists, not_and, forall_and]
          tauto
      · refine iff_of_false (fun hprefix => hB ?_) fun h =>
          hB (List.isChain_cons_cons.mp h.1).1
        rw [basesFrom] at hprefix
        split at hprefix
        next D hD =>
          split at hprefix
          · cases List.prefix_nil.mp hprefix
          · rwa [(List.cons_prefix_cons.mp hprefix).1]
        next => cases List.prefix_nil.mp hprefix

theorem chain_iff : r.Chain T bs ↔ bs <+: r.bases T := by
  rw [bases, isPrefix_basesFrom_iff (List.mem_cons_self ..) (r.card_unasked_le _ _), Chain,
    List.map_cons, List.nodup_cons]
  simp only [List.mem_map, List.mem_singleton, not_exists, not_and]
  tauto

theorem exists_of_mem_basesFrom {n : Nat} (hT : T.fullName ∈ visited)
    (hn : (r.unasked visited T.fullName).card ≤ n) (hA : A ∈ T :: r.basesFrom n visited T.fullName)
    (h : r.Inherits A B) :
    B.fullName ∈ visited ∨ ∃ C ∈ r.basesFrom n visited T.fullName, C.fullName = B.fullName := by
  induction n generalizing visited T with
  | zero =>
    obtain rfl := List.mem_singleton.mp hA
    have hpos := h.card_unasked_pos visited
    omega
  | succ n ih =>
    by_cases hinherits : ∃ D, r.Inherits T D
    · obtain ⟨D, hD⟩ := hinherits
      rw [basesFrom_of_inherits hD] at hA ⊢
      by_cases hv : D.fullName ∈ visited
      · rw [if_pos hv, List.mem_singleton] at hA
        subst hA
        exact .inl (h.unique hD ▸ hv)
      · rw [if_neg hv] at hA ⊢
        obtain rfl | hA := List.mem_cons.mp hA
        · exact .inr ⟨D, List.mem_cons_self, congrArg _ (hD.unique h)⟩
        · have hlt := hD.card_unasked_lt hT hv
          obtain hB | ⟨C, hC, hCB⟩ := ih (List.mem_cons_self ..) (by omega) hA
          · obtain hB | hB := List.mem_cons.mp hB
            · exact .inr ⟨D, List.mem_cons_self, hB.symm⟩
            · exact .inl hB
          · exact .inr ⟨C, List.mem_cons_of_mem _ hC, hCB⟩
    · have hend : ∀ D, ¬ r.Inherits T D := not_exists.mp hinherits
      rw [basesFrom_of_end hend, List.mem_singleton] at hA
      subst hA
      exact absurd h (hend B)

theorem exists_of_mem_bases (hA : A ∈ T :: r.bases T) (h : r.Inherits A B) :
    ∃ C ∈ T :: r.bases T, C.fullName = B.fullName := by
  obtain hB | ⟨C, hC, hCB⟩ :=
    exists_of_mem_basesFrom (List.mem_cons_self ..) (r.card_unasked_le _ _) hA h
  · exact ⟨T, List.mem_cons_self, (List.mem_singleton.mp hB).symm⟩
  · exact ⟨C, List.mem_cons_of_mem _ hC, hCB⟩

theorem exists_of_reflTransGen (h : ReflTransGen r.Inherits T A) :
    ∃ B ∈ T :: r.bases T, B.fullName = A.fullName := by
  induction h with
  | refl => exact ⟨T, List.mem_cons_self, rfl⟩
  | tail _ hbase ih =>
    obtain ⟨B, hB, hname⟩ := ih
    refine exists_of_mem_bases hB ?_
    rwa [Inherits, hname]

/-- Types of one full name that the type inherits from are one type. -/
def Coherent (r : Registry) (T : BoundType) : Prop :=
  ∀ A B, ReflTransGen r.Inherits T A → ReflTransGen r.Inherits T B → A.fullName = B.fullName →
    A.collection = B.collection

theorem reflTransGen_of_mem_bases (h : A ∈ T :: r.bases T) : ReflTransGen r.Inherits T A := by
  obtain rfl | h := List.mem_cons.mp h
  · exact .refl
  · exact (transGen_of_mem_basesFrom h).to_reflTransGen

theorem own?_congr (r : Registry) (hname : A.fullName = B.fullName)
    (h : A.collection = B.collection) : r.own? A = r.own? B := by
  rw [own?, own?, registered?, registered?, hname, h]

theorem Coherent.exists_own?_of_isNamed (hr : r.Coherent T) (h : r.IsNamed T) :
    ∃ A ∈ T :: r.bases T, (r.own? A).isSome := by
  obtain ⟨A, hA, hown⟩ := h
  obtain ⟨B, hB, hname⟩ := exists_of_reflTransGen hA
  have hsame := own?_congr r hname (hr B A (reflTransGen_of_mem_bases hB) hA hname)
  exact ⟨B, hB, hsame ▸ hown⟩

theorem resolve_eq_findSome? :
    r.resolve T none = ((T :: r.bases T).findSome? r.own?).getD T.name := by
  rw [resolve_none, inherited?_eq_findSome?, List.findSome?_cons]
  cases r.own? T <;> rfl

/-- In every registry the search along the bases of a type ends, after at most as many rounds as
there are bindings. The type is stored in the collection of its own, else in that of the nearest
type on its chain of bases that has one, else, when the chain ends or comes back to a type, under
its own name. No collection is missed by leaving the chain where it comes back. -/
theorem resolve_takes_nearest (r : Registry) (T : BoundType) :
    (∃ n ≤ r.bindings.length, ∀ m found,
      (Search.start T).Answers r m found ↔ m = n ∧ found = r.inherited? T) ∧
    (∀ name, r.own? T = some name → r.resolve T none = name) ∧
    (r.own? T = none →
      (∀ bs A name, r.Chain T (bs ++ [A]) → (∀ B ∈ bs, r.own? B = none) → r.own? A = some name →
        r.resolve T none = name) ∧
      ((∀ bs, r.Chain T bs → ∀ B ∈ bs, r.own? B = none) → r.resolve T none = T.name)) ∧
    (r.Coherent T → r.IsNamed T →
      ∃ A, ReflTransGen r.Inherits T A ∧ r.own? A = some (r.resolve T none)) := by
  refine ⟨answers_iff r T, fun name hown => ?_, fun hown => ⟨?_, fun h => ?_⟩,
    fun hr hnamed => ?_⟩
  · rw [resolve_none, hown]
    rfl
  · intro bs A name hchain hbs hA
    obtain ⟨rest, hrest⟩ := chain_iff.mp hchain
    have hfront : bs.findSome? r.own? = none := List.findSome?_eq_none_iff.mpr hbs
    rw [resolve_none, hown, inherited?_eq_findSome?, ← hrest, List.findSome?_append,
      List.findSome?_append, hfront, List.findSome?_singleton, hA]
    rfl
  · have hnone : (r.bases T).findSome? r.own? = none :=
      List.findSome?_eq_none_iff.mpr (h _ (chain_iff.mpr (List.prefix_refl _)))
    rw [resolve_none, hown, inherited?_eq_findSome?, hnone]
    rfl
  · have hsome := List.findSome?_isSome_iff.mpr (hr.exists_own?_of_isNamed hnamed)
    obtain ⟨name, hname⟩ := Option.isSome_iff_exists.mp hsome
    obtain ⟨A, hA, hown⟩ := List.exists_of_findSome?_eq_some hname
    refine ⟨A, reflTransGen_of_mem_bases hA, ?_⟩
    rw [resolve_eq_findSome?, hname, hown]
    rfl

/-- The restaurants inherit from the inspections again, and yet the inspections find their name. -/
theorem resolve_takes_nearest_of_cycle :
    let r := ((({} : Registry).inherit Catalogue.inspection Catalogue.permit).inherit
      Catalogue.permit Catalogue.restaurant).inherit Catalogue.restaurant Catalogue.inspection
    r.own? Catalogue.inspection = none ∧
      r.Chain Catalogue.inspection ([Catalogue.permit] ++ [Catalogue.restaurant]) ∧
      r.resolve Catalogue.inspection none = "restaurants" ∧
      r.Coherent Catalogue.inspection ∧ r.IsNamed Catalogue.inspection ∧
      ∃ A, ReflTransGen r.Inherits Catalogue.inspection A ∧
        r.own? A = some (r.resolve Catalogue.inspection none) := by
  intro r
  have hown : r.own? Catalogue.inspection = none := by decide
  have hchain : r.Chain Catalogue.inspection ([Catalogue.permit] ++ [Catalogue.restaurant]) := by
    refine ⟨?_, by decide⟩
    exact .cons_cons rfl (.cons_cons rfl (.singleton _))
  have hround : ∀ A, ReflTransGen r.Inherits Catalogue.inspection A →
      A ∈ [(Catalogue.inspection : BoundType), Catalogue.permit, Catalogue.restaurant] := by
    intro A hA
    induction hA with
    | refl => exact List.mem_cons_self
    | tail _ hbase ih =>
      simp only [List.mem_cons, List.not_mem_nil, or_false] at ih ⊢
      obtain rfl | rfl | rfl := ih <;> cases hbase <;> simp
  have hr : r.Coherent Catalogue.inspection := by
    intro A B hA hB
    have hA := hround A hA
    have hB := hround B hB
    simp only [List.mem_cons, List.not_mem_nil, or_false] at hA hB
    obtain rfl | rfl | rfl := hA <;> obtain rfl | rfl | rfl := hB <;> decide
  have hnamed : r.IsNamed Catalogue.inspection :=
    ⟨Catalogue.restaurant, .tail (.single rfl) rfl, by decide⟩
  obtain ⟨-, -, hnearest, hfound⟩ := resolve_takes_nearest r Catalogue.inspection
  exact ⟨hown, hchain, (hnearest hown).1 _ _ _ hchain (by decide) (by decide), hr, hnamed,
    hfound hr hnamed⟩

end Docbase.Registry
