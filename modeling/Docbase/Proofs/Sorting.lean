import Docbase.Proofs.Value.Order
import Docbase.Sorting

namespace Docbase.SortKey

variable (key : SortKey) (keys : List SortKey) (docs : List Document)

instance : Std.TransCmp key.compareBy := by
  refine transCmp_of_consistent (fun a b => ?_) fun a b c => ?_
  · unfold compareBy
    split <;> exact Value.order_swap _ _
  · unfold compareBy
    split
    · exact Value.order_consistent _ _ _
    · exact @consistent_of_transCmp _ (fun v w => Value.order w v) _ _ _ _

instance : Std.TransCmp (compareByAll keys) := by
  induction keys with
  | nil => exact transCmp_of_consistent (fun _ _ => rfl) fun _ _ _ =>
      (by decide : Consistent .eq .eq .eq)
  | cons key rest ih =>
    have hlex : compareByAll (key :: rest) = compareLex key.compareBy (compareByAll rest) := rfl
    rw [hlex]
    infer_instance

@[simp]
theorem sort_nil : sort [] docs = docs :=
  List.mergeSort_of_pairwise (List.pairwise_of_forall fun _ _ => rfl)

theorem sort_pair {a b : Document} (h : compareByAll keys a b ≠ .gt) : sort keys [a, b] = [a, b] :=
  List.mergeSort_of_pairwise (by simpa using h)

theorem sort_perm : (sort keys docs).Perm docs := List.mergeSort_perm _ _

@[simp]
theorem mem_sort {d : Document} : d ∈ sort keys docs ↔ d ∈ docs := (sort_perm keys docs).mem_iff

theorem compareByAll_swap (a b : Document) :
    (compareByAll keys a b).swap = compareByAll keys b a :=
  (ordersTotally (compareByAll keys)).swap a b

theorem compareByAll_self (d : Document) : compareByAll keys d d = .eq := Std.ReflCmp.compare_self

theorem compareByAll_trans {a b c : Document} (hab : compareByAll keys a b ≠ .gt)
    (hbc : compareByAll keys b c ≠ .gt) : compareByAll keys a c ≠ .gt :=
  (ordersTotally (compareByAll keys)).trans a b c hab hbc

/-- The values that the document has to choose from under the key. -/
def choices (key : SortKey) (d : Document) : List Value := (d.lookup key.path).flatMap spread

/-- Whether the one value counts before the other in this direction. -/
def Prefers : Direction → Value → Value → Prop
  | .asc, x, y => x.order y ≠ .gt
  | .desc, x, y => y.order x ≠ .gt

theorem Prefers.trans {direction : Direction} {x y z : Value} (h : Prefers direction x y)
    (h' : Prefers direction y z) : Prefers direction x z := by
  cases direction with
  | asc => exact (ordersTotally Value.order).trans x y z h h'
  | desc => exact (ordersTotally Value.order).trans z y x h' h

theorem prefer_cases (direction : Direction) (x y : Value) :
    (prefer direction x y = x ∨ prefer direction x y = y) ∧
      Prefers direction (prefer direction x y) x ∧ Prefers direction (prefer direction x y) y := by
  have hself : ∀ v : Value, v.order v ≠ .gt := fun v =>
    ((ordersTotally Value.order).total v v).elim id id
  have hgt : x.order y = .gt → y.order x ≠ .gt := fun h =>
    ((ordersTotally Value.order).total x y).resolve_left fun hne => hne h
  cases direction <;> unfold prefer <;> dsimp only <;> split
  next h => exact ⟨.inr rfl, hgt h, hself y⟩
  next h => exact ⟨.inl rfl, hself x, h⟩
  next h => exact ⟨.inl rfl, hself x, hgt h⟩
  next h => exact ⟨.inr rfl, h, hself y⟩

theorem foldl_prefer (direction : Direction) (v : Value) (rest : List Value) :
    rest.foldl (prefer direction) v ∈ v :: rest ∧
      ∀ w ∈ v :: rest, Prefers direction (rest.foldl (prefer direction) v) w := by
  induction rest generalizing v with
  | nil =>
    have hself := (prefer_cases direction v v).2.1
    rw [or_self_iff.mp (prefer_cases direction v v).1] at hself
    simpa using hself
  | cons x rest ih =>
    obtain ⟨hmem, hfirst⟩ := ih (prefer direction v x)
    obtain ⟨hone, hv, hx⟩ := prefer_cases direction v x
    have hchosen := hfirst _ List.mem_cons_self
    rw [List.foldl_cons]
    constructor
    · obtain heq | hrest := List.mem_cons.mp hmem
      · rw [heq]
        obtain heq | heq := hone <;> rw [heq] <;> simp
      · simp [hrest]
    · intro w hw
      obtain rfl | hw := List.mem_cons.mp hw
      · exact hchosen.trans hv
      · obtain rfl | hw := List.mem_cons.mp hw
        · exact hchosen.trans hx
        · exact hfirst w (List.mem_cons_of_mem _ hw)

theorem valueOf_cases (d : Document) :
    key.choices d = [] ∧ key.valueOf d = .null ∨
      key.valueOf d ∈ key.choices d ∧
        ∀ v ∈ key.choices d, Prefers key.direction (key.valueOf d) v := by
  unfold valueOf choices
  cases (d.lookup key.path).flatMap spread with
  | nil => exact .inl ⟨rfl, rfl⟩
  | cons v rest => exact .inr (foldl_prefer key.direction v rest)

theorem compareByAll_eq_iff {a b : Document} {o : Ordering} (ho : o ≠ .eq) :
    compareByAll keys a b = o ↔ ∃ front key rest, keys = front ++ key :: rest ∧
      (∀ k ∈ front, compareBy k a b = .eq) ∧ key.compareBy a b = o := by
  induction keys with
  | nil => simp [compareByAll, ho.symm]
  | cons key rest ih =>
    rw [compareByAll]
    by_cases heq : key.compareBy a b = .eq
    · rw [heq, Ordering.eq_then, ih]
      constructor
      · rintro ⟨front, k, back, rfl, hfront, hk⟩
        exact ⟨key :: front, k, back, rfl, List.forall_mem_cons.mpr ⟨heq, hfront⟩, hk⟩
      · rintro ⟨front, k, back, hsplit, hfront, hk⟩
        cases front with
        | nil =>
          cases hsplit
          exact absurd (hk.symm.trans heq) ho
        | cons first front =>
          cases hsplit
          exact ⟨front, k, back, rfl, (List.forall_mem_cons.mp hfront).2, hk⟩
    · have hfirst : (key.compareBy a b).then (compareByAll rest a b) = key.compareBy a b := by
        cases hkey : key.compareBy a b <;> first | rfl | exact absurd hkey heq
      rw [hfirst]
      constructor
      · exact fun hk => ⟨[], key, rest, rfl, nofun, hk⟩
      · rintro ⟨front, k, back, hsplit, hfront, hk⟩
        cases front with
        | nil =>
          cases hsplit
          exact hk
        | cons first front =>
          cases hsplit
          exact absurd (hfront _ List.mem_cons_self) heq

/-- Values are totally preordered, and so are documents under any keys. Classes go by their ranks,
and numbers by their sizes, exactly and with a NaN first; values that queries do not look into are
all equal. The first key that tells two documents apart decides, by the value of each that counts
first in its direction. -/
theorem values_and_documents_order_totally :
    OrdersTotally Value.order ∧ (∀ keys, OrdersTotally (compareByAll keys)) ∧
      (∀ a b : Value, a.rank ≠ b.rank → a.order b = compare a.rank b.rank) ∧
      (∀ (a b : Value) (m n : Number), a.number? = some m → b.number? = some n →
        a.order b = compare m.size? n.size?) ∧
      (∀ a b : Value, a.valueClass = .other → b.valueClass = .other → a.order b = .eq) ∧
      (∀ keys a b o, o ≠ .eq → (compareByAll keys a b = o ↔ ∃ front key rest,
        keys = front ++ key :: rest ∧ (∀ k ∈ front, compareBy k a b = .eq) ∧
          key.compareBy a b = o)) ∧
      (∀ p a b, compareBy ⟨p, .asc⟩ a b = (valueOf ⟨p, .asc⟩ a).order (valueOf ⟨p, .asc⟩ b) ∧
        compareBy ⟨p, .desc⟩ a b = (valueOf ⟨p, .desc⟩ b).order (valueOf ⟨p, .desc⟩ a)) ∧
      ∀ (key : SortKey) d, key.choices d = [] ∧ key.valueOf d = .null ∨
        key.valueOf d ∈ key.choices d ∧
          ∀ v ∈ key.choices d, Prefers key.direction (key.valueOf d) v := by
  refine ⟨ordersTotally Value.order, ?_, ?_, ?_, ?_, fun keys a b o => compareByAll_eq_iff keys,
    fun p a b => ⟨rfl, rfl⟩, valueOf_cases⟩
  · intro keys
    exact ordersTotally (compareByAll keys)
  · intro a b hrank
    exact Value.order_of_rank_ne hrank
  · intro a b m n hm hn
    rw [Value.order_of_number? hm hn, Number.order_eq]
  · intro a b ha hb
    exact Value.order_of_other ha hb

theorem ne_gt_trans (a b c : Document) (hab : decide (compareByAll keys a b ≠ .gt))
    (hbc : decide (compareByAll keys b c ≠ .gt)) : decide (compareByAll keys a c ≠ .gt) := by
  rw [decide_eq_true_eq] at *
  exact compareByAll_trans keys hab hbc

theorem ne_gt_total (a b : Document) :
    decide (compareByAll keys a b ≠ .gt) || decide (compareByAll keys b a ≠ .gt) := by
  rw [Bool.or_eq_true, decide_eq_true_eq, decide_eq_true_eq]
  exact (ordersTotally (compareByAll keys)).total a b

theorem pairwise_sort : (sort keys docs).Pairwise fun a b => compareByAll keys a b ≠ .gt :=
  (List.pairwise_mergeSort (ne_gt_trans keys) (ne_gt_total keys) docs).imp of_decide_eq_true

/-- The documents in the order of the keys, where those that compare equal keep theirs. -/
structure IsStableSort (keys : List SortKey) (docs sorted : List Document) : Prop where
  perm : sorted.Perm docs
  /-- No document is followed by one that comes strictly before it. -/
  ordered : sorted.Pairwise fun a b => compareByAll keys b a ≠ .lt
  stable : ∀ d, sorted.filter (compareByAll keys d · = .eq) = docs.filter (compareByAll keys d · = .eq)

theorem isStableSort_sort : IsStableSort keys docs (sort keys docs) where
  perm := sort_perm keys docs
  ordered := by
    refine (pairwise_sort keys docs).imp fun {a b} hab hba => hab ?_
    rw [← compareByAll_swap keys b a, hba]
    rfl
  stable := fun d => by
    let equal : Document → Bool := fun x => compareByAll keys d x = .eq
    -- The documents equal to `d` are a sorted sublist, and sorting keeps sorted sublists.
    have hsorted : (docs.filter equal).Pairwise fun a b => decide (compareByAll keys a b ≠ .gt) := by
      refine List.pairwise_of_forall_mem_list fun a ha b hb => ?_
      have hda : compareByAll keys d a = .eq := of_decide_eq_true (List.mem_filter.mp ha).2
      have hdb : compareByAll keys d b = .eq := of_decide_eq_true (List.mem_filter.mp hb).2
      simp [Std.TransCmp.eq_trans (Std.OrientedCmp.eq_symm hda) hdb]
    have hsub : (docs.filter equal).Sublist (sort keys docs) :=
      List.sublist_mergeSort (ne_gt_trans keys) (ne_gt_total keys) hsorted List.filter_sublist
    have hkept : (docs.filter equal).Sublist ((sort keys docs).filter equal) := by
      simpa using hsub.filter equal
    exact (hkept.eq_of_length ((sort_perm keys docs).filter equal).length_eq.symm).symm

section Classes

variable {xs ys : List Document}

private theorem mem_iff_of_classes
    (h : ∀ d, xs.filter (compareByAll keys d · = .eq) = ys.filter (compareByAll keys d · = .eq))
    (d : Document) : d ∈ xs ↔ d ∈ ys := by
  have hd := congrArg (d ∈ ·) (h d)
  simpa [compareByAll_self] using hd

theorem eq_of_ordered
    (hx : xs.Pairwise fun a b => compareByAll keys b a ≠ .lt)
    (hy : ys.Pairwise fun a b => compareByAll keys b a ≠ .lt)
    (h : ∀ d, xs.filter (compareByAll keys d · = .eq) = ys.filter (compareByAll keys d · = .eq)) :
    xs = ys := by
  induction xs generalizing ys with
  | nil =>
    have hnone : ∀ d, d ∉ ys := fun d hd => nomatch (mem_iff_of_classes keys h d).mpr hd
    exact (List.eq_nil_iff_forall_not_mem.mpr hnone).symm
  | cons x xs ih =>
    have hmem := mem_iff_of_classes keys h
    cases ys with
    | nil => exact nomatch (hmem x).mp (by simp)
    | cons y ys =>
      have hxy : compareByAll keys x y = .eq := by
        rw [List.pairwise_cons] at hx hy
        obtain rfl | hxs := List.mem_cons.mp ((hmem y).mpr (by simp))
        · exact compareByAll_self keys y
        obtain rfl | hys := List.mem_cons.mp ((hmem x).mp (by simp))
        · exact compareByAll_self keys x
        have hnlt := hy.1 x hys
        have hngt := hx.1 y hxs
        rw [← compareByAll_swap keys x y] at hngt
        cases hc : compareByAll keys x y with
        | eq => rfl
        | lt => exact absurd hc hnlt
        | gt => exact absurd (by rw [hc]; rfl) hngt
      obtain rfl : x = y := by
        have hclass := h x
        simp only [List.filter_cons, compareByAll_self, hxy, decide_true, if_true] at hclass
        exact (List.cons.inj hclass).1
      have hrest : ∀ d, xs.filter (compareByAll keys d · = .eq) =
          ys.filter (compareByAll keys d · = .eq) := fun d => by
        have hclass := h d
        rw [List.filter_cons, List.filter_cons] at hclass
        split at hclass
        · exact (List.cons.inj hclass).2
        · exact hclass
      rw [ih hx.of_cons hy.of_cons hrest]

end Classes

theorem isStableSort_iff {sorted : List Document} :
    IsStableSort keys docs sorted ↔ sorted = sort keys docs := by
  have hsort := isStableSort_sort keys docs
  constructor
  · intro h
    exact eq_of_ordered keys h.ordered hsort.ordered fun d => (h.stable d).trans (hsort.stable d).symm
  · rintro rfl
    exact hsort

theorem head?_sort {m : Document} (h : (sort keys docs).head? = some m) :
    m ∈ docs ∧ ∀ d ∈ docs, compareByAll keys m d ≠ .gt := by
  obtain ⟨rest, hrest⟩ := List.head?_eq_some_iff.mp h
  have hmem : m ∈ sort keys docs := by simp [hrest]
  refine ⟨(mem_sort keys docs).mp hmem, fun d hd => ?_⟩
  have hsorted := pairwise_sort keys docs
  rw [hrest, List.pairwise_cons] at hsorted
  rw [← mem_sort keys, hrest] at hd
  obtain rfl | hd := List.mem_cons.mp hd
  · rw [compareByAll_self]
    decide
  · exact hsorted.1 d hd

theorem head?_sort_eq_none_iff : (sort keys docs).head? = none ↔ docs = [] := by
  rw [List.head?_eq_none_iff, ← List.length_eq_zero_iff, (sort_perm keys docs).length_eq,
    List.length_eq_zero_iff]

theorem compareByAll_append (rest : List SortKey) (a b : Document) :
    compareByAll (keys ++ rest) a b = (compareByAll keys a b).then (compareByAll rest a b) := by
  induction keys with
  | nil => rfl
  | cons key keys ih =>
    rw [List.cons_append, compareByAll, compareByAll, ih, Ordering.then_assoc]

theorem exists_last {docs : List Document} (h : docs ≠ []) :
    ∃ m ∈ docs, ∀ x ∈ docs, compareByAll keys m x ≠ .lt := by
  have hself : ∀ d, compareByAll keys d d ≠ .lt := fun d => by
    rw [compareByAll_self]
    decide
  induction docs with
  | nil => exact absurd rfl h
  | cons d docs ih =>
    by_cases hdocs : docs = []
    · refine ⟨d, by simp, fun x hx => ?_⟩
      obtain rfl : x = d := by simpa [hdocs] using hx
      exact hself x
    · obtain ⟨m, hm, hlast⟩ := ih hdocs
      by_cases hd : compareByAll keys m d = .lt
      · refine ⟨d, by simp, fun x hx hlt => ?_⟩
        obtain rfl | hx := List.mem_cons.mp hx
        · exact hself x hlt
        · exact hlast x hx (Std.TransCmp.lt_trans hd hlt)
      · refine ⟨m, by simp [hm], fun x hx => ?_⟩
        obtain rfl | hx := List.mem_cons.mp hx
        · exact hd
        · exact hlast x hx

end Docbase.SortKey
