import Docbase.Proofs.Number.Order

namespace Docbase

/-- `Consistent xy yz xz`: so may three things compare in pairs under a preorder. -/
def Consistent (xy yz xz : Ordering) : Prop :=
  (xy = .eq → xz = yz) ∧ (yz = .eq → xz = xy) ∧ (xy = yz → xz = xy)

instance (xy yz xz : Ordering) : Decidable (Consistent xy yz xz) :=
  inferInstanceAs (Decidable (_ ∧ _ ∧ _))

theorem Consistent.then {xy yz xz : Ordering} (h : Consistent xy yz xz) {xy' yz' xz' : Ordering}
    (h' : Consistent xy' yz' xz') :
    Consistent (xy.then xy') (yz.then yz') (xz.then xz') := by
  revert h h'
  cases xy <;> cases yz <;> cases xz <;> cases xy' <;> cases yz' <;> cases xz' <;> decide

theorem consistent_lt_lt (o : Ordering) : Consistent .lt o .lt := by
  cases o <;> decide

theorem consistent_gt_gt (o : Ordering) : Consistent o .gt .gt := by
  cases o <;> decide

theorem consistent_gt_lt (o : Ordering) : Consistent .gt .lt o := by
  cases o <;> decide

theorem consistent_of_transCmp {α : Type} {cmp : α → α → Ordering} [Std.TransCmp cmp] (x y z : α) :
    Consistent (cmp x y) (cmp y z) (cmp x z) := by
  refine ⟨Std.TransCmp.congr_left, fun h => (Std.TransCmp.congr_right h).symm, fun h => ?_⟩
  cases hxy : cmp x y with
  | lt => exact Std.TransCmp.lt_trans hxy (h ▸ hxy)
  | eq => exact Std.TransCmp.eq_trans hxy (h ▸ hxy)
  | gt => exact Std.TransCmp.gt_trans hxy (h ▸ hxy)

theorem transCmp_of_consistent {α : Type} {cmp : α → α → Ordering}
    (hswap : ∀ x y, (cmp x y).swap = cmp y x)
    (h : ∀ x y z, Consistent (cmp x y) (cmp y z) (cmp x z)) : Std.TransCmp cmp where
  eq_swap {x y} := (hswap y x).symm
  isLE_trans {x y z} hxy hyz := by
    have hxyz := h x y z
    revert hxy hyz hxyz
    cases cmp x y <;> cases cmp y z <;> cases cmp x z <;> decide

/-- The comparison makes a total preorder. -/
structure OrdersTotally {α : Type} (cmp : α → α → Ordering) : Prop where
  swap : ∀ a b, (cmp a b).swap = cmp b a
  total : ∀ a b, cmp a b ≠ .gt ∨ cmp b a ≠ .gt
  trans : ∀ a b c, cmp a b ≠ .gt → cmp b c ≠ .gt → cmp a c ≠ .gt

theorem ordersTotally {α : Type} (cmp : α → α → Ordering) [Std.TransCmp cmp] :
    OrdersTotally cmp := by
  have hswap : ∀ a b, (cmp a b).swap = cmp b a := fun a b => Std.OrientedCmp.eq_swap.symm
  have hle : ∀ {o : Ordering}, o ≠ .gt ↔ o.isLE := by
    intro o
    cases o <;> decide
  refine ⟨hswap, ?_, ?_⟩
  · intro a b
    rw [← hswap a b]
    cases cmp a b <;> decide
  · intro a b c hab hbc
    exact hle.mpr (Std.TransCmp.isLE_trans (hle.mp hab) (hle.mp hbc))

namespace Value

def size? : Value → Option Int
  | .int32 n => (Number.int n.toInt).size?
  | .int64 n => (Number.int n.toInt).size?
  | .double x => (Number.double x).size?
  | .objectId id => some id.number.toNat
  | .bool b => some b.toNat
  | .dateTime millis => some millis.toInt
  | _ => none

def bytes : Value → List UInt8
  | .binary _ bytes => bytes
  | _ => []

def subtype? : Value → Option UInt8
  | .binary subtype _ => some subtype
  | _ => none

/-- The order of values that are not both arrays and not both documents, taken apart. -/
def comparePlain : Value → Value → Ordering :=
  compareLex (compareOn fun v => v.valueClass.rank) <|
    compareLex (compareOn size?) <|
    compareLex (compareOn text?) <|
    compareLex (compareOn fun v => v.bytes.length) <|
    compareLex (compareOn subtype?) (compareOn bytes)

instance : Std.TransCmp comparePlain := by unfold comparePlain; infer_instance

theorem orderPlain_of_number? {a b : Value} {m n : Number} (ha : a.number? = some m)
    (hb : b.number? = some n) : a.orderPlain b = m.order n := by
  simp only [orderPlain, ha, hb]

theorem comparePlain_of_number? {a b : Value} {m n : Number} (ha : a.number? = some m)
    (hb : b.number? = some n) : a.comparePlain b = compare m.size? n.size? := by
  cases a <;> cases ha <;> cases b <;> cases hb <;>
    exact Ordering.then_eq

theorem orderPlain_eq (a b : Value) : a.orderPlain b = a.comparePlain b := by
  have hnumber : ∀ {m n : Number}, a.number? = some m → b.number? = some n →
      a.orderPlain b = a.comparePlain b := fun ha hb => by
    rw [orderPlain_of_number? ha hb, comparePlain_of_number? ha hb, Number.order_eq]
  have hnat : ∀ x y : Nat, compare (x : Int) y = compare x y := by
    intro x y
    simp only [Int.compare_eq_ite_lt, Nat.compare_eq_ite_lt, Int.ofNat_lt]
  cases a <;> cases b
  all_goals try rfl
  all_goals try exact hnumber rfl rfl
  case string.string s t | string.symbol s t | symbol.string s t | symbol.symbol s t =>
    exact Ordering.then_eq.symm
  case dateTime.dateTime x y => exact Ordering.then_eq.symm
  case bool.bool x y => cases x <;> cases y <;> rfl
  case objectId.objectId x y =>
    exact (hnat x.number.toNat y.number.toNat).symm.trans Ordering.then_eq.symm

/-- Whether the value has no items and no fields. -/
def isPlain : Value → Bool
  | .array _ | .document _ => false
  | _ => true

theorem order_of_isPlain_left {a : Value} (ha : a.isPlain) (b : Value) :
    a.order b = a.comparePlain b := by
  rw [order, orderPlain_eq] <;> · rintro _ _ rfl; cases ha

theorem order_of_isPlain_right (a : Value) {b : Value} (hb : b.isPlain) :
    a.order b = a.comparePlain b := by
  rw [order, orderPlain_eq] <;> · rintro _ _ _ rfl; cases hb

def rank (v : Value) : Nat := v.valueClass.rank

theorem order_of_rank_ne {a b : Value} (h : a.rank ≠ b.rank) :
    a.order b = compare a.rank b.rank := by
  have hplain : a.isPlain ∨ b.isPlain → a.order b = a.comparePlain b := fun hp =>
    hp.elim (fun ha => order_of_isPlain_left ha b) (order_of_isPlain_right a)
  have hrank : compare a.rank b.rank ≠ .eq := fun heq => h (Nat.compare_eq_eq.mp heq)
  have hcompare : a.comparePlain b = compare a.rank b.rank := by
    change (compare a.rank b.rank).then _ = _
    cases hc : compare a.rank b.rank with
    | eq => exact absurd hc hrank
    | lt | gt => rfl
  cases a with
  | array xs =>
    cases b with
    | array ys => exact absurd rfl h
    | document ys => rfl
    | _ => exact (hplain (.inr rfl)).trans hcompare
  | document xs =>
    cases b with
    | array ys => rfl
    | document ys => exact absurd rfl h
    | _ => exact (hplain (.inr rfl)).trans hcompare
  | _ => exact (hplain (.inl rfl)).trans hcompare

theorem exists_of_rank_eq_array {v : Value} {xs : List Value} (h : v.rank = (array xs).rank) :
    ∃ ys, v = .array ys := by
  cases v <;> first | exact ⟨_, rfl⟩ | cases h

theorem exists_of_rank_eq_document {v : Value} {xs : Document} (h : v.rank = (document xs).rank) :
    ∃ ys, v = .document ys := by
  cases v <;> first | exact ⟨_, rfl⟩ | cases h

theorem order_consistent_of_rank {a b c : Value} (h : ¬(a.rank = b.rank ∧ b.rank = c.rank)) :
    Consistent (a.order b) (b.order c) (a.order c) := by
  have hranks : Consistent (compare a.rank b.rank) (compare b.rank c.rank)
      (compare a.rank c.rank) := consistent_of_transCmp a.rank b.rank c.rank
  have hne : ∀ {x y : Value}, x.rank ≠ y.rank → compare x.rank y.rank ≠ .eq := fun hxy heq =>
    hxy (Nat.compare_eq_eq.mp heq)
  by_cases hab : a.rank = b.rank
  · have hbc : b.rank ≠ c.rank := fun hbc => h ⟨hab, hbc⟩
    have hac : a.rank ≠ c.rank := fun hac => hbc (hab.symm.trans hac)
    rw [order_of_rank_ne hbc, order_of_rank_ne hac, hab]
    exact ⟨fun _ => rfl, fun heq => absurd heq (hne hbc), fun heq => heq.symm⟩
  · rw [order_of_rank_ne hab]
    by_cases hbc : b.rank = c.rank
    · rw [order_of_rank_ne fun hac => hab (hac.trans hbc.symm), ← hbc]
      exact ⟨fun heq => absurd heq (hne hab), fun _ => rfl, fun _ => rfl⟩
    · rw [order_of_rank_ne hbc]
      by_cases hac : a.rank = c.rank
      · refine ⟨fun heq => absurd heq (hne hab), fun heq => absurd heq (hne hbc), fun heq => ?_⟩
        rw [hac, ← Nat.compare_swap] at heq
        have hbc' := hne hbc
        cases hcompare : compare b.rank c.rank <;> simp_all
      · rw [order_of_rank_ne hac]
        exact hranks

mutual

theorem order_swap (a b : Value) : (a.order b).swap = b.order a := by
  have hplain : (a.comparePlain b).swap = b.comparePlain a :=
    Std.OrientedCmp.eq_swap.symm
  cases a with
  | array xs =>
    cases b with
    | array ys => simpa only [order] using orderItems_swap xs ys
    | document ys => rfl
    | _ => rwa [order_of_isPlain_right _ rfl, order_of_isPlain_left rfl]
  | document xs =>
    cases b with
    | array ys => rfl
    | document ys => simpa only [order] using orderFields_swap xs ys
    | _ => rwa [order_of_isPlain_right _ rfl, order_of_isPlain_left rfl]
  | _ => rwa [order_of_isPlain_left rfl, order_of_isPlain_right _ rfl]

theorem orderItems_swap : ∀ xs ys : List Value, (orderItems xs ys).swap = orderItems ys xs
  | [], [] | [], _ :: _ | _ :: _, [] => rfl
  | x :: xs, y :: ys => by
    rw [orderItems, orderItems, Ordering.swap_then, order_swap x y, orderItems_swap xs ys]

theorem orderFields_swap : ∀ xs ys : List (String × Value),
    (orderFields xs ys).swap = orderFields ys xs
  | [], [] | [], _ :: _ | _ :: _, [] => rfl
  | (k, v) :: xs, (l, w) :: ys => by
    have hkey : (compare k l).swap = compare l k := Std.OrientedCmp.eq_swap.symm
    rw [orderFields, orderFields, Ordering.swap_then, Ordering.swap_then, order_swap v w, hkey,
      orderFields_swap xs ys]

end

mutual

theorem order_consistent (a b c : Value) : Consistent (a.order b) (b.order c) (a.order c) := by
  by_cases h : a.rank = b.rank ∧ b.rank = c.rank
  · obtain ⟨hab, hbc⟩ := h
    cases a with
    | array xs =>
      obtain ⟨ys, rfl⟩ := exists_of_rank_eq_array hab.symm
      obtain ⟨zs, rfl⟩ := exists_of_rank_eq_array hbc.symm
      simpa only [order] using orderItems_consistent xs ys zs
    | document xs =>
      obtain ⟨ys, rfl⟩ := exists_of_rank_eq_document hab.symm
      obtain ⟨zs, rfl⟩ := exists_of_rank_eq_document hbc.symm
      simpa only [order] using orderFields_consistent xs ys zs
    | _ =>
      have hb : b.isPlain := by
        cases b <;> first | rfl | cases hab
      rw [order_of_isPlain_left rfl, order_of_isPlain_left hb, order_of_isPlain_left rfl]
      exact consistent_of_transCmp _ b c
  · exact order_consistent_of_rank h

theorem orderItems_consistent : ∀ xs ys zs : List Value,
    Consistent (orderItems xs ys) (orderItems ys zs) (orderItems xs zs)
  | [], [], [] => (by decide : Consistent .eq .eq .eq)
  | [], [], _ :: _ => (by decide : Consistent .eq .lt .lt)
  | [], _ :: _, [] => (by decide : Consistent .lt .gt .eq)
  | _ :: _, [], [] => (by decide : Consistent .gt .eq .gt)
  | [], _ :: _, _ :: _ => consistent_lt_lt _
  | _ :: _, [], _ :: _ => consistent_gt_lt _
  | _ :: _, _ :: _, [] => consistent_gt_gt _
  | x :: xs, y :: ys, z :: zs => (order_consistent x y z).then (orderItems_consistent xs ys zs)

theorem orderFields_consistent : ∀ xs ys zs : List (String × Value),
    Consistent (orderFields xs ys) (orderFields ys zs) (orderFields xs zs)
  | [], [], [] => (by decide : Consistent .eq .eq .eq)
  | [], [], _ :: _ => (by decide : Consistent .eq .lt .lt)
  | [], _ :: _, [] => (by decide : Consistent .lt .gt .eq)
  | _ :: _, [], [] => (by decide : Consistent .gt .eq .gt)
  | [], _ :: _, _ :: _ => consistent_lt_lt _
  | _ :: _, [], _ :: _ => consistent_gt_lt _
  | _ :: _, _ :: _, [] => consistent_gt_gt _
  | (k, v) :: xs, (l, w) :: ys, (m, u) :: zs =>
    (order_consistent v w u).then
      ((consistent_of_transCmp k l m).then (orderFields_consistent xs ys zs))

end

instance : Std.TransCmp order := transCmp_of_consistent order_swap order_consistent

theorem rank_eq_of_order_eq {a b : Value} (h : a.order b = .eq) : a.rank = b.rank := by
  by_cases hrank : a.rank = b.rank
  · exact hrank
  · rw [order_of_rank_ne hrank] at h
    exact absurd (Nat.compare_eq_eq.mp h) hrank

theorem valueClass_eq_of_order_eq {a b : Value} (h : a.order b = .eq) :
    a.valueClass = b.valueClass := by
  have hrank : a.valueClass.rank = b.valueClass.rank := rank_eq_of_order_eq h
  revert hrank
  cases a.valueClass <;> cases b.valueClass <;> decide

theorem valueClass_of_number? {v : Value} {n : Number} (h : v.number? = some n) :
    v.valueClass = .number := by
  cases v <;> first | rfl | cases h

theorem order_of_number? {a b : Value} {m n : Number} (ha : a.number? = some m)
    (hb : b.number? = some n) : a.order b = m.order n := by
  have hplain : a.isPlain := by
    cases a <;> first | rfl | cases ha
  rw [order_of_isPlain_left hplain, comparePlain_of_number? ha hb, Number.order_eq]

theorem order_of_other {a b : Value} (ha : a.valueClass = .other) (hb : b.valueClass = .other) :
    a.order b = .eq := by
  cases a <;> cases ha <;> cases b <;> cases hb <;> rfl

end Value

end Docbase
