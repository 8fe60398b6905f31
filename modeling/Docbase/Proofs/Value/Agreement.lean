import Docbase.Proofs.Value.Equality
import Docbase.Proofs.Value.Order
import Mathlib.Tactic.MkIffOfInductiveProp

namespace Docbase.Value

variable {v w : Value}

def isNaN (v : Value) : Bool := v.number?.any Number.isNaN

theorem isNaN_of_number? {n : Number} (h : v.number? = some n) : v.isNaN = n.size?.isNone := by
  rw [isNaN, h, Option.any_some, Number.isNaN_eq]

theorem exists_number?_of_isNaN (h : v.isNaN) : ∃ n, v.number? = some n := by
  cases hv : v.number? with
  | none => simp [isNaN, hv] at h
  | some n => exact ⟨n, rfl⟩

theorem exists_number?_of_valueClass (h : v.valueClass = .number) : ∃ n, v.number? = some n := by
  cases v with
  | int32 n | int64 n | double n => exact ⟨_, rfl⟩
  | _ => cases h

theorem isNaN_of_valueClass_ne (h : v.valueClass ≠ .number) : v.isNaN = false := by
  cases hv : v.isNaN with
  | false => rfl
  | true =>
    obtain ⟨n, hn⟩ := exists_number?_of_isNaN hv
    exact absurd (valueClass_of_number? hn) h

theorem size?_eq_of_order_eq {m n : Number} (hm : v.number? = some m) (hn : w.number? = some n)
    (h : v.order w = .eq) : m.size? = n.size? := by
  rwa [order_of_number? hm hn, Number.order_eq, Std.compare_eq_iff_eq] at h

theorem isNaN_eq_of_order_eq (h : v.order w = .eq) : v.isNaN = w.isNaN := by
  have hclass := valueClass_eq_of_order_eq h
  by_cases hv : v.valueClass = .number
  · obtain ⟨m, hm⟩ := exists_number?_of_valueClass hv
    obtain ⟨n, hn⟩ := exists_number?_of_valueClass (hclass ▸ hv)
    rw [isNaN_of_number? hm, isNaN_of_number? hn, size?_eq_of_order_eq hm hn h]
  · rw [isNaN_of_valueClass_ne hv, isNaN_of_valueClass_ne (hclass ▸ hv)]

/-- `TiesWith v w`: the values rank equal though queries see a difference between them. -/
def TiesWith (v w : Value) : Prop :=
  (v.isNaN ∧ w.isNaN) ∨ (v.valueClass = .other ∧ w.valueClass = .other ∧ ¬v.same w)

theorem TiesWith.order_eq (h : v.TiesWith w) : v.order w = .eq := by
  obtain ⟨hv, hw⟩ | ⟨hv, hw, -⟩ := h
  · obtain ⟨m, hm⟩ := exists_number?_of_isNaN hv
    obtain ⟨n, hn⟩ := exists_number?_of_isNaN hw
    rw [isNaN_of_number? hm, Option.isNone_iff_eq_none] at hv
    rw [isNaN_of_number? hn, Option.isNone_iff_eq_none] at hw
    rw [order_of_number? hm hn, Number.order_eq, hv, hw]
    rfl
  · exact order_of_other hv hw

theorem not_tiesWith (hnan : w.isNaN = false) (hclass : w.valueClass ≠ .other) :
    ¬v.TiesWith w := by
  rintro (⟨-, h⟩ | ⟨-, h, -⟩)
  · simp [hnan] at h
  · exact hclass h

theorem agrees_iff_order_eq : v.agrees w ↔ v.order w = .eq ∧ ¬v.TiesWith w := by
  unfold agrees
  split
  next m n hm hn =>
    have hclass : v.valueClass ≠ .other := by
      rw [valueClass_of_number? hm]
      decide
    rw [order_of_number? hm hn, Number.order_eq, TiesWith, isNaN_of_number? hm,
      isNaN_of_number? hn]
    cases ha : m.size? with
    | none =>
      simp only [Number.compare?_of_size?_eq_none (.inl ha)]
      simpa [hclass] using Eq.symm
    | some a =>
      cases hb : n.size? with
      | none => simp [Number.compare?_of_size?_eq_none (.inr hb)]
      | some b => simp [Number.compare?_eq ha hb, hclass]
  next hnumber =>
    have hnan : ¬(v.isNaN ∧ w.isNaN) := by
      rintro ⟨hv, hw⟩
      obtain ⟨m, hm⟩ := exists_number?_of_isNaN hv
      obtain ⟨n, hn⟩ := exists_number?_of_isNaN hw
      exact hnumber m n hm hn
    split
    next hother =>
      simp only [Bool.and_eq_true, decide_eq_true_eq] at hother
      obtain ⟨hv, hw⟩ := hother
      simp only [TiesWith, hnan, hv, hw, order_of_other hv hw]
      simp [BEq.beq]
    next hother =>
      have hties : ¬v.TiesWith w := by
        rintro (h | ⟨hv, hw, -⟩)
        · exact hnan h
        · simp [hv, hw] at hother
      simp only [Bool.and_eq_true, decide_eq_true_eq]
      exact ⟨fun h => ⟨h.2, hties⟩, fun h => ⟨valueClass_eq_of_order_eq h.1, h.1⟩⟩

theorem order_eq_of_agrees (h : v.agrees w) : v.order w = .eq := (agrees_iff_order_eq.mp h).1

theorem agrees_iff_same (hv : v.valueClass = .other) (hw : w.valueClass = .other) :
    v.agrees w ↔ v.same w := by
  have hnan : v.isNaN = false := by
    apply isNaN_of_valueClass_ne
    rw [hv]
    decide
  simp [agrees_iff_order_eq, order_of_other hv hw, TiesWith, hv, hw, hnan]

theorem order_eq_iff_agrees : v.order w = .eq ↔ v.agrees w ∨ v.TiesWith w := by
  rw [agrees_iff_order_eq]
  constructor
  · intro h
    by_cases hties : v.TiesWith w
    · exact .inr hties
    · exact .inl ⟨h, hties⟩
  · rintro (h | h)
    · exact h.1
    · exact h.order_eq

theorem TiesWith.symm (hv : v.hasDistinctKeys) (hw : w.hasDistinctKeys) (h : v.TiesWith w) :
    w.TiesWith v := by
  obtain ⟨hnan, hnan'⟩ | ⟨hother, hother', hsame⟩ := h
  · exact .inl ⟨hnan', hnan⟩
  · exact .inr ⟨hother', hother, mt (same_symm w v hw hv) hsame⟩

theorem agrees_comm (hv : v.hasDistinctKeys) (hw : w.hasDistinctKeys) :
    v.agrees w = w.agrees v := by
  have horder : v.order w = .eq ↔ w.order v = .eq :=
    ⟨Std.OrientedCmp.eq_symm, Std.OrientedCmp.eq_symm⟩
  have hties : v.TiesWith w ↔ w.TiesWith v := ⟨.symm hv hw, .symm hw hv⟩
  rw [Bool.eq_iff_iff, agrees_iff_order_eq, agrees_iff_order_eq, horder, hties]

/-- Whether the two values have a place in the order of one class. -/
@[mk_iff]
structure Comparable (v w : Value) : Prop where
  valueClass_eq : v.valueClass = w.valueClass
  ne_other : v.valueClass ≠ .other
  isNaN_left : v.isNaN = false
  isNaN_right : w.isNaN = false

theorem compareWithin?_eq_some_iff {o : Ordering} :
    v.compareWithin? w = some o ↔ v.Comparable w ∧ v.order w = o := by
  unfold compareWithin?
  split
  next m n hm hn =>
    have hv := valueClass_of_number? hm
    have hw := valueClass_of_number? hn
    have hcomparable : v.Comparable w ↔ v.isNaN = false ∧ w.isNaN = false :=
      ⟨fun h => ⟨h.isNaN_left, h.isNaN_right⟩, fun ⟨hnan, hnan'⟩ =>
        ⟨hv.trans hw.symm, by rw [hv]; decide, hnan, hnan'⟩⟩
    rw [hcomparable, isNaN_of_number? hm, isNaN_of_number? hn, order_of_number? hm hn,
      Number.order_eq]
    cases ha : m.size? with
    | none => simp [Number.compare?_of_size?_eq_none (.inl ha)]
    | some a =>
      cases hb : n.size? with
      | none => simp [Number.compare?_of_size?_eq_none (.inr hb)]
      | some b =>
        have hsome : compare (some a) (some b) = compare a b := rfl
        simp [Number.compare?_eq ha hb, hsome]
  next hnumber =>
    have hnan (hclass : v.valueClass = w.valueClass) : v.valueClass ≠ .number := by
      intro hv
      obtain ⟨m, hm⟩ := exists_number?_of_valueClass hv
      obtain ⟨n, hn⟩ := exists_number?_of_valueClass (hclass ▸ hv)
      exact hnumber m n hm hn
    split
    next hother =>
      refine ⟨nofun, fun ⟨h, _⟩ => ?_⟩
      simp [← h.valueClass_eq, h.ne_other] at hother
    next hother =>
      simp only [Bool.or_eq_true, decide_eq_true_eq, not_or] at hother
      split
      next hclass =>
        have hcomparable : v.Comparable w :=
          ⟨hclass, hother.1, isNaN_of_valueClass_ne (hnan hclass),
            isNaN_of_valueClass_ne (hclass ▸ hnan hclass)⟩
        simp [hcomparable]
      next hclass => exact ⟨nofun, fun ⟨h, _⟩ => absurd h.valueClass_eq hclass⟩

theorem agrees_iff_compareWithin? (hw : w.valueClass ≠ .other) :
    v.agrees w ↔ v.compareWithin? w = some .eq := by
  rw [agrees_iff_order_eq, compareWithin?_eq_some_iff, and_comm, and_congr_left_iff]
  intro h
  have hclass := valueClass_eq_of_order_eq h
  have hnan := isNaN_eq_of_order_eq h
  constructor
  · intro hties
    have hv : v.isNaN = false := by
      cases hv : v.isNaN with
      | false => rfl
      | true => exact absurd (.inl ⟨hv, hnan ▸ hv⟩) hties
    exact ⟨hclass, hclass ▸ hw, hv, hnan ▸ hv⟩
  · intro hcomparable
    exact not_tiesWith hcomparable.isNaN_right hw

end Docbase.Value
