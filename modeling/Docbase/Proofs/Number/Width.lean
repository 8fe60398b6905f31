import Docbase.Number.Width
import Mathlib.Algebra.Group.Int.Defs

namespace Docbase.Number

/-- The integer is a signed number of so many bits. -/
def FitsIn (bits : Nat) (n : Int) : Prop := -2 ^ (bits - 1) ≤ n ∧ n < 2 ^ (bits - 1)

instance (bits : Nat) (n : Int) : Decidable (FitsIn bits n) :=
  inferInstanceAs (Decidable (_ ∧ _))

variable {n : Int}

theorem fitsIn_32_iff : FitsIn 32 n ↔ Int32.minValue.toInt ≤ n ∧ n ≤ Int32.maxValue.toInt := by
  rw [Int32.toInt_minValue, Int32.toInt_maxValue, FitsIn, Int.le_sub_one_iff]

theorem fitsIn_64_iff : FitsIn 64 n ↔ Int64.minValue.toInt ≤ n ∧ n ≤ Int64.maxValue.toInt := by
  rw [Int64.toInt_minValue, Int64.toInt_maxValue, FitsIn, Int.le_sub_one_iff]

theorem FitsIn.widen (h : FitsIn 32 n) : FitsIn 64 n := by
  simp only [FitsIn] at h ⊢
  omega

theorem fitsIn_int32 (n : Int32) : FitsIn 32 n.toInt := ⟨n.le_toInt, n.toInt_lt⟩

theorem fitsIn_int64 (n : Int64) : FitsIn 64 n.toInt := ⟨n.le_toInt, n.toInt_lt⟩

theorem int32?_of_fitsIn (h : FitsIn 32 n) : ∃ m, int32? n = some m ∧ m.toInt = n := by
  obtain ⟨hmin, hmax⟩ := fitsIn_32_iff.mp h
  refine ⟨Int32.ofInt n, ?_, Int32.toInt_ofInt_of_le h.1 h.2⟩
  simp only [int32?, hmin, hmax, decide_true, Bool.and_true, if_true]

theorem int64?_of_fitsIn (h : FitsIn 64 n) : ∃ m, int64? n = some m ∧ m.toInt = n := by
  obtain ⟨hmin, hmax⟩ := fitsIn_64_iff.mp h
  refine ⟨Int64.ofInt n, ?_, Int64.toInt_ofInt_of_le h.1 h.2⟩
  simp only [int64?, hmin, hmax, decide_true, Bool.and_true, if_true]

theorem int32?_eq_none (h : ¬ FitsIn 32 n) : int32? n = none := by
  rw [fitsIn_32_iff] at h
  simpa [int32?] using h

theorem int64?_eq_none (h : ¬ FitsIn 64 n) : int64? n = none := by
  rw [fitsIn_64_iff] at h
  simpa [int64?] using h

theorem int32?_toInt (n : Int32) : int32? n.toInt = some n := by
  obtain ⟨m, hm, hmn⟩ := int32?_of_fitsIn (fitsIn_int32 n)
  rw [hm, Int32.toInt_inj.mp hmn]

theorem int64?_toInt (n : Int64) : int64? n.toInt = some n := by
  obtain ⟨m, hm, hmn⟩ := int64?_of_fitsIn (fitsIn_int64 n)
  rw [hm, Int64.toInt_inj.mp hmn]

theorem uint64?_eq_some_iff {a : UInt64} : uint64? n = some a ↔ n = a.toNat := by
  rw [uint64?]
  constructor
  · intro h
    split at h
    next hn =>
      rw [Bool.and_eq_true, decide_eq_true_eq, decide_eq_true_eq] at hn
      cases h
      rw [UInt64.toNat_ofNat_of_lt' (by omega), Int.toNat_of_nonneg hn.1]
    next => cases h
  · rintro rfl
    have hlt : (a.toNat : Int) < UInt64.size := Int.ofNat_lt.mpr a.toNat_lt
    rw [decide_eq_true (Int.natCast_nonneg _), decide_eq_true hlt, Bool.and_self, if_pos rfl,
      Int.toNat_natCast, UInt64.ofNat_toNat]

theorem uint64?_natCast_eq_none {k : Nat} (h : UInt64.size ≤ k) : uint64? k = none := by
  have hlt : ¬(k : Int) < UInt64.size := Int.not_lt.mpr (Int.ofNat_le.mpr h)
  rw [uint64?, decide_eq_false hlt, Bool.and_false]
  rfl

end Docbase.Number
