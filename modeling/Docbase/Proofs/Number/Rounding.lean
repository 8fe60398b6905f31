import Docbase.Number.Truncation
import Docbase.Proofs.Number.Text

namespace Docbase.Double

variable {x y : Double} {m rest : Nat}

def IsFinite (x : Double) : Prop := x.exponentBits < 2047

theorem IsFinite.not_isNaN (h : x.IsFinite) : x.isNaN = false := by
  rw [IsFinite] at h
  rw [isNaN, decide_eq_false (Nat.ne_of_lt h), Bool.false_and]

theorem IsFinite.not_isInfinite (h : x.IsFinite) : x.isInfinite = false := by
  rw [IsFinite] at h
  rw [isInfinite, decide_eq_false (Nat.ne_of_lt h), Bool.false_and]

theorem isFinite_of_not (hnan : x.isNaN = false) (hinfinite : x.isInfinite = false) :
    x.IsFinite := by
  have hlt : x.exponentBits < 2048 := Nat.mod_lt _ (by decide)
  have hne : x.exponentBits ≠ 2047 := by
    intro h
    by_cases hfraction : x.fractionBits = 0
    · simp [isInfinite, h, hfraction] at hinfinite
    · simp [isNaN, h, hfraction] at hnan
  rw [IsFinite]
  omega

theorem bits_ofParts (negative : Bool) (h : rest < 2 ^ 63) :
    (ofParts negative rest).bits.toNat = if negative then 2 ^ 63 + rest else rest := by
  rw [ofParts, UInt64.toNat_ofNat', signBit_eq]
  split <;> omega

theorem isNegative_ofParts (negative : Bool) (h : rest < 2 ^ 63) :
    (ofParts negative rest).isNegative = negative := by
  rw [isNegative, bits_ofParts _ h, signBit_eq]
  cases negative with
  | false => simpa using h
  | true => simp

theorem exponentBits_ofParts (negative : Bool) (h : rest < 2 ^ 63) :
    (ofParts negative rest).exponentBits = rest / 2 ^ 52 := by
  rw [exponentBits, bits_ofParts _ h, exponentUnit_eq]
  split <;> omega

theorem fractionBits_ofParts (negative : Bool) (h : rest < 2 ^ 63) :
    (ofParts negative rest).fractionBits = rest % 2 ^ 52 := by
  rw [fractionBits, bits_ofParts _ h, exponentUnit_eq]
  split <;> omega

theorem units_ofParts_zero (negative : Bool) : (ofParts negative 0).units = 0 := by
  cases negative <;> decide +kernel

theorem isFinite_ofParts_zero (negative : Bool) : (ofParts negative 0).IsFinite := by
  rw [IsFinite, exponentBits_ofParts _ (by decide)]
  decide

theorem isNegative_neg (x : Double) : x.neg.isNegative = !x.isNegative :=
  isNegative_ofParts _ (Nat.mod_lt _ (by decide))

theorem exponentBits_neg (x : Double) : x.neg.exponentBits = x.exponentBits := by
  rw [neg, signBit_eq, exponentBits_ofParts _ (Nat.mod_lt _ (by decide)), exponentBits,
    exponentUnit_eq]
  omega

theorem fractionBits_neg (x : Double) : x.neg.fractionBits = x.fractionBits := by
  rw [neg, signBit_eq, fractionBits_ofParts _ (Nat.mod_lt _ (by decide)), fractionBits,
    exponentUnit_eq]
  omega

theorem IsFinite.neg (h : x.IsFinite) : x.neg.IsFinite := by
  rwa [IsFinite, exponentBits_neg]

theorem magnitude_neg (x : Double) : x.neg.magnitude = x.magnitude := by
  rw [magnitude, magnitude, significand, significand, scale, scale, exponentBits_neg,
    fractionBits_neg]

theorem units_neg (x : Double) : x.neg.units = -x.units := by
  rw [units, units, magnitude_neg, isNegative_neg]
  cases x.isNegative <;> simp

/-- What can be written with 53 bits and a power of two that finite doubles have. -/
def IsRepresentable (m : Nat) : Prop := ∃ t k, t < 2 ^ 53 ∧ k ≤ 2045 ∧ m = t * 2 ^ k

theorem IsFinite.isRepresentable (h : x.IsFinite) : IsRepresentable x.magnitude := by
  rw [IsFinite] at h
  refine ⟨x.significand, x.scale, x.significand_lt, ?_, rfl⟩
  rw [scale]
  omega

theorem IsRepresentable.split (h : IsRepresentable m) (j : Nat) :
    IsRepresentable (m % 2 ^ j) ∧ IsRepresentable (m / 2 ^ j * 2 ^ j) := by
  obtain ⟨t, k, ht, hk, rfl⟩ := h
  obtain hjk | hkj := Nat.le_total j k
  · have hdvd : 2 ^ j ∣ t * 2 ^ k := (Nat.pow_dvd_pow 2 hjk).mul_left t
    refine ⟨⟨0, 0, by decide, by decide, ?_⟩, ⟨t, k, ht, hk, Nat.div_mul_cancel hdvd⟩⟩
    rw [Nat.mod_eq_zero_of_dvd hdvd, Nat.zero_mul]
  · have hpow : 2 ^ j = 2 ^ (j - k) * 2 ^ k := (Nat.pow_sub_mul_pow 2 hkj).symm
    refine ⟨⟨t % 2 ^ (j - k), k, ?_, hk, ?_⟩, ⟨t / 2 ^ (j - k) * 2 ^ (j - k), k, ?_, hk, ?_⟩⟩
    · exact Nat.lt_of_le_of_lt (Nat.mod_le _ _) ht
    · rw [hpow, Nat.mul_mod_mul_right]
    · exact Nat.lt_of_le_of_lt (Nat.div_mul_le_self _ _) ht
    · rw [hpow, Nat.mul_div_mul_right _ _ (Nat.two_pow_pos k), Nat.mul_assoc]

theorem IsRepresentable.exists_normal (h : IsRepresentable m) :
    ∃ s, m = s * 2 ^ (m.log2 - 52) ∧ s < 2 ^ 53 ∧ m.log2 - 52 ≤ 2045 ∧
      (2 ^ 52 ≤ s ∨ m.log2 - 52 = 0) := by
  obtain ⟨t, k, ht, hk, hm⟩ := h
  by_cases hzero : m = 0
  · subst hzero
    exact ⟨0, by simp, by decide, by simp, .inr (by simp)⟩
  have hlow := Nat.log2_self_le hzero
  have hhigh := @Nat.lt_log2_self m
  by_cases hlog : m.log2 < 52
  · have hdrop : m.log2 - 52 = 0 := by omega
    have hpow : 2 ^ (m.log2 + 1) ≤ 2 ^ 53 := Nat.pow_le_pow_right (by decide) (by omega)
    rw [hdrop]
    exact ⟨m, by simp, by omega, by decide, .inr rfl⟩
  · obtain ⟨d, hd⟩ : ∃ d, m.log2 = 52 + d := ⟨m.log2 - 52, by omega⟩
    have hdrop : m.log2 - 52 = d := by omega
    have hlt : m < 2 ^ (53 + k) := by
      rw [hm, Nat.pow_add]
      exact Nat.mul_lt_mul_of_pos_right ht (Nat.two_pow_pos k)
    have hdk : d ≤ k := by
      rw [hd] at hlow
      have := (Nat.pow_lt_pow_iff_right (by decide)).mp (Nat.lt_of_le_of_lt hlow hlt)
      omega
    have hs : m = t * 2 ^ (k - d) * 2 ^ d := by
      rw [hm, Nat.mul_assoc, Nat.pow_sub_mul_pow 2 hdk]
    rw [hd, Nat.pow_add] at hlow
    rw [hd, Nat.add_right_comm, Nat.pow_add] at hhigh
    rw [hdrop]
    generalize t * 2 ^ (k - d) = s at hs
    rw [hs] at hlow hhigh
    refine ⟨s, hs, ?_, by omega, .inl ?_⟩
    · exact Nat.lt_of_mul_lt_mul_right hhigh
    · exact Nat.le_of_mul_le_mul_right hlow (Nat.two_pow_pos d)

theorem roundHalfEven_mul {q den : Nat} (h : 0 < den) : roundHalfEven (q * den) den = q := by
  rw [roundHalfEven]
  simp only [Nat.mul_div_cancel q h, Nat.mul_mod_left, Nat.mul_zero, h, if_true]

theorem magnitude_ofParts (negative : Bool) {s d : Nat} (hs : s < 2 ^ 53) (hd : d ≤ 2045)
    (h : 2 ^ 52 ≤ s ∨ d = 0) :
    (ofParts negative (d * 2 ^ 52 + s)).magnitude = s * 2 ^ d ∧
      (ofParts negative (d * 2 ^ 52 + s)).IsFinite := by
  have hrest : d * 2 ^ 52 + s < 2 ^ 63 := by omega
  have hexponent := exponentBits_ofParts negative hrest
  have hfraction := fractionBits_ofParts negative hrest
  constructor
  · rw [magnitude, significand, scale, hexponent, hfraction, exponentUnit_eq]
    by_cases hleading : 2 ^ 52 ≤ s
    · have hquotient : (d * 2 ^ 52 + s) / 2 ^ 52 = d + 1 := by omega
      have hremainder : 2 ^ 52 + (d * 2 ^ 52 + s) % 2 ^ 52 = s := by omega
      rw [hquotient, hremainder, if_neg (Nat.succ_ne_zero d), Nat.add_sub_cancel]
      rfl
    · have hzero : d = 0 := h.resolve_left hleading
      have hquotient : (d * 2 ^ 52 + s) / 2 ^ 52 = 0 := by omega
      have hremainder : (d * 2 ^ 52 + s) % 2 ^ 52 = s := by omega
      rw [hquotient, hremainder, if_pos rfl, hzero]
      rfl
  · rw [IsFinite, hexponent]
    omega

theorem ofUnits_of_isRepresentable (negative : Bool) (h : IsRepresentable m) :
    (ofUnits negative m 1).IsFinite ∧ (ofUnits negative m 1).magnitude = m ∧
      (ofUnits negative m 1).isNegative = negative := by
  obtain ⟨s, hm, hs, hd, hnormal⟩ := h.exists_normal
  have hofUnits : ofUnits negative m 1 =
      ofParts negative ((m.log2 - 52) * 2 ^ 52 + s) := by
    have hround : roundHalfEven m (1 * Nat.pow 2 (m.log2 - 52)) = s := by
      rw [Nat.one_mul]
      nth_rewrite 1 [hm]
      exact roundHalfEven_mul (Nat.two_pow_pos _)
    have hbits : infinityBits = 2047 * 2 ^ 52 := rfl
    rw [ofUnits, Nat.div_one, hround, exponentUnit_eq, hbits, Nat.min_eq_left (by omega)]
  obtain ⟨hmagnitude, hfinite⟩ := magnitude_ofParts negative hs hd hnormal
  rw [hofUnits]
  exact ⟨hfinite, hmagnitude.trans hm.symm, isNegative_ofParts _ (by omega)⟩

theorem units_ofUnits {u : Int} (h : IsRepresentable u.natAbs) :
    (ofUnits (u < 0) u.natAbs 1).units = u := by
  obtain ⟨-, hmagnitude, hnegative⟩ := ofUnits_of_isRepresentable (u < 0) h
  rw [units, hmagnitude, hnegative]
  by_cases hu : u < 0
  · rw [decide_eq_true hu, if_pos rfl]
    omega
  · rw [decide_eq_false hu, if_neg Bool.false_ne_true]
    omega

theorem add_of_isRepresentable (hx : x.IsFinite) (hy : y.IsFinite)
    (h : IsRepresentable (x.units + y.units).natAbs) :
    (x.add y).units = x.units + y.units ∧ (x.add y).IsFinite := by
  simp only [add, hx.not_isNaN, hy.not_isNaN, hx.not_isInfinite, hy.not_isInfinite, Bool.or_self,
    Bool.false_eq_true, if_false]
  split
  next hzero => exact ⟨(units_ofParts_zero _).trans hzero.symm, isFinite_ofParts_zero _⟩
  next => exact ⟨units_ofUnits h, (ofUnits_of_isRepresentable _ h).1⟩

theorem sub_of_isRepresentable (hx : x.IsFinite) (hy : y.IsFinite)
    (h : IsRepresentable (x.units - y.units).natAbs) :
    (x.sub y).units = x.units - y.units ∧ (x.sub y).IsFinite := by
  rw [Int.sub_eq_add_neg, ← units_neg] at h ⊢
  exact add_of_isRepresentable hx hy.neg h

end Docbase.Double
