import Docbase.Number.Shortest
import Mathlib.Tactic.Ring

namespace Docbase.Double

variable {x y : Double} {n k : Nat}

theorem two_pow_le {a b : Nat} (h : a ≤ b) : Nat.pow 2 a ≤ Nat.pow 2 b :=
  Nat.pow_le_pow_right (by decide) h

theorem unitsPerOne_eq : unitsPerOne = 2 ^ 1074 := by decide +kernel

theorem one_lt_unitsPerOne : 1 < unitsPerOne := by decide +kernel

def gap (x : Double) : Nat := Nat.pow 2 x.scale

theorem gap_pos (x : Double) : 0 < x.gap := Nat.pow_pos (by decide)

theorem magnitude_eq (x : Double) : x.magnitude = x.significand * x.gap := rfl

theorem fractionBits_lt (x : Double) : x.fractionBits < 2 ^ 52 := Nat.mod_lt _ (by decide)

theorem exponentUnit_eq : exponentUnit = 2 ^ 52 := rfl

theorem signBit_eq : signBit = 2 ^ 63 := rfl

theorem significand_lt (x : Double) : x.significand < 2 ^ 53 := by
  have h := x.fractionBits_lt
  rw [significand, exponentUnit_eq]
  split <;> omega

theorem significand_of_scale_pos (h : 0 < x.scale) : x.significand = 2 ^ 52 + x.fractionBits := by
  have hbits : x.exponentBits ≠ 0 := by
    rw [scale] at h
    omega
  rw [significand, if_neg hbits, exponentUnit_eq]

theorem eq_bits_of_eq (hscale : x.scale = y.scale) (hsignificand : x.significand = y.significand) :
    x.exponentBits = y.exponentBits ∧ x.fractionBits = y.fractionBits := by
  have hx := x.fractionBits_lt
  have hy := y.fractionBits_lt
  rw [scale, scale] at hscale
  rw [significand, significand, exponentUnit_eq] at hsignificand
  split at hsignificand <;> split at hsignificand <;> omega

/-- How far the interval reaches down, in quarters of a gap. -/
def reach (x : Double) : Nat := if x.fractionBits = 0 then 1 else 2

theorem reach_cases (x : Double) :
    x.fractionBits = 0 ∧ x.reach = 1 ∨ x.fractionBits ≠ 0 ∧ x.reach = 2 := by
  rw [reach]
  split
  next h => exact .inl ⟨h, rfl⟩
  next h => exact .inr ⟨h, rfl⟩

theorem absorbs_iff : x.absorbs n k ↔
    if x.significand % 2 = 0 then
      (4 * x.significand - x.reach) * (x.gap * k) ≤ 4 * n ∧
        4 * n ≤ (4 * x.significand + 2) * (x.gap * k)
    else
      (4 * x.significand - x.reach) * (x.gap * k) < 4 * n ∧
        4 * n < (4 * x.significand + 2) * (x.gap * k) := by
  have hbelow : (if x.fractionBits = 0 then Nat.pow 2 x.scale else 2 * Nat.pow 2 x.scale) =
      x.reach * x.gap := by
    rw [reach, gap]
    split <;> simp
  have hlow : (4 * x.magnitude - x.reach * x.gap) * k =
      (4 * x.significand - x.reach) * (x.gap * k) := by
    rw [magnitude_eq, ← Nat.mul_assoc, ← Nat.sub_mul, Nat.mul_assoc]
  have hhigh : (4 * x.magnitude + 2 * Nat.pow 2 x.scale) * k =
      (4 * x.significand + 2) * (x.gap * k) := by
    rw [magnitude_eq, ← Nat.mul_assoc, gap, ← Nat.add_mul, Nat.mul_assoc]
  unfold absorbs
  simp only [hbelow, hlow, hhigh]
  split <;> simp

theorem ends_of_absorbs (hx : x.absorbs n k) (hy : y.absorbs n k) (hk : 0 < k) :
    (4 * y.significand - y.reach) * y.gap ≤ (4 * x.significand + 2) * x.gap ∧
      (x.significand % 2 = 1 ∨ y.significand % 2 = 1 →
        (4 * y.significand - y.reach) * y.gap < (4 * x.significand + 2) * x.gap) := by
  rw [absorbs_iff, ← Nat.mul_assoc, ← Nat.mul_assoc] at hx hy
  constructor
  · apply Nat.le_of_mul_le_mul_right _ hk
    split at hx <;> split at hy <;> omega
  · intro hodd
    apply Nat.lt_of_mul_lt_mul_right (a := k)
    split at hx <;> split at hy <;> omega

theorem eq_bits_of_absorbs (hx : x.absorbs n k) (hy : y.absorbs n k) (hk : 0 < k) :
    x.exponentBits = y.exponentBits ∧ x.fractionBits = y.fractionBits := by
  have hlt : ∀ {x y : Double}, x.absorbs n k → y.absorbs n k → ¬ x.scale < y.scale := by
    intro x y hx hy hscale
    obtain ⟨hends, hodd⟩ := ends_of_absorbs hx hy hk
    have hgap : 2 * x.gap ≤ y.gap := by
      calc 2 * x.gap = Nat.pow 2 (x.scale + 1) := (Nat.pow_succ' ..).symm
        _ ≤ y.gap := two_pow_le hscale
    have hdouble : (4 * y.significand - y.reach) * 2 * x.gap ≤
        (4 * y.significand - y.reach) * y.gap := by
      rw [Nat.mul_assoc]
      exact Nat.mul_le_mul_left _ hgap
    have hle : (4 * y.significand - y.reach) * 2 ≤ 4 * x.significand + 2 :=
      Nat.le_of_mul_le_mul_right (hdouble.trans hends) x.gap_pos
    have hstrict : x.significand % 2 = 1 →
        (4 * y.significand - y.reach) * 2 < 4 * x.significand + 2 := fun hx =>
      Nat.lt_of_mul_lt_mul_right (hdouble.trans_lt (hodd (.inl hx)))
    have hleading := significand_of_scale_pos (Nat.zero_lt_of_lt hscale)
    have hsmall := x.significand_lt
    have hreach := y.reach_cases
    omega
  have hscale : x.scale = y.scale := by
    have hxy := hlt hx hy
    have hyx := hlt hy hx
    omega
  have hgap : x.gap = y.gap := by rw [gap, gap, hscale]
  have hsignificand : ∀ {x y : Double}, x.absorbs n k → y.absorbs n k → x.gap = y.gap →
      y.significand ≤ x.significand := by
    intro x y hx hy hgap
    obtain ⟨hends, hodd⟩ := ends_of_absorbs hx hy hk
    rw [hgap] at hends hodd
    have hle := Nat.le_of_mul_le_mul_right hends y.gap_pos
    have hstrict := fun h => Nat.lt_of_mul_lt_mul_right (hodd h)
    have hreach := y.reach_cases
    omega
  exact eq_bits_of_eq hscale
    (Nat.le_antisymm (hsignificand hy hx hgap.symm) (hsignificand hx hy hgap))

theorem eq_of_bits (hsign : x.isNegative = y.isNegative) (hexponent : x.exponentBits = y.exponentBits)
    (hfraction : x.fractionBits = y.fractionBits) : x = y := by
  have hx : x.bits.toNat < 2 ^ 64 := x.bits.toNat_lt
  have hy : y.bits.toNat < 2 ^ 64 := y.bits.toNat_lt
  have hnat : x.bits.toNat = y.bits.toNat := by
    rw [isNegative, isNegative, decide_eq_decide, signBit_eq] at hsign
    rw [exponentBits, exponentBits, exponentUnit_eq] at hexponent
    rw [fractionBits, fractionBits, exponentUnit_eq] at hfraction
    omega
  have hbits : x.bits = y.bits := UInt64.toNat_inj.mp hnat
  cases x
  cases y
  exact congrArg _ hbits

theorem absorbs_magnitude (x : Double) : x.absorbs x.magnitude 1 := by
  have hgap := x.gap_pos
  rw [absorbs_iff, magnitude_eq, Nat.mul_one, ← Nat.mul_assoc]
  have hlow : (4 * x.significand - x.reach) * x.gap ≤ 4 * x.significand * x.gap :=
    Nat.mul_le_mul_right _ (Nat.sub_le _ _)
  have hhigh : 4 * x.significand * x.gap < (4 * x.significand + 2) * x.gap :=
    Nat.mul_lt_mul_of_pos_right (by omega) hgap
  split
  next => exact ⟨hlow, hhigh.le⟩
  next hodd =>
    refine ⟨Nat.mul_lt_mul_of_pos_right ?_ hgap, hhigh⟩
    have hreach := x.reach_cases
    omega

theorem eq_of_magnitude (hsign : x.isNegative = y.isNegative) (h : x.magnitude = y.magnitude) :
    x = y := by
  obtain ⟨hexponent, hfraction⟩ :=
    eq_bits_of_absorbs x.absorbs_magnitude (h ▸ y.absorbs_magnitude) Nat.one_pos
  exact eq_of_bits hsign hexponent hfraction

namespace Decimal

def num (d : Decimal) : Nat := d.digits * Nat.pow 10 d.exponent.toNat

def den (d : Decimal) : Nat := Nat.pow 10 (-d.exponent).toNat

theorem den_pos (d : Decimal) : 0 < d.den := Nat.pow_pos (by decide)

end Decimal

/-- Whether the decimal reads back as the size of the double. -/
def Reads (x : Double) (d : Decimal) : Prop := x.absorbs (d.num * unitsPerOne) d.den

theorem reads_of_onGrid? {exponent : Int} {digits : Nat} (h : x.onGrid? exponent = some digits) :
    x.Reads ⟨digits, exponent⟩ := by
  have hstep : ∀ q, q * (unitsPerOne * Nat.pow 10 exponent.toNat) =
      q * Nat.pow 10 exponent.toNat * unitsPerOne := by
    intro q
    rw [Nat.mul_comm unitsPerOne, Nat.mul_assoc]
  unfold onGrid? at h
  unfold Reads Decimal.num Decimal.den
  simp only [hstep] at h
  generalize unitsPerOne = u at h ⊢
  split at h
  next hlower =>
    cases h
    simp only [Bool.and_eq_true] at hlower
    exact hlower.1.2
  next =>
    split at h
    next hupper =>
      cases h
      exact hupper
    next => cases h

theorem exists_onGrid?_finest (x : Double) : ∃ digits, x.onGrid? (-324) = some digits := by
  obtain ⟨k, hk⟩ : ∃ k, Nat.pow 10 (-(-324) : Int).toNat = k := ⟨_, rfl⟩
  have hwide : 2 * unitsPerOne < k := by
    rw [← hk]
    decide +kernel
  have hpos := Nat.zero_lt_of_lt one_lt_unitsPerOne
  have hupper : x.absorbs ((x.magnitude * k / unitsPerOne + 1) * unitsPerOne) k := by
    generalize unitsPerOne = u at hwide hpos
    have hgap : k ≤ x.gap * k := Nat.le_mul_of_pos_left k x.gap_pos
    have hlow : x.significand * (x.gap * k) < (x.magnitude * k / u + 1) * u := by
      rw [← Nat.mul_assoc, ← magnitude_eq, Nat.add_mul, Nat.one_mul]
      exact Nat.lt_div_mul_add hpos
    have hhigh : (x.magnitude * k / u + 1) * u ≤ x.significand * (x.gap * k) + u := by
      rw [← Nat.mul_assoc, ← magnitude_eq, Nat.add_mul, Nat.one_mul]
      exact Nat.add_le_add_right (Nat.div_mul_le_self _ _) u
    have hlow' : (4 * x.significand - x.reach) * (x.gap * k) ≤ 4 * (x.significand * (x.gap * k)) := by
      rw [← Nat.mul_assoc 4]
      exact Nat.mul_le_mul_right _ (Nat.sub_le _ _)
    have hhigh' : (4 * x.significand + 2) * (x.gap * k) =
        4 * (x.significand * (x.gap * k)) + 2 * (x.gap * k) := by
      rw [Nat.add_mul, Nat.mul_assoc]
    rw [absorbs_iff, hhigh']
    split <;> omega
  have hstep : ∀ u, u * Nat.pow 10 (-324 : Int).toNat = u := fun u => Nat.mul_one u
  unfold onGrid?
  rw [hstep, hk]
  simp only [hupper, if_true]
  split
  · exact ⟨_, rfl⟩
  · exact ⟨_, rfl⟩

theorem reads_searchGrids {fuel : Nat} {exponent : Int} (hfuel : (fuel : Int) = exponent + 325)
    (hpos : 0 < fuel) : x.Reads (x.searchGrids fuel exponent) := by
  induction fuel generalizing exponent with
  | zero => omega
  | succ fuel ih =>
    rw [searchGrids]
    cases hgrid : x.onGrid? exponent with
    | some digits => exact reads_of_onGrid? hgrid
    | none =>
      refine ih (by omega) (Nat.pos_of_ne_zero ?_)
      rintro rfl
      obtain rfl : exponent = -324 := by omega
      obtain ⟨digits, hdigits⟩ := x.exists_onGrid?_finest
      rw [hgrid] at hdigits
      cases hdigits

theorem reads_shortest (x : Double) : x.Reads x.shortest := by
  unfold shortest
  exact reads_searchGrids (by omega) (by omega)

theorem magnitude_of_absorbs_int (hlt : x.magnitude < 2 ^ 53 * unitsPerOne)
    (h : x.absorbs (n * unitsPerOne) 1) : x.magnitude = n * unitsPerOne := by
  obtain ⟨k, hunits⟩ : ∃ k, unitsPerOne = 2 ^ k := ⟨1074, unitsPerOne_eq⟩
  have hscale : x.scale ≤ k := by
    by_contra hscale
    have hlarge : k + 1 ≤ x.scale := by omega
    have hleading := significand_of_scale_pos (Nat.zero_lt_of_lt hlarge)
    have hgap : 2 * unitsPerOne ≤ x.gap := by
      rw [hunits]
      calc 2 * Nat.pow 2 k = Nat.pow 2 (k + 1) := (Nat.pow_succ' ..).symm
        _ ≤ x.gap := two_pow_le hlarge
    have hle : 2 ^ 52 * (2 * unitsPerOne) ≤ x.magnitude := by
      rw [magnitude_eq]
      exact Nat.mul_le_mul (by omega) hgap
    omega
  obtain ⟨c, hc⟩ : ∃ c, unitsPerOne = c * x.gap :=
    ⟨Nat.pow 2 (k - x.scale), hunits.trans (Nat.pow_sub_mul_pow 2 hscale).symm⟩
  have hn : 4 * (n * (c * x.gap)) = 4 * (n * c) * x.gap := by ring
  rw [absorbs_iff, Nat.mul_one, hc, hn] at h
  have hlow : 4 * x.significand - x.reach ≤ 4 * (n * c) := by
    apply Nat.le_of_mul_le_mul_right _ x.gap_pos
    split at h <;> omega
  have hhigh : 4 * (n * c) ≤ 4 * x.significand + 2 := by
    apply Nat.le_of_mul_le_mul_right _ x.gap_pos
    split at h <;> omega
  have hsignificand : x.significand = n * c := by
    have hreach := x.reach_cases
    omega
  rw [magnitude_eq, hc, hsignificand, Nat.mul_assoc]

theorem lt_of_absorbs_int (hle : 2 ^ 64 * unitsPerOne ≤ x.magnitude)
    (h : x.absorbs (n * unitsPerOne) 1) : 2 ^ 63 < n := by
  have hpos := one_lt_unitsPerOne
  have hscale : 0 < x.scale := by
    by_contra hscale
    have hgap : x.gap = 1 := by
      rw [gap, Nat.eq_zero_of_not_pos hscale]
    have hsmall := x.significand_lt
    rw [magnitude_eq, hgap] at hle
    omega
  have hleading := significand_of_scale_pos hscale
  have hgap : 2 * x.gap ≤ x.magnitude := by
    rw [magnitude_eq]
    exact Nat.mul_le_mul_right _ (by omega)
  have hlow : 4 * x.magnitude ≤ (4 * x.significand - x.reach) * x.gap + 2 * x.gap := by
    have hreach := x.reach_cases
    rw [magnitude_eq, ← Nat.mul_assoc, ← Nat.add_mul]
    exact Nat.mul_le_mul_right _ (by omega)
  have hthree : 3 * (2 ^ 64 * unitsPerOne) ≤ 4 * (n * unitsPerOne) := by
    rw [absorbs_iff, Nat.mul_one] at h
    split at h <;> omega
  have hcancel : 3 * 2 ^ 64 ≤ 4 * n := by
    rw [← Nat.mul_assoc, ← Nat.mul_assoc] at hthree
    exact Nat.le_of_mul_le_mul_right hthree (Nat.zero_lt_of_lt hpos)
  omega

theorem onGrid?_zero (hn : n ≠ 0) (h : x.magnitude = n * unitsPerOne) : x.onGrid? 0 = some n := by
  have hpos := Nat.zero_lt_of_lt one_lt_unitsPerOne
  have hself := x.absorbs_magnitude
  rw [h] at hself
  have hstep : ∀ u, u * Nat.pow 10 (0 : Int).toNat = u := fun u => Nat.mul_one u
  have hparts : Nat.pow 10 (-0 : Int).toNat = 1 := rfl
  unfold onGrid?
  rw [hstep, hparts, h]
  generalize unitsPerOne = u at hpos hself
  simp [hn, hself, hpos]

theorem searchGrids_of_int {fuel : Nat} {exponent : Int} (hn : n ≠ 0)
    (h : x.magnitude = n * unitsPerOne) (hexponent : 0 ≤ exponent) (hfuel : exponent < fuel) :
    0 ≤ (x.searchGrids fuel exponent).exponent := by
  induction fuel generalizing exponent with
  | zero => omega
  | succ fuel ih =>
    rw [searchGrids]
    cases hgrid : x.onGrid? exponent with
    | some digits => exact hexponent
    | none =>
      have hne : exponent ≠ 0 := by
        rintro rfl
        rw [onGrid?_zero hn h] at hgrid
        cases hgrid
      exact ih (by omega) (by omega)

theorem shortest_of_int (hn : n ≠ 0) (h : x.magnitude = n * unitsPerOne)
    (hlt : x.magnitude < 2 ^ 53 * unitsPerOne) :
    0 ≤ x.shortest.exponent ∧ x.shortest.num = n := by
  have hpos := Nat.zero_lt_of_lt one_lt_unitsPerOne
  have hexponent : 0 ≤ x.shortest.exponent := by
    unfold shortest
    exact searchGrids_of_int hn h (by omega) (by omega)
  have hden : x.shortest.den = 1 := by
    rw [Decimal.den, Int.toNat_of_nonpos (by omega)]
  have hreads := x.reads_shortest
  rw [Reads, hden] at hreads
  have hsame := (magnitude_of_absorbs_int hlt hreads).symm.trans h
  exact ⟨hexponent, Nat.eq_of_mul_eq_mul_right hpos hsame⟩

end Docbase.Double
