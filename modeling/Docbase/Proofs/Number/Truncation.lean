import Docbase.Proofs.Number.Rounding

namespace Docbase.Double

open Number (unitsPerOne_pos)

variable {x : Double}

theorem trunc_of_isFinite (h : x.IsFinite) :
    x.trunc.IsFinite ∧ x.trunc.units = x.units.tdiv unitsPerOne * unitsPerOne := by
  obtain ⟨j, hj⟩ : ∃ j, unitsPerOne = 2 ^ j := ⟨1074, unitsPerOne_eq⟩
  have hwhole := (h.isRepresentable.split j).2
  rw [← hj] at hwhole
  obtain ⟨hfinite, hmagnitude, hnegative⟩ :=
    ofUnits_of_isRepresentable x.isNegative hwhole
  rw [trunc, h.not_isNaN, h.not_isInfinite, Bool.or_self, if_neg Bool.false_ne_true]
  refine ⟨hfinite, ?_⟩
  rw [units, hmagnitude, hnegative, units, Int.natCast_mul, Int.ofNat_tdiv]
  cases x.isNegative with
  | false => rfl
  | true => rw [if_pos rfl, if_pos rfl, Int.neg_tdiv, Int.neg_mul]

theorem sub_trunc_of_isFinite (h : x.IsFinite) :
    (x.sub x.trunc).IsFinite ∧ (x.sub x.trunc).units = x.units.tmod unitsPerOne := by
  obtain ⟨j, hj⟩ : ∃ j, unitsPerOne = 2 ^ j := ⟨1074, unitsPerOne_eq⟩
  obtain ⟨hfinite, hunits⟩ := trunc_of_isFinite h
  have hrest : x.units - x.trunc.units = x.units.tmod unitsPerOne := by
    rw [hunits, Int.tmod_def, Int.mul_comm]
  have hfraction : IsRepresentable (x.units - x.trunc.units).natAbs := by
    rw [hrest, Int.natAbs_tmod, natAbs_units, Int.natAbs_natCast, hj]
    exact (h.isRepresentable.split j).1
  obtain ⟨hsub, hsubFinite⟩ := sub_of_isRepresentable h hfinite hfraction
  exact ⟨hsubFinite, hsub.trans hrest⟩

/-- The double lies in the range of the integers of 64 bits, the ends of which are not alike. -/
def InRange (x : Double) : Prop :=
  -(2 ^ 63 * (unitsPerOne : Int)) ≤ x.units ∧ x.units < 2 ^ 63 * (unitsPerOne : Int)

theorem units_int64Bound : int64Bound.units = 2 ^ 63 * (unitsPerOne : Int) := by
  have hmagnitude : int64Bound.magnitude = 2 ^ 63 * unitsPerOne := by decide +kernel
  have hsign : int64Bound.isNegative = false := by decide +kernel
  rw [units, hsign, if_neg Bool.false_ne_true, hmagnitude, Int.natCast_mul]
  rfl

theorem isNaN_int64Bound : int64Bound.isNaN = false := by decide +kernel

theorem isNaN_neg (x : Double) : x.neg.isNaN = x.isNaN := by
  rw [isNaN, isNaN, exponentBits_neg, fractionBits_neg]

theorem InRange.isFinite (hnan : x.isNaN = false) (h : x.InRange) : x.IsFinite := by
  refine isFinite_of_not hnan (Bool.eq_false_iff.mpr fun hinfinite => ?_)
  have hle := magnitude_of_isInfinite hinfinite
  have habs := natAbs_units x
  have hpos := unitsPerOne_pos
  obtain ⟨hlow, hhigh⟩ := h
  generalize unitsPerOne = u at hle hpos hlow hhigh
  omega

theorem fitsIn_tdiv {u d : Int} (hd : 0 < d) (hlow : -(2 ^ 63 * d) ≤ u) (hhigh : u < 2 ^ 63 * d) :
    Number.FitsIn 64 (u.tdiv d) := by
  constructor
  · calc (-2 ^ 63 : Int) = (-2 ^ 63 * d).tdiv d := (Int.mul_tdiv_cancel _ hd.ne').symm
      _ ≤ u.tdiv d := Int.tdiv_le_tdiv hd (Int.neg_mul _ _ ▸ hlow)
  · obtain hneg | hnonneg := Int.lt_or_le u 0
    · have hle := Int.tdiv_le_tdiv hd (Int.le_of_lt hneg)
      rw [Int.zero_tdiv] at hle
      omega
    · rw [Int.tdiv_eq_ediv_of_nonneg hnonneg]
      exact Int.ediv_lt_of_lt_mul hd hhigh

theorem toInt_toInt64 (hnan : x.isNaN = false) (h : Number.FitsIn 64 (x.units.tdiv unitsPerOne)) :
    x.toInt64.toInt = x.units.tdiv unitsPerOne := by
  obtain ⟨hlow, hhigh⟩ := Number.fitsIn_64_iff.mp h
  rw [toInt64, hnan, if_neg Bool.false_ne_true]
  exact Int64.toInt_ofIntClamp hlow hhigh

theorem compareInt64?_of_inRange (n : Int64) (hnan : x.isNaN = false) (h : x.InRange) :
    (compare n.toInt x.trunc.toInt64.toInt).then
        (((ofParts false 0).compare? (x.sub x.trunc)).getD .eq) =
      (compare n.toInt (x.units.tdiv unitsPerOne)).then
        (compare 0 (x.units.tmod unitsPerOne)) := by
  have hfinite := h.isFinite hnan
  obtain ⟨hwhole, hunits⟩ := trunc_of_isFinite hfinite
  obtain ⟨hrest, hfraction⟩ := sub_trunc_of_isFinite hfinite
  have hsame : x.trunc.units.tdiv unitsPerOne = x.units.tdiv unitsPerOne := by
    rw [hunits, Int.mul_tdiv_cancel _ unitsPerOne_pos.ne']
  have hfits : Number.FitsIn 64 (x.trunc.units.tdiv unitsPerOne) := by
    rw [hsame]
    exact fitsIn_tdiv unitsPerOne_pos h.1 h.2
  rw [toInt_toInt64 hwhole.not_isNaN hfits, hsame,
    compare?_of_not_isNaN (isFinite_ofParts_zero false).not_isNaN hrest.not_isNaN,
    units_ofParts_zero, hfraction, Option.getD_some]

theorem units_of_int64 (n : Int64) :
    -(2 ^ 63 * (unitsPerOne : Int)) ≤ n.toInt * unitsPerOne ∧
      n.toInt * unitsPerOne < 2 ^ 63 * (unitsPerOne : Int) := by
  rw [← Int.neg_mul]
  exact ⟨Int.mul_le_mul_of_nonneg_right n.le_toInt (Int.le_of_lt unitsPerOne_pos),
    Int.mul_lt_mul_of_pos_right n.toInt_lt unitsPerOne_pos⟩

theorem compareInt64?_eq (n : Int64) (x : Double) : compareInt64? n x = x.compareInt? n.toInt := by
  cases hnan : x.isNaN with
  | true => simp [compareInt64?, compareInt?, hnan]
  | false =>
    obtain ⟨hlow, hhigh⟩ := units_of_int64 n
    have hnegNaN := (isNaN_neg int64Bound).trans isNaN_int64Bound
    rw [compareInt64?, hnan, if_neg Bool.false_ne_true, compare?_of_not_isNaN hnan isNaN_int64Bound,
      compare?_of_not_isNaN hnan hnegNaN, units_neg, units_int64Bound, Option.any_some]
    by_cases habove : 2 ^ 63 * (unitsPerOne : Int) ≤ x.units
    · rw [if_pos (Int.isGE_compare.mpr habove), compareInt?_of_not_isNaN _ hnan,
        Int.compare_eq_lt.mpr (Int.lt_of_lt_of_le hhigh habove)]
    rw [if_neg (mt Int.isGE_compare.mp habove)]
    by_cases hbelow : x.units < -(2 ^ 63 * (unitsPerOne : Int))
    · rw [if_pos (congrArg some (Int.compare_eq_lt.mpr hbelow)), compareInt?_of_not_isNaN _ hnan,
        Int.compare_eq_gt.mpr (Int.lt_of_lt_of_le hbelow hlow)]
    rw [if_neg fun h => hbelow (Int.compare_eq_lt.mp (Option.some.inj h))]
    have hrange : x.InRange := ⟨Int.not_lt.mp hbelow, Int.not_le.mp habove⟩
    rw [compareInt?, hnan, if_neg Bool.false_ne_true]
    exact congrArg some (compareInt64?_of_inRange n hnan hrange)

example : compareInt64? 9007199254740993 ⟨0x4340000000000000⟩ = some .gt := by decide +kernel

example : compareInt64? Int64.minValue ⟨0xc3e0000000000000⟩ = some .eq := by decide +kernel

end Docbase.Double
