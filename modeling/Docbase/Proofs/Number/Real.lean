import Docbase.Proofs.Number.Truncation
import Mathlib.Data.EReal.Basic
import Mathlib.Order.Compare

namespace Docbase.Double

variable {x : Double}

/-- The number that the bits of a finite double stand for. The fraction stands behind a one, or
behind a zero where the exponent is the least. -/
noncomputable def real (x : Double) : ℝ :=
  let sign : ℝ := if x.isNegative then -1 else 1
  let fraction : ℝ := x.fractionBits / 2 ^ 52
  sign * if x.exponentBits = 0 then fraction * 2 ^ (-1022 : ℤ)
    else (1 + fraction) * 2 ^ ((x.exponentBits : ℤ) - 1023)

/-- The place of a double that is not NaN among the real numbers and the infinities. -/
noncomputable def value (x : Double) : EReal :=
  if x.isInfinite then if x.isNegative then ⊥ else ⊤ else (x.real : EReal)

theorem cast_unitsPerOne : (unitsPerOne : ℝ) = 2 ^ (1074 : ℤ) := by
  obtain ⟨j, hj, hunits⟩ : ∃ j : ℕ, (j : ℤ) = 1074 ∧ unitsPerOne = 2 ^ j :=
    ⟨1074, rfl, unitsPerOne_eq⟩
  rw [hunits, Nat.cast_pow, Nat.cast_ofNat, ← hj, zpow_natCast]

theorem cast_units (x : Double) : (x.units : ℝ) = (if x.isNegative then -1 else 1) * x.magnitude := by
  rw [units]
  split <;> simp

theorem real_eq (x : Double) : x.real = x.units / unitsPerOne := by
  have htwo : (2 : ℝ) ≠ 0 := two_ne_zero
  have hfraction : (2 : ℝ) ^ (52 : ℤ) = 2 ^ 52 := zpow_natCast 2 52
  rw [real, cast_units, mul_div_assoc, cast_unitsPerOne]
  congr 1
  rw [eq_div_iff (zpow_ne_zero _ htwo), magnitude, significand, scale, exponentUnit_eq]
  by_cases hexponent : x.exponentBits = 0
  · rw [if_pos hexponent, if_pos hexponent, hexponent, mul_assoc, ← zpow_add₀ htwo]
    norm_num
  · obtain ⟨e, he⟩ : ∃ e, x.exponentBits = e + 1 := Nat.exists_eq_succ_of_ne_zero hexponent
    have hpower : ((x.exponentBits : ℤ) - 1023) + 1074 = 52 + (e : ℤ) := by
      rw [he]
      push_cast
      ring
    rw [if_neg hexponent, if_neg hexponent, mul_assoc, ← zpow_add₀ htwo, hpower, zpow_add₀ htwo,
      hfraction, zpow_natCast, he, Nat.add_sub_cancel]
    have hcast : ((Nat.pow 2 e : ℕ) : ℝ) = 2 ^ e := by
      rw [Nat.pow_eq, Nat.cast_pow, Nat.cast_ofNat]
    rw [Nat.cast_mul, hcast, Nat.cast_add]
    field_simp
    norm_num

noncomputable def realOfUnits (u : ℤ) : EReal := ((u / unitsPerOne : ℝ) : EReal)

theorem realOfUnits_mul (n : ℤ) : realOfUnits (n * unitsPerOne) = ((n : ℝ) : EReal) := by
  have hne : (unitsPerOne : ℝ) ≠ 0 := by
    rw [cast_unitsPerOne]
    exact zpow_ne_zero _ two_ne_zero
  rw [realOfUnits, Int.cast_mul, Int.cast_natCast, mul_div_cancel_right₀ _ hne]

theorem compare_realOfUnits (a b : ℤ) :
    compare (realOfUnits a) (realOfUnits b) = compare a b := by
  have hpos : (0 : ℝ) < unitsPerOne := by
    rw [cast_unitsPerOne]
    exact zpow_pos two_pos _
  have hmono : StrictMono realOfUnits := by
    intro a b hab
    exact EReal.coe_lt_coe_iff.mpr (div_lt_div_of_pos_right (Int.cast_lt.mpr hab) hpos)
  rw [← cmp_eq_compare, ← cmp_eq_compare]
  exact hmono.cmp_map_eq a b

theorem units_of_isInfinite (n : Int64) (h : x.isInfinite) :
    if x.isNegative then x.units < n.toInt * unitsPerOne else n.toInt * unitsPerOne < x.units := by
  have hle := magnitude_of_isInfinite h
  have hpos := Number.unitsPerOne_pos
  obtain ⟨hlow, hhigh⟩ := units_of_int64 n
  rw [units]
  generalize n.toInt * (unitsPerOne : Int) = m at hlow hhigh
  generalize unitsPerOne = u at hle hpos hlow hhigh
  split <;> omega

theorem compare_value (n : Int64) (x : Double) :
    compare ((n.toInt : ℝ) : EReal) x.value = compare (n.toInt * unitsPerOne) x.units := by
  by_cases hinfinite : x.isInfinite
  · have hunits := units_of_isInfinite n hinfinite
    rw [value, if_pos hinfinite]
    cases hnegative : x.isNegative with
    | true =>
      rw [hnegative, if_pos rfl] at hunits
      rw [if_pos rfl, Int.compare_eq_gt.mpr hunits, compare_gt_iff_gt]
      exact EReal.bot_lt_coe _
    | false =>
      rw [hnegative, if_neg Bool.false_ne_true] at hunits
      rw [if_neg Bool.false_ne_true, Int.compare_eq_lt.mpr hunits, compare_lt_iff_lt]
      exact EReal.coe_lt_top _
  · rw [value, if_neg hinfinite, real_eq, ← realOfUnits_mul]
    exact compare_realOfUnits _ _

/-- The comparison that doubles allow is the one that is used, and it is the order of real numbers,
where infinities lie outside all integers. -/
theorem compareInt64?_exact (n : Int64) (x : Double) :
    compareInt64? n x = x.compareInt? n.toInt ∧
      compareInt64? n x =
        if x.isNaN then none else some (compare ((n.toInt : ℝ) : EReal) x.value) := by
  refine ⟨compareInt64?_eq n x, ?_⟩
  rw [compareInt64?_eq]
  cases hnan : x.isNaN with
  | true => simp [compareInt?, hnan]
  | false =>
    rw [compareInt?_of_not_isNaN _ hnan, if_neg Bool.false_ne_true]
    exact congrArg some (compare_value n x).symm

end Docbase.Double
