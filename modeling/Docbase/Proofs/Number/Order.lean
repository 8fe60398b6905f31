import Docbase.Value.Order

namespace Docbase

theorem compare_tdiv_then_compare_tmod (n u : Int) {d : Int} (hd : 0 < d) :
    (compare n (u.tdiv d)).then (compare 0 (u.tmod d)) = compare (n * d) u := by
  have hu : d * u.tdiv d + u.tmod d = u := Int.mul_tdiv_add_tmod u d
  have hrest : -d < u.tmod d ∧ u.tmod d < d := by
    have habs := Int.natAbs_tmod u d
    have hlt := Nat.mod_lt u.natAbs (Int.natAbs_pos.mpr (Int.ne_of_gt hd))
    omega
  have hmul : ∀ {a b : Int}, a < b → a * d + d ≤ d * b := by
    intro a b hab
    have h := Int.mul_le_mul_of_nonneg_right (Int.add_one_le_of_lt hab) (Int.le_of_lt hd)
    rwa [Int.add_mul, Int.one_mul, Int.mul_comm b] at h
  obtain h | h | h := Int.lt_trichotomy n (u.tdiv d)
  · have hlt : n * d < u := by
      have := hmul h
      omega
    rw [Int.compare_eq_lt.mpr h, Int.compare_eq_lt.mpr hlt]
    rfl
  · have hn : n * d = d * u.tdiv d := by rw [h, Int.mul_comm]
    rw [Int.compare_eq_eq.mpr h, Ordering.eq_then, Int.compare_eq_ite_lt, Int.compare_eq_ite_lt]
    have hlow : 0 < u.tmod d ↔ n * d < u := by omega
    have hhigh : u.tmod d < 0 ↔ u < n * d := by omega
    simp only [hlow, hhigh]
  · have hlt : u < n * d := by
      have := hmul h
      rw [Int.mul_comm d n] at this
      rw [Int.mul_comm] at hu
      omega
    rw [Int.compare_eq_gt.mpr h, Int.compare_eq_gt.mpr hlt]
    rfl

theorem Number.unitsPerOne_pos : (0 : Int) < Double.unitsPerOne := by decide +kernel

namespace Double

variable {x y : Double}

theorem compare?_of_not_isNaN (hx : x.isNaN = false) (hy : y.isNaN = false) :
    x.compare? y = some (compare x.units y.units) := by
  rw [compare?, hx, hy, Bool.or_self, if_neg Bool.false_ne_true]

theorem compareInt?_of_not_isNaN (n : Int) (hx : x.isNaN = false) :
    x.compareInt? n = some (compare (n * unitsPerOne) x.units) := by
  rw [compareInt?, hx, if_neg Bool.false_ne_true,
    compare_tdiv_then_compare_tmod n x.units Number.unitsPerOne_pos]

end Double

namespace Number

/-- The size of a number in units. -/
def size? : Number → Option Int
  | int n => some (n * Double.unitsPerOne)
  | double x => if x.isNaN then none else some x.units

theorem isNaN_eq (m : Number) : m.isNaN = m.size?.isNone := by
  cases m with
  | int n => rfl
  | double x =>
    rw [isNaN, size?]
    cases x.isNaN <;> rfl

theorem size?_double {x : Double} {a : Int} :
    (double x).size? = some a ↔ x.isNaN = false ∧ x.units = a := by
  rw [size?]
  cases x.isNaN <;> simp

theorem size?_eq_none_iff {m : Number} : m.size? = none ↔ ∃ x, m = double x ∧ x.isNaN := by
  cases m with
  | int n => exact ⟨nofun, fun ⟨x, hx, _⟩ => nomatch hx⟩
  | double x =>
    rw [size?]
    cases hx : x.isNaN <;> simp [hx]

theorem compare?_eq {m n : Number} {a b : Int} (hm : m.size? = some a) (hn : n.size? = some b) :
    m.compare? n = some (compare a b) := by
  have hint : ∀ {k c : Int}, (int k).size? = some c → c = k * Double.unitsPerOne :=
    fun h => (Option.some.inj h).symm
  cases m with
  | int k =>
    obtain rfl := hint hm
    cases n with
    | int l =>
      obtain rfl := hint hn
      rw [compare?, Int.compare_eq_ite_lt, Int.compare_eq_ite_lt]
      simp only [Int.mul_lt_mul_right unitsPerOne_pos]
    | double y =>
      obtain ⟨hy, rfl⟩ := size?_double.mp hn
      exact Double.compareInt?_of_not_isNaN k hy
  | double x =>
    obtain ⟨hx, rfl⟩ := size?_double.mp hm
    cases n with
    | int l =>
      obtain rfl := hint hn
      rw [compare?, Double.compareInt?_of_not_isNaN l hx, Option.map_some, Int.compare_swap]
    | double y =>
      obtain ⟨hy, rfl⟩ := size?_double.mp hn
      exact Double.compare?_of_not_isNaN hx hy

theorem compare?_of_size?_eq_none {m n : Number} (h : m.size? = none ∨ n.size? = none) :
    m.compare? n = none := by
  obtain hm | hn := h
  · obtain ⟨x, rfl, hx⟩ := size?_eq_none_iff.mp hm
    cases n <;> simp [compare?, Double.compare?, Double.compareInt?, hx]
  · obtain ⟨y, rfl, hy⟩ := size?_eq_none_iff.mp hn
    cases m <;> simp [compare?, Double.compare?, Double.compareInt?, hy]

theorem order_eq (m n : Number) : m.order n = compare m.size? n.size? := by
  rw [order, isNaN_eq, isNaN_eq]
  cases hm : m.size? with
  | none => cases hn : n.size? <;> rfl
  | some a =>
    cases hn : n.size? with
    | none => rfl
    | some b => exact congrArg (Option.getD · .eq) (compare?_eq hm hn)

end Number

end Docbase
