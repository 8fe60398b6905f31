import Docbase.Proofs.Number.Decimal
import Docbase.Value.Calendar
import Mathlib.Data.Nat.Digits.Defs

namespace Docbase.Calendar

/-- A day of an era counted by centuries `c`, cycles `k` of four years, years `j` and days `t`. Only
the last year of a cycle has a day 365, and only the last cycle of an era has one at the end of a
century. -/
theorem exists_parts {e : Nat} (he : e < 146097) : ∃ c k j t,
    e = 36524 * c + 1461 * k + 365 * j + t ∧ c ≤ 3 ∧ k ≤ 24 ∧ j ≤ 3 ∧ t ≤ 365 ∧
      (t = 365 → j = 3) ∧ (t = 365 → k = 24 → c = 3) := by
  obtain ⟨c, hc⟩ : ∃ c, c = min (e / 36524) 3 := ⟨_, rfl⟩
  obtain ⟨r, hr⟩ : ∃ r, r = e - 36524 * c := ⟨_, rfl⟩
  obtain ⟨s, hs⟩ : ∃ s, s = r - 1461 * (r / 1461) := ⟨_, rfl⟩
  obtain ⟨j, hj⟩ : ∃ j, j = min (s / 365) 3 := ⟨_, rfl⟩
  refine ⟨c, r / 1461, j, s - 365 * j, ?_, ?_, ?_, ?_, ?_, ?_, ?_⟩ <;> omega

theorem year_of_parts {e c k j t : Nat} (he : e = 36524 * c + 1461 * k + 365 * j + t)
    (hc : c ≤ 3) (hk : k ≤ 24) (hj : j ≤ 3) (ht : t ≤ 365) (hleap : t = 365 → j = 3)
    (hcentury : t = 365 → k = 24 → c = 3) :
    (e - e / 1460 + e / 36524 - e / 146096) / 365 = 100 * c + 4 * k + j := by
  by_cases hlast : e = 146096
  · rw [hlast]
    omega
  · have hera : e / 146096 = 0 := Nat.div_eq_of_lt (by omega)
    have hcenturies : e / 36524 = c := Nat.div_eq_of_lt_le (by omega) (by omega)
    rw [hera, hcenturies]
    by_cases hshort : 24 * c + k + 365 * j + t < 1460
    · have hcycles : e / 1460 = 25 * c + k := Nat.div_eq_of_lt_le (by omega) (by omega)
      rw [hcycles]
      exact Nat.div_eq_of_lt_le (by omega) (by omega)
    · have hcycles : e / 1460 = 25 * c + k + 1 := Nat.div_eq_of_lt_le (by omega) (by omega)
      rw [hcycles]
      exact Nat.div_eq_of_lt_le (by omega) (by omega)

theorem start_of_parts {c k j : Nat} (hk : k ≤ 24) (hj : j ≤ 3) :
    365 * (100 * c + 4 * k + j) + (100 * c + 4 * k + j) / 4 - (100 * c + 4 * k + j) / 100 =
      36524 * c + 1461 * k + 365 * j := by
  have hcycle : (100 * c + 4 * k + j) / 4 = 25 * c + k := by omega
  have hcentury : (100 * c + 4 * k + j) / 100 = c := by omega
  omega

/-- The date of day `t` in year `y` of an era, where months are counted from March. -/
def dateOfParts (era : Int) (y t : Nat) : Date :=
  let m := (5 * t + 2) / 153
  let month := if m < 10 then m + 3 else m - 9
  ⟨y + era * 400 + (if month ≤ 2 then 1 else 0), month, t - (153 * m + 2) / 5 + 1⟩

theorem exists_dateOfParts (z : Int) : ∃ era y t, y < 400 ∧ t ≤ 365 ∧
    z + 719468 = era * 146097 + (365 * y + y / 4 - y / 100 + t : Nat) ∧
    dateOfDays z = dateOfParts era y t := by
  obtain ⟨r, hr⟩ : ∃ r, r = (z + 719468).fmod 146097 := ⟨_, rfl⟩
  obtain ⟨e, he⟩ : ∃ e, e = r.toNat := ⟨_, rfl⟩
  have hrange : 0 ≤ r ∧ r < 146097 := by
    rw [hr]
    exact ⟨Int.fmod_nonneg_of_pos _ (by decide), Int.fmod_lt_of_pos _ (by decide)⟩
  have hsplit : 146097 * (z + 719468).fdiv 146097 + r = z + 719468 := by
    rw [hr]
    exact Int.mul_fdiv_add_fmod _ _
  have hera : e < 146097 := by omega
  obtain ⟨c, k, j, t, hparts, hc, hk, hj, ht, hleap, hcentury⟩ := exists_parts hera
  have hstart := start_of_parts (c := c) hk hj
  have hday : e - (36524 * c + 1461 * k + 365 * j) = t := by omega
  refine ⟨(z + 719468).fdiv 146097, 100 * c + 4 * k + j, t, by omega, ht, ?_, ?_⟩
  · rw [hstart, ← hparts]
    omega
  · have hyear := year_of_parts hparts hc hk hj ht hleap hcentury
    unfold dateOfDays dateOfParts
    simp only [← hr, ← he, hyear, hstart, hday]

theorem daysOfDate_dateOfParts (era : Int) {y t : Nat} (hy : y < 400) (ht : t ≤ 365) :
    daysOfDate (dateOfParts era y t) =
      era * 146097 + (365 * y + y / 4 - y / 100 + t : Nat) - 719468 := by
  obtain ⟨m, hm⟩ : ∃ m, m = (5 * t + 2) / 153 := ⟨_, rfl⟩
  have hmonth : m ≤ 11 := by omega
  have hstart : (153 * m + 2) / 5 ≤ t := by omega
  have hyear : (y + era * 400 : Int).fdiv 400 = era ∧ (y + era * 400 : Int).fmod 400 = y := by
    rw [Int.fdiv_eq_ediv_of_nonneg _ (by decide), Int.fmod_eq_emod_of_nonneg _ (by decide)]
    omega
  unfold daysOfDate dateOfParts
  simp only [← hm]
  by_cases hmarch : m < 10
  · have hlate : ¬ m + 3 ≤ 2 := by omega
    simp only [hmarch, hlate, if_true, if_false, Int.add_zero, hyear]
    omega
  · have hearly : m - 9 ≤ 2 := by omega
    have hnext : (y + era * 400 + 1 - 1 : Int) = y + era * 400 := by omega
    simp only [hmarch, hearly, if_true, if_false, hnext, hyear]
    omega

theorem daysOfDate_dateOfDays (z : Int) : daysOfDate (dateOfDays z) = z := by
  obtain ⟨era, y, t, hy, ht, hz, hdate⟩ := exists_dateOfParts z
  rw [hdate, daysOfDate_dateOfParts era hy ht]
  omega

theorem dateOfDays_injective {y z : Int} (h : dateOfDays y = dateOfDays z) : y = z := by
  rw [← daysOfDate_dateOfDays y, h, daysOfDate_dateOfDays]

structure Spells (cs : List Char) (n : Nat) : Prop where
  isDigit : ∀ c ∈ cs, c.isDigit
  value : Nat.ofDigitChars 10 cs 0 = n

namespace Spells

variable {cs : List Char} {m n : Nat}

theorem toDigits (n : Nat) : Spells (Nat.toDigits 10 n) n :=
  ⟨fun _ => Number.isDigit_of_mem_toDigits, Nat.ofDigitChars_ten_toDigits⟩

theorem padded (width n : Nat) : Spells (padded width n).toList n := by
  rw [Calendar.padded, String.toList_ofList]
  constructor
  · intro c hc
    obtain hc | hc := List.mem_append.mp hc
    · rw [List.eq_of_mem_replicate hc]
      decide
    · exact Number.isDigit_of_mem_toDigits hc
  · rw [Nat.ofDigitChars_append, Nat.ofDigitChars_replicate_zero, Nat.mul_zero,
      Nat.ofDigitChars_ten_toDigits]

theorem numeric (h : Spells cs n) (marks : List Char) : Text.Numeric marks cs := .of_isDigit h.isDigit

theorem unique {ds : List Char} (h : Spells cs m) (h' : Spells ds n) (heq : cs = ds) : m = n := by
  rw [← h.value, heq, h'.value]

end Spells

theorem exists_fraction {n : Nat} (hn : n < 1000) : ∃ m k, Spells (fraction n).toList m ∧
    m * Nat.pow 10 k = n ∧ (fraction n).toList.length + k = 3 := by
  have hlength : ∀ {w m : Nat}, 0 < w → m < Nat.pow 10 w → (padded w m).toList.length = w := by
    intro w m hw hm
    have hshort := Nat.toDigits_length 10 m w hw hm
    rw [padded, String.toList_ofList, List.length_append, List.length_replicate]
    omega
  unfold fraction
  split
  · exact ⟨n / 100, 2, .padded 1 _, by simp; omega, by rw [hlength (by decide) (by simp; omega)]⟩
  · split
    · exact ⟨n / 10, 1, .padded 2 _, by simp; omega, by rw [hlength (by decide) (by simp; omega)]⟩
    · exact ⟨n, 0, .padded 3 _, by simp, by rw [hlength (by decide) (by simp; omega)]⟩

theorem fraction_injective {m n : Nat} (hm : m < 1000) (hn : n < 1000)
    (h : (fraction m).toList = (fraction n).toList) : m = n := by
  obtain ⟨a, k, ha, hvalue, hlength⟩ := exists_fraction hm
  obtain ⟨b, l, hb, hvalue', hlength'⟩ := exists_fraction hn
  rw [h] at hlength
  have hk : k = l := by omega
  rw [← hvalue, ← hvalue', ha.unique hb h, hk]

theorem numeric_fraction {n : Nat} (hn : n < 1000) (marks : List Char) :
    Text.Numeric marks (fraction n).toList := by
  obtain ⟨m, k, hspells, -⟩ := exists_fraction hn
  exact hspells.numeric marks

def clock (time : Nat) : List Char :=
  Nat.toDigits 10 (time / 3600000) ++ ':' :: ((padded 2 (time / 60000 % 60)).toList ++
    ':' :: ((padded 2 (time / 1000 % 60)).toList ++ '.' :: (fraction (time % 1000)).toList))

theorem numeric_clock (time : Nat) : Text.Numeric [':', '.'] (clock time) := by
  unfold clock
  refine .append (Number.numeric_toDigits _ _) (.mark (by simp) ?_)
  refine .append ((Spells.padded _ _).numeric _) (.mark (by simp) ?_)
  refine .append ((Spells.padded _ _).numeric _) (.mark (by simp) ?_)
  exact numeric_fraction (Nat.mod_lt _ (by decide)) _

theorem clock_injective {s t : Nat} (h : clock s = clock t) : s = t := by
  have hpadded : ∀ {c : Char} (w n : Nat), c.isDigit = false → c ∉ (padded w n).toList :=
    fun w n hc => ((Spells.padded w n).numeric []).not_mem ⟨hc, List.not_mem_nil⟩
  have hdigits : ∀ n, ':' ∉ Nat.toDigits 10 n := fun n =>
    (Number.numeric_toDigits [] n).not_mem (by decide)
  obtain ⟨hhour, h⟩ := Text.eq_of_append_cons h (hdigits _) (hdigits _)
  obtain ⟨hminute, h⟩ := Text.eq_of_append_cons h (hpadded _ _ (by decide))
    (hpadded _ _ (by decide))
  obtain ⟨hsecond, hfraction⟩ := Text.eq_of_append_cons h (hpadded _ _ (by decide))
    (hpadded _ _ (by decide))
  have h₁ := (Spells.toDigits _).unique (Spells.toDigits _) hhour
  have h₂ := (Spells.padded _ _).unique (Spells.padded _ _) hminute
  have h₃ := (Spells.padded _ _).unique (Spells.padded _ _) hsecond
  have h₄ := fraction_injective (Nat.mod_lt _ (by decide)) (Nat.mod_lt _ (by decide)) hfraction
  omega

namespace Date

variable {d e : Date}

def digits (d : Date) : List Char :=
  (padded 4 d.year.natAbs).toList ++
    '-' :: ((padded 2 d.month).toList ++ '-' :: (padded 2 d.day).toList)

theorem minus_not_mem_padded (w n : Nat) : '-' ∉ (padded w n).toList :=
  ((Spells.padded w n).numeric []).not_mem (by decide)

theorem eq_of_digits (h : d.digits = e.digits) :
    d.year.natAbs = e.year.natAbs ∧ d.month = e.month ∧ d.day = e.day := by
  obtain ⟨hyear, h⟩ :=
    Text.eq_of_append_cons h (minus_not_mem_padded _ _) (minus_not_mem_padded _ _)
  obtain ⟨hmonth, hday⟩ :=
    Text.eq_of_append_cons h (minus_not_mem_padded _ _) (minus_not_mem_padded _ _)
  exact ⟨(Spells.padded _ _).unique (Spells.padded _ _) hyear,
    (Spells.padded _ _).unique (Spells.padded _ _) hmonth,
    (Spells.padded _ _).unique (Spells.padded _ _) hday⟩

theorem digits_ne_minus {cs : List Char} : d.digits ≠ '-' :: cs := by
  intro h
  obtain ⟨hyear, -⟩ :=
    @Text.eq_of_append_cons _ _ _ [] _ _ h (minus_not_mem_padded _ _) List.not_mem_nil
  have hlength := congrArg List.length hyear
  simp [padded, Nat.toDigits_ne_nil] at hlength

def text (d : Date) : List Char := (if d.year < 0 then ['-'] else []) ++ d.digits

theorem text_injective (h : d.text = e.text) : d = e := by
  have heq : d.digits = e.digits → (d.year < 0 ↔ e.year < 0) → d = e := by
    intro hdigits hsign
    obtain ⟨hyear, hmonth, hday⟩ := eq_of_digits hdigits
    have hyears : d.year = e.year := by omega
    obtain ⟨y, m, t⟩ := d
    dsimp only at hyears hmonth hday
    rw [hyears, hmonth, hday]
  unfold text at h
  by_cases hd : d.year < 0 <;> by_cases he : e.year < 0
  · rw [if_pos hd, if_pos he] at h
    exact heq (List.append_cancel_left h) (iff_of_true hd he)
  · rw [if_pos hd, if_neg he, List.singleton_append, List.nil_append] at h
    exact absurd h.symm digits_ne_minus
  · rw [if_neg hd, if_pos he, List.singleton_append, List.nil_append] at h
    exact absurd h digits_ne_minus
  · rw [if_neg hd, if_neg he] at h
    exact heq (List.append_cancel_left h) (iff_of_false hd he)

theorem numeric_text (d : Date) : Text.Numeric ['-'] d.text := by
  unfold text digits
  refine .append ?_ (.append ((Spells.padded _ _).numeric _) (.mark (by simp) ?_))
  · split
    · exact .mark (by simp) nofun
    · exact nofun
  · exact .append ((Spells.padded _ _).numeric _) (.mark (by simp) ((Spells.padded _ _).numeric _))

end Date

theorem toList_text (millis : Int) : (text millis).toList =
    let date := dateOfDays (millis.fdiv 86400000)
    if date.year < -9999 || 9999 < date.year then Number.decimal millis
    else date.text ++ ' ' :: (clock (millis.fmod 86400000).toNat ++
      ' ' :: ['+', '0', '0', ':', '0', '0', ':', '0', '0']) := by
  unfold text
  dsimp only
  split
  · exact Number.toList_toString millis
  · unfold Date.text Date.digits clock
    split <;> simp

theorem text_injective {m n : Int} (h : text m = text n) : m = n := by
  have hdecimal : ∀ n, ' ' ∉ Number.decimal n := fun n =>
    (Number.numeric_decimal n).not_mem (by decide)
  have hdate : ∀ d : Date, ' ' ∉ d.text := fun d => d.numeric_text.not_mem (by decide)
  have hclock : ∀ time, ' ' ∉ clock time := fun time => (numeric_clock time).not_mem (by decide)
  have htext : (text m).toList = (text n).toList := by rw [h]
  rw [toList_text, toList_text] at htext
  dsimp only at htext
  split at htext <;> split at htext
  · exact Number.decimal_injective htext
  · have hnone := hdecimal m
    rw [htext] at hnone
    simp at hnone
  · have hnone := hdecimal n
    rw [← htext] at hnone
    simp at hnone
  · obtain ⟨hday, htime⟩ := Text.eq_of_append_cons htext (hdate _) (hdate _)
    obtain ⟨htime, -⟩ := Text.eq_of_append_cons htime (hclock _) (hclock _)
    have hdays := dateOfDays_injective (Date.text_injective hday)
    have htimes := clock_injective htime
    have hm := Int.mul_fdiv_add_fmod m 86400000
    have hn := Int.mul_fdiv_add_fmod n 86400000
    have hmpos := Int.fmod_nonneg_of_pos m (by decide : (0 : Int) < 86400000)
    have hnpos := Int.fmod_nonneg_of_pos n (by decide : (0 : Int) < 86400000)
    omega

theorem quote_not_mem_text (millis : Int) : '"' ∉ (text millis).toList := by
  rw [toList_text]
  dsimp only
  split
  · exact (Number.numeric_decimal _).not_mem (by decide)
  · have hdate := ((dateOfDays (millis.fdiv 86400000)).numeric_text).not_mem (c := '"') (by decide)
    have htime := (numeric_clock (millis.fmod 86400000).toNat).not_mem (c := '"') (by decide)
    simp [hdate, htime]

end Docbase.Calendar
