import Docbase.Proofs.Number.Decimal
import Docbase.Proofs.Number.Order
import Docbase.Proofs.Number.Shortest

namespace Docbase

namespace Number

theorem toDigits_mul_pow {n : Nat} (hn : n ≠ 0) (k : Nat) :
    Nat.toDigits 10 (n * Nat.pow 10 k) = Nat.toDigits 10 n ++ List.replicate k '0' := by
  induction k with
  | zero => simp
  | succ k ih =>
    have hpos : 0 < n * Nat.pow 10 k :=
      Nat.mul_pos (Nat.pos_of_ne_zero hn) (Nat.pow_pos (by decide))
    have hmul : n * Nat.pow 10 (k + 1) = 10 * (n * Nat.pow 10 k) + 0 := by
      rw [Nat.pow_eq, Nat.pow_eq, Nat.pow_succ, ← Nat.mul_assoc, Nat.mul_comm 10, Nat.add_zero]
    rw [hmul, ← Nat.toDigits_append_toDigits (by decide) hpos (by decide), ih, Nat.toDigits_zero,
      List.append_assoc, List.replicate_succ']

end Number

namespace Double

open Number

variable {x y : Double}

theorem placePoint_eq (n places : Nat) : ∃ whole fraction,
    placePoint (Nat.toDigits 10 n) places = whole ++ '.' :: fraction ∧
    fraction.length = places ∧ Nat.ofDigitChars 10 (whole ++ fraction) 0 = n ∧
    ∀ c ∈ whole ++ fraction, c.isDigit := by
  obtain ⟨padded, hpadded⟩ : ∃ padded, padded =
      List.replicate (places + 1 - (Nat.toDigits 10 n).length) '0' ++ Nat.toDigits 10 n := ⟨_, rfl⟩
  have hlength : places ≤ padded.length := by
    rw [hpadded, List.length_append, List.length_replicate]
    omega
  refine ⟨padded.take (padded.length - places), padded.drop (padded.length - places), ?_, ?_, ?_, ?_⟩
  · rw [placePoint, ← hpadded]
  · rw [List.length_drop]
    omega
  · rw [List.take_append_drop, hpadded, Nat.ofDigitChars_append, Nat.ofDigitChars_replicate_zero,
      Nat.mul_zero, Nat.ofDigitChars_ten_toDigits]
  · rw [List.take_append_drop, hpadded]
    intro c hc
    obtain hc | hc := List.mem_append.mp hc
    · rw [List.eq_of_mem_replicate hc]
      decide
    · exact isDigit_of_mem_toDigits hc

theorem placePoint_injective {m n p q : Nat}
    (h : placePoint (Nat.toDigits 10 m) p = placePoint (Nat.toDigits 10 n) q) : m = n ∧ p = q := by
  obtain ⟨whole, fraction, htext, hlength, hvalue, hdigits⟩ := placePoint_eq m p
  obtain ⟨whole', fraction', htext', hlength', hvalue', hdigits'⟩ := placePoint_eq n q
  have hpoint : ∀ {cs ds : List Char}, (∀ c ∈ cs ++ ds, c.isDigit) → '.' ∉ cs := fun h hmem =>
    absurd (h '.' (List.mem_append_left _ hmem)) (by decide)
  rw [htext, htext'] at h
  obtain ⟨rfl, rfl⟩ := Text.eq_of_append_cons h (hpoint hdigits) (hpoint hdigits')
  exact ⟨hvalue.symm.trans hvalue', hlength.symm.trans hlength'⟩

namespace Decimal

variable {d d' : Decimal}

theorem positional_of_nonneg (h : 0 ≤ d.exponent) :
    d.positional false = Nat.toDigits 10 d.num := by
  unfold positional num
  rw [if_pos h]
  by_cases hzero : d.digits = 0
  · simp [hzero]
  · rw [if_neg hzero, toDigits_mul_pow hzero]
    rfl

theorem positional_of_neg (h : d.exponent < 0) :
    d.positional false = placePoint (Nat.toDigits 10 d.digits) (-d.exponent).toNat := by
  unfold positional
  rw [if_neg (Int.not_le.mpr h)]

theorem numeric_positional (d : Decimal) : Text.Numeric ['.'] (d.positional false) := by
  by_cases hexponent : 0 ≤ d.exponent
  · rw [positional_of_nonneg hexponent]
    exact numeric_toDigits _ _
  · rw [positional_of_neg (Int.not_le.mp hexponent)]
    obtain ⟨whole, fraction, htext, -, -, hdigits⟩ :=
      placePoint_eq d.digits (-d.exponent).toNat
    rw [htext]
    obtain ⟨hwhole, hfraction⟩ := List.forall_mem_append.mp hdigits
    exact .append (.of_isDigit hwhole) (.mark (by simp) (.of_isDigit hfraction))

theorem point_mem_positional_iff : '.' ∈ d.positional false ↔ d.exponent < 0 := by
  by_cases hexponent : 0 ≤ d.exponent
  · rw [positional_of_nonneg hexponent]
    have hpoint := (numeric_toDigits [] d.num).not_mem (c := '.') (by decide)
    simp [hpoint, hexponent]
  · rw [positional_of_neg (Int.not_le.mp hexponent)]
    obtain ⟨whole, fraction, htext, -⟩ := placePoint_eq d.digits (-d.exponent).toNat
    simp [htext, Int.not_le.mp hexponent]

theorem positional_ne_nil (d : Decimal) : d.positional false ≠ [] := by
  by_cases hexponent : 0 ≤ d.exponent
  · rw [positional_of_nonneg hexponent]
    exact Nat.toDigits_ne_nil
  · intro hnil
    have hpoint := point_mem_positional_iff.mpr (Int.not_le.mp hexponent)
    rw [hnil] at hpoint
    cases hpoint

theorem eq_of_positional (h : d.positional false = d'.positional false) :
    d.num = d'.num ∧ d.den = d'.den := by
  have hpoint : d.exponent < 0 ↔ d'.exponent < 0 := by
    rw [← point_mem_positional_iff, h, point_mem_positional_iff]
  by_cases hexponent : d.exponent < 0
  · rw [positional_of_neg hexponent, positional_of_neg (hpoint.mp hexponent)] at h
    obtain ⟨hdigits, hplaces⟩ := placePoint_injective h
    have hsame : d.exponent = d'.exponent := by omega
    rw [num, num, den, den, hdigits, hsame]
    exact ⟨rfl, rfl⟩
  · have hexponent' : ¬ d'.exponent < 0 := fun h => hexponent (hpoint.mpr h)
    have hden : ∀ {e : Decimal}, ¬ e.exponent < 0 → e.den = 1 := by
      intro e he
      rw [den, Int.toNat_of_nonpos (by omega)]
    rw [positional_of_nonneg (by omega), positional_of_nonneg (by omega)] at h
    have hvalue : Nat.ofDigitChars 10 (Nat.toDigits 10 d.num) 0 =
        Nat.ofDigitChars 10 (Nat.toDigits 10 d'.num) 0 := by rw [h]
    rw [Nat.ofDigitChars_ten_toDigits, Nat.ofDigitChars_ten_toDigits] at hvalue
    exact ⟨hvalue, (hden hexponent).trans (hden hexponent').symm⟩

end Decimal

def decimal (x : Double) : Decimal := if x.magnitude = 0 then ⟨0, 0⟩ else x.shortest

theorem reads_decimal (x : Double) : x.Reads x.decimal := by
  rw [decimal]
  split
  next hzero =>
    have hself := x.absorbs_magnitude
    rw [hzero] at hself
    have hnum : (⟨0, 0⟩ : Decimal).num = 0 := rfl
    have hden : (⟨0, 0⟩ : Decimal).den = 1 := rfl
    rw [Reads, hnum, hden, Nat.zero_mul]
    exact hself
  next => exact x.reads_shortest

def numeral (x : Double) : List Char :=
  if x.isInfinite then ['i', 'n', 'f'] else x.decimal.positional false

theorem toList_display (h : x.isNaN = false) :
    x.display.toList = (if x.isNegative then ['-'] else []) ++ x.numeral := by
  have hzero : (⟨0, 0⟩ : Decimal).positional false = ['0'] := rfl
  have hspell : x.display = if x.isNaN then "NaN" else
      let sign := if x.isNegative then "-" else ""
      if x.isInfinite then sign ++ "inf" else sign ++ String.ofList
        (if x.magnitude = 0 then ['0'] else x.shortest.positional false) := rfl
  rw [hspell, h, numeral, decimal]
  cases x.isNegative <;> cases x.isInfinite <;> by_cases hmagnitude : x.magnitude = 0 <;>
    simp [hmagnitude, hzero]

theorem numeric_numeral (x : Double) : Text.Numeric ['.', 'i', 'n', 'f'] x.numeral := by
  rw [numeral]
  split
  · exact .mark (by simp) (.mark (by simp) (.mark (by simp) nofun))
  · intro c hc
    exact (x.decimal.numeric_positional c hc).imp_right fun h => by simp_all

theorem minus_not_mem_numeral (x : Double) : '-' ∉ x.numeral :=
  x.numeric_numeral.not_mem (by decide)

theorem sign_inj {a b : Bool} {cs ds : List Char} (hcs : '-' ∉ cs) (hds : '-' ∉ ds)
    (h : (if a then ['-'] else []) ++ cs = (if b then ['-'] else []) ++ ds) : a = b ∧ cs = ds := by
  cases a <;> cases b
  · exact ⟨rfl, h⟩
  · simp only [Bool.false_eq_true, if_false, if_true, List.nil_append] at h
    rw [h] at hcs
    simp at hcs
  · simp only [Bool.false_eq_true, if_false, if_true, List.nil_append] at h
    rw [← h] at hds
    simp at hds
  · simpa using h

theorem i_not_mem_positional (d : Decimal) : 'i' ∉ d.positional false :=
  d.numeric_positional.not_mem (by decide)

theorem eq_bits_of_numeral (h : x.numeral = y.numeral) :
    x.exponentBits = y.exponentBits ∧ x.fractionBits = y.fractionBits := by
  rw [numeral, numeral] at h
  cases hx : x.isInfinite <;> cases hy : y.isInfinite
  · rw [hx, hy] at h
    obtain ⟨hnum, hden⟩ := Decimal.eq_of_positional h
    have hreads := x.reads_decimal
    rw [Reads, hnum, hden] at hreads
    exact eq_bits_of_absorbs hreads y.reads_decimal y.decimal.den_pos
  · rw [hx, hy] at h
    have hi := i_not_mem_positional x.decimal
    simp only [Bool.false_eq_true, if_false, if_true] at h
    rw [h] at hi
    simp at hi
  · rw [hx, hy] at h
    have hi := i_not_mem_positional y.decimal
    simp only [Bool.false_eq_true, if_false, if_true] at h
    rw [← h] at hi
    simp at hi
  · simp only [isInfinite, Bool.and_eq_true, decide_eq_true_eq] at hx hy
    exact ⟨hx.1.trans hy.1.symm, hx.2.trans hy.2.symm⟩

theorem display_injective (hx : x.isNaN = false) (hy : y.isNaN = false)
    (h : x.display = y.display) : x = y := by
  have htext : x.display.toList = y.display.toList := by rw [h]
  rw [toList_display hx, toList_display hy] at htext
  obtain ⟨hsign, hnumeral⟩ := sign_inj x.minus_not_mem_numeral y.minus_not_mem_numeral htext
  obtain ⟨hexponent, hfraction⟩ := eq_bits_of_numeral hnumeral
  exact eq_of_bits hsign hexponent hfraction

/-- Doubles whose text shows exactly what they are among numbers: not NaN, which equals nothing,
not the negative zero, and not so large that digits are cut off while integers of 64 bits are as
large. -/
def isExact (x : Double) : Bool :=
  !x.isNaN && !(x.isNegative && x.magnitude = 0) &&
    (x.magnitude < 2 ^ 53 * unitsPerOne || 2 ^ 64 * unitsPerOne ≤ x.magnitude)

theorem isExact_iff : x.isExact ↔ x.isNaN = false ∧ (x.isNegative → x.magnitude ≠ 0) ∧
    (x.magnitude < 2 ^ 53 * unitsPerOne ∨ 2 ^ 64 * unitsPerOne ≤ x.magnitude) := by
  unfold isExact
  cases x.isNegative <;> simp [and_assoc]

theorem eq_of_units (hx : x.isExact) (hy : y.isExact) (h : x.units = y.units) : x = y := by
  obtain ⟨-, hxzero, -⟩ := isExact_iff.mp hx
  obtain ⟨-, hyzero, -⟩ := isExact_iff.mp hy
  rw [units, units] at h
  have hmagnitude : x.magnitude = y.magnitude := by
    split at h <;> split at h <;> omega
  refine eq_of_magnitude ?_ hmagnitude
  cases hxn : x.isNegative <;> cases hyn : y.isNegative
  · rfl
  · have hne := hyzero hyn
    simp only [hxn, hyn, Bool.false_eq_true, if_false, if_true] at h
    omega
  · have hne := hxzero hxn
    simp only [hxn, hyn, Bool.false_eq_true, if_false, if_true] at h
    omega
  · rfl

theorem magnitude_of_isInfinite (h : x.isInfinite) : 2 ^ 64 * unitsPerOne ≤ x.magnitude := by
  simp only [isInfinite, Bool.and_eq_true, decide_eq_true_eq] at h
  have hsignificand : x.significand = exponentUnit := by
    rw [significand, h.1, h.2]
    rfl
  have hscale : x.scale = 2046 := by rw [scale, h.1]
  rw [magnitude, hsignificand, hscale]
  decide +kernel

theorem decimal_eq_sign (n : Int) :
    Number.decimal n = (if n < 0 then ['-'] else []) ++ Nat.toDigits 10 n.natAbs := by
  unfold Number.decimal
  split <;> rfl

theorem numeral_of_int {n : Nat} (h : x.magnitude = n * unitsPerOne)
    (hlt : x.magnitude < 2 ^ 53 * unitsPerOne) : x.numeral = Nat.toDigits 10 n := by
  have hfinite : ¬ x.isInfinite := by
    intro hinfinite
    have hle := magnitude_of_isInfinite hinfinite
    have hpos := Nat.zero_lt_of_lt one_lt_unitsPerOne
    omega
  rw [numeral, if_neg hfinite, decimal]
  by_cases hn : n = 0
  · have hzero : x.magnitude = 0 := by rw [h, hn, Nat.zero_mul]
    rw [if_pos hzero, hn, Decimal.positional_of_nonneg (Int.le_refl 0)]
    rfl
  · obtain ⟨hexponent, hnum⟩ := shortest_of_int hn h hlt
    have hpos := Nat.zero_lt_of_lt one_lt_unitsPerOne
    have hne : x.magnitude ≠ 0 := by
      rw [h]
      exact (Nat.mul_pos (Nat.pos_of_ne_zero hn) hpos).ne'
    rw [if_neg hne, Decimal.positional_of_nonneg hexponent, hnum]

theorem magnitude_of_numeral {n : Nat} (hn : n ≤ 2 ^ 63)
    (hsize : x.magnitude < 2 ^ 53 * unitsPerOne ∨ 2 ^ 64 * unitsPerOne ≤ x.magnitude)
    (h : x.numeral = Nat.toDigits 10 n) :
    x.magnitude = n * unitsPerOne ∧ x.magnitude < 2 ^ 53 * unitsPerOne := by
  have hpositional : (⟨n, 0⟩ : Decimal).positional false = Nat.toDigits 10 n := by
    rw [Decimal.positional_of_nonneg (Int.le_refl 0)]
    exact congrArg _ (Nat.mul_one n)
  have hfinite : ¬ x.isInfinite := by
    intro hinfinite
    have hi := i_not_mem_positional ⟨n, 0⟩
    rw [numeral, if_pos hinfinite] at h
    rw [hpositional, ← h] at hi
    simp at hi
  rw [numeral, if_neg hfinite, ← hpositional] at h
  obtain ⟨hnum, hden⟩ := Decimal.eq_of_positional h
  have habsorbs := x.reads_decimal
  have hvalue : (⟨n, 0⟩ : Decimal).num = n := Nat.mul_one n
  have hone : (⟨n, 0⟩ : Decimal).den = 1 := rfl
  rw [Reads, hnum, hden, hvalue, hone] at habsorbs
  obtain hlt | hle := hsize
  · exact ⟨magnitude_of_absorbs_int hlt habsorbs, hlt⟩
  · exact absurd (lt_of_absorbs_int hle habsorbs) (by omega)

theorem natAbs_units (x : Double) : x.units.natAbs = x.magnitude := by
  rw [units]
  split
  · rw [Int.natAbs_neg, Int.natAbs_natCast]
  · exact Int.natAbs_natCast _

theorem isNegative_of_units {n : Int} (hzero : x.isNegative → x.magnitude ≠ 0)
    (h : x.units = n * unitsPerOne) : x.isNegative = decide (n < 0) := by
  have hunits : (0 : Int) < unitsPerOne := unitsPerOne_pos
  rw [units] at h
  cases hnegative : x.isNegative with
  | false =>
    rw [hnegative, if_neg Bool.false_ne_true] at h
    have hnot : ¬ n < 0 := by
      intro hn
      have hmul := Int.mul_neg_of_neg_of_pos hn hunits
      omega
    exact (decide_eq_false hnot).symm
  | true =>
    rw [hnegative, if_pos rfl] at h
    have hne := hzero hnegative
    have hlt : n < 0 := by
      by_contra hn
      have hmul := Int.mul_nonneg (Int.not_lt.mp hn) (Int.le_of_lt hunits)
      omega
    exact (decide_eq_true hlt).symm

theorem display_eq_decimal_iff {n : Int} (hx : x.isExact) (hn : n.natAbs ≤ 2 ^ 63) :
    x.display.toList = Number.decimal n ↔ x.units = n * unitsPerOne := by
  obtain ⟨hnan, hzero, hsize⟩ := isExact_iff.mp hx
  have hpos := Nat.zero_lt_of_lt one_lt_unitsPerOne
  have hminus : '-' ∉ Nat.toDigits 10 n.natAbs := (numeric_toDigits [] _).not_mem (by decide)
  have hdecimal : Number.decimal n =
      (if decide (n < 0) then ['-'] else []) ++ Nat.toDigits 10 n.natAbs := by
    rw [decimal_eq_sign]
    by_cases h : n < 0 <;> simp [h]
  rw [toList_display hnan, hdecimal]
  constructor
  · intro h
    obtain ⟨hsign, hnumeral⟩ := sign_inj x.minus_not_mem_numeral hminus h
    obtain ⟨hmagnitude, -⟩ := magnitude_of_numeral hn hsize hnumeral
    rw [units, hsign, hmagnitude, Int.natCast_mul]
    by_cases h : n < 0
    · have habs : (n.natAbs : Int) = -n := by omega
      rw [decide_eq_true h, if_pos rfl, habs, Int.neg_mul, Int.neg_neg]
    · have habs : (n.natAbs : Int) = n := by omega
      rw [decide_eq_false h, if_neg Bool.false_ne_true, habs]
  · intro h
    have hmagnitude : x.magnitude = n.natAbs * unitsPerOne := by
      rw [← natAbs_units, h, Int.natAbs_mul, Int.natAbs_natCast]
    have hlt : x.magnitude < 2 ^ 53 * unitsPerOne := by
      have hle : n.natAbs * unitsPerOne ≤ 2 ^ 63 * unitsPerOne := Nat.mul_le_mul_right _ hn
      omega
    rw [numeral_of_int hmagnitude hlt, isNegative_of_units hzero h]

end Double

namespace Number

def text : Number → List Char
  | int n => Number.decimal n
  | double x => x.display.toList

def IsExact : Number → Prop
  | int n => n.natAbs ≤ 2 ^ 63
  | double x => x.isExact

instance : DecidablePred IsExact
  | int n => inferInstanceAs (Decidable (n.natAbs ≤ 2 ^ 63))
  | double x => inferInstanceAs (Decidable (x.isExact = true))

theorem IsExact.exists_size? {n : Number} (h : n.IsExact) : ∃ a, n.size? = some a := by
  cases n with
  | int k => exact ⟨_, rfl⟩
  | double x => exact ⟨x.units, size?_double.mpr ⟨(Double.isExact_iff.mp h).1, rfl⟩⟩

theorem text_eq_iff_size?_eq {m n : Number} (hm : m.IsExact) (hn : n.IsExact) :
    m.text = n.text ↔ m.size? = n.size? := by
  have hsize : ∀ {x : Double}, x.isExact → (double x).size? = some x.units := fun hx =>
    size?_double.mpr ⟨(Double.isExact_iff.mp hx).1, rfl⟩
  cases m with
  | int k =>
    cases n with
    | int l =>
      constructor
      · intro h
        rw [decimal_injective h]
      · intro h
        have hmul := Option.some.inj h
        rw [Int.eq_of_mul_eq_mul_right (Int.ne_of_gt unitsPerOne_pos) hmul]
    | double y =>
      rw [hsize hn, size?, Option.some.injEq, @eq_comm Int, text, text, eq_comm]
      exact Double.display_eq_decimal_iff hn hm
  | double x =>
    cases n with
    | int l =>
      rw [hsize hm, size?, Option.some.injEq]
      exact Double.display_eq_decimal_iff hm hn
    | double y =>
      rw [hsize hm, hsize hn, Option.some.injEq, text, text, String.toList_inj]
      constructor
      · intro h
        rw [Double.display_injective (Double.isExact_iff.mp hm).1 (Double.isExact_iff.mp hn).1 h]
      · intro h
        rw [Double.eq_of_units hm hn h]

end Number

end Docbase
