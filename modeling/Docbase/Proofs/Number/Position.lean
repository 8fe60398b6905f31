import Docbase.Proofs.Number.Decimal
import Mathlib.Data.List.Induction

namespace Docbase.Number

variable {cs : List Char} {s t : String} {i n : Nat}

/-- The digits of a position, behind the plus sign that may stand in front. -/
def positionDigits : List Char → List Char
  | '+' :: cs => cs
  | cs => cs

theorem index?_eq (s : String) : index? s =
    (natOfDigits? (positionDigits s.toList)).bind fun n =>
      if n < UInt64.size then some n else none := rfl

/-- Whether the text is a number with a sign or a zero in front. -/
def isPadded (s : String) : Bool :=
  match s.toList with
  | '+' :: cs | '-' :: cs | '0' :: cs => (natOfDigits? cs).isSome
  | _ => false

theorem digitChar_of_isDigit {c : Char} (h : c.isDigit) :
    Nat.digitChar (c.toNat - '0'.toNat) = c ∧ c.toNat - '0'.toNat < 10 := by
  have hdigits : ∀ n < 58, 48 ≤ n → Nat.digitChar (n - 48) = Char.ofNat n := by decide
  obtain ⟨hlow, hhigh⟩ : 48 ≤ c.toNat ∧ c.toNat ≤ 57 := by
    simpa [Char.isDigit, UInt32.le_iff_toNat_le] using h
  refine ⟨(hdigits c.toNat (by omega) hlow).trans (Char.ofNat_toNat c), ?_⟩
  simp only [show '0'.toNat = 48 from rfl]
  omega

theorem natOfDigits?_concat {c : Char} (h : natOfDigits? (cs ++ [c]) = some n) :
    c.isDigit ∧ ((cs = [] ∧ n = c.toNat - '0'.toNat) ∨
      ∃ m, natOfDigits? cs = some m ∧ n = 10 * m + (c.toNat - '0'.toNat)) := by
  unfold natOfDigits? at h
  split at h
  next hall =>
    obtain ⟨hcs, hc⟩ : (∀ d ∈ cs, d.isDigit) ∧ c.isDigit := by simpa using hall
    refine ⟨hc, ?_⟩
    rw [List.foldl_append] at h
    by_cases hnil : cs = []
    · exact .inl ⟨hnil, by simpa [hnil] using (Option.some.inj h).symm⟩
    · refine .inr ⟨_, if_pos ?_, (Option.some.inj h).symm⟩
      simpa [hnil] using hcs
  next => cases h

theorem toDigits_of_natOfDigits? (h : natOfDigits? cs = some n)
    (hzero : cs.head? = some '0' → cs.length = 1) : Nat.toDigits 10 n = cs := by
  -- From the last digit, which is the one that division takes off.
  induction cs using List.reverseRecOn generalizing n with
  | nil => cases h
  | append_singleton cs c ih =>
    obtain ⟨hc, hlast⟩ := natOfDigits?_concat h
    obtain ⟨hchar, hlt⟩ := digitChar_of_isDigit hc
    obtain ⟨rfl, rfl⟩ | ⟨m, hm, rfl⟩ := hlast
    · rw [Nat.toDigits_of_lt_base hlt, hchar]
      rfl
    · have hne : cs ≠ [] := by
        rintro rfl
        cases hm
      have hhead : cs.head? ≠ some '0' := by
        intro hhead
        obtain ⟨d, ds, rfl⟩ := List.exists_cons_of_ne_nil hne
        simpa using hzero hhead
      have hdigits := ih hm fun hhead' => absurd hhead' hhead
      have hpos : 0 < m := by
        apply Nat.pos_of_ne_zero
        rintro rfl
        exact hhead (by rw [← hdigits]; rfl)
      rw [← Nat.toDigits_append_toDigits (by decide) hpos hlt, hdigits,
        Nat.toDigits_of_lt_base hlt, hchar]

theorem toList_of_index? (h : index? s = some i) (hs : isPadded s = false) :
    s.toList = Nat.toDigits 10 i := by
  have hread : natOfDigits? (positionDigits s.toList) = some i := by
    rw [index?_eq] at h
    obtain ⟨n, hn, hsize⟩ := Option.bind_eq_some_iff.mp h
    split at hsize
    · exact Option.some.inj hsize ▸ hn
    · cases hsize
  unfold isPadded at hs
  unfold positionDigits at hread
  split at hread
  next cs hcs => simp [hcs, hread] at hs
  next cs hplus =>
    refine (toDigits_of_natOfDigits? hread fun hhead => ?_).symm
    obtain ⟨ds, hds⟩ := List.head?_eq_some_iff.mp hhead
    rw [hds] at hread ⊢
    by_contra hne
    have hnil : ds ≠ [] := by
      rintro rfl
      exact hne rfl
    have hdigits : ds.all Char.isDigit := by
      unfold natOfDigits? at hread
      split at hread
      next hall => simpa using hall
      next => cases hread
    simp [hds, natOfDigits?, hnil, hdigits] at hs

theorem eq_of_index?_eq (hs : index? s = some i) (ht : index? t = some i)
    (hs' : isPadded s = false) (ht' : isPadded t = false) : s = t := by
  rw [← String.toList_inj, toList_of_index? hs hs', toList_of_index? ht ht']

end Docbase.Number
