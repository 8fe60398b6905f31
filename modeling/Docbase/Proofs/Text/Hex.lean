import Docbase.Text.Hex
import Mathlib.Data.List.Induction

namespace Docbase.Text

theorem hexDigit?_digitChar : ∀ n < 16, hexDigit? (Nat.digitChar n) = some n := by decide

@[simp]
theorem length_hexOfNat (width n : Nat) : (hexOfNat width n).length = width := by
  induction width generalizing n with
  | zero => rfl
  | succ width ih => rw [hexOfNat, List.length_append, ih, List.length_singleton]

theorem foldlM_hexOfNat (width n : Nat) :
    (hexOfNat width n).foldlM (fun m c => (hexDigit? c).map (16 * m + ·)) 0 =
      some (n % Nat.pow 16 width) := by
  induction width generalizing n with
  | zero => simp [hexOfNat, Nat.pow_eq, Nat.mod_one]
  | succ width ih =>
    have hdigit := hexDigit?_digitChar (n % 16) (Nat.mod_lt n (by decide))
    have hvalue : 16 * (n / 16 % Nat.pow 16 width) + n % 16 = n % Nat.pow 16 (width + 1) := by
      rw [Nat.pow_eq, Nat.pow_eq, Nat.pow_succ', Nat.mod_mul, Nat.add_comm]
    rw [hexOfNat, List.foldlM_append, ih]
    simp only [Option.bind_eq_bind, Option.bind_some, List.foldlM_cons, List.foldlM_nil, hdigit,
      Option.map_some, hvalue, pure]

theorem natOfHex?_hexOfNat {width n : Nat} (h : n < Nat.pow 16 width) :
    natOfHex? width (hexOfNat width n) = some n := by
  rw [natOfHex?, if_pos (length_hexOfNat width n), foldlM_hexOfNat, Nat.mod_eq_of_lt h]

theorem foldlM_toDigits (n : Nat) :
    (Nat.toDigits 16 n).foldlM (fun m c => (hexDigit? c).map (16 * m + ·)) 0 = some n := by
  induction n using Nat.strongRecOn with
  | ind n ih =>
    obtain hlt | hle := Nat.lt_or_ge n 16
    · simp [Nat.toDigits_of_lt_base hlt, hexDigit?_digitChar n hlt]
    · have hdigit := hexDigit?_digitChar (n % 16) (Nat.mod_lt n (by decide))
      rw [Nat.toDigits_of_base_le (by decide) hle, List.foldlM_append,
        ih (n / 16) (Nat.div_lt_self (by omega) (by decide))]
      simp [hdigit, Nat.div_add_mod]

theorem natOfHex?_toDigits (n : Nat) :
    natOfHex? (Nat.toDigits 16 n).length (Nat.toDigits 16 n) = some n := by
  rw [natOfHex?, if_pos rfl, foldlM_toDigits]

theorem exists_of_mem_toDigits {c : Char} {n : Nat} (h : c ∈ Nat.toDigits 16 n) :
    ∃ d < 16, c = Nat.digitChar d := by
  induction n using Nat.strongRecOn with
  | ind n ih =>
    obtain hlt | hle := Nat.lt_or_ge n 16
    · rw [Nat.toDigits_of_lt_base hlt] at h
      exact ⟨n, hlt, List.mem_singleton.mp h⟩
    · rw [Nat.toDigits_of_base_le (by decide) hle] at h
      obtain hc | hc := List.mem_append.mp h
      · exact ih (n / 16) (Nat.div_lt_self (by omega) (by decide)) hc
      · exact ⟨n % 16, Nat.mod_lt n (by decide), List.mem_singleton.mp hc⟩

theorem toNat_lt_of_hexDigit? {c : Char} {d : Nat} (h : hexDigit? c = some d) : c.toNat < 128 := by
  have hval : c.toNat = c.val.toNat := rfl
  have hnine : '9'.val.toNat = 57 := rfl
  have hf : 'f'.val.toNat = 102 := rfl
  have hF : 'F'.val.toNat = 70 := rfl
  unfold hexDigit? at h
  simp only [Char.isDigit, Char.le_def, UInt32.le_iff_toNat_le, Bool.and_eq_true,
    decide_eq_true_eq] at h
  split at h
  · omega
  · split at h
    · omega
    · split at h
      · omega
      · cases h

theorem digitChar_eq_iff {c : Char} {d : Nat} (h : hexDigit? c = some d) :
    d < 16 ∧ (Nat.digitChar d = c ↔ c.isUpper = false) := by
  have hall : ∀ n < 128, ∀ d ∈ hexDigit? (Char.ofNat n),
      d < 16 ∧ (Nat.digitChar d = Char.ofNat n ↔ (Char.ofNat n).isUpper = false) := by decide
  have hc := hall c.toNat (toNat_lt_of_hexDigit? h)
  rw [Char.ofNat_toNat] at hc
  exact hc d h

theorem exists_of_foldlM_concat {cs : List Char} {c : Char} {n : Nat}
    (h : (cs ++ [c]).foldlM (fun m c => (hexDigit? c).map (16 * m + ·)) 0 = some n) :
    ∃ m d, cs.foldlM (fun m c => (hexDigit? c).map (16 * m + ·)) 0 = some m ∧
      hexDigit? c = some d ∧ n = 16 * m + d := by
  rw [List.foldlM_append] at h
  obtain ⟨m, hm, h⟩ := Option.bind_eq_some_iff.mp h
  obtain ⟨d, hd, rfl⟩ : ∃ d, hexDigit? c = some d ∧ 16 * m + d = n := by simpa using h
  exact ⟨m, d, hm, hd, rfl⟩

theorem hexOfNat_eq_iff {width n : Nat} {cs : List Char} (h : natOfHex? width cs = some n) :
    n < Nat.pow 16 width ∧ (hexOfNat width n = cs ↔ ∀ c ∈ cs, c.isUpper = false) := by
  unfold natOfHex? at h
  split at h
  next hlength =>
    subst hlength
    induction cs using List.reverseRecOn generalizing n with
    | nil =>
      cases h
      exact ⟨by decide, by simp [hexOfNat]⟩
    | append_singleton cs c ih =>
      obtain ⟨m, d, hm, hd, rfl⟩ := exists_of_foldlM_concat h
      obtain ⟨hlt, hdigit⟩ := digitChar_eq_iff hd
      obtain ⟨hbound, hfront⟩ := ih hm
      have hquotient : (16 * m + d) / 16 = m := by omega
      have hremainder : (16 * m + d) % 16 = d := by omega
      rw [List.length_append, List.length_singleton, hexOfNat, hquotient, hremainder,
        List.append_singleton_inj, hfront, hdigit]
      refine ⟨?_, by simp [or_imp, forall_and]⟩
      rw [Nat.pow_eq] at hbound
      rw [Nat.pow_eq, Nat.pow_succ']
      omega
  next => cases h

end Docbase.Text
