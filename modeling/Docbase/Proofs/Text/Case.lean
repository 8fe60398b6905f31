import Docbase.Text.Search

namespace Docbase.Text

variable {c d : Char} {s t u : String}

theorem isAlpha_iff : c.isAlpha ↔
    (65 ≤ c.toNat ∧ c.toNat ≤ 90) ∨ (97 ≤ c.toNat ∧ c.toNat ≤ 122) := by
  delta Char.isAlpha Char.isUpper Char.isLower
  simp [UInt32.le_iff_toNat_le, ← Char.toNat_val]

theorem not_isAlpha_of_isDigit (h : c.isDigit) : ¬c.isAlpha := by
  rw [isAlpha_iff]
  have hdigit : 48 ≤ c.toNat ∧ c.toNat ≤ 57 := Char.isDigit_iff_toNat.mp h
  omega

theorem toLower_cases (c : Char) : c.toLower = c ∨ c.isAlpha ∧ c.toLower.isAlpha := by
  unfold Char.toLower
  split
  next hupper =>
    right
    simp [isAlpha_iff, ← Char.toNat_val, UInt32.le_iff_toNat_le] at hupper ⊢
    omega
  next => exact .inl rfl

theorem toUpper_cases (c : Char) : c.toUpper = c ∨ c.isAlpha ∧ c.toUpper.isAlpha := by
  unfold Char.toUpper
  split
  next hlower =>
    right
    simp [isAlpha_iff, ← Char.toNat_val, UInt32.le_iff_toNat_le] at hlower ⊢
    omega
  next => exact .inl rfl

theorem eq_iff_of_letters {c' : Char} (hcases : c' = c ∨ c.isAlpha ∧ c'.isAlpha) (h : ¬d.isAlpha) :
    c' = d ↔ c = d := by
  obtain rfl | ⟨hletter, hletter'⟩ := hcases
  · rfl
  · exact iff_of_false (fun heq => h (heq ▸ hletter')) fun heq => h (heq ▸ hletter)

theorem toLower_eq_iff (h : ¬d.isAlpha) : c.toLower = d ↔ c = d :=
  eq_iff_of_letters (toLower_cases c) h

theorem toUpper_eq_iff (h : ¬d.isAlpha) : c.toUpper = d ↔ c = d :=
  eq_iff_of_letters (toUpper_cases c) h

theorem toLower_of_isDigit (h : c.isDigit) : c.toLower = c :=
  (toLower_eq_iff (not_isAlpha_of_isDigit h)).mpr rfl

theorem isDigit_toLower (c : Char) : c.toLower.isDigit = c.isDigit := by
  rw [Bool.eq_iff_iff]
  constructor
  · intro h
    rwa [← (toLower_eq_iff (not_isAlpha_of_isDigit h)).mp rfl] at h
  · intro h
    rwa [toLower_of_isDigit h]

theorem sameIgnoringCase_iff_eq :
    sameIgnoringCase s t ↔ s.toList.map Char.toLower = t.toList.map Char.toLower := by
  rw [sameIgnoringCase, beq_iff_eq]

theorem sameIgnoringCase_refl (s : String) : sameIgnoringCase s s :=
  sameIgnoringCase_iff_eq.mpr rfl

theorem sameIgnoringCase_symm (h : sameIgnoringCase s t) : sameIgnoringCase t s :=
  sameIgnoringCase_iff_eq.mpr (sameIgnoringCase_iff_eq.mp h).symm

theorem sameIgnoringCase_trans (h : sameIgnoringCase s t) (h' : sameIgnoringCase t u) :
    sameIgnoringCase s u :=
  sameIgnoringCase_iff_eq.mpr ((sameIgnoringCase_iff_eq.mp h).trans (sameIgnoringCase_iff_eq.mp h'))

theorem sameIgnoringCase_congr_right (h : sameIgnoringCase t u) :
    sameIgnoringCase s t = sameIgnoringCase s u := by
  rw [sameIgnoringCase, sameIgnoringCase, sameIgnoringCase_iff_eq.mp h]

theorem eq_empty_iff_of_sameIgnoringCase (h : sameIgnoringCase s t) : s = "" ↔ t = "" := by
  have hlength : s.toList.length = t.toList.length := by
    simpa using congrArg List.length (sameIgnoringCase_iff_eq.mp h)
  rw [← String.toList_eq_nil_iff, ← String.toList_eq_nil_iff, ← List.length_eq_zero_iff,
    ← List.length_eq_zero_iff, hlength]

theorem mem_iff_of_sameIgnoringCase (hd : ¬d.isAlpha) (h : sameIgnoringCase s t) :
    d ∈ s.toList ↔ d ∈ t.toList := by
  have hlower (cs : List Char) : d ∈ cs.map Char.toLower ↔ d ∈ cs := by
    simp [toLower_eq_iff hd]
  rw [← hlower s.toList, sameIgnoringCase_iff_eq.mp h, hlower]

end Docbase.Text
