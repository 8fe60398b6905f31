import Docbase.Text.Search
import Mathlib.Data.List.Infix

namespace Docbase.Text

theorem occursIn_iff {needle cs : List Char} : occursIn needle cs ↔ needle <:+: cs := by
  induction cs with
  | nil => simp [occursIn, List.isEmpty_iff]
  | cons c cs ih => rw [occursIn, Bool.or_eq_true, List.isPrefixOf_iff_prefix, ih,
      List.infix_cons_iff]

variable {word put cs : List Char} {c : Char}

theorem replaceFrom_skip (n : Nat) : replaceFrom word put n cs = replaceAll word put (cs.drop n) := by
  induction cs generalizing n with
  | nil => cases n <;> rfl
  | cons a cs ih =>
    cases n with
    | zero => rfl
    | succ n => exact ih n

theorem mem_replaceFrom {a : Char} {n : Nat} (h : a ∈ replaceFrom word put n cs) :
    a ∈ put ∨ a ∈ cs := by
  induction cs generalizing n with
  | nil => simp [replaceFrom] at h
  | cons b cs ih =>
    cases n with
    | succ n => exact (ih h).imp_right (List.mem_cons_of_mem b)
    | zero =>
      rw [replaceFrom] at h
      split at h
      · obtain hput | hcs := List.mem_append.mp h
        · exact .inl hput
        · exact (ih hcs).imp_right (List.mem_cons_of_mem b)
      · obtain rfl | hcs := List.mem_cons.mp h
        · exact .inr (List.mem_cons_self ..)
        · exact (ih hcs).imp_right (List.mem_cons_of_mem b)

theorem replaceAll_append (h : word ≠ []) :
    replaceAll word put (word ++ cs) = put ++ replaceAll word put cs := by
  cases word with
  | nil => exact absurd rfl h
  | cons a word =>
    have hstarts : (a :: word).isPrefixOf (a :: (word ++ cs)) := by
      simp [List.isPrefixOf_iff_prefix]
    rw [List.cons_append, replaceAll, replaceFrom, if_pos hstarts, replaceFrom_skip]
    simp

theorem replaceAll_cons_of_not_starts {a : Char} (h : ¬ word <+: a :: cs) :
    replaceAll word put (a :: cs) = a :: replaceAll word put cs := by
  rw [replaceAll, replaceFrom, if_neg (mt List.isPrefixOf_iff_prefix.mp h)]
  rfl

theorem replaceAll_cons_self : replaceAll [c] put (c :: cs) = put ++ replaceAll [c] put cs :=
  replaceAll_append (List.cons_ne_nil c [])

theorem replaceAll_cons_of_ne {a : Char} (h : a ≠ c) :
    replaceAll [c] put (a :: cs) = a :: replaceAll [c] put cs :=
  replaceAll_cons_of_not_starts (by simpa using Ne.symm h)

theorem replaceAll_replaceAll_of_not_mem (hword : word ≠ []) (h : c ∉ cs) :
    replaceAll [c] word (replaceAll word [c] cs) = cs := by
  generalize hn : cs.length = n
  induction n using Nat.strong_induction_on generalizing cs with
  | _ n ih =>
    cases cs with
    | nil => rfl
    | cons a cs =>
      by_cases hstarts : word <+: a :: cs
      · obtain ⟨rest, hrest⟩ := hstarts
        rw [← hrest] at h hn ⊢
        have hlength : rest.length < n := by
          have := List.length_pos_iff.mpr hword
          rw [List.length_append] at hn
          omega
        have hmem : c ∉ rest := fun hmem => h (List.mem_append_right _ hmem)
        rw [replaceAll_append hword, List.singleton_append, replaceAll_cons_self,
          ih _ hlength hmem rfl]
      · obtain ⟨hc, hmem⟩ := not_or.mp (mt List.mem_cons.mpr h)
        rw [replaceAll_cons_of_not_starts hstarts, replaceAll_cons_of_ne (Ne.symm hc),
          ih _ (hn ▸ Nat.lt_succ_self _) hmem rfl]

/-- Whether, with the character replaced by the word, the word stands in a place where the character
did not. -/
def Misreads (c : Char) (word cs : List Char) : Prop :=
  ∃ a rest, a :: rest <:+ cs ∧ a ≠ c ∧ word <+: replaceAll [c] word (a :: rest)

theorem misreads_cons_self : Misreads c word (c :: cs) ↔ Misreads c word cs := by
  constructor
  · rintro ⟨a, rest, hsuffix, ha, hstarts⟩
    obtain heq | hsuffix := List.suffix_cons_iff.mp hsuffix
    · cases heq
      exact absurd rfl ha
    · exact ⟨a, rest, hsuffix, ha, hstarts⟩
  · rintro ⟨a, rest, hsuffix, ha, hstarts⟩
    exact ⟨a, rest, hsuffix.trans (List.suffix_cons c cs), ha, hstarts⟩

theorem misreads_cons_of_ne {a : Char} (h : a ≠ c) : Misreads c word (a :: cs) ↔
    word <+: replaceAll [c] word (a :: cs) ∨ Misreads c word cs := by
  constructor
  · rintro ⟨b, rest, hsuffix, hb, hstarts⟩
    obtain heq | hsuffix := List.suffix_cons_iff.mp hsuffix
    · exact .inl (heq ▸ hstarts)
    · exact .inr ⟨b, rest, hsuffix, hb, hstarts⟩
  · rintro (hstarts | ⟨b, rest, hsuffix, hb, hstarts⟩)
    · exact ⟨a, cs, List.suffix_rfl, h, hstarts⟩
    · exact ⟨b, rest, hsuffix.trans (List.suffix_cons a cs), hb, hstarts⟩

theorem replaceAll_replaceAll_iff (hword : word ≠ []) :
    replaceAll word [c] (replaceAll [c] word cs) = cs ↔ ¬ Misreads c word cs := by
  induction cs with
  | nil => simp [Misreads, replaceAll, replaceFrom]
  | cons a cs ih =>
    by_cases ha : a = c
    · subst ha
      rw [replaceAll_cons_self, replaceAll_append hword, misreads_cons_self, ← ih]
      simp
    · rw [misreads_cons_of_ne ha, not_or, ← ih]
      by_cases hstarts : word <+: replaceAll [c] word (a :: cs)
      · obtain ⟨rest, hrest⟩ := hstarts
        rw [← hrest, replaceAll_append hword]
        simp [Ne.symm ha]
      · rw [replaceAll_cons_of_ne ha] at hstarts ⊢
        rw [replaceAll_cons_of_not_starts hstarts]
        simp [hstarts]

end Docbase.Text
