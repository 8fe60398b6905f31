import Docbase.Number.Reading
import Docbase.Proofs.Number.Width
import Docbase.Proofs.Text.Separator

namespace Docbase.Number

def decimal (n : Int) : List Char :=
  if n < 0 then '-' :: Nat.toDigits 10 n.natAbs else Nat.toDigits 10 n.natAbs

theorem toList_toString (n : Int) : (toString n).toList = decimal n := by
  cases n with
  | ofNat m => exact Nat.toList_repr
  | negSucc m =>
    change ("-" ++ (m + 1).repr).toList = _
    rw [String.toList_append, Nat.toList_repr, decimal, if_pos (Int.negSucc_lt_zero m)]
    rfl

theorem isDigit_of_mem_toDigits {c : Char} {n : Nat} (h : c ∈ Nat.toDigits 10 n) : c.isDigit :=
  Nat.isDigit_of_mem_toDigits (by decide) (by decide) h

theorem numeric_toDigits (marks : List Char) (n : Nat) :
    Text.Numeric marks (Nat.toDigits 10 n) :=
  .of_isDigit fun _ => isDigit_of_mem_toDigits

theorem numeric_decimal (n : Int) : Text.Numeric ['-'] (decimal n) := by
  unfold decimal
  split
  · exact .mark (by simp) (numeric_toDigits _ _)
  · exact numeric_toDigits _ _

theorem natOfDigits?_toDigits (n : Nat) : natOfDigits? (Nat.toDigits 10 n) = some n := by
  have hall : (Nat.toDigits 10 n).all Char.isDigit :=
    List.all_eq_true.mpr fun _ hc => isDigit_of_mem_toDigits hc
  have hvalue := Nat.ofDigitChars_ten_toDigits (n := n)
  rw [Nat.ofDigitChars_eq_foldl] at hvalue
  simp only [natOfDigits?, hall, Nat.toDigits_ne_nil, ne_eq, not_false_eq_true, decide_true,
    Bool.and_true, if_true]
  exact congrArg some hvalue

theorem int64OfText?_decimal (n : Int64) : int64OfText? (decimal n.toInt) = some n := by
  by_cases hn : n.toInt < 0
  · have habs : -(n.toInt.natAbs : Int) = n.toInt := by omega
    rw [decimal, if_pos hn, int64OfText?, natOfDigits?_toDigits]
    simp only [Option.bind_eq_bind, Option.bind_some, habs, int64?_toInt]
  · have habs : (n.toInt.natAbs : Int) = n.toInt := by omega
    rw [decimal, if_neg hn, int64OfText?, natOfDigits?_toDigits]
    · simp only [Option.bind_eq_bind, Option.bind_some, habs, int64?_toInt]
    · intro cs hcs
      have hdigit := isDigit_of_mem_toDigits (n := n.toInt.natAbs) (c := '-') (by simp [hcs])
      exact absurd hdigit (by decide)

theorem decimal_ne_nil (n : Int) : decimal n ≠ [] := by
  unfold decimal
  split
  · exact List.cons_ne_nil _ _
  · exact Nat.toDigits_ne_nil

theorem of_decimal_eq_cons {n : Int} {c : Char} {cs : List Char} (h : decimal n = c :: cs) :
    (c = '-' ∨ c.isDigit) ∧ cs.all Char.isDigit := by
  have hdigits : ∀ d ∈ Nat.toDigits 10 n.natAbs, d.isDigit := fun _ => isDigit_of_mem_toDigits
  unfold decimal at h
  split at h
  · obtain ⟨rfl, rfl⟩ := List.cons_eq_cons.mp h
    exact ⟨.inl rfl, List.all_eq_true.mpr hdigits⟩
  · rw [h] at hdigits
    exact ⟨.inr (hdigits c (by simp)), List.all_eq_true.mpr fun d hd => hdigits d (by simp [hd])⟩

theorem toDigits_injective {k l : Nat} (h : Nat.toDigits 10 k = Nat.toDigits 10 l) : k = l := by
  have hread := natOfDigits?_toDigits k
  rw [h, natOfDigits?_toDigits] at hread
  exact (Option.some.inj hread).symm

theorem decimal_injective {m n : Int} (h : decimal m = decimal n) : m = n := by
  have hminus : ∀ k l : Nat, '-' :: Nat.toDigits 10 k ≠ Nat.toDigits 10 l := by
    intro k l hkl
    have hdigit := isDigit_of_mem_toDigits (n := l) (c := '-') (by simp [← hkl])
    exact absurd hdigit (by decide)
  unfold decimal at h
  split at h <;> split at h
  · have hnat := toDigits_injective (List.cons.inj h).2
    omega
  · exact absurd h (hminus _ _)
  · exact absurd h.symm (hminus _ _)
  · have hnat := toDigits_injective h
    omega

end Docbase.Number
