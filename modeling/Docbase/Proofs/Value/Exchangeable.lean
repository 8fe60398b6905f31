import Docbase.Filter.Matching
import Docbase.Proofs.Value.Agreement
import Docbase.Proofs.Value.Compound

namespace Docbase.Value

/-- `Exchangeable v w`: numbers are of one size, values that queries do not look into are equal as
data both ways, documents rank equal, and arrays hold such values place by place. -/
inductive Exchangeable : Value → Value → Prop
  | refl (v : Value) : Exchangeable v v
  | number {v w : Value} {m n : Number} (hm : v.number? = some m) (hn : w.number? = some n)
    (h : m.size? = n.size?) : Exchangeable v w
  | other {v w : Value} (hv : v.valueClass = .other) (hw : w.valueClass = .other) (h : v.same w)
    (h' : w.same v) : Exchangeable v w
  | document {d e : Document} (h : (document d).order (.document e) = .eq) :
    Exchangeable (.document d) (.document e)
  | array {xs ys : List Value} (h : List.Forall₂ Exchangeable xs ys) :
    Exchangeable (.array xs) (.array ys)

/-- Whether every operator takes the value for one thing, and not for a text or its items. -/
def isWhole : Value → Bool
  | .string _ | .array _ => false
  | _ => true

theorem isWhole_of_valueClass {v : Value} (htext : v.valueClass ≠ .text)
    (harray : v.valueClass ≠ .array) : v.isWhole := by
  cases v with
  | string s => exact absurd rfl htext
  | array xs => exact absurd rfl harray
  | _ => rfl

theorem candidates_of_isWhole {v : Value} (h : v.isWhole) : v.candidates = [v] := by
  cases v with
  | array xs => cases h
  | _ => rfl

theorem isStringWith_of_isWhole {v : Value} (h : v.isWhole) (test : List Char → Bool) :
    v.isStringWith test = false := by
  cases v with
  | string s => cases h
  | _ => rfl

theorem holdsAll_of_isWhole {v : Value} (h : v.isWhole) (required : List Value) :
    v.holdsAll required = false := by
  cases v with
  | array xs => cases h
  | _ => rfl

theorem any_congr_of_forall₂ {R : Value → Value → Prop} {xs ys : List Value} {p q : Value → Bool}
    (h : List.Forall₂ R xs ys) (hpq : ∀ x y, R x y → p x = q y) : xs.any p = ys.any q := by
  induction h with
  | nil => rfl
  | cons hxy _ ih => rw [List.any_cons, List.any_cons, hpq _ _ hxy, ih]

namespace Exchangeable

variable {v v' w w' : Value}

theorem order_eq (h : v.Exchangeable w) : v.order w = .eq := by
  induction w using compoundInduction generalizing v with
  | plain w hw =>
    cases h with
    | refl => exact Std.ReflCmp.compare_self
    | number hm hn h =>
      rw [order_of_number? hm hn, Number.order_eq, Std.compare_eq_iff_eq]
      exact h
    | other hv hw => exact order_of_other hv hw
    | document => cases hw
    | array => cases hw
  | array ys ih =>
    cases h with
    | refl => exact Std.ReflCmp.compare_self
    | number _ hn => cases hn
    | other _ hw => cases hw
    | array h => exact array_order_eq_iff.mpr (forall₂_imp_of_mem_right (fun y hy _ => ih y hy) h)
  | document d =>
    cases h with
    | refl => exact Std.ReflCmp.compare_self
    | number _ hn => cases hn
    | other _ hw => cases hw
    | document h => exact h

theorem valueClass_eq (h : v.Exchangeable w) : v.valueClass = w.valueClass :=
  valueClass_eq_of_order_eq h.order_eq

theorem shape (h : v.Exchangeable w) :
    (∃ xs ys, v = .array xs ∧ w = .array ys ∧ List.Forall₂ Exchangeable xs ys) ∨
      (∃ s, v = .string s ∧ w = .string s) ∨ (v.isWhole ∧ w.isWhole) := by
  have hwhole {u : Value} {c : Class} (hu : u.valueClass = c) (hc : c ≠ .text ∧ c ≠ .array) :
      u.isWhole := isWhole_of_valueClass (hu ▸ hc.1) (hu ▸ hc.2)
  cases h with
  | refl =>
    cases v with
    | array xs => exact .inl ⟨xs, xs, rfl, rfl, List.forall₂_same.mpr fun x _ => refl x⟩
    | string s => exact .inr (.inl ⟨s, rfl, rfl⟩)
    | _ => exact .inr (.inr ⟨rfl, rfl⟩)
  | number hm hn =>
    exact .inr (.inr ⟨hwhole (valueClass_of_number? hm) (by decide),
      hwhole (valueClass_of_number? hn) (by decide)⟩)
  | other hv hw => exact .inr (.inr ⟨hwhole hv (by decide), hwhole hw (by decide)⟩)
  | document => exact .inr (.inr ⟨rfl, rfl⟩)
  | array h => exact .inl ⟨_, _, rfl, rfl, h⟩

theorem eq_null_iff (h : v.Exchangeable w) : v = .null ↔ w = .null := by
  constructor
  · rintro rfl
    cases h with
    | refl => rfl
    | number hm => cases hm
    | other hv => cases hv
  · rintro rfl
    cases h with
    | refl => rfl
    | number _ hn => cases hn
    | other _ hw => cases hw

theorem order_congr (hv : v.Exchangeable v') (hw : w.Exchangeable w') :
    v.order w = v'.order w' :=
  (Std.TransCmp.congr_left hv.order_eq).trans (Std.TransCmp.congr_right hw.order_eq)

theorem same_congr (hv : v.Exchangeable v') (hw : w.Exchangeable w') (hclass : v.valueClass = .other)
    (hclass' : w.valueClass = .other) : v.same w ↔ v'.same w' := by
  have hboth {u u' : Value} (h : u.Exchangeable u') (hu : u.valueClass = .other) :
      u = u' ∨ (u.same u' ∧ u'.same u) := by
    cases h with
    | refl => exact .inl rfl
    | number hm => cases (valueClass_of_number? hm).symm.trans hu
    | other _ _ h h' => exact .inr ⟨h, h'⟩
    | document | array => cases hu
  have hleft : v.same w ↔ v'.same w := by
    obtain rfl | ⟨h, h'⟩ := hboth hv hclass
    · exact .rfl
    · exact ⟨same_trans v' v w h', same_trans v v' w h⟩
  have hright : v'.same w ↔ v'.same w' := by
    obtain rfl | ⟨h, h'⟩ := hboth hw hclass'
    · exact .rfl
    · exact ⟨(same_trans v' w w' · h), (same_trans v' w' w · h')⟩
  exact hleft.trans hright

theorem agrees_congr (hv : v.Exchangeable v') (hw : w.Exchangeable w') :
    v.agrees w = v'.agrees w' := by
  have hties : v.TiesWith w ↔ v'.TiesWith w' := by
    unfold TiesWith
    rw [isNaN_eq_of_order_eq hv.order_eq, isNaN_eq_of_order_eq hw.order_eq, ← hv.valueClass_eq,
      ← hw.valueClass_eq]
    refine or_congr_right (and_congr_right fun hclass => and_congr_right fun hclass' => ?_)
    exact not_congr (hv.same_congr hw hclass hclass')
  rw [Bool.eq_iff_iff, agrees_iff_order_eq, agrees_iff_order_eq, hv.order_congr hw, hties]

theorem compareWithin?_congr (hv : v.Exchangeable v') (hw : w.Exchangeable w') :
    v.compareWithin? w = v'.compareWithin? w' := by
  have hcomparable : v.Comparable w ↔ v'.Comparable w' := by
    simp only [comparable_iff, hv.valueClass_eq, hw.valueClass_eq,
      isNaN_eq_of_order_eq hv.order_eq, isNaN_eq_of_order_eq hw.order_eq]
  refine Option.ext fun o => ?_
  rw [compareWithin?_eq_some_iff, compareWithin?_eq_some_iff, hcomparable, hv.order_congr hw]

theorem isStringWith_congr (h : v.Exchangeable w) (test : List Char → Bool) :
    v.isStringWith test = w.isStringWith test := by
  obtain ⟨xs, ys, rfl, rfl, -⟩ | ⟨s, rfl, rfl⟩ | ⟨hv, hw⟩ := h.shape
  · rfl
  · rfl
  · rw [isStringWith_of_isWhole hv, isStringWith_of_isWhole hw]

theorem candidates (h : v.Exchangeable w) :
    List.Forall₂ Exchangeable v.candidates w.candidates := by
  obtain ⟨xs, ys, rfl, rfl, hitems⟩ | ⟨s, rfl, rfl⟩ | ⟨hv, hw⟩ := h.shape
  · exact .cons h hitems
  · exact .cons h .nil
  · rw [candidates_of_isWhole hv, candidates_of_isWhole hw]
    exact .cons h .nil

theorem holdsAll_congr (h : v.Exchangeable w) {required required' : List Value}
    (hrequired : List.Forall₂ Exchangeable required required') :
    v.holdsAll required = w.holdsAll required' := by
  obtain ⟨xs, ys, rfl, rfl, hitems⟩ | ⟨s, rfl, rfl⟩ | ⟨hv, hw⟩ := h.shape
  · have hmissing : (required.any fun r => !xs.any (·.agrees r)) =
        required'.any fun r => !ys.any (·.agrees r) :=
      any_congr_of_forall₂ hrequired fun r r' hr => by
        rw [any_congr_of_forall₂ hitems fun x y hxy => hxy.agrees_congr hr]
    rw [holdsAll, holdsAll, List.all_eq_not_any_not, List.all_eq_not_any_not, hmissing]
  · rfl
  · rw [holdsAll_of_isWhole hv, holdsAll_of_isWhole hw]

end Exchangeable

end Docbase.Value
