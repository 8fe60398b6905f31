import Docbase.Proofs.Value.Exchangeable

namespace Docbase.Value

variable {v w : Value}

theorem cases_of_same (h : v.same w) : v = w ∨
    (∃ x y, v = .double x ∧ w = .double y ∧ x.numEq y) ∨
    (∃ xs ys, v = .array xs ∧ w = .array ys) ∨ (∃ xs ys, v = .document xs ∧ w = .document ys) ∨
    ∃ source xs ys, v = .scopedCode source xs ∧ w = .scopedCode source ys := by
  cases v with
  | double x =>
    obtain ⟨y, rfl, hxy⟩ := same_double.mp h
    exact .inr (.inl ⟨x, y, rfl, rfl, hxy⟩)
  | array xs =>
    obtain ⟨ys, rfl, -⟩ := same_array.mp h
    exact .inr (.inr (.inl ⟨xs, ys, rfl, rfl⟩))
  | document xs =>
    obtain ⟨ys, rfl, -⟩ := same_document.mp h
    exact .inr (.inr (.inr (.inl ⟨xs, ys, rfl, rfl⟩)))
  | scopedCode source xs =>
    obtain ⟨ys, rfl, -⟩ := same_scopedCode.mp h
    exact .inr (.inr (.inr (.inr ⟨source, xs, ys, rfl, rfl⟩)))
  | _ => exact .inl ((same_of_isAtom rfl).mp h)

/-- Equal as data both ways, and equal in the order, which looks at keys in their places. -/
structure Alike (v w : Value) : Prop where
  same : v.same w
  same' : w.same v
  order_eq : v.order w = .eq

namespace Alike

theorem array_cons {x y : Value} {xs ys : List Value}
    (h : Alike (.array (x :: xs)) (.array (y :: ys))) :
    Alike x y ∧ Alike (.array xs) (.array ys) := by
  obtain ⟨hsame, hsame', horder⟩ := h
  simp only [Value.same, Value.sameItems, Bool.and_eq_true, order, orderItems, Ordering.then_eq_eq] at *
  exact ⟨⟨hsame.1, hsame'.1, horder.1⟩, ⟨hsame.2, hsame'.2, horder.2⟩⟩

theorem items {xs ys : List Value} (h : Alike (.array xs) (.array ys)) :
    List.Forall₂ Alike xs ys := by
  induction xs generalizing ys with
  | nil =>
    cases ys with
    | nil => exact .nil
    | cons y ys => cases h.same
  | cons x xs ih =>
    cases ys with
    | nil => cases h.same
    | cons y ys =>
      obtain ⟨hx, hxs⟩ := h.array_cons
      exact .cons hx (ih hxs)

theorem exchangeable (h : v.Alike w) : v.Exchangeable w := by
  induction w using compoundInduction generalizing v with
  | plain w hw =>
    obtain rfl | ⟨x, y, rfl, rfl, hxy⟩ | ⟨xs, ys, rfl, rfl⟩ | ⟨d, e, rfl, rfl⟩ |
      ⟨source, d, e, rfl, rfl⟩ := cases_of_same h.same
    · exact .refl v
    · rw [numEq_iff] at hxy
      exact .number rfl rfl (by simp [Number.size?, hxy])
    · cases hw
    · cases hw
    · exact .other rfl rfl h.same h.same'
  | array ys ih =>
    obtain ⟨xs, rfl, -⟩ := exists_of_order_array_eq h.order_eq
    exact .array (forall₂_imp_of_mem_right (fun y hy _ => ih y hy) h.items)
  | document e =>
    obtain ⟨d, rfl, -⟩ := exists_of_order_document_eq h.order_eq
    exact .document h.order_eq

end Alike

end Docbase.Value
