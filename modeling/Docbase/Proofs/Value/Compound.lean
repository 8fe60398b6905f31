import Docbase.Proofs.Except
import Docbase.Proofs.Value.Order
import Mathlib.Data.List.Forall2

namespace Docbase

def Document.values (d : Document) : List Value := d.map Prod.snd

theorem Document.sizeOf_lt_of_mem_values {d : Document} {v : Value} (h : v ∈ d.values) :
    sizeOf v < sizeOf d := by
  obtain ⟨⟨k, w⟩, hmem, rfl⟩ := List.mem_map.mp h
  have hsize := List.sizeOf_lt_of_mem hmem
  rw [Prod.mk.sizeOf_spec] at hsize
  change sizeOf w < sizeOf d
  omega

theorem forall₂_imp_of_mem_right {α β : Type} {R S : α → β → Prop} {xs : List α} {ys : List β}
    (h : ∀ y ∈ ys, ∀ x, R x y → S x y) (hR : List.Forall₂ R xs ys) : List.Forall₂ S xs ys := by
  rw [List.forall₂_iff_zip] at hR ⊢
  exact ⟨hR.1, fun hxy => h _ (List.of_mem_zip hxy).2 _ (hR.2 hxy)⟩

namespace Value

@[elab_as_elim]
theorem compoundInduction {motive : Value → Prop} (plain : ∀ v, v.isPlain → motive v)
    (array : ∀ xs, (∀ x ∈ xs, motive x) → motive (.array xs))
    (document : ∀ d : Document, (∀ w ∈ d.values, motive w) → motive (.document d))
    (v : Value) : motive v := by
  cases v with
  | array xs => exact array xs fun x _ => compoundInduction plain array document x
  | document d => exact document d fun w _ => compoundInduction plain array document w
  | _ => exact plain _ rfl
termination_by sizeOf v
decreasing_by
  · have hsize := List.sizeOf_lt_of_mem ‹x ∈ xs›
    rw [Value.array.sizeOf_spec]
    omega
  · have hsize := Document.sizeOf_lt_of_mem_values ‹w ∈ Document.values d›
    rw [Value.document.sizeOf_spec]
    omega

variable {xs ys : List Value} {d e : Document}

theorem orderItems_eq_iff_forall₂ :
    orderItems xs ys = .eq ↔ List.Forall₂ (fun x y => x.order y = .eq) xs ys := by
  induction xs generalizing ys with
  | nil => cases ys <;> simp [orderItems]
  | cons x xs ih =>
    cases ys with
    | nil => simp [orderItems]
    | cons y ys => rw [orderItems, Ordering.then_eq_eq, List.forall₂_cons, ih]

theorem orderFields_eq_iff_forall₂ : orderFields d e = .eq ↔
    d.keys = e.keys ∧ List.Forall₂ (fun v w => v.order w = .eq) d.values e.values := by
  induction d generalizing e with
  | nil => cases e <;> simp [orderFields, Document.keys, Document.values]
  | cons field d ih =>
    obtain ⟨k, v⟩ := field
    cases e with
    | nil => simp [orderFields, Document.keys]
    | cons field' e =>
      obtain ⟨l, w⟩ := field'
      rw [orderFields, Ordering.then_eq_eq, Ordering.then_eq_eq, ih, Std.compare_eq_iff_eq]
      simp only [Document.keys, Document.values, List.map_cons, List.cons.injEq,
        List.forall₂_cons]
      tauto

theorem array_order_eq_iff :
    (array xs).order (.array ys) = .eq ↔ List.Forall₂ (fun x y => x.order y = .eq) xs ys := by
  rw [order, orderItems_eq_iff_forall₂]

theorem document_order_eq_iff : (document d).order (.document e) = .eq ↔
    d.keys = e.keys ∧ List.Forall₂ (fun v w => v.order w = .eq) d.values e.values := by
  rw [order, orderFields_eq_iff_forall₂]

theorem exists_of_order_array_eq {v : Value} (h : v.order (.array ys) = .eq) :
    ∃ xs, v = .array xs ∧ List.Forall₂ (fun x y => x.order y = .eq) xs ys := by
  obtain ⟨xs, rfl⟩ := exists_of_rank_eq_array (rank_eq_of_order_eq h)
  exact ⟨xs, rfl, array_order_eq_iff.mp h⟩

theorem exists_of_order_document_eq {v : Value} (h : v.order (.document e) = .eq) :
    ∃ d : Document, v = .document d ∧ d.keys = e.keys ∧
      List.Forall₂ (fun v w => v.order w = .eq) d.values e.values := by
  obtain ⟨d, rfl⟩ := exists_of_rank_eq_document (rank_eq_of_order_eq h)
  exact ⟨d, rfl, document_order_eq_iff.mp h⟩

/-- No item of an array ranks equal with what the array corresponds to item by item. -/
theorem order_ne_of_mem {S : Value → Value → Prop}
    (hS : ∀ xs w, S (.array xs) w → ∃ ys, w = .array ys ∧ ∀ x ∈ xs, ∃ y ∈ ys, S x y)
    (xs : List Value) (w x : Value) (h : S (.array xs) w) (hx : x ∈ xs) : x.order w ≠ .eq := by
  intro horder
  obtain ⟨ys, rfl, hys⟩ := hS xs w h
  obtain ⟨zs, rfl, hzs⟩ := exists_of_order_array_eq horder
  obtain ⟨y, hy, hxy⟩ := hys _ hx
  obtain ⟨z, hz, hzy⟩ := exists_of_mem_forall₂ hzs hy
  -- By descent: `y` is an item of an array of the same kind, which is smaller.
  exact order_ne_of_mem hS zs y z hxy hz hzy
termination_by sizeOf xs
decreasing_by
  have hsize := List.sizeOf_lt_of_mem hx
  simp only [array.sizeOf_spec] at hsize
  omega

end Value

end Docbase
