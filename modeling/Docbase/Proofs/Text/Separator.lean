namespace Docbase.Text

theorem eq_of_append_cons {α : Type} {c : α} {front front' rest rest' : List α}
    (h : front ++ c :: rest = front' ++ c :: rest') (hfront : c ∉ front) (hfront' : c ∉ front') :
    front = front' ∧ rest = rest' := by
  induction front generalizing front' with
  | nil =>
    cases front' with
    | nil => exact ⟨rfl, (List.cons.inj h).2⟩
    | cons d front' =>
      obtain ⟨rfl, -⟩ := List.cons_eq_cons.mp h
      simp at hfront'
  | cons d front ih =>
    cases front' with
    | nil =>
      obtain ⟨rfl, -⟩ := List.cons_eq_cons.mp h
      simp at hfront
    | cons d' front' =>
      obtain ⟨rfl, htail⟩ := List.cons_eq_cons.mp h
      rw [List.mem_cons, not_or] at hfront hfront'
      obtain ⟨rfl, rfl⟩ := ih htail hfront.2 hfront'.2
      exact ⟨rfl, rfl⟩

def Numeric (marks cs : List Char) : Prop := ∀ c ∈ cs, c.isDigit ∨ c ∈ marks

namespace Numeric

variable {marks cs ds : List Char}

theorem not_mem (h : Numeric marks cs) {c : Char} (hc : c.isDigit = false ∧ c ∉ marks) :
    c ∉ cs := by
  intro hmem
  obtain hdigit | hmark := h c hmem
  · rw [hc.1] at hdigit
    cases hdigit
  · exact hc.2 hmark

theorem of_isDigit (h : ∀ c ∈ cs, c.isDigit) : Numeric marks cs := fun c hc => .inl (h c hc)

theorem append (hcs : Numeric marks cs) (hds : Numeric marks ds) : Numeric marks (cs ++ ds) :=
  List.forall_mem_append.mpr ⟨hcs, hds⟩

theorem mark {c : Char} (hc : c ∈ marks) (hcs : Numeric marks cs) : Numeric marks (c :: cs) :=
  List.forall_mem_cons.mpr ⟨.inr hc, hcs⟩

end Numeric

end Docbase.Text
