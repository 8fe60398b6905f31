import Docbase.Proofs.Text.Separator
import Mathlib.Data.List.Basic

namespace Docbase.Text

/-- How many brackets are open, and whether quotation marks are. -/
structure Nesting where
  depth : Nat
  quoted : Bool

def opening : List Char := ['(', '[', '\x7b']

def closing : List Char := [')', ']', '\x7d']

/-- One character on. A comma outside all brackets is too much, and so is a bracket that closes
nothing. -/
def Nesting.step (n : Nesting) (c : Char) : Option Nesting :=
  if n.quoted then some ⟨n.depth, c ≠ '"'⟩
  else if c = '"' then some ⟨n.depth, true⟩
  else if c ∈ opening then some ⟨n.depth + 1, false⟩
  else if c ∈ closing then if n.depth = 0 then none else some ⟨n.depth - 1, false⟩
  else if c = ',' && n.depth = 0 then none
  else some n

/-- `Closed depth cs`: from inside so many brackets the text comes back there. -/
def Closed (depth : Nat) (cs : List Char) : Prop :=
  cs.foldlM Nesting.step ⟨depth, false⟩ = some ⟨depth, false⟩

def isPlain (c : Char) : Bool := c ≠ '"' && c ∉ opening && c ∉ closing && c ≠ ','

namespace Closed

variable {depth : Nat} {cs ds r s : List Char}

theorem nil : Closed depth [] := rfl

theorem append (hcs : Closed depth cs) (hds : Closed depth ds) : Closed depth (cs ++ ds) := by
  rw [Closed, List.foldlM_append, hcs]
  exact hds

theorem plain (h : cs.all isPlain) : Closed depth cs := by
  induction cs with
  | nil => exact nil
  | cons c cs ih =>
    rw [List.all_cons, Bool.and_eq_true] at h
    obtain ⟨hc, hcs⟩ := h
    simp only [isPlain, Bool.and_eq_true, decide_eq_true_eq] at hc
    obtain ⟨⟨⟨hquote, hopening⟩, hclosing⟩, hcomma⟩ := hc
    have hstep : Nesting.step ⟨depth, false⟩ c = some ⟨depth, false⟩ := by
      simp [Nesting.step, hquote, hopening, hclosing, hcomma]
    rw [Closed, List.foldlM_cons, hstep]
    exact ih hcs

theorem comma : Closed (depth + 1) [','] := rfl

theorem foldlM_quoted (h : '"' ∉ cs) :
    cs.foldlM Nesting.step ⟨depth, true⟩ = some ⟨depth, true⟩ := by
  induction cs with
  | nil => rfl
  | cons c cs ih =>
    rw [List.mem_cons, not_or] at h
    have hstep : Nesting.step ⟨depth, true⟩ c = some ⟨depth, true⟩ := by
      simp [Nesting.step, Ne.symm h.1]
    rw [List.foldlM_cons, hstep]
    exact ih h.2

theorem quoted (h : '"' ∉ cs) : Closed depth ('"' :: cs ++ ['"']) := by
  have hopen : Nesting.step ⟨depth, false⟩ '"' = some ⟨depth, true⟩ := rfl
  rw [Closed, List.cons_append, List.foldlM_cons, hopen, Option.bind_eq_bind, Option.bind_some,
    List.foldlM_append, foldlM_quoted h]
  rfl

theorem bracketed {o c : Char} (ho : o ∈ opening) (hc : c ∈ closing)
    (h : Closed (depth + 1) cs) : Closed depth (o :: cs ++ [c]) := by
  have hopen : Nesting.step ⟨depth, false⟩ o = some ⟨depth + 1, false⟩ := by
    have hquote : o ≠ '"' := by
      rintro rfl
      exact absurd ho (by decide)
    simp [Nesting.step, hquote, ho]
  have hclose : Nesting.step ⟨depth + 1, false⟩ c = some ⟨depth, false⟩ := by
    have hquote : c ≠ '"' := by
      rintro rfl
      exact absurd hc (by decide)
    have hopening : c ∉ opening := by
      intro hmem
      simp only [closing, List.mem_cons, List.not_mem_nil, or_false] at hc
      obtain rfl | rfl | rfl := hc <;> exact absurd hmem (by decide)
    simp [Nesting.step, hquote, hopening, hc]
  rw [Closed, List.cons_append, List.foldlM_cons, hopen, Option.bind_eq_bind, Option.bind_some,
    List.foldlM_append, h, Option.bind_eq_bind, Option.bind_some, List.foldlM_cons, hclose]
  rfl

/-- Whether the rest of a list of texts begins with a comma, if there is a rest. -/
def Ends (r : List Char) : Prop := r = [] ∨ ∃ rest, r = ',' :: rest

theorem eq_of_append (hcs : Closed 0 cs) (hds : Closed 0 ds) (hr : Ends r) (hs : Ends s)
    (h : cs ++ r = ds ++ s) : cs = ds ∧ r = s := by
  -- if one were longer, it would go on with the comma that follows the other
  have hlonger : ∀ {cs ds r : List Char} {t : List Char}, Closed 0 cs → Closed 0 (cs ++ t) →
      Ends r → r = t ++ ds → t = [] := by
    intro cs ds r t hcs hcst hr hrt
    cases t with
    | nil => rfl
    | cons c t =>
      obtain rfl | ⟨rest, rfl⟩ := hr
      · cases hrt
      · obtain ⟨rfl, -⟩ := List.cons_eq_cons.mp hrt
        rw [Closed, List.foldlM_append, hcs] at hcst
        cases hcst
  obtain ⟨t, rfl, ht⟩ | ⟨t, rfl, ht⟩ := List.append_eq_append_iff.mp h
  · obtain rfl := hlonger hcs hds hr ht
    simpa using ht
  · obtain rfl := hlonger hds hcs hs ht
    simpa using ht.symm

end Closed

def joined (pieces : List (List Char)) : List Char := List.intercalate [',', ' '] pieces

theorem Closed.joined {depth : Nat} {pieces : List (List Char)}
    (h : ∀ piece ∈ pieces, Closed (depth + 1) piece) : Closed (depth + 1) (joined pieces) := by
  induction pieces with
  | nil => exact nil
  | cons piece pieces ih =>
    have hfirst := h piece (by simp)
    have hrest := ih fun p hp => h p (by simp [hp])
    cases pieces with
    | nil => rwa [Text.joined, List.intercalate_singleton]
    | cons next pieces =>
      rw [Text.joined, List.intercalate_cons_cons]
      exact (hfirst.append (comma.append (plain (by decide)))).append hrest

theorem joined_injective {pieces pieces' : List (List Char)}
    (h : ∀ piece ∈ pieces, Closed 0 piece ∧ piece ≠ [])
    (h' : ∀ piece ∈ pieces', Closed 0 piece ∧ piece ≠ [])
    (heq : joined pieces = joined pieces') : pieces = pieces' := by
  have hcons : ∀ p ps, ∃ r, joined (p :: ps) = p ++ r ∧ Closed.Ends r ∧
      ((r = [] ∧ ps = []) ∨ ∃ q qs, ps = q :: qs ∧ r = ',' :: ' ' :: joined ps) := by
    intro p ps
    cases ps with
    | nil => exact ⟨[], by rw [joined, List.intercalate_singleton, List.append_nil], .inl rfl,
        .inl ⟨rfl, rfl⟩⟩
    | cons q qs =>
      refine ⟨',' :: ' ' :: joined (q :: qs), ?_, .inr ⟨_, rfl⟩, .inr ⟨q, qs, rfl, rfl⟩⟩
      rw [joined, List.intercalate_cons_cons, List.append_assoc]
      rfl
  induction pieces generalizing pieces' with
  | nil =>
    cases pieces' with
    | nil => rfl
    | cons p ps =>
      obtain ⟨r, hr, -⟩ := hcons p ps
      rw [hr] at heq
      exact absurd (List.append_eq_nil_iff.mp heq.symm).1 (h' p (by simp)).2
  | cons p ps ih =>
    cases pieces' with
    | nil =>
      obtain ⟨r, hr, -⟩ := hcons p ps
      rw [hr] at heq
      exact absurd (List.append_eq_nil_iff.mp heq).1 (h p (by simp)).2
    | cons p' ps' =>
      obtain ⟨r, hr, hends, hcases⟩ := hcons p ps
      obtain ⟨r', hr', hends', hcases'⟩ := hcons p' ps'
      rw [hr, hr'] at heq
      obtain ⟨rfl, rfl⟩ := Closed.eq_of_append (h p (by simp)).1 (h' p' (by simp)).1 hends hends' heq
      obtain ⟨rfl, rfl⟩ | ⟨q, qs, hps, rfl⟩ := hcases
      · obtain ⟨-, rfl⟩ | ⟨q, qs, -, hnil⟩ := hcases'
        · rfl
        · cases hnil
      · obtain ⟨hnil, -⟩ | ⟨q', qs', -, hrest⟩ := hcases'
        · cases hnil
        · have htail : joined ps = joined ps' := by simpa using hrest
          rw [ih (fun p hp => h p (by simp [hp])) (fun p hp => h' p (by simp [hp])) htail]

end Docbase.Text
