import Docbase.Criteria
import Docbase.Proofs.Document
import Docbase.Proofs.Filter.Literal
import Docbase.Proofs.Sorting

namespace Docbase

namespace Value

theorem exists_of_sameItems {xs ys : List Value} (h : sameItems xs ys) {x : Value} (hx : x ∈ xs) :
    ∃ y ∈ ys, x.same y := by
  induction xs generalizing ys with
  | nil => cases hx
  | cons x' xs ih =>
    cases ys with
    | nil => cases h
    | cons y ys =>
      simp only [sameItems, Bool.and_eq_true] at h
      obtain rfl | hx := List.mem_cons.mp hx
      · exact ⟨y, List.mem_cons_self, h.1⟩
      · obtain ⟨y', hy', hsame⟩ := ih h.2 hx
        exact ⟨y', List.mem_cons_of_mem y hy', hsame⟩

theorem order_ne_of_mem_of_same {xs : List Value} {w x : Value} (h : (array xs).same w)
    (hx : x ∈ xs) : x.order w ≠ .eq := by
  refine order_ne_of_mem (S := fun v w => v.same w) (fun xs w h => ?_) xs w x h hx
  obtain ⟨ys, rfl, hsame⟩ := same_array.mp h
  exact ⟨ys, rfl, fun x hx => exists_of_sameItems hsame hx⟩

variable {v w : Value}

theorem alike_of_same (hv : v.hasDistinctKeys) (hw : w.hasDistinctKeys) (h : v.same w)
    (horder : v.order w = .eq) : v.Alike w :=
  ⟨h, same_symm v w hv hw h, horder⟩

theorem exists_size?_of_same {m : Number} (h : v.same v) (hm : v.number? = some m) :
    ∃ s, m.size? = some s := by
  cases v with
  | double x =>
    obtain ⟨y, heq, hxy⟩ := same_double.mp h
    cases heq
    cases hm
    exact ⟨x.units, Number.size?_double.mpr ⟨(numEq_iff.mp hxy).1, rfl⟩⟩
  | int32 n | int64 n =>
    cases hm
    exact ⟨_, rfl⟩
  | _ => cases hm

theorem agrees_self (hv : v.hasDistinctKeys) (hw : w.hasDistinctKeys) (h : v.same w) :
    v.agrees v := by
  have hself : v.same v := same_trans v w v h (same_symm v w hv hw h)
  rw [agrees_iff_order_eq]
  refine ⟨Std.ReflCmp.compare_self, ?_⟩
  rintro (⟨hnan, -⟩ | ⟨-, -, hne⟩)
  · obtain ⟨n, hn⟩ := exists_number?_of_isNaN hnan
    obtain ⟨s, hs⟩ := exists_size?_of_same hself hn
    simp [isNaN_of_number? hn, hs] at hnan
  · exact hne hself

theorem accepts_single (key : String) (v w : Value) :
    (Filter.comparison ⟨key, []⟩ .eq w).accepts [(key, v)] = v.candidates.any (·.agrees w) := by
  rw [Filter.accepts, Document.lookup_single, Document.get?_cons_self]
  simp [Operator.holds, Operator.holdsEq, Operator.anyCandidate]

theorem accepts_single_of_same (key : String) (hv : v.hasDistinctKeys) (hw : w.hasDistinctKeys)
    (h : v.same w) (horder : v.order w ≠ .eq) :
    (Filter.comparison ⟨key, []⟩ .eq v).accepts [(key, v)] = true ∧
      (Filter.comparison ⟨key, []⟩ .eq w).accepts [(key, v)] = false := by
  rw [accepts_single, accepts_single]
  constructor
  · exact List.any_eq_true.mpr ⟨v, mem_candidates.mpr (.inl rfl), agrees_self hv hw h⟩
  · refine List.any_eq_false.mpr fun c hc hagrees => ?_
    obtain rfl | ⟨items, rfl, hitem⟩ := mem_candidates.mp hc
    · exact horder (order_eq_of_agrees hagrees)
    · exact order_ne_of_mem_of_same h hitem (order_eq_of_agrees hagrees)

end Value

namespace Criteria

def literals (c : Criteria) : List Value := (c.filter.map Filter.literals).getD []

theorem eq_of_beq {a b : Criteria} (h : a == b) :
    (a.filter == b.filter) ∧ a.sort = b.sort ∧ a.window = b.window := by
  obtain ⟨f, keys, w⟩ := a
  obtain ⟨g, keys', w'⟩ := b
  have hparts : ((f == g) && ((keys == keys') && (w == w'))) = true := h
  simpa only [Bool.and_eq_true, beq_iff_eq] using hparts

theorem run_ofFilter (f : Filter) (d : Document) :
    (ofFilter f).toQuery.run [d] = if f.accepts d then [d] else [] := by
  simp [ofFilter, toQuery, Query.run, Query.window, Query.select, List.filter_cons]

theorem select_congr {a b : Criteria} (h : a.filter == b.filter)
    (halike : ∀ p ∈ a.literals.zip b.literals, p.1.Alike p.2) (docs : List Document) :
    Query.select a.filter docs = Query.select b.filter docs := by
  obtain ⟨f, keys, w⟩ := a
  obtain ⟨g, keys', w'⟩ := b
  cases f with
  | none =>
    cases g with
    | none => rfl
    | some g => cases h
  | some f =>
    cases g with
    | none => cases h
    | some g => exact List.filter_congr fun d _ => Filter.accepts_congr d f g h halike

theorem same_of_mem_zip {a b : Criteria} (h : a.filter == b.filter) :
    ∀ p ∈ a.literals.zip b.literals, p.1.same p.2 := by
  obtain ⟨f, keys, w⟩ := a
  obtain ⟨g, keys', w'⟩ := b
  cases f with
  | none => nofun
  | some f =>
    cases g with
    | none => cases h
    | some g => exact Filter.same_of_mem_zip_literals f g h

/-- Equal criteria whose literals hold their documents with the keys in the same order have the same
result on all documents. Where two corresponding literals do not, some document equals the one and
not the other. -/
theorem run_eq_of_beq {a b : Criteria} (h : a == b) (ha : ∀ v ∈ a.literals, v.hasDistinctKeys)
    (hb : ∀ w ∈ b.literals, w.hasDistinctKeys) :
    ((∀ p ∈ a.literals.zip b.literals, p.1.order p.2 = .eq) →
      ∀ docs, a.toQuery.run docs = b.toQuery.run docs) ∧
    ∀ p ∈ a.literals.zip b.literals, p.1.order p.2 ≠ .eq → ∀ key, ∃ d : Document,
      (ofFilter (.comparison ⟨key, []⟩ .eq p.1)).toQuery.run [d] = [d] ∧
      (ofFilter (.comparison ⟨key, []⟩ .eq p.2)).toQuery.run [d] = [] := by
  obtain ⟨hfilter, hsort, hwindow⟩ := eq_of_beq h
  have hmem : ∀ p ∈ a.literals.zip b.literals, p.1.hasDistinctKeys ∧ p.2.hasDistinctKeys :=
    fun p hp => ⟨ha _ (List.of_mem_zip hp).1, hb _ (List.of_mem_zip hp).2⟩
  have hsame := same_of_mem_zip hfilter
  constructor
  · intro horder docs
    have halike : ∀ p ∈ a.literals.zip b.literals, p.1.Alike p.2 := fun p hp =>
      Value.alike_of_same (hmem p hp).1 (hmem p hp).2 (hsame p hp) (horder p hp)
    simp only [toQuery, Query.run, select_congr hfilter halike, hsort, hwindow]
  · intro p hp horder key
    obtain ⟨haccepts, hrefuses⟩ :=
      Value.accepts_single_of_same key (hmem p hp).1 (hmem p hp).2 (hsame p hp) horder
    refine ⟨[(key, p.1)], ?_, ?_⟩
    · rw [run_ofFilter, haccepts, if_pos rfl]
    · rw [run_ofFilter, hrefuses, if_neg Bool.false_ne_true]

theorem run_eq_of_signed_zeros :
    let literal (zero : UInt64) : Value := .document [("x", .double ⟨zero⟩), ("y", .int32 2)]
    let a := ofFilter (.comparison ⟨"a", []⟩ .eq (literal 0))
    let b := ofFilter (.comparison ⟨"a", []⟩ .eq (literal 0x8000000000000000))
    (a == b) = true ∧ ∀ docs, a.toQuery.run docs = b.toQuery.run docs := by
  intro literal a b
  have hequal : (a == b) = true := by decide +kernel
  have hdistinct : ∀ zero, ∀ v ∈ [literal zero], v.hasDistinctKeys := by
    intro zero v hv
    obtain rfl := List.mem_singleton.mp hv
    rfl
  have horder : ∀ p ∈ a.literals.zip b.literals, p.1.order p.2 = .eq := by
    intro p hp
    obtain rfl := List.mem_singleton.mp hp
    decide +kernel
  exact ⟨hequal, (run_eq_of_beq hequal (hdistinct _) (hdistinct _)).1 horder⟩

/-- One document with its keys in two orders. -/
theorem run_ne_of_key_order :
    let x : String × Value := ("x", .int32 1)
    let y : String × Value := ("y", .int32 2)
    let a := ofFilter (.comparison ⟨"a", []⟩ .eq (.document [x, y]))
    let b := ofFilter (.comparison ⟨"a", []⟩ .eq (.document [y, x]))
    let d : Document := [("a", .document [x, y])]
    (a == b) = true ∧ a.toQuery.run [d] ≠ b.toQuery.run [d] := by
  intro x y a b d
  have haccepts : (Filter.comparison ⟨"a", []⟩ .eq (.document [x, y])).accepts d = true := by
    decide +kernel
  have hrefuses : (Filter.comparison ⟨"a", []⟩ .eq (.document [y, x])).accepts d = false := by
    decide +kernel
  refine ⟨by decide +kernel, ?_⟩
  rw [run_ofFilter, run_ofFilter, haccepts, hrefuses]
  exact nofun

end Criteria

end Docbase
