import Docbase.Filter.Field
import Docbase.Filter.Matching
import Docbase.Proofs.Path
import Docbase.Proofs.Value.Agreement
import Docbase.Sorting

namespace Docbase

theorem Value.mem_candidates {v c : Value} :
    c ∈ v.candidates ↔ c = v ∨ ∃ items, v = .array items ∧ c ∈ items := by
  cases v <;> simp [candidates]

theorem Value.candidates_of_ne_array {v : Value} (h : v.valueClass ≠ .array) :
    v.candidates = [v] := by
  cases v with
  | array items => exact absurd rfl h
  | _ => rfl

theorem SortKey.valueOf_of_lookup {p : Path} {direction : Direction} {d : Document} {v : Value}
    (h : d.lookup p = [v]) (hv : v.valueClass ≠ .array) : valueOf ⟨p, direction⟩ d = v := by
  have hspread : spread v = [v] := by
    cases v with
    | array items => exact absurd rfl hv
    | _ => rfl
  simp [valueOf, h, hspread]

namespace Operator

variable {values : List Value} {literal : Value}

theorem anyCandidate_or (p q : Value → Bool) : anyCandidate values (fun c => p c || q c) =
    (anyCandidate values p || anyCandidate values q) := by
  rw [Bool.eq_iff_iff]
  simp only [anyCandidate, List.any_eq_true, Bool.or_eq_true]
  constructor
  · rintro ⟨u, hu, c, hc, h | h⟩
    · exact .inl ⟨u, hu, c, hc, h⟩
    · exact .inr ⟨u, hu, c, hc, h⟩
  · rintro (⟨u, hu, c, hc, h⟩ | ⟨u, hu, c, hc, h⟩)
    · exact ⟨u, hu, c, hc, .inl h⟩
    · exact ⟨u, hu, c, hc, .inr h⟩

theorem holdsEq_of_ne_nil (h : values ≠ []) :
    holdsEq values literal = anyCandidate values (·.agrees literal) := by
  cases values with
  | nil => exact absurd rfl h
  | cons v values => rfl

theorem holdsEq_iff : holdsEq values literal ↔
    (values = [] ∧ literal = .null) ∨ anyCandidate values (·.agrees literal) := by
  cases values with
  | nil => cases literal <;> simp [holdsEq, anyCandidate]
  | cons v values => simp [holdsEq]

theorem holdsOrdered_or_holdsEq (hliteral : literal.valueClass ≠ .other) (hvalues : values ≠ [])
    {strict weak : Ordering → Bool} (h : ∀ o, weak o = (strict o || o = .eq)) :
    holdsOrdered values literal weak =
      (holdsOrdered values literal strict || holdsEq values literal) := by
  rw [holdsEq_of_ne_nil hvalues, holdsOrdered, holdsOrdered, ← anyCandidate_or]
  congr 1
  funext c
  have hagrees : c.agrees literal = decide (c.compareWithin? literal = some .eq) := by
    rw [Bool.eq_iff_iff, decide_eq_true_eq]
    exact Value.agrees_iff_compareWithin? hliteral
  rw [hagrees]
  cases c.compareWithin? literal with
  | none => rfl
  | some o => simp [h]

theorem holdsOrdered_single {v : Value} (hv : v.valueClass ≠ .array) (h : v.Comparable literal)
    (test : Ordering → Bool) : holdsOrdered [v] literal test = test (v.order literal) := by
  have hcompare : v.compareWithin? literal = some (v.order literal) :=
    Value.compareWithin?_eq_some_iff.mpr ⟨h, rfl⟩
  simp [holdsOrdered, anyCandidate, Value.candidates_of_ne_array hv, hcompare]

theorem holdsEq_single {v : Value} (hv : v.valueClass ≠ .array) (h : v.Comparable literal) :
    holdsEq [v] literal ↔ v.order literal = .eq := by
  rw [holdsEq_of_ne_nil (List.cons_ne_nil v [])]
  simp only [anyCandidate, Value.candidates_of_ne_array hv, List.any_cons, List.any_nil,
    Bool.or_false]
  rw [Value.agrees_iff_compareWithin? (h.valueClass_eq ▸ h.ne_other),
    Value.compareWithin?_eq_some_iff]
  exact and_iff_right h

end Operator

namespace Filter

/-- Where something is addressed, the weak comparisons are the strict ones or equality. Where it is
one value of the class of the literal, exactly one of the strict comparisons and equality accepts
the document: the one that says how the document sorts against a document with the literal in its
place. -/
theorem comparisons_follow_sort_order (p : Path) (d : Document) (v : Value)
    (hv : v.valueClass ≠ .other) (haddressed : d.lookup p ≠ []) :
    (p.gte v).accepts d = ((p.gt v).accepts d || (p.eq v).accepts d) ∧
    (p.lte v).accepts d = ((p.lt v).accepts d || (p.eq v).accepts d) ∧
    ∀ x, d.lookup p = [x] → x.valueClass ≠ .array → x.valueClass = v.valueClass →
      x.isNaN = false → v.isNaN = false →
      (∃ e : Document, e.lookup p = [v]) ∧ ∀ e : Document, e.lookup p = [v] →
        ((p.lt v).accepts d ↔ SortKey.compareByAll [⟨p, .asc⟩] d e = .lt) ∧
        ((p.eq v).accepts d ↔ SortKey.compareByAll [⟨p, .asc⟩] d e = .eq) ∧
        ((p.gt v).accepts d ↔ SortKey.compareByAll [⟨p, .asc⟩] d e = .gt) := by
  refine ⟨?_, ?_, ?_⟩
  · exact Operator.holdsOrdered_or_holdsEq hv haddressed fun o => by cases o <;> rfl
  · exact Operator.holdsOrdered_or_holdsEq hv haddressed fun o => by cases o <;> rfl
  · intro x hx harray hclass hnan hnan'
    refine ⟨Document.exists_lookup_eq p v, fun e he => ?_⟩
    have hcomparable : x.Comparable v := ⟨hclass, hclass ▸ hv, hnan, hnan'⟩
    have hsign : SortKey.compareByAll [⟨p, .asc⟩] d e = x.order v := by
      simp only [SortKey.compareByAll, SortKey.compareBy, SortKey.valueOf_of_lookup hx harray,
        SortKey.valueOf_of_lookup he (hclass ▸ harray), Ordering.then_eq]
    rw [hsign]
    simp only [Path.lt, Path.eq, Path.gt, accepts, hx, Operator.holds,
      Operator.holdsOrdered_single harray hcomparable, Operator.holdsEq_single harray hcomparable,
      decide_eq_true_eq, and_self]

theorem comparisons_of_score :
    let p : Path := ⟨"grades", ["score"]⟩
    let graded (score : Value) : Document := [("grades", .array [.document [("score", score)]])]
    let v : Value := .double ⟨0x4004000000000000⟩
    (graded (.int32 3)).lookup p = [.int32 3] ∧ (p.gte v).accepts (graded (.int32 3)) ∧
      (p.gt v).accepts (graded (.int32 3)) ∧
      SortKey.compareByAll [⟨p, .asc⟩] (graded (.int32 3)) (graded v) = .gt := by
  intro p graded v
  have hlookup (score : Value) : (graded score).lookup p = [score] := by
    have hindex : Number.index? "score" = none := by decide
    simp [p, graded, Document.lookup, Document.get?, Value.follow, hindex, Value.field?]
  have hne : (graded (.int32 3)).lookup p ≠ [] := by rw [hlookup]; exact List.cons_ne_nil _ _
  have hsign : SortKey.compareByAll [⟨p, .asc⟩] (graded (.int32 3)) (graded v) = .gt := by
    decide +kernel
  obtain ⟨hgte, -, hsingle⟩ :=
    comparisons_follow_sort_order p (graded (.int32 3)) v (by decide) hne
  obtain ⟨-, hfollow⟩ := hsingle (.int32 3) (hlookup _) (by decide) (by decide) rfl (by decide)
  have hgt : (p.gt v).accepts (graded (.int32 3)) := (hfollow (graded v) (hlookup _)).2.2.mpr hsign
  refine ⟨hlookup _, ?_, hgt, hsign⟩
  rw [hgte, hgt, Bool.true_or]

end Filter

end Docbase
