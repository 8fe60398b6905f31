import Docbase.Proofs.Filter.Comparison
import Docbase.Proofs.Path

namespace Docbase

namespace Value

variable {v w : Value}

theorem hasDistinctKeys_of_mem_candidates (hv : v.hasDistinctKeys) (h : w ∈ v.candidates) :
    w.hasDistinctKeys := by
  obtain rfl | ⟨items, rfl, hitem⟩ := mem_candidates.mp h
  · exact hv
  · exact haveDistinctKeys_iff.mp hv w hitem

theorem hasDistinctKeys_of_field? {s : String} (hv : v.hasDistinctKeys) (h : v.field? s = some w) :
    w.hasDistinctKeys := by
  cases v with
  | document d => exact hasDistinctKeys_of_mem hv (mem_of_lookup h)
  | _ => cases h

theorem hasDistinctKeys_of_mem_children {s : String} (hv : v.hasDistinctKeys)
    (h : w ∈ v.children s) : w.hasDistinctKeys := by
  cases v with
  | document d => exact hasDistinctKeys_of_field? hv (Option.mem_toList.mp h)
  | array items =>
    have hitems := haveDistinctKeys_iff.mp hv
    cases hs : Number.index? s with
    | some i =>
      rw [children_array_of_index hs, Option.mem_toList] at h
      exact hitems w (List.mem_of_getElem? h)
    | none =>
      obtain ⟨u, hu, hfield⟩ := (mem_children_array_of_name hs).mp h
      exact hasDistinctKeys_of_field? (hitems u hu) hfield
  | _ => cases h

theorem hasDistinctKeys_of_mem_follow {segments : List String} (hv : v.hasDistinctKeys)
    (h : w ∈ v.follow segments) : w.hasDistinctKeys := by
  induction segments generalizing v with
  | nil =>
    obtain rfl := List.mem_singleton.mp h
    exact hv
  | cons s segments ih =>
    rw [follow_cons] at h
    obtain ⟨u, hu, hw⟩ := List.mem_flatMap.mp h
    exact ih (hasDistinctKeys_of_mem_children hv hu) hw

end Value

theorem Document.hasDistinctKeys_of_mem_lookup {d : Document} {p : Path} {v : Value}
    (hd : (Value.document d).hasDistinctKeys) (h : v ∈ d.lookup p) : v.hasDistinctKeys := by
  obtain ⟨u, hu, hv⟩ := List.mem_flatMap.mp h
  exact Value.hasDistinctKeys_of_mem_follow
    (Value.hasDistinctKeys_of_field? hd (Option.mem_toList.mp hu)) hv

theorem Value.valueClass_eq_null_iff {v : Value} :
    v.valueClass = .null ↔ v = .null ∨ v = .undefined := by
  cases v <;> simp [valueClass]

namespace Operator

variable {values xs : List Value}

theorem anyCandidate_any (test : Value → Value → Bool) :
    anyCandidate values (fun c => xs.any (test c)) ↔ ∃ x ∈ xs, anyCandidate values (test · x) := by
  simp only [anyCandidate, List.any_eq_true]
  constructor
  · rintro ⟨u, hu, c, hc, x, hx, h⟩
    exact ⟨x, hx, u, hu, c, hc, h⟩
  · rintro ⟨x, hx, u, hu, c, hc, h⟩
    exact ⟨u, hu, c, hc, x, hx, h⟩

theorem anyCandidate_congr {p q : Value → Bool} (h : ∀ u ∈ values, ∀ c ∈ u.candidates, p c = q c) :
    anyCandidate values p = anyCandidate values q := by
  rw [Bool.eq_iff_iff]
  simp only [anyCandidate, List.any_eq_true]
  constructor
  · rintro ⟨u, hu, c, hc, hp⟩
    exact ⟨u, hu, c, hc, h u hu c hc ▸ hp⟩
  · rintro ⟨u, hu, c, hc, hq⟩
    exact ⟨u, hu, c, hc, h u hu c hc ▸ hq⟩

theorem holdsAnyOf_iff (hvalues : ∀ v ∈ values, v.hasDistinctKeys)
    (hxs : ∀ x ∈ xs, x.hasDistinctKeys) : holdsAnyOf values (.array xs) ↔
      (∃ x ∈ xs, holdsEq values x) ∨ (values = [] ∧ .undefined ∈ xs) := by
  obtain rfl | hnil := eq_or_ne values []
  · have hnull : holdsAnyOf [] (.array xs) ↔ .null ∈ xs ∨ .undefined ∈ xs := by
      simp only [holdsAnyOf, List.isEmpty_nil, if_true, List.any_eq_true, decide_eq_true_eq,
        Value.valueClass_eq_null_iff]
      constructor
      · rintro ⟨x, hx, rfl | rfl⟩
        · exact .inl hx
        · exact .inr hx
      · rintro (hx | hx)
        · exact ⟨_, hx, .inl rfl⟩
        · exact ⟨_, hx, .inr rfl⟩
    simp only [hnull, holdsEq_iff, true_and, anyCandidate, List.any_nil, Bool.false_eq_true,
      or_false, exists_eq_right]
  · have hcomm : anyCandidate values (fun c => xs.any (·.agrees c)) =
        anyCandidate values fun c => xs.any (c.agrees ·) := by
      refine anyCandidate_congr fun u hu c hc => ?_
      have hc := Value.hasDistinctKeys_of_mem_candidates (hvalues u hu) hc
      rw [Bool.eq_iff_iff, List.any_eq_true, List.any_eq_true]
      refine exists_congr fun x => and_congr_right fun hx => ?_
      rw [Value.agrees_comm (hxs x hx) hc]
    have hanyOf : holdsAnyOf values (.array xs) =
        anyCandidate values fun c => xs.any (·.agrees c) := by
      simp [holdsAnyOf, hnil]
    simp only [hanyOf, hcomm, anyCandidate_any, holdsEq_of_ne_nil hnil, hnil, false_and, or_false]

end Operator

namespace Filter

/-- A field is in a list when it is equal to one of its values, and in none when it differs from
each; but a missing field is also in a list with `undefined`, to which it is not equal. So the two
ways of asking come to the same unless the field is missing and the list has `undefined` without
`null`. -/
theorem anyOf_iff_exists_eq (d : Document) (p : Path) (xs : List Value)
    (hd : (Value.document d).hasDistinctKeys) (hxs : ∀ x ∈ xs, x.hasDistinctKeys) :
    ((p.anyOf xs).accepts d ↔
      (∃ x ∈ xs, (p.eq x).accepts d) ∨ (d.lookup p = [] ∧ .undefined ∈ xs)) ∧
    ((p.noneOf xs).accepts d ↔
      (∀ x ∈ xs, (p.ne x).accepts d) ∧ ¬(d.lookup p = [] ∧ .undefined ∈ xs)) ∧
    (((p.anyOf xs).accepts d ↔ ∃ x ∈ xs, (p.eq x).accepts d) ↔
      (d.lookup p = [] → .undefined ∈ xs → .null ∈ xs)) ∧
    (((p.noneOf xs).accepts d ↔ ∀ x ∈ xs, (p.ne x).accepts d) ↔
      (d.lookup p = [] → .undefined ∈ xs → .null ∈ xs)) := by
  have hanyOf : (p.anyOf xs).accepts d ↔
      (∃ x ∈ xs, (p.eq x).accepts d) ∨ (d.lookup p = [] ∧ .undefined ∈ xs) :=
    Operator.holdsAnyOf_iff (fun _ hv => Document.hasDistinctKeys_of_mem_lookup hd hv) hxs
  have hnoneOf : (p.noneOf xs).accepts d ↔ ¬(p.anyOf xs).accepts d := by
    simp [Path.noneOf, Path.anyOf, accepts, Operator.holds]
  have hne : (∀ x ∈ xs, (p.ne x).accepts d) ↔ ¬∃ x ∈ xs, (p.eq x).accepts d := by
    simp [Path.ne, Path.eq, accepts, Operator.holds]
  have hmissing : d.lookup p = [] → ((∃ x ∈ xs, (p.eq x).accepts d) ↔ .null ∈ xs) := by
    intro h
    simp [Path.eq, accepts, Operator.holds, h, Operator.holdsEq_iff, Operator.anyCandidate]
  have hiff : ((p.anyOf xs).accepts d ↔ ∃ x ∈ xs, (p.eq x).accepts d) ↔
      (d.lookup p = [] → .undefined ∈ xs → .null ∈ xs) := by
    rw [hanyOf]
    constructor
    · intro h hp hundefined
      exact (hmissing hp).mp (h.mp (.inr ⟨hp, hundefined⟩))
    · intro h
      constructor
      · rintro (hexists | ⟨hp, hundefined⟩)
        · exact hexists
        · exact (hmissing hp).mpr (h hp hundefined)
      · exact .inl
  refine ⟨hanyOf, ?_, hiff, ?_⟩
  · rw [hnoneOf, hanyOf, hne, not_or]
  · rw [hnoneOf, hne, not_iff_not]
    exact hiff

theorem anyOf_iff_exists_eq_of_tags :
    let d : Document := [("tags", .array [.string "a", .double ⟨0x4000000000000000⟩])]
    let xs : List Value := [.undefined, .int32 2]
    (Value.document d).hasDistinctKeys ∧ (∀ x ∈ xs, x.hasDistinctKeys) ∧
      ((Path.anyOf ⟨"tags", []⟩ xs).accepts d ↔ ∃ x ∈ xs, (Path.eq ⟨"tags", []⟩ x).accepts d) := by
  intro d xs
  have hd : (Value.document d).hasDistinctKeys := by decide
  have hxs : ∀ x ∈ xs, x.hasDistinctKeys := by
    intro x hx
    obtain rfl | rfl := List.mem_pair.mp hx <;> rfl
  refine ⟨hd, hxs, (anyOf_iff_exists_eq d ⟨"tags", []⟩ xs hd hxs).2.2.1.mpr fun hmissing => ?_⟩
  cases hmissing

/-- A missing field is in a list with `undefined` and is not equal to `undefined`. -/
theorem not_eq_of_anyOf_undefined :
    (Path.anyOf ⟨"x", []⟩ [.undefined]).accepts [] = true ∧
      ¬∃ v ∈ [Value.undefined], (Path.eq ⟨"x", []⟩ v).accepts [] = true := by
  refine ⟨by decide, ?_⟩
  rintro ⟨v, hv, h⟩
  obtain rfl := List.mem_singleton.mp hv
  revert h
  decide

end Filter

end Docbase
