import Docbase.Proofs.Text.Case
import Docbase.Schema

namespace Docbase

namespace Schema

variable {ρ : Type} {shapes : ρ → List (String × Schema ρ)} {segment : String}

theorem isIndex_congr {s t : String} (h : Text.sameIgnoringCase s t) : isIndex s = isIndex t := by
  have hall : ∀ cs : List Char, (cs.map Char.toLower).all Char.isDigit = cs.all Char.isDigit := by
    intro cs
    simp [List.all_map, Function.comp_def, Text.isDigit_toLower]
  rw [isIndex, isIndex, ← hall s.toList, Text.sameIgnoringCase_iff_eq.mp h, hall]

section Fields

variable {fields : List (String × Schema ρ)} {field : String × Schema ρ}

theorem matchField?_cases (h : matchField? fields segment = some field) :
    field ∈ fields ∧ (field.1 = segment ∧ fields.find? (fun f => f.1 = segment) = some field ∨
      fields.filter (fun f => Text.sameIgnoringCase f.1 segment) = [field]) := by
  unfold matchField? at h
  split at h
  next found hfound =>
    cases h
    have hname : field.1 = segment := by simpa using List.find?_some hfound
    exact ⟨List.mem_of_find?_eq_some hfound, .inl ⟨hname, hfound⟩⟩
  next =>
    split at h
    next found hfilter =>
      cases h
      have hmem : field ∈ fields.filter fun f => Text.sameIgnoringCase f.1 segment := by
        rw [hfilter]
        simp
      exact ⟨(List.mem_filter.mp hmem).1, .inr hfilter⟩
    next => cases h

theorem matchField?_of_find? (h : fields.find? (fun f => f.1 = segment) = some field) :
    matchField? fields segment = some field := by
  rw [matchField?]
  simp only [h]

theorem matchField?_of_filter
    (h : fields.filter (fun f => Text.sameIgnoringCase f.1 segment) = [field]) :
    matchField? fields segment = some field := by
  rw [matchField?]
  cases hfound : fields.find? fun f => f.1 = segment with
  | none => simp only [h]
  | some found =>
    have hname : found.1 = segment := by simpa using List.find?_some hfound
    have hmem : found ∈ fields.filter fun f => Text.sameIgnoringCase f.1 segment := by
      refine List.mem_filter.mpr ⟨List.mem_of_find?_eq_some hfound, ?_⟩
      rw [hname]
      exact Text.sameIgnoringCase_refl _
    rw [h, List.mem_singleton] at hmem
    rw [hmem]

theorem sameIgnoringCase_of_matchField? (h : matchField? fields segment = some field) :
    Text.sameIgnoringCase field.1 segment := by
  obtain ⟨-, ⟨rfl, -⟩ | hfilter⟩ := matchField?_cases h
  · exact Text.sameIgnoringCase_refl _
  · have hmem : field ∈ fields.filter fun f => Text.sameIgnoringCase f.1 segment := by
      rw [hfilter]
      simp
    exact (List.mem_filter.mp hmem).2

theorem matchField?_name (h : matchField? fields segment = some field) :
    matchField? fields field.1 = some field := by
  have hsame := sameIgnoringCase_of_matchField? h
  obtain ⟨hmem, ⟨rfl, -⟩ | hfilter⟩ := matchField?_cases h
  · exact h
  · have hfind : fields.find? (fun f => f.1 = field.1) = some field := by
      cases hfound : fields.find? fun f => f.1 = field.1 with
      | none =>
        have hnone := List.find?_eq_none.mp hfound field hmem
        simp at hnone
      | some found =>
        have hname : found.1 = field.1 := by simpa using List.find?_some hfound
        have hfilter' : found ∈ fields.filter fun f => Text.sameIgnoringCase f.1 segment :=
          List.mem_filter.mpr ⟨List.mem_of_find?_eq_some hfound, by rw [hname]; exact hsame⟩
        rw [hfilter, List.mem_singleton] at hfilter'
        rw [hfilter']
    exact matchField?_of_find? hfind

end Fields

theorem sameIgnoringCase_of_step? {s next : Schema ρ} {name : String}
    (h : s.step? shapes segment = some (name, next)) : Text.sameIgnoringCase name segment := by
  induction s with
  | scalar => cases h
  | any =>
    rw [step?] at h
    split at h
    · cases h
    · cases h
      exact Text.sameIgnoringCase_refl _
  | array item ih =>
    rw [step?] at h
    split at h
    · cases h
    · split at h
      · cases h
        exact Text.sameIgnoringCase_refl _
      · exact ih h
  | record ref =>
    rw [step?] at h
    split at h
    · cases h
    · exact sameIgnoringCase_of_matchField? h

theorem ne_empty_of_step? {s : Schema ρ} {result : String × Schema ρ}
    (h : s.step? shapes segment = some result) : segment ≠ "" := by
  rintro rfl
  cases s <;> simp [step?] at h

theorem step?_name {s next : Schema ρ} {name : String}
    (h : s.step? shapes segment = some (name, next)) : s.step? shapes name = some (name, next) := by
  have hsame := sameIgnoringCase_of_step? h
  have hsegment : segment ≠ "" := ne_empty_of_step? h
  have hname : name ≠ "" := mt (Text.eq_empty_iff_of_sameIgnoringCase hsame).mp hsegment
  induction s with
  | scalar => cases h
  | any =>
    rw [step?, if_neg hsegment] at h
    cases h
    rw [step?, if_neg hname]
  | array item ih =>
    rw [step?, if_neg hsegment] at h
    rw [step?, if_neg hname, isIndex_congr hsame]
    by_cases hindex : isIndex segment
    · rw [if_pos hindex] at h ⊢
      cases h
      rfl
    · rw [if_neg hindex] at h ⊢
      exact ih h
  | record ref =>
    rw [step?, if_neg hsegment] at h
    rw [step?, if_neg hname]
    exact matchField?_name h

theorem walk?_cons_eq_some_iff {rest names : List String} {s last : Schema ρ} :
    walk? shapes (segment :: rest) s = some (names, last) ↔ ∃ name names' next,
      s.step? shapes segment = some (name, next) ∧
        walk? shapes rest next = some (names', last) ∧ names = name :: names' := by
  rw [walk?]
  constructor
  · intro h
    obtain ⟨⟨name, next⟩, hstep, h⟩ := Option.bind_eq_some_iff.mp h
    obtain ⟨⟨names', last'⟩, hrest, h⟩ := Option.bind_eq_some_iff.mp h
    cases h
    exact ⟨name, names', next, hstep, hrest, rfl⟩
  · rintro ⟨name, names', next, hstep, hrest, rfl⟩
    simp [hstep, hrest]

theorem walk?_names {segments names : List String} {s last : Schema ρ}
    (h : walk? shapes segments s = some (names, last)) :
    walk? shapes names s = some (names, last) := by
  induction segments generalizing s names with
  | nil =>
    cases h
    rfl
  | cons segment rest ih =>
    obtain ⟨name, names', next, hstep, hrest, rfl⟩ := walk?_cons_eq_some_iff.mp h
    exact walk?_cons_eq_some_iff.mpr ⟨name, names', next, step?_name hstep, ih hrest, rfl⟩

theorem length_of_walk? {segments names : List String} {s last : Schema ρ}
    (h : walk? shapes segments s = some (names, last)) : names.length = segments.length := by
  induction segments generalizing s names with
  | nil =>
    cases h
    rfl
  | cons segment rest ih =>
    obtain ⟨name, names', next, -, hrest, rfl⟩ := walk?_cons_eq_some_iff.mp h
    exact congrArg (· + 1) (ih hrest)

theorem walk?_append_eq_some_iff {xs ys zs : List String} {s last : Schema ρ} :
    walk? shapes (xs ++ ys) s = some (zs, last) ↔ ∃ us vs mid,
      walk? shapes xs s = some (us, mid) ∧ walk? shapes ys mid = some (vs, last) ∧
        zs = us ++ vs := by
  induction xs generalizing s zs with
  | nil =>
    constructor
    · exact fun h => ⟨[], zs, s, rfl, h, rfl⟩
    · rintro ⟨us, vs, mid, hx, hy, rfl⟩
      cases hx
      exact hy
  | cons x xs ih =>
    rw [List.cons_append, walk?_cons_eq_some_iff]
    constructor
    · rintro ⟨name, names, next, hstep, hwalk, rfl⟩
      obtain ⟨us, vs, mid, hx, hy, rfl⟩ := ih.mp hwalk
      exact ⟨name :: us, vs, mid, walk?_cons_eq_some_iff.mpr ⟨_, _, _, hstep, hx, rfl⟩, hy, rfl⟩
    · rintro ⟨us, vs, mid, hx, hy, rfl⟩
      obtain ⟨name, names, next, hstep, hrest, rfl⟩ := walk?_cons_eq_some_iff.mp hx
      exact ⟨name, names ++ vs, next, hstep, ih.mpr ⟨names, vs, mid, hrest, hy, rfl⟩, rfl⟩

theorem walk?_append {xs ys : List String} {s next last : Schema ρ}
    (hx : walk? shapes xs s = some (xs, next)) (hy : walk? shapes ys next = some (ys, last)) :
    walk? shapes (xs ++ ys) s = some (xs ++ ys, last) :=
  walk?_append_eq_some_iff.mpr ⟨xs, ys, next, hx, hy, rfl⟩

theorem resolve?_eq_some_iff {s : Schema ρ} {p q : Path} : s.resolve? shapes p = some q ↔
    ∃ next last, s.step? shapes p.head = some (q.head, next) ∧
      walk? shapes p.tail next = some (q.tail, last) := by
  constructor
  · intro h
    obtain ⟨⟨head, next⟩, hstep, h⟩ := Option.bind_eq_some_iff.mp h
    obtain ⟨⟨tail, last⟩, hwalk, h⟩ := Option.bind_eq_some_iff.mp h
    cases h
    exact ⟨next, last, hstep, hwalk⟩
  · rintro ⟨next, last, hstep, hwalk⟩
    rw [resolve?, hstep]
    simp [hwalk]

theorem resolve?_resolved {s : Schema ρ} {p q : Path} (h : s.resolve? shapes p = some q) :
    s.resolve? shapes q = some q := by
  obtain ⟨next, last, hstep, hwalk⟩ := resolve?_eq_some_iff.mp h
  exact resolve?_eq_some_iff.mpr ⟨next, last, step?_name hstep, walk?_names hwalk⟩

theorem head_of_resolve? {ref : ρ} {p q : Path} (h : (record ref).resolve? shapes p = some q) :
    Text.sameIgnoringCase q.head p.head ∧ ∃ t, (q.head, t) ∈ shapes ref := by
  obtain ⟨next, last, hstep, -⟩ := resolve?_eq_some_iff.mp h
  refine ⟨sameIgnoringCase_of_step? hstep, next, ?_⟩
  rw [step?] at hstep
  split at hstep
  · cases hstep
  · exact (matchField?_cases hstep).1

end Schema

end Docbase
