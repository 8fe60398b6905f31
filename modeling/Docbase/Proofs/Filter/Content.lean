import Docbase.Proofs.Filter.Comparison
import Docbase.Proofs.Value.Compound

namespace Docbase

theorem exists_forall₂ {α β : Type} {R : α → β → Prop} {ys : List β} (h : ∀ y ∈ ys, ∃ x, R x y) :
    ∃ xs, List.Forall₂ R xs ys := by
  induction ys with
  | nil => exact ⟨[], .nil⟩
  | cons y ys ih =>
    obtain ⟨x, hx⟩ := h y List.mem_cons_self
    obtain ⟨xs, hxs⟩ := ih fun y' hy' => h y' (List.mem_cons_of_mem y hy')
    exact ⟨x :: xs, .cons hx hxs⟩

theorem forall_of_forall₂_imp {α β : Type} {R : α → β → Prop} {P : β → Prop} {xs : List α}
    {ys : List β} (h : List.Forall₂ (fun x y => R x y → P y) xs ys) (hR : List.Forall₂ R xs ys) :
    ∀ y ∈ ys, P y := by
  intro y hy
  have hP : List.Forall₂ (fun _ y => P y) xs ys := List.Forall₂.mp (fun _ _ himp hxy => himp hxy) h hR
  obtain ⟨x, -, hPy⟩ := exists_of_mem_forall₂ hP hy
  exact hPy

namespace Value

variable {v w : Value} {xs ys : List Value} {d e : Document}

/-- Equal in every place: the arrays and documents have the same shape and keys, and what stands in
them is equal in queries. -/
inductive SameContent : Value → Value → Prop
  | plain {v w : Value} (hw : w.isPlain) (h : v.agrees w) : SameContent v w
  | array {xs ys : List Value} (h : List.Forall₂ SameContent xs ys) :
    SameContent (.array xs) (.array ys)
  | document {d e : Document} (hkeys : d.keys = e.keys)
    (h : List.Forall₂ SameContent d.values e.values) : SameContent (.document d) (.document e)

/-- Nothing in the value ties: there is no NaN at any depth and nothing that queries do not look
into. -/
inductive IsTransparent : Value → Prop
  | plain {v : Value} (hv : v.isPlain) (hnan : v.isNaN = false) (hclass : v.valueClass ≠ .other) :
    IsTransparent v
  | array {xs : List Value} (h : ∀ x ∈ xs, IsTransparent x) : IsTransparent (.array xs)
  | document {d : Document} (h : ∀ v ∈ d.values, IsTransparent v) : IsTransparent (.document d)

theorem agrees_iff_order_eq_of_not_isPlain (hw : w.isPlain = false) :
    v.agrees w ↔ v.order w = .eq := by
  rw [agrees_iff_order_eq]
  apply and_iff_left
  cases w with
  | array | document => exact not_tiesWith rfl nofun
  | _ => cases hw

theorem array_agrees_iff : (array xs).agrees (.array ys) ↔
    List.Forall₂ (fun x y => x.agrees y ∨ x.TiesWith y) xs ys := by
  rw [agrees_iff_order_eq_of_not_isPlain rfl, array_order_eq_iff]
  simp only [order_eq_iff_agrees]

theorem document_agrees_iff : (document d).agrees (.document e) ↔
    d.keys = e.keys ∧ List.Forall₂ (fun v w => v.agrees w ∨ v.TiesWith w) d.values e.values := by
  rw [agrees_iff_order_eq_of_not_isPlain rfl, document_order_eq_iff]
  simp only [order_eq_iff_agrees]

theorem forall₂_agrees_iff : List.Forall₂ (fun x y => x.agrees y) xs ys ↔
    List.Forall₂ (fun x y => x.agrees y ∨ x.TiesWith y) xs ys ∧
      ∀ q ∈ xs.zip ys, ¬q.1.TiesWith q.2 := by
  simp only [← order_eq_iff_agrees]
  simp only [List.forall₂_iff_zip, agrees_iff_order_eq]
  constructor
  · rintro ⟨hlength, h⟩
    exact ⟨⟨hlength, fun hq => (h hq).1⟩, fun q hq => (h hq).2⟩
  · rintro ⟨⟨hlength, h⟩, hties⟩
    exact ⟨hlength, fun hq => ⟨h hq, hties _ hq⟩⟩

theorem SameContent.order_eq (h : v.SameContent w) : v.order w = .eq := by
  induction w using compoundInduction generalizing v with
  | plain w hw =>
    cases h with
    | plain _ h => exact (agrees_iff_order_eq.mp h).1
    | array | document => cases hw
  | array ys ih =>
    cases h with
    | plain hw => cases hw
    | array h => exact array_order_eq_iff.mpr (forall₂_imp_of_mem_right (fun y hy _ => ih y hy) h)
  | document e ih =>
    cases h with
    | plain hw => cases hw
    | document hkeys h =>
      exact document_order_eq_iff.mpr
        ⟨hkeys, forall₂_imp_of_mem_right (fun w hw _ => ih w hw) h⟩

theorem IsTransparent.sameContent (hw : w.IsTransparent) (h : v.order w = .eq) :
    v.SameContent w := by
  induction w using compoundInduction generalizing v with
  | plain w hplain =>
    cases hw with
    | plain _ hnan hclass =>
      exact .plain hplain (agrees_iff_order_eq.mpr ⟨h, not_tiesWith hnan hclass⟩)
    | array | document => cases hplain
  | array ys ih =>
    cases hw with
    | plain hplain => cases hplain
    | array hys =>
      obtain ⟨xs, rfl, hxs⟩ := exists_of_order_array_eq h
      exact .array (forall₂_imp_of_mem_right (fun y hy _ => ih y hy (hys y hy)) hxs)
  | document e ih =>
    cases hw with
    | plain hplain => cases hplain
    | document he =>
      obtain ⟨d, rfl, hkeys, hd⟩ := exists_of_order_document_eq h
      exact .document hkeys (forall₂_imp_of_mem_right (fun w hw _ => ih w hw (he w hw)) hd)

theorem exists_tiesWith_of_other (hw : w.valueClass = .other) : ∃ v : Value, v.TiesWith w := by
  obtain rfl | hmin := eq_or_ne w .minKey
  · exact ⟨.maxKey, .inr ⟨rfl, rfl, by decide⟩⟩
  · refine ⟨.minKey, .inr ⟨rfl, hw, fun h => hmin ?_⟩⟩
    exact ((same_of_isAtom rfl).mp h).symm

/-- Whatever is not transparent ranks equal with a value of other content. -/
theorem exists_order_eq (w : Value) :
    ∃ v : Value, v.order w = .eq ∧ (v.SameContent w → w.IsTransparent) := by
  induction w using compoundInduction with
  | plain w hplain =>
    have htied {v : Value} (h : v.TiesWith w) :
        ∃ v : Value, v.order w = .eq ∧ (v.SameContent w → w.IsTransparent) := by
      refine ⟨v, h.order_eq, fun hcontent => ?_⟩
      cases hcontent with
      | plain _ hagrees => exact absurd h (agrees_iff_order_eq.mp hagrees).2
      | array | document => cases hplain
    by_cases hclass : w.valueClass = .other
    · obtain ⟨v, hv⟩ := exists_tiesWith_of_other hclass
      exact htied hv
    · cases hnan : w.isNaN with
      | false => exact ⟨w, Std.ReflCmp.compare_self, fun _ => .plain hplain hnan hclass⟩
      | true => exact htied (.inl ⟨hnan, hnan⟩)
  | array ys ih =>
    obtain ⟨xs, hxs⟩ := exists_forall₂ ih
    refine ⟨.array xs, array_order_eq_iff.mpr (hxs.imp fun _ _ h => h.1), fun hcontent => ?_⟩
    cases hcontent with
    | plain hplain => cases hplain
    | array h => exact .array (forall_of_forall₂_imp (hxs.imp fun _ _ h => h.2) h)
  | document e ih =>
    obtain ⟨vs, hvs⟩ := exists_forall₂ ih
    have hlength : vs.length = e.length := by simpa [Document.values] using hvs.length_eq
    let d : Document := e.keys.zip vs
    have hkeys : d.keys = e.keys := List.map_fst_zip (by simp [Document.keys, hlength])
    have hvalues : d.values = vs := List.map_snd_zip (by simp [Document.keys, hlength])
    rw [← hvalues] at hvs
    refine ⟨.document d, document_order_eq_iff.mpr ⟨hkeys, hvs.imp fun _ _ h => h.1⟩, ?_⟩
    intro hcontent
    cases hcontent with
    | plain hplain => cases hplain
    | document _ h => exact .document (forall_of_forall₂_imp (hvs.imp fun _ _ h => h.2) h)

theorem eq_of_mem_candidates {c : Value} (hv : v.order w = .eq) (hc : c ∈ v.candidates)
    (h : c.order w = .eq) : c = v := by
  -- An array never ranks equal with one of its own items.
  obtain rfl | ⟨items, rfl, hitem⟩ := mem_candidates.mp hc
  · rfl
  · have hself : c.order (.array items) ≠ .eq :=
      order_ne_of_mem (fun xs _ h => ⟨xs, h.symm, fun x hx => ⟨x, hx, rfl⟩⟩) items _ c rfl hitem
    exact absurd (Std.TransCmp.eq_trans h (Std.OrientedCmp.eq_symm hv)) hself

end Value

namespace Filter

theorem accepts_eq_iff_of_not_isPlain {v : Value} (hv : v.isPlain = false) (d : Document)
    (p : Path) : (p.eq v).accepts d ↔ ∃ u ∈ d.lookup p, ∃ c ∈ u.candidates, c.order v = .eq := by
  have hnull : v ≠ .null := by
    rintro rfl
    cases hv
  simp only [Path.eq, accepts, Operator.holds, Operator.holdsEq_iff, hnull, and_false, false_or,
    Operator.anyCandidate, List.any_eq_true, Value.agrees_iff_order_eq_of_not_isPlain hv]

theorem accepts_eq_by_content_iff {v : Value} (hv : v.isPlain = false) (p : Path) :
    (∀ d : Document,
      (p.eq v).accepts d ↔ ∃ u ∈ d.lookup p, ∃ c ∈ u.candidates, c.SameContent v) ↔
      v.IsTransparent := by
  constructor
  · intro h
    obtain ⟨w, hw, htransparent⟩ := v.exists_order_eq
    obtain ⟨d, hd⟩ := Document.exists_lookup_eq p w
    have haccepts : (p.eq v).accepts d := by
      rw [accepts_eq_iff_of_not_isPlain hv, hd]
      exact ⟨w, List.mem_cons_self, w, Value.mem_candidates.mpr (.inl rfl), hw⟩
    obtain ⟨u, hu, c, hc, hcontent⟩ := (h d).mp haccepts
    obtain rfl : u = w := by simpa [hd] using hu
    obtain rfl := Value.eq_of_mem_candidates hw hc hcontent.order_eq
    exact htransparent hcontent
  · intro htransparent d
    rw [accepts_eq_iff_of_not_isPlain hv]
    refine exists_congr fun u => and_congr_right fun _ => exists_congr fun c =>
      and_congr_right fun _ => ?_
    exact ⟨htransparent.sameContent, Value.SameContent.order_eq⟩

/-- Arrays are equal when what stands in each place is equal or ties, and documents when their keys
are the same besides. So they are equal just when they are equal in each place, unless they are
equal and something ties in a place; and equality with an array or a document as the literal asks
for its content just when nothing at any depth of it ties. -/
theorem compound_equality_by_place (xs ys : List Value) (d e : Document) (p : Path) (v : Value)
    (hv : v.isPlain = false) :
    ((Value.array xs).agrees (.array ys) ↔
      List.Forall₂ (fun x y => x.agrees y ∨ x.TiesWith y) xs ys) ∧
    ((Value.document d).agrees (.document e) ↔ d.keys = e.keys ∧
      List.Forall₂ (fun v w => v.agrees w ∨ v.TiesWith w) d.values e.values) ∧
    (((Value.array xs).agrees (.array ys) ↔ List.Forall₂ (fun x y => x.agrees y) xs ys) ↔
      ((Value.array xs).agrees (.array ys) → ∀ q ∈ xs.zip ys, ¬q.1.TiesWith q.2)) ∧
    (((Value.document d).agrees (.document e) ↔
        d.keys = e.keys ∧ List.Forall₂ (fun v w => v.agrees w) d.values e.values) ↔
      ((Value.document d).agrees (.document e) →
        ∀ q ∈ d.values.zip e.values, ¬q.1.TiesWith q.2)) ∧
    ((∀ stored : Document, (p.eq v).accepts stored ↔
        ∃ u ∈ stored.lookup p, ∃ c ∈ u.candidates, c.SameContent v) ↔ v.IsTransparent) := by
  refine ⟨Value.array_agrees_iff, Value.document_agrees_iff, ?_, ?_, ?_⟩
  · rw [Value.forall₂_agrees_iff, ← Value.array_agrees_iff]
    exact iff_self_and
  · rw [Value.forall₂_agrees_iff, ← and_assoc, ← Value.document_agrees_iff]
    exact iff_self_and
  · exact accepts_eq_by_content_iff hv p

/-- A list with a number and a document against the same content in other types. -/
theorem compound_equality_of_grades :
    let p : Path := ⟨"grades", []⟩
    let e : Document := [("grade", .string "a")]
    let ys : List Value := [.int32 1, .document e]
    let d : Document := [("grade", .symbol "a")]
    let xs : List Value := [.double ⟨0x3ff0000000000000⟩, .document d]
    (Value.array ys).isPlain = false ∧ (Value.array ys).IsTransparent ∧
      List.Forall₂ (fun x y => x.agrees y ∨ x.TiesWith y) xs ys ∧
      ∃ u ∈ Document.lookup [("grades", .array xs)] p, ∃ c ∈ u.candidates,
        c.SameContent (.array ys) := by
  intro p e ys d xs
  have he : (Value.document e).IsTransparent :=
    .document fun w hw => by
      obtain rfl := List.mem_singleton.mp hw
      exact .plain rfl rfl (by decide)
  have hys : (Value.array ys).IsTransparent := .array fun w hw => by
    obtain rfl | rfl := List.mem_pair.mp hw
    · exact .plain rfl rfl (by decide)
    · exact he
  have hagrees : (Value.array xs).agrees (.array ys) := by decide +kernel
  have haccepts : (p.eq (.array ys)).accepts [("grades", .array xs)] := by decide +kernel
  obtain ⟨hplaces, -, -, -, hcontent⟩ := compound_equality_by_place xs ys d e p (.array ys) rfl
  exact ⟨rfl, hys, hplaces.mp hagrees, (hcontent.mpr hys _).mp haccepts⟩

/-- Two timestamps differ, but a list with the one equals a list with the other; and a NaN is not
equal to itself, but a list with it is. -/
theorem compound_equality_of_timestamps :
    let p : Path := ⟨"a", []⟩
    let stored : Value := .timestamp 1 1
    let asked : Value := .timestamp 2 2
    let nan : Value := .double .nan
    ((Value.array [stored]).agrees (.array [asked]) = true ∧
      ¬List.Forall₂ (fun x y => x.agrees y = true) [stored] [asked]) ∧
    ((Value.array [nan]).agrees (.array [nan]) = true ∧
      ¬List.Forall₂ (fun x y => x.agrees y = true) [nan] [nan]) ∧
    (p.eq (.array [asked])).accepts [("a", .array [stored])] = true ∧
    (p.eq asked).accepts [("a", .array [stored])] = false := by
  intro p stored asked nan
  have hplace {v w : Value} (h : v.agrees w = false) :
      ¬List.Forall₂ (fun x y => x.agrees y = true) [v] [w] := by
    rintro (_ | ⟨hagrees, -⟩)
    rw [h] at hagrees
    cases hagrees
  refine ⟨⟨by decide +kernel, hplace (by decide +kernel)⟩,
    ⟨by decide +kernel, hplace (by decide +kernel)⟩, by decide +kernel, by decide +kernel⟩

end Filter

end Docbase
