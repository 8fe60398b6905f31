import Docbase.Proofs.Document
import Docbase.Proofs.Filter.Literal
import Docbase.Proofs.Sorting

namespace Docbase

/-- `Retyped v w`: the values are the same but for numbers at any depth, which are of one size in
each place. The scopes of code are not looked into. -/
inductive Value.Retyped : Value → Value → Prop
  | refl (v : Value) : Retyped v v
  | number {v w : Value} {m n : Number} (hm : v.number? = some m) (hn : w.number? = some n)
    (h : m.size? = n.size?) : Retyped v w
  | array {xs ys : List Value} (h : List.Forall₂ Retyped xs ys) : Retyped (.array xs) (.array ys)
  | document {d e : Document} (hkeys : d.keys = e.keys)
    (h : List.Forall₂ Retyped d.values e.values) : Retyped (.document d) (.document e)

theorem forall₂_toList_getElem? {R : Value → Value → Prop} {xs ys : List Value}
    (h : List.Forall₂ R xs ys) (i : Nat) : List.Forall₂ R xs[i]?.toList ys[i]?.toList := by
  induction h generalizing i with
  | nil => exact .nil
  | cons hxy _ ih =>
    cases i with
    | zero => exact .cons hxy .nil
    | succ i => exact ih i

theorem Document.forall₂_get? {R : Value → Value → Prop} {d e : Document} (hkeys : d.keys = e.keys)
    (h : List.Forall₂ R d.values e.values) (k : String) :
    List.Forall₂ R (d.get? k).toList (e.get? k).toList := by
  induction d generalizing e with
  | nil =>
    cases e with
    | nil => exact .nil
    | cons field e => cases hkeys
  | cons field d ih =>
    cases e with
    | nil => cases hkeys
    | cons field' e =>
      obtain ⟨l, v⟩ := field
      obtain ⟨l', w⟩ := field'
      obtain ⟨hl, hkeys⟩ := List.cons.inj hkeys
      obtain ⟨hvw, h⟩ := List.forall₂_cons.mp h
      change l = l' at hl
      rw [get?_cons, get?_cons, hl]
      split
      · exact .cons hvw .nil
      · exact ih hkeys h

namespace Value.Retyped

variable {v w : Value} {s : String}

theorem exchangeable (h : v.Retyped w) : v.Exchangeable w := by
  induction w using compoundInduction generalizing v with
  | plain w hw =>
    cases h with
    | refl => exact .refl _
    | number hm hn h => exact .number hm hn h
    | array | document => cases hw
  | array ys ih =>
    cases h with
    | refl => exact .refl _
    | number _ hn => cases hn
    | array h => exact .array (forall₂_imp_of_mem_right (fun y hy _ => ih y hy) h)
  | document e ih =>
    cases h with
    | refl => exact .refl _
    | number _ hn => cases hn
    | document hkeys h =>
      have hvalues := forall₂_imp_of_mem_right (fun w hw _ h => (ih w hw h).order_eq) h
      exact .document (document_order_eq_iff.mpr ⟨hkeys, hvalues⟩)

theorem forall₂_refl (vs : List Value) : List.Forall₂ Retyped vs vs :=
  List.forall₂_same.mpr fun v _ => refl v

theorem field? (h : v.Retyped w) (s : String) :
    List.Forall₂ Retyped (v.field? s).toList (w.field? s).toList := by
  cases h with
  | refl => exact forall₂_refl _
  | number hm hn =>
    have hnone {u : Value} {n : Number} (hu : u.number? = some n) : u.field? s = none := by
      cases u with
      | document d => cases hu
      | _ => rfl
    rw [hnone hm, hnone hn]
    exact .nil
  | array => exact .nil
  | document hkeys h => exact Document.forall₂_get? hkeys h s

theorem children (h : v.Retyped w) (s : String) :
    List.Forall₂ Retyped (v.children s) (w.children s) := by
  cases h with
  | refl => exact forall₂_refl _
  | number hm hn =>
    have hnil {u : Value} {n : Number} (hu : u.number? = some n) : u.children s = [] := by
      cases u with
      | document d => cases hu
      | array items => cases hu
      | _ => rfl
    rw [hnil hm, hnil hn]
    exact .nil
  | @array xs ys h =>
    cases hs : Number.index? s with
    | some i =>
      rw [children_array_of_index hs, children_array_of_index hs]
      exact forall₂_toList_getElem? h i
    | none =>
      simp only [Value.children, hs, List.filterMap_eq_flatMap_toList]
      exact List.rel_flatMap h fun _ _ hxy => hxy.field? s
  | document hkeys h => exact Document.forall₂_get? hkeys h s

theorem follow (segments : List String) (h : v.Retyped w) :
    List.Forall₂ Retyped (v.follow segments) (w.follow segments) := by
  induction segments generalizing v w with
  | nil => exact .cons h .nil
  | cons s segments ih =>
    rw [follow_cons, follow_cons]
    exact List.rel_flatMap (h.children s) fun _ _ => ih

end Value.Retyped

theorem Document.exchangeable_of_retyped {d e : Document}
    (h : (Value.document d).Retyped (.document e)) : d.Exchangeable e := by
  intro p
  have hlookup : List.Forall₂ Value.Retyped (d.lookup p) (e.lookup p) :=
    List.rel_flatMap (h.field? p.head) fun _ _ => Value.Retyped.follow p.tail
  exact hlookup.imp fun _ _ => Value.Retyped.exchangeable

namespace SortKey

variable {v v' w w' : Value} {d d' e e' : Document}

theorem spread_exchange (h : v.Exchangeable w) :
    List.Forall₂ Value.Exchangeable (spread v) (spread w) := by
  have hwhole {u : Value} (hu : u.isWhole) : spread u = [u] := by
    cases u with
    | array xs => cases hu
    | _ => rfl
  obtain ⟨xs, ys, rfl, rfl, hitems⟩ | ⟨s, rfl, rfl⟩ | ⟨hv, hw⟩ := h.shape
  · exact hitems
  · exact .cons h .nil
  · rw [hwhole hv, hwhole hw]
    exact .cons h .nil

theorem prefer_exchange (direction : Direction) (hv : v.Exchangeable v') (hw : w.Exchangeable w') :
    (prefer direction v w).Exchangeable (prefer direction v' w') := by
  cases direction with
  | asc | desc =>
    simp only [prefer, hv.order_congr hw]
    split
    · assumption
    · assumption

theorem valueOf_exchange (key : SortKey) (h : d.Exchangeable e) :
    (key.valueOf d).Exchangeable (key.valueOf e) := by
  have hspread : List.Forall₂ Value.Exchangeable ((d.lookup key.path).flatMap spread)
      ((e.lookup key.path).flatMap spread) :=
    List.rel_flatMap (h key.path) fun _ _ => spread_exchange
  unfold valueOf
  generalize (d.lookup key.path).flatMap spread = vs at hspread
  generalize (e.lookup key.path).flatMap spread = ws at hspread
  cases hspread with
  | nil => exact .refl .null
  | cons hvw hrest =>
    refine List.rel_foldl (R := Value.Exchangeable) ?_ hvw hrest
    exact fun _ _ hv _ _ hw => prefer_exchange key.direction hv hw

theorem compareByAll_exchange (keys : List SortKey) (hd : d.Exchangeable d')
    (he : e.Exchangeable e') : compareByAll keys d e = compareByAll keys d' e' := by
  have hkey (key : SortKey) : key.compareBy d e = key.compareBy d' e' := by
    unfold compareBy
    rw [(key.valueOf_exchange hd).order_congr (key.valueOf_exchange he),
      (key.valueOf_exchange he).order_congr (key.valueOf_exchange hd)]
  induction keys with
  | nil => rfl
  | cons key keys ih => rw [compareByAll, compareByAll, hkey, ih]

end SortKey

/-- Documents and literals with their numbers in other types are filtered and sorted alike. -/
theorem Document.queried_alike_of_retyped {d d' : Document}
    (hd : (Value.document d).Retyped (.document d')) :
    (∀ f f' : Filter, f.Literalwise Value.Retyped f' → f.accepts d = f'.accepts d') ∧
      ∀ (keys : List SortKey) (e e' : Document), (Value.document e).Retyped (.document e') →
        SortKey.compareByAll keys d e = SortKey.compareByAll keys d' e' := by
  have hd := exchangeable_of_retyped hd
  constructor
  · intro f f' hf
    exact Filter.accepts_exchange (fun _ _ => Value.Retyped.exchangeable) hd f f' hf
  · intro keys e e' he
    exact SortKey.compareByAll_exchange keys hd (exchangeable_of_retyped he)

/-- Two numbers as integers, as a double and as the negative zero, in documents inside an array and
in a list of options. -/
theorem Document.queried_alike_of_scores :
    let three : Value := .double ⟨0x4008000000000000⟩
    let negativeZero : Value := .double ⟨0x8000000000000000⟩
    let p : Path := ⟨"grades", ["score"]⟩
    let graded (u v : Value) : Document :=
      [("grades", .array [.document [("score", u)], .document [("score", v)]])]
    let asked (u v : Value) : Filter := .all [p.anyOf [.null, u], .negation (p.lt v)]
    (Value.document (graded (.int32 3) negativeZero)).Retyped (.document (graded three (.int32 0))) ∧
      (asked three (.int64 0)).Literalwise Value.Retyped (asked (.int64 3) negativeZero) ∧
      (asked three (.int64 0)).accepts (graded (.int32 3) negativeZero) ∧
      (asked (.int64 3) negativeZero).accepts (graded three (.int32 0)) ∧
      SortKey.compareByAll [⟨p, .desc⟩] (graded (.int32 3) negativeZero)
        (graded three (.int32 0)) = .eq := by
  intro three negativeZero p graded asked
  have hgraded {u u' v v' : Value} (hu : u.Retyped u') (hv : v.Retyped v') :
      (Value.document (graded u v)).Retyped (.document (graded u' v')) :=
    .document rfl (.cons (.array (.cons (.document rfl (.cons hu .nil))
      (.cons (.document rfl (.cons hv .nil)) .nil))) .nil)
  have hasked {u u' v v' : Value} (hu : u.Retyped u') (hv : v.Retyped v') :
      (asked u v).Literalwise Value.Retyped (asked u' v') :=
    .all (.cons (.comparison p .anyOf (.array (.cons (.refl .null) (.cons hu .nil))))
      (.cons (.negation (.comparison p .lt hv)) .nil))
  have hd : (Value.document (graded (.int32 3) negativeZero)).Retyped
      (.document (graded three (.int32 0))) :=
    hgraded (.number rfl rfl (by decide +kernel)) (.number rfl rfl (by decide +kernel))
  have hf : (asked three (.int64 0)).Literalwise Value.Retyped (asked (.int64 3) negativeZero) :=
    hasked (.number rfl rfl (by decide +kernel)) (.number rfl rfl (by decide +kernel))
  obtain ⟨hfilter, hsort⟩ := queried_alike_of_retyped hd
  have haccepts : (asked three (.int64 0)).accepts (graded (.int32 3) negativeZero) := by
    decide +kernel
  refine ⟨hd, hf, haccepts, ?_, ?_⟩
  · rw [← hfilter _ _ hf, haccepts]
  · rw [hsort [⟨p, .desc⟩] _ _ (.refl _)]
    exact SortKey.compareByAll_self _ _

end Docbase
