import Docbase.Proofs.Filter.Comparison
import Docbase.Proofs.Filter.Connective
import Docbase.Proofs.Value.Alike

namespace Docbase

def Document.Exchangeable (d e : Document) : Prop :=
  ∀ p, List.Forall₂ Value.Exchangeable (d.lookup p) (e.lookup p)

theorem Document.Exchangeable.refl (d : Document) : d.Exchangeable d :=
  fun _ => List.forall₂_same.mpr fun v _ => .refl v

namespace Operator

theorem holdsContains_of_isWhole {values : List Value} {v : Value} (h : v.isWhole) :
    holdsContains values v = anyCandidate values (·.agrees v) := by
  cases v with
  | string s | array xs => cases h
  | _ => rfl

theorem holds_startsWith_of_isWhole {values : List Value} {v : Value} (h : v.isWhole) :
    holds values v .startsWith = false := by
  cases v with
  | string s => cases h
  | _ => rfl

theorem holds_endsWith_of_isWhole {values : List Value} {v : Value} (h : v.isWhole) :
    holds values v .endsWith = false := by
  cases v with
  | string s => cases h
  | _ => rfl

theorem holdsAnyOf_of_ne_array {values : List Value} {v : Value} (h : ∀ xs, v ≠ .array xs) :
    holdsAnyOf values v = holdsAnyOf values (.array [v]) := by
  cases v with
  | array xs => exact absurd rfl (h xs)
  | _ => rfl

variable {values values' : List Value} (hvalues : List.Forall₂ Value.Exchangeable values values')
include hvalues

theorem isEmpty_exchange : values.isEmpty = values'.isEmpty := by
  cases hvalues <;> rfl

theorem anyCandidate_exchange {p q : Value → Bool}
    (hpq : ∀ c c' : Value, c.Exchangeable c' → p c = q c') :
    anyCandidate values p = anyCandidate values' q :=
  Value.any_congr_of_forall₂ hvalues fun _ _ hu => Value.any_congr_of_forall₂ hu.candidates hpq

theorem holdsAnyOf_array_exchange {xs ys : List Value}
    (h : List.Forall₂ Value.Exchangeable xs ys) :
    holdsAnyOf values (.array xs) = holdsAnyOf values' (.array ys) := by
  have hnull : (xs.any fun o => o.valueClass = .null) = ys.any fun o => o.valueClass = .null :=
    Value.any_congr_of_forall₂ h fun x y hxy => by rw [hxy.valueClass_eq]
  have hany : anyCandidate values (fun c => xs.any (·.agrees c)) =
      anyCandidate values' fun c => ys.any (·.agrees c) :=
    anyCandidate_exchange hvalues fun c c' hc =>
      Value.any_congr_of_forall₂ h fun x y hxy => hxy.agrees_congr hc
  simp only [holdsAnyOf, hnull, hany, isEmpty_exchange hvalues]

variable {v w : Value} (h : v.Exchangeable w)
include h

theorem holdsEq_exchange : holdsEq values v = holdsEq values' w := by
  have hany : anyCandidate values (·.agrees v) = anyCandidate values' (·.agrees w) :=
    anyCandidate_exchange hvalues fun c c' hc => hc.agrees_congr h
  rw [Bool.eq_iff_iff, holdsEq_iff, holdsEq_iff, ← List.isEmpty_iff, ← List.isEmpty_iff,
    isEmpty_exchange hvalues, h.eq_null_iff, hany]

theorem holdsContains_exchange : holdsContains values v = holdsContains values' w := by
  obtain ⟨xs, ys, rfl, rfl, hitems⟩ | ⟨s, rfl, rfl⟩ | ⟨hv, hw⟩ := h.shape
  · exact Value.any_congr_of_forall₂ hvalues fun u u' hu => hu.holdsAll_congr hitems
  · exact anyCandidate_exchange hvalues fun c c' hc => hc.isStringWith_congr _
  · rw [holdsContains_of_isWhole hv, holdsContains_of_isWhole hw]
    exact anyCandidate_exchange hvalues fun c c' hc => hc.agrees_congr h

theorem holdsAnyOf_exchange : holdsAnyOf values v = holdsAnyOf values' w := by
  have hwhole {u : Value} (hu : u.isWhole) : ∀ xs, u ≠ .array xs := by
    rintro xs rfl
    cases hu
  have hsingle : holdsAnyOf values (.array [v]) = holdsAnyOf values' (.array [w]) :=
    holdsAnyOf_array_exchange hvalues (.cons h .nil)
  obtain ⟨xs, ys, rfl, rfl, hitems⟩ | ⟨s, rfl, rfl⟩ | ⟨hv, hw⟩ := h.shape
  · exact holdsAnyOf_array_exchange hvalues hitems
  · exact hsingle
  · rw [holdsAnyOf_of_ne_array (hwhole hv), holdsAnyOf_of_ne_array (hwhole hw), hsingle]

theorem holdsOrdered_exchange (test : Ordering → Bool) :
    holdsOrdered values v test = holdsOrdered values' w test :=
  anyCandidate_exchange hvalues fun c c' hc => by rw [hc.compareWithin?_congr h]

theorem holds_exchange (op : Operator) : op.holds values v = op.holds values' w := by
  cases op with
  | eq | ne => simp only [holds, holdsEq_exchange hvalues h]
  | gt | gte | lt | lte => simp only [holds, holdsOrdered_exchange hvalues h]
  | contains | notContains => simp only [holds, holdsContains_exchange hvalues h]
  | anyOf | noneOf => simp only [holds, holdsAnyOf_exchange hvalues h]
  | startsWith =>
    obtain ⟨xs, ys, rfl, rfl, -⟩ | ⟨s, rfl, rfl⟩ | ⟨hv, hw⟩ := h.shape
    · rfl
    · exact anyCandidate_exchange hvalues fun c c' hc => hc.isStringWith_congr _
    · rw [holds_startsWith_of_isWhole hv, holds_startsWith_of_isWhole hw]
  | endsWith =>
    obtain ⟨xs, ys, rfl, rfl, -⟩ | ⟨s, rfl, rfl⟩ | ⟨hv, hw⟩ := h.shape
    · rfl
    · exact anyCandidate_exchange hvalues fun c c' hc => hc.isStringWith_congr _
    · rw [holds_endsWith_of_isWhole hv, holds_endsWith_of_isWhole hw]

end Operator

namespace Filter

mutual

def literals : Filter → List Value
  | all parts => literalsIn parts
  | any parts => literalsIn parts
  | negation inner => literals inner
  | present .. => []
  | comparison _ _ v => [v]

def literalsIn : List Filter → List Value
  | [] => []
  | f :: rest => literals f ++ literalsIn rest

end

mutual

theorem length_literals_of_same : ∀ f g : Filter, f.same g →
    f.literals.length = g.literals.length
  | all xs, all ys, h => length_literalsIn_of_same xs ys h
  | any xs, any ys, h => length_literalsIn_of_same xs ys h
  | negation f, negation g, h => length_literals_of_same f g h
  | present .., present .., _ => rfl
  | comparison .., comparison .., _ => rfl

theorem length_literalsIn_of_same : ∀ xs ys : List Filter, sameParts xs ys →
    (literalsIn xs).length = (literalsIn ys).length
  | [], [], _ => rfl
  | f :: xs, g :: ys, h => by
    rw [sameParts, Bool.and_eq_true] at h
    rw [literalsIn, literalsIn, List.length_append, List.length_append,
      length_literals_of_same f g h.1, length_literalsIn_of_same xs ys h.2]

end

theorem mem_zip_literalsIn {f g : Filter} {xs ys : List Filter} (h : f.same g) {p : Value × Value} :
    p ∈ (literalsIn (f :: xs)).zip (literalsIn (g :: ys)) ↔
      p ∈ f.literals.zip g.literals ∨ p ∈ (literalsIn xs).zip (literalsIn ys) := by
  rw [literalsIn, literalsIn, List.zip_append (length_literals_of_same f g h), List.mem_append]

mutual

theorem same_of_mem_zip_literals : ∀ f g : Filter, f.same g →
    ∀ p ∈ f.literals.zip g.literals, p.1.same p.2
  | all xs, all ys, h => same_of_mem_zip_literalsIn xs ys h
  | any xs, any ys, h => same_of_mem_zip_literalsIn xs ys h
  | negation f, negation g, h => same_of_mem_zip_literals f g h
  | present .., present .., _ => nofun
  | comparison p op v, comparison q op' w, h => by
    simp only [same, Bool.and_eq_true] at h
    intro pair hpair
    obtain rfl := List.mem_singleton.mp hpair
    exact h.2

theorem same_of_mem_zip_literalsIn : ∀ xs ys : List Filter, sameParts xs ys →
    ∀ p ∈ (literalsIn xs).zip (literalsIn ys), p.1.same p.2
  | [], [], _ => nofun
  | f :: xs, g :: ys, h => by
    rw [sameParts, Bool.and_eq_true] at h
    intro p hp
    exact ((mem_zip_literalsIn h.1).mp hp).elim (same_of_mem_zip_literals f g h.1 p)
      (same_of_mem_zip_literalsIn xs ys h.2 p)

end

/-- `Literalwise R f g`: the filters are the same but for their literals, and these are related in
each place. -/
inductive Literalwise (R : Value → Value → Prop) : Filter → Filter → Prop
  | all {fs gs : List Filter} (h : List.Forall₂ (Literalwise R) fs gs) :
    Literalwise R (.all fs) (.all gs)
  | any {fs gs : List Filter} (h : List.Forall₂ (Literalwise R) fs gs) :
    Literalwise R (.any fs) (.any gs)
  | negation {f g : Filter} (h : Literalwise R f g) : Literalwise R (.negation f) (.negation g)
  | present (p : Path) (expected : Bool) : Literalwise R (.present p expected) (.present p expected)
  | comparison (p : Path) (op : Operator) {v w : Value} (h : R v w) :
    Literalwise R (.comparison p op v) (.comparison p op w)

mutual

theorem literalwise_of_same : ∀ f g : Filter, f.same g →
    (∀ p ∈ f.literals.zip g.literals, p.1.Alike p.2) → f.Literalwise Value.Alike g
  | all xs, all ys, h, ha => .all (forall₂_literalwise_of_same xs ys h ha)
  | any xs, any ys, h, ha => .any (forall₂_literalwise_of_same xs ys h ha)
  | negation f, negation g, h, ha => .negation (literalwise_of_same f g h ha)
  | present p a, present q b, h, _ => by
    simp only [same, Bool.and_eq_true, decide_eq_true_eq, beq_iff_eq] at h
    rw [h.1, h.2]
    exact .present q b
  | comparison p op v, comparison q op' w, h, ha => by
    simp only [same, Bool.and_eq_true, decide_eq_true_eq] at h
    rw [h.1.1, h.1.2]
    exact .comparison q op' (ha (v, w) (List.mem_singleton_self _))

theorem forall₂_literalwise_of_same : ∀ xs ys : List Filter, sameParts xs ys →
    (∀ p ∈ (literalsIn xs).zip (literalsIn ys), p.1.Alike p.2) →
      List.Forall₂ (Literalwise Value.Alike) xs ys
  | [], [], _, _ => .nil
  | f :: xs, g :: ys, h, ha => by
    rw [sameParts, Bool.and_eq_true] at h
    exact .cons
      (literalwise_of_same f g h.1 fun p hp => ha p ((mem_zip_literalsIn h.1).mpr (.inl hp)))
      (forall₂_literalwise_of_same xs ys h.2 fun p hp =>
        ha p ((mem_zip_literalsIn h.1).mpr (.inr hp)))

end

section Exchange

variable {R : Value → Value → Prop} {d e : Document}

mutual

theorem accepts_exchange (hR : ∀ v w, R v w → v.Exchangeable w) (hd : d.Exchangeable e) :
    ∀ f g : Filter, f.Literalwise R g → f.accepts d = g.accepts e
  | all fs, all gs, .all h => (acceptsIn_exchange hR hd fs gs h).1
  | any fs, any gs, .any h => (acceptsIn_exchange hR hd fs gs h).2
  | negation f, negation g, .negation h => by rw [accepts, accepts, accepts_exchange hR hd f g h]
  | present p expected, _, .present _ _ => by
    rw [accepts, accepts, Operator.isEmpty_exchange (hd p)]
  | comparison p op v, comparison _ _ w, .comparison _ _ h =>
    Operator.holds_exchange (hd p) (hR v w h) op

theorem acceptsIn_exchange (hR : ∀ v w, R v w → v.Exchangeable w) (hd : d.Exchangeable e) :
    ∀ fs gs : List Filter, List.Forall₂ (Literalwise R) fs gs →
      acceptsAll d fs = acceptsAll e gs ∧ acceptsAny d fs = acceptsAny e gs
  | [], [], _ => ⟨rfl, rfl⟩
  | f :: fs, g :: gs, .cons h hs => by
    have hrest := acceptsIn_exchange hR hd fs gs hs
    rw [acceptsAll, acceptsAll, acceptsAny, acceptsAny, accepts_exchange hR hd f g h, hrest.1,
      hrest.2]
    exact ⟨rfl, rfl⟩

end

end Exchange

theorem accepts_congr (d : Document) (f g : Filter) (h : f.same g)
    (ha : ∀ p ∈ f.literals.zip g.literals, p.1.Alike p.2) : f.accepts d = g.accepts d :=
  accepts_exchange (fun _ _ => Value.Alike.exchangeable) (.refl d) f g (literalwise_of_same f g h ha)

end Filter

end Docbase
