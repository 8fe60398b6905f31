import Docbase.Proofs.Schema.Conforming
import Mathlib.Logic.Relation

namespace Docbase.Schema

variable {ρ : Type}

/-- Values of a shape with all that it declares: no declared field is missing or `null`, and no array
is empty. -/
inductive Complete (shapes : ρ → List (String × Schema ρ)) : Schema ρ → Value → Prop
  | any (v : Value) : Complete shapes any v
  | scalar {v : Value} (hv : v.isPlain) : Complete shapes scalar v
  | array {item : Schema ρ} {items : List Value} (hne : items ≠ [])
    (h : ∀ v ∈ items, Complete shapes item v) : Complete shapes (array item) (.array items)
  | record {ref : ρ} {d : Document}
    (hpresent : ∀ name s, (shapes ref).lookup name = some s →
      ∃ v, d.get? name = some v ∧ v ≠ .null)
    (h : ∀ name s v, (shapes ref).lookup name = some s → d.get? name = some v →
      Complete shapes s v) :
    Complete shapes (record ref) (.document d)

/-- A place on the way of a path: what is left of it, and a value with its shape. -/
structure Place (ρ : Type) where
  rest : List String
  shape : Schema ρ
  value : Value

namespace Place

/-- One step on the way of a path to which all arrays are transparent. -/
inductive Step (shapes : ρ → List (String × Schema ρ)) : Place ρ → Place ρ → Prop
  | field {segment name : String} {rest : List String} {ref : ρ} {s : Schema ρ} {v w : Value}
    (hs : matchField? (shapes ref) segment = some (name, s)) (hw : v.field? name = some w) :
    Step shapes ⟨segment :: rest, record ref, v⟩ ⟨rest, s, w⟩
  | position {segment : String} {rest : List String} {item : Schema ρ} {items : List Value}
    {i : Nat} {w : Value} (hs : isIndex segment) (hi : Number.index? segment = some i)
    (hw : items[i]? = some w) :
    Step shapes ⟨segment :: rest, array item, .array items⟩ ⟨rest, item, w⟩
  | through {segment : String} {rest : List String} {item : Schema ρ} {items : List Value}
    {w : Value} (hs : ¬isIndex segment) (hw : w ∈ items) :
    Step shapes ⟨segment :: rest, array item, .array items⟩ ⟨segment :: rest, item, w⟩

/-- What a path asks of the value at a place: a position is one of the array, and a free-form value
holds the rest of the path. -/
def Holds : Place ρ → Prop
  | ⟨segment :: _, array _, .array items⟩ =>
    isIndex segment → ∃ i, Number.index? segment = some i ∧ i < items.length
  | ⟨rest, any, v⟩ => v.follow rest ≠ []
  | _ => True

def Serves (shapes : ρ → List (String × Schema ρ)) (x : Place ρ) : Prop :=
  ∀ y, Relation.ReflTransGen (Step shapes) x y → y.Holds

variable {shapes : ρ → List (String × Schema ρ)} {x y : Place ρ}

theorem serves_iff : x.Serves shapes ↔ x.Holds ∧ ∀ y, Step shapes x y → y.Serves shapes := by
  constructor
  · intro h
    exact ⟨h x .refl, fun y hxy z hyz => h z (.head hxy hyz)⟩
  · rintro ⟨hx, h⟩ z hxz
    obtain rfl | ⟨y, hxy, hyz⟩ := Relation.ReflTransGen.cases_head hxz
    · exact hx
    · exact h y hxy z hyz

theorem Serves.holds (h : x.Serves shapes) : x.Holds := (serves_iff.mp h).1

theorem Serves.step (h : x.Serves shapes) (hxy : Step shapes x y) : y.Serves shapes :=
  (serves_iff.mp h).2 y hxy

variable {segment : String} {rest : List String} {s item : Schema ρ} {v : Value}
  {items : List Value}

theorem serves_any (h : v.follow rest ≠ []) : Serves shapes ⟨rest, any, v⟩ := by
  apply serves_iff.mpr
  refine ⟨?_, ?_⟩
  · cases rest <;> exact h
  · rintro y ⟨⟩

theorem serves_nil : Serves shapes ⟨[], s, v⟩ := by
  apply serves_iff.mpr
  refine ⟨?_, ?_⟩
  · cases s with
    | any => exact List.cons_ne_nil v []
    | _ => trivial
  · rintro y ⟨⟩

theorem serves_record {ref : ρ} {name : String} {w : Value}
    (hs : matchField? (shapes ref) segment = some (name, s)) (hw : v.field? name = some w)
    (h : Serves shapes ⟨rest, s, w⟩) : Serves shapes ⟨segment :: rest, record ref, v⟩ := by
  apply serves_iff.mpr
  refine ⟨trivial, ?_⟩
  intro y hy
  cases hy with
  | field hs' hw' =>
    obtain ⟨rfl, rfl⟩ := Prod.mk.inj (Option.some.inj (hs.symm.trans hs'))
    obtain rfl := Option.some.inj (hw.symm.trans hw')
    exact h

theorem serves_position {i : Nat} (hs : isIndex segment) (hi : Number.index? segment = some i)
    {w : Value} (hw : items[i]? = some w) (h : Serves shapes ⟨rest, item, w⟩) :
    Serves shapes ⟨segment :: rest, array item, .array items⟩ := by
  apply serves_iff.mpr
  refine ⟨fun _ => ⟨i, hi, (List.getElem?_eq_some_iff.mp hw).1⟩, ?_⟩
  intro y hy
  cases hy with
  | position _ hj hu =>
    obtain rfl := Option.some.inj (hi.symm.trans hj)
    obtain rfl := Option.some.inj (hw.symm.trans hu)
    exact h
  | through hname => exact absurd hs hname

theorem serves_through (hs : ¬isIndex segment)
    (h : ∀ w ∈ items, Serves shapes ⟨segment :: rest, item, w⟩) :
    Serves shapes ⟨segment :: rest, array item, .array items⟩ := by
  apply serves_iff.mpr
  refine ⟨fun hindex => absurd hindex hs, ?_⟩
  intro y hy
  cases hy with
  | position hindex => exact absurd hindex hs
  | through _ hw => exact h _ hw

end Place

/-- Whether a segment goes through one array at most to a declared field, unless it is a position. -/
def passesSingly (segment : String) : Schema ρ → Bool
  | array (record _) => true
  | array _ => isIndex segment
  | _ => true

/-- Whether every segment does so on the way through the shapes. -/
def walksSingly (shapes : ρ → List (String × Schema ρ)) : List String → Schema ρ → Bool
  | [], _ => true
  | segment :: rest, s => s.passesSingly segment &&
    (s.step? shapes segment).all fun (_, next) => walksSingly shapes rest next

/-- Documents with everything that the shape declares and the path asks for. -/
structure Furnishes (shapes : ρ → List (String × Schema ρ)) (s : Schema ρ) (p : Path)
    (d : Document) : Prop where
  complete : Complete shapes s (.document d)
  serves : Place.Serves shapes ⟨p.segments, s, .document d⟩

variable {shapes : ρ → List (String × Schema ρ)} {segment name : String}
  {segments rest names : List String} {s next last item : Schema ρ} {v w : Value}

theorem walksSingly_cons (h : s.step? shapes segment = some (name, next)) :
    walksSingly shapes (segment :: rest) s =
      (s.passesSingly segment && walksSingly shapes rest next) := by
  simp only [walksSingly, h, Option.all_some]

theorem names_eq_of_walk?_any (h : walk? shapes segments any = some (names, last)) :
    names = segments := by
  induction segments generalizing names with
  | nil =>
    cases h
    rfl
  | cons segment rest ih =>
    obtain ⟨name, names', next, hstep, hrest, rfl⟩ := walk?_cons_eq_some_iff.mp h
    have hne := ne_empty_of_step? hstep
    rw [step?, if_neg hne] at hstep
    cases hstep
    rw [ih hrest]

theorem walksSingly_any (segments : List String) : walksSingly shapes segments any := by
  induction segments with
  | nil => rfl
  | cons segment rest ih =>
    by_cases hne : segment = ""
    · simp [walksSingly, passesSingly, step?, hne]
    · simp [walksSingly, passesSingly, step?, hne, ih]

theorem passesSingly_of_isIndex (h : isIndex segment) : s.passesSingly segment := by
  unfold passesSingly
  split
  next => rfl
  next => exact h
  next => rfl

theorem exists_record_of_passesSingly (h : (array item).passesSingly segment)
    (hname : ¬isIndex segment) : ∃ ref, item = record ref := by
  cases item with
  | record ref => exact ⟨ref, rfl⟩
  | _ => exact absurd h hname

theorem index?_eq_none_of_step? (hstep : s.step? shapes segment = some (name, next))
    (hread : (Number.index? segment).isSome → isIndex segment) (hname : ¬isIndex segment) :
    Number.index? name = none := by
  rw [Number.index?_congr (sameIgnoringCase_of_step? hstep)]
  exact Option.not_isSome_iff_eq_none.mp (mt hread hname)

namespace Complete

theorem conforms (h : Complete shapes s v) : Conforms shapes s v := by
  induction h with
  | any v => exact .any v
  | scalar hv => exact .scalar hv
  | array _ _ ih => exact .array ih
  | record _ _ ih => exact .record ih

theorem singleton (h : Complete shapes item v) :
    Complete shapes (.array item) (.array [v]) := by
  apply Complete.array (List.cons_ne_nil _ _)
  intro u hu
  obtain rfl := List.mem_singleton.mp hu
  exact h

theorem of_field {ref : ρ} (hfields : shapes ref = [(name, s)]) (hne : v ≠ .null)
    (hv : Complete shapes s v) : Complete shapes (.record ref) (.document [(name, v)]) := by
  have hlookup : ∀ name' s', (shapes ref).lookup name' = some s' → name' = name ∧ s' = s := by
    intro name' s' h
    rw [hfields, lookup_cons] at h
    split at h
    next heq => exact ⟨heq, (Option.some.inj h).symm⟩
    next => cases h
  apply Complete.record
  · intro name' s' hs'
    obtain ⟨rfl, -⟩ := hlookup name' s' hs'
    exact ⟨v, Document.get?_cons_self .., hne⟩
  · intro name' s' v' hs' hv'
    obtain ⟨rfl, rfl⟩ := hlookup name' s' hs'
    obtain rfl := Option.some.inj ((Document.get?_cons_self ..).symm.trans hv')
    exact hv

theorem set {items : List Value} (h : Complete shapes (.array item) (.array items))
    (hw : Complete shapes item w) (i : Nat) :
    Complete shapes (.array item) (.array (items.set i w)) := by
  cases h with
  | array hne hitems =>
    apply Complete.array
    · simpa using hne
    · intro u hu
      obtain hu | rfl := List.mem_or_eq_of_mem_set hu
      · exact hitems u hu
      · exact hw

theorem exists_field {ref : ρ} (h : Complete shapes (.record ref) v)
    (hs : matchField? (shapes ref) segment = some (name, s)) :
    ∃ w, v.field? name = some w ∧ w ≠ .null ∧ Complete shapes s w := by
  cases h with
  | record hpresent hfields =>
    have hlookup := lookup_of_matchField? hs
    obtain ⟨w, hw, hne⟩ := hpresent name s hlookup
    exact ⟨w, hw, hne, hfields name s w hlookup hw⟩

theorem exists_replaced {ref : ρ} (h : Complete shapes (.record ref) v)
    (hs : matchField? (shapes ref) segment = some (name, next)) (hw : Complete shapes next w)
    (hne : w ≠ .null) :
    ∃ d : Document, Complete shapes (.record ref) (.document d) ∧ d.get? name = some w := by
  cases h with
  | @record _ d hpresent hfields =>
    have hlookup := lookup_of_matchField? hs
    refine ⟨d.insert name w, ?_, by rw [Document.get?_insert, if_pos rfl]⟩
    apply Complete.record
    · intro name' s' hs'
      rw [Document.get?_insert]
      split
      next => exact ⟨w, rfl, hne⟩
      next => exact hpresent name' s' hs'
    · intro name' s' v' hs' hv'
      rw [Document.get?_insert] at hv'
      split at hv'
      next heq =>
        subst heq
        obtain rfl := Option.some.inj hv'
        obtain rfl := Option.some.inj (hlookup.symm.trans hs')
        exact hw
      next => exact hfields name' s' v' hs' hv'

end Complete

/-- From a value that serves the path, a segment that goes through one array at most leads to one
that serves the rest of it. -/
theorem exists_mem_children (hstep : s.step? shapes segment = some (name, next)) (hs : s ≠ any)
    (hsingly : s.passesSingly segment) (hread : (Number.index? segment).isSome → isIndex segment)
    (hv : Complete shapes s v) (hserves : Place.Serves shapes ⟨segment :: rest, s, v⟩) :
    ∃ w ∈ v.children name, Complete shapes next w ∧ Place.Serves shapes ⟨rest, next, w⟩ := by
  have hnone : ¬isIndex segment → Number.index? name = none := index?_eq_none_of_step? hstep hread
  have hne := ne_empty_of_step? hstep
  cases s with
  | any => exact absurd rfl hs
  | scalar => cases hstep
  | record ref =>
    rw [step?, if_neg hne] at hstep
    obtain ⟨w, hw, -, hcomplete⟩ := hv.exists_field hstep
    exact ⟨w, Value.mem_children_of_field? hw, hcomplete, hserves.step (.field hstep hw)⟩
  | array item =>
    rw [step?, if_neg hne] at hstep
    cases hv with
    | @array _ items hitems hcomplete =>
      by_cases hposition : isIndex segment
      · rw [if_pos hposition] at hstep
        cases hstep
        obtain ⟨i, hi, hlt⟩ := hserves.holds hposition
        have hw : items[i]? = some items[i] := List.getElem?_eq_getElem hlt
        refine ⟨items[i], ?_, hcomplete _ (List.getElem_mem hlt),
          hserves.step (.position hposition hi hw)⟩
        rw [Value.children_array_of_index hi, hw]
        exact List.mem_singleton_self _
      · rw [if_neg hposition] at hstep
        obtain ⟨ref, rfl⟩ := exists_record_of_passesSingly hsingly hposition
        obtain ⟨u, hu⟩ := List.exists_mem_of_ne_nil items hitems
        rw [step?, if_neg hne] at hstep
        obtain ⟨w, hw, -, hnext⟩ := (hcomplete u hu).exists_field hstep
        refine ⟨w, ?_, hnext, (hserves.step (.through hposition hu)).step (.field hstep hw)⟩
        exact (Value.mem_children_array_of_name (hnone hposition)).mpr ⟨u, hu, hw⟩

theorem follow_ne_nil (hwalk : walk? shapes segments s = some (names, last))
    (hsingly : walksSingly shapes segments s)
    (hread : ∀ segment ∈ segments, (Number.index? segment).isSome → isIndex segment)
    (hv : Complete shapes s v) (hserves : Place.Serves shapes ⟨segments, s, v⟩) :
    v.follow names ≠ [] := by
  induction segments generalizing s names v with
  | nil =>
    cases hwalk
    exact List.cons_ne_nil v []
  | cons segment rest ih =>
    by_cases hs : s = any
    · subst hs
      rw [names_eq_of_walk?_any hwalk]
      exact hserves.holds
    · obtain ⟨name, names', next, hstep, hrest, rfl⟩ := walk?_cons_eq_some_iff.mp hwalk
      rw [walksSingly_cons hstep, Bool.and_eq_true] at hsingly
      obtain ⟨w, hw, hnext, hserves'⟩ := exists_mem_children hstep hs hsingly.1
        (hread segment List.mem_cons_self) hv hserves
      have hfound := ih hrest hsingly.2 (fun t ht => hread t (List.mem_cons_of_mem _ ht)) hnext
        hserves'
      obtain ⟨u, hu⟩ := List.exists_mem_of_ne_nil _ hfound
      rw [Value.follow_cons]
      exact List.ne_nil_of_mem (List.mem_flatMap.mpr ⟨w, hw, hu⟩)

theorem exists_replaced (hstep : s.step? shapes segment = some (name, next)) (hs : s ≠ any)
    (hsingly : s.passesSingly segment) (hread : (Number.index? segment).isSome → isIndex segment)
    (hv : Complete shapes s v) (hserves : Place.Serves shapes ⟨segment :: rest, s, v⟩)
    (hw : Complete shapes next w) (hne : w ≠ .null)
    (hrest : Place.Serves shapes ⟨rest, next, w⟩) :
    ∃ v', Complete shapes s v' ∧ v' ≠ .null ∧ v'.children name = [w] ∧
      Place.Serves shapes ⟨segment :: rest, s, v'⟩ := by
  have hnone : ¬isIndex segment → Number.index? name = none := index?_eq_none_of_step? hstep hread
  have hsegment := ne_empty_of_step? hstep
  cases s with
  | any => exact absurd rfl hs
  | scalar => cases hstep
  | record ref =>
    rw [step?, if_neg hsegment] at hstep
    obtain ⟨d, hd, hget⟩ := hv.exists_replaced hstep hw hne
    refine ⟨.document d, hd, by simp, ?_, Place.serves_record hstep hget hrest⟩
    exact congrArg Option.toList hget
  | array item =>
    rw [step?, if_neg hsegment] at hstep
    cases hv with
    | @array _ items hitems hcomplete =>
      by_cases hposition : isIndex segment
      · rw [if_pos hposition] at hstep
        cases hstep
        obtain ⟨i, hi, hlt⟩ := hserves.holds hposition
        have hget : (items.set i w)[i]? = some w := by simp [hlt]
        refine ⟨.array (items.set i w), (Complete.array hitems hcomplete).set hw i, by simp, ?_,
          Place.serves_position hposition hi hget hrest⟩
        rw [Value.children_array_of_index hi, hget]
        rfl
      · rw [if_neg hposition] at hstep
        obtain ⟨ref, rfl⟩ := exists_record_of_passesSingly hsingly hposition
        obtain ⟨u, hu⟩ := List.exists_mem_of_ne_nil items hitems
        rw [step?, if_neg hsegment] at hstep
        obtain ⟨d, hd, hget⟩ := (hcomplete u hu).exists_replaced hstep hw hne
        refine ⟨.array [.document d], hd.singleton, by simp, ?_, ?_⟩
        · rw [Value.children_singleton_of_name (hnone hposition)]
          exact congrArg Option.toList hget
        · apply Place.serves_through hposition
          intro u' hu'
          obtain rfl := List.mem_singleton.mp hu'
          exact Place.serves_record hstep hget hrest

/-- Where a segment would have to go through two arrays, or through one to free-form values, all that
it leads to may lie one array too deep. -/
theorem exists_blocked (hstep : s.step? shapes segment = some (name, next))
    (hsingly : ¬s.passesSingly segment) (hread : (Number.index? segment).isSome → isIndex segment)
    (hv : Complete shapes s v) (hserves : Place.Serves shapes ⟨segment :: rest, s, v⟩) :
    ∃ v', Complete shapes s v' ∧ v' ≠ .null ∧ v'.children name = [] ∧
      Place.Serves shapes ⟨segment :: rest, s, v'⟩ := by
  have hsegment := ne_empty_of_step? hstep
  cases s with
  | any | scalar | record => exact absurd rfl hsingly
  | array item =>
    have hposition : ¬isIndex segment := mt passesSingly_of_isIndex hsingly
    have hnone : Number.index? name = none := index?_eq_none_of_step? hstep hread hposition
    cases hv with
    | @array _ items hitems hcomplete =>
      rw [step?, if_neg hsegment, if_neg hposition] at hstep
      cases item with
      | scalar => cases hstep
      | record ref => exact absurd rfl hsingly
      | array inner =>
        refine ⟨.array items, .array hitems hcomplete, by simp, ?_, hserves⟩
        apply List.eq_nil_iff_forall_not_mem.mpr
        intro w hw
        obtain ⟨u, hu, hfield⟩ := (Value.mem_children_array_of_name hnone).mp hw
        cases hcomplete u hu with
        | array => cases hfield
      | any =>
        rw [step?, if_neg hsegment] at hstep
        cases hstep
        obtain ⟨u, hu⟩ := List.exists_mem_of_ne_nil items hitems
        have hheld := (hserves.step (.through hposition hu)).holds
        obtain ⟨deep, hdeep⟩ := Value.exists_array_follow_ne_nil hnone hheld
        refine ⟨.array [.array deep], (Complete.any _).singleton, by simp, ?_, ?_⟩
        · rw [Value.children_singleton_of_name hnone]
          rfl
        · apply Place.serves_through hposition
          intro u' hu'
          obtain rfl := List.mem_singleton.mp hu'
          exact Place.serves_any hdeep

theorem exists_follow_eq_nil (hwalk : walk? shapes segments s = some (names, last))
    (hsingly : ¬walksSingly shapes segments s)
    (hread : ∀ segment ∈ segments, (Number.index? segment).isSome → isIndex segment)
    (hv : Complete shapes s v) (hserves : Place.Serves shapes ⟨segments, s, v⟩) :
    ∃ v', Complete shapes s v' ∧ v' ≠ .null ∧ v'.follow names = [] ∧
      Place.Serves shapes ⟨segments, s, v'⟩ := by
  induction segments generalizing s names v with
  | nil => exact absurd rfl hsingly
  | cons segment rest ih =>
    obtain ⟨name, names', next, hstep, hrest, rfl⟩ := walk?_cons_eq_some_iff.mp hwalk
    obtain ⟨hsegment, hread'⟩ := List.forall_mem_cons.mp hread
    by_cases hpasses : s.passesSingly segment
    · have hs : s ≠ any := by
        rintro rfl
        exact hsingly (walksSingly_any _)
      have hnext : ¬walksSingly shapes rest next := by
        intro h
        exact hsingly (by rw [walksSingly_cons hstep, hpasses, h]; rfl)
      obtain ⟨w, -, hw, hwserves⟩ := exists_mem_children hstep hs hpasses hsegment hv hserves
      obtain ⟨w', hw', hne, hnil, hserves'⟩ := ih hrest hnext hread' hw hwserves
      obtain ⟨v', hv', hne', hchildren, hplace⟩ :=
        exists_replaced hstep hs hpasses hsegment hv hserves hw' hne hserves'
      refine ⟨v', hv', hne', ?_, hplace⟩
      rw [Value.follow_cons, hchildren, List.flatMap_singleton, hnil]
    · obtain ⟨v', hv', hne, hchildren, hplace⟩ := exists_blocked hstep hpasses hsegment hv hserves
      refine ⟨v', hv', hne, ?_, hplace⟩
      rw [Value.follow_cons, hchildren]
      rfl

/-- A path that resolves finds something in all documents with everything that its shape declares
and the path asks for exactly if each of its names goes through one array at most, and there to a
declared field, unless there are no such documents. -/
theorem resolved_found_iff {p q : Path} (hresolve : s.resolve? shapes p = some q)
    (hread : ∀ segment ∈ p.segments, (Number.index? segment).isSome → isIndex segment) :
    (∀ d : Document, Furnishes shapes s p d → d.lookup q ≠ []) ↔
      walksSingly shapes p.segments s ∨ ∀ d : Document, ¬Furnishes shapes s p d := by
  obtain ⟨last, hwalk⟩ := resolve?_eq_some_iff_walk?.mp hresolve
  constructor
  · intro hfound
    by_cases hsingly : walksSingly shapes p.segments s
    · exact .inl hsingly
    · right
      intro d hd
      obtain ⟨v, hv, -, hnil, hserves⟩ :=
        exists_follow_eq_nil hwalk hsingly hread hd.complete hd.serves
      obtain ⟨d', rfl⟩ : ∃ d', v = .document d' := by
        obtain ⟨hcomplete, -⟩ := hd
        cases hcomplete with
        | any => exact absurd (walksSingly_any _) hsingly
        | scalar hplain => cases hplain
        | record =>
          cases hv with
          | record => exact ⟨_, rfl⟩
      exact hfound d' ⟨hv, hserves⟩ hnil
  · rintro (hsingly | hnone) d hd
    · exact follow_ne_nil hwalk hsingly hread hd.complete hd.serves
    · exact absurd hd (hnone d)

theorem resolved_found_in_city :
    let shapes : Nat → List (String × Schema Nat)
      | 0 => [("shops", .array (.record 1))]
      | 1 => [("grades", .array (.record 2))]
      | _ => [("extra", .any)]
    let p : Path := ⟨"SHOPS", ["0", "Grades", "extra", "a"]⟩
    let q : Path := ⟨"shops", ["0", "grades", "extra", "a"]⟩
    let d : Document := [("shops", .array [.document [("grades", .array [.document [("extra",
      .document [("a", .int32 1)])]])]])]
    (record 0).resolve? shapes p = some q ∧ Furnishes shapes (record 0) p d ∧
      d.lookup q ≠ [] := by
  intro shapes p q d
  have hshops : matchField? (shapes 0) "SHOPS" = some ("shops", .array (.record 1)) := by
    rfl
  have hgrades : matchField? (shapes 1) "Grades" = some ("grades", .array (.record 2)) := by
    rfl
  have hextra : matchField? (shapes 2) "extra" = some ("extra", .any) := by
    rfl
  have hcomplete : Complete shapes (record 0) (.document d) := by
    apply Complete.of_field (by rfl) (by exact nofun)
    apply Complete.singleton
    apply Complete.of_field (by rfl) (by exact nofun)
    apply Complete.singleton
    apply Complete.of_field (by rfl) (by exact nofun)
    exact .any _
  have hserves : Place.Serves shapes ⟨p.segments, record 0, .document d⟩ := by
    apply Place.serves_record hshops rfl
    apply Place.serves_position (i := 0) rfl rfl rfl
    apply Place.serves_record hgrades rfl
    apply Place.serves_through (by decide)
    intro w hw
    obtain rfl := List.mem_singleton.mp hw
    apply Place.serves_record hextra rfl
    exact Place.serves_any nofun
  have hresolve : (record 0).resolve? shapes p = some q := by
    subst shapes p q
    rfl
  have hsingly : walksSingly shapes p.segments (record 0) := by
    subst shapes p
    rfl
  have hread : ∀ segment ∈ p.segments, (Number.index? segment).isSome → isIndex segment := by
    subst p
    decide
  have hd : Furnishes shapes (record 0) p d := ⟨hcomplete, hserves⟩
  exact ⟨hresolve, hd, (resolved_found_iff hresolve hread).mpr (.inl hsingly) d hd⟩

/-- A field of the documents in a grid: the path resolves, and nothing is found. -/
theorem not_found_in_grid :
    let shapes : Bool → List (String × Schema Bool)
      | true => [("grid", .array (.array (.record false)))]
      | false => [("x", .scalar)]
    let p : Path := ⟨"grid", ["x"]⟩
    let d : Document := [("grid", .array [.array [.document [("x", .int32 1)]]])]
    (record true).resolve? shapes p = some p ∧ Conforms shapes (record true) (.document d) ∧
      Furnishes shapes (record true) p d ∧ d.lookup p = [] := by
  intro shapes p d
  have hgrid : matchField? (shapes true) "grid" =
      some ("grid", .array (.array (.record false))) := by rfl
  have hx : matchField? (shapes false) "x" = some ("x", .scalar) := by rfl
  have hcomplete : Complete shapes (record true) (.document d) := by
    apply Complete.of_field (by rfl) (by exact nofun)
    apply Complete.singleton
    apply Complete.singleton
    apply Complete.of_field (by rfl) (by exact nofun)
    exact .scalar rfl
  have hserves : Place.Serves shapes ⟨p.segments, record true, .document d⟩ := by
    apply Place.serves_record hgrid rfl
    apply Place.serves_through (by decide)
    intro w hw
    obtain rfl := List.mem_singleton.mp hw
    apply Place.serves_through (by decide)
    intro u hu
    obtain rfl := List.mem_singleton.mp hu
    apply Place.serves_record hx rfl
    exact Place.serves_nil
  exact ⟨rfl, hcomplete.conforms, ⟨hcomplete, hserves⟩, rfl⟩

end Docbase.Schema
