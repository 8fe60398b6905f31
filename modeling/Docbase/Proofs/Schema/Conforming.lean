import Docbase.Catalogue
import Docbase.Proofs.Document
import Docbase.Proofs.Number.Position
import Docbase.Proofs.Path
import Docbase.Proofs.Schema
import Docbase.Proofs.Value.Order

namespace Docbase

namespace Number

variable {cs : List Char} {s t : String}

theorem natOfDigits?_map_toLower (cs : List Char) :
    natOfDigits? (cs.map Char.toLower) = natOfDigits? cs := by
  have hall : (cs.map Char.toLower).all Char.isDigit = cs.all Char.isDigit := by
    simp [List.all_map, Function.comp_def, Text.isDigit_toLower]
  by_cases hdigits : cs.all Char.isDigit
  · have hlower : ∀ c ∈ cs, c.toLower = c := fun c hc =>
      Text.toLower_of_isDigit (List.all_eq_true.mp hdigits c hc)
    have hsame : cs.map Char.toLower = cs := (List.map_congr_left hlower).trans (List.map_id cs)
    rw [hsame]
  · have hnone : ∀ ds : List Char, ¬ds.all Char.isDigit → natOfDigits? ds = none := by
      intro ds hds
      simp [natOfDigits?, hds]
    rw [hnone cs hdigits, hnone _ (by rwa [hall])]

theorem positionDigits_map_toLower (cs : List Char) :
    positionDigits (cs.map Char.toLower) = (positionDigits cs).map Char.toLower := by
  cases cs with
  | nil => rfl
  | cons c cs =>
    by_cases hc : c = '+'
    · rw [hc]
      rfl
    · have hlower : c.toLower ≠ '+' := mt (Text.toLower_eq_iff (by decide)).mp hc
      rw [List.map_cons]
      unfold positionDigits
      split
      next heq => exact absurd (List.cons.inj heq).1 hlower
      next =>
        split
        next heq => exact absurd (List.cons.inj heq).1 hc
        next => rfl

theorem index?_congr (h : Text.sameIgnoringCase s t) : index? s = index? t := by
  have hdigits : ∀ u : String, natOfDigits? (positionDigits u.toList) =
      natOfDigits? (positionDigits (u.toList.map Char.toLower)) := by
    intro u
    rw [positionDigits_map_toLower, natOfDigits?_map_toLower]
  rw [index?_eq, index?_eq, hdigits s, hdigits t, Text.sameIgnoringCase_iff_eq.mp h]

theorem head?_or_isIndex_of_index? (h : (index? s).isSome) :
    s.toList.head? = some '+' ∨ Schema.isIndex s := by
  by_cases hplus : s.toList.head? = some '+'
  · exact .inl hplus
  · right
    have hdigits : positionDigits s.toList = s.toList := by
      unfold positionDigits
      split
      next cs heq => exact absurd (by rw [heq]; rfl) hplus
      next => rfl
    rw [index?_eq, hdigits] at h
    by_cases hall : s.toList.all Char.isDigit
    · exact hall
    · simp [natOfDigits?, hall] at h

theorem isSome_index?_of_isIndex (hs : s ≠ "") (h : Schema.isIndex s)
    (hsize : ∀ n, natOfDigits? s.toList = some n → n < UInt64.size) : (index? s).isSome := by
  have hdigits : positionDigits s.toList = s.toList := by
    unfold positionDigits
    split
    next cs heq =>
      rw [Schema.isIndex, heq] at h
      cases h
    next => rfl
  have hne : s.toList ≠ [] := mt String.toList_eq_nil_iff.mp hs
  obtain ⟨n, hn⟩ : ∃ n, natOfDigits? s.toList = some n := by
    rw [Schema.isIndex] at h
    simp [natOfDigits?, hne, h]
  rw [index?_eq, hdigits, hn, Option.bind_some, if_pos (hsize n hn)]
  rfl

end Number

namespace Value

variable {s : String} {items : List Value} {v w : Value}

theorem children_singleton_of_name (h : Number.index? s = none) (v : Value) :
    (array [v]).children s = (v.field? s).toList := by
  simp only [children, h, List.filterMap_cons, List.filterMap_nil]
  cases v.field? s <;> rfl

theorem exists_array_follow_ne_nil {rest : List String} (hs : Number.index? s = none)
    (h : v.follow (s :: rest) ≠ []) : ∃ items, (array items).follow (s :: rest) ≠ [] := by
  cases v with
  | array items => exact ⟨items, h⟩
  | document d =>
    refine ⟨[.document d], ?_⟩
    rw [follow_cons, children_singleton_of_name hs]
    rwa [follow_cons] at h
  | _ => exact absurd rfl h

theorem exists_of_field? (h : v.field? s = some w) :
    ∃ d, v = .document d ∧ Document.get? d s = some w := by
  cases v with
  | document d => exact ⟨d, rfl, h⟩
  | _ => cases h

theorem mem_children_of_field? (h : v.field? s = some w) : w ∈ v.children s := by
  obtain ⟨d, rfl, hw⟩ := exists_of_field? h
  simp [children, hw]

end Value

namespace Schema

variable {ρ : Type}

/-- The values of a shape. `null` may stand for a value of any shape, and a declared field may be
missing. -/
inductive Conforms (shapes : ρ → List (String × Schema ρ)) : Schema ρ → Value → Prop
  | null (s : Schema ρ) : Conforms shapes s .null
  | any (v : Value) : Conforms shapes any v
  | scalar {v : Value} (hv : v.isPlain) : Conforms shapes scalar v
  | array {item : Schema ρ} {items : List Value} (h : ∀ v ∈ items, Conforms shapes item v) :
    Conforms shapes (array item) (.array items)
  | record {ref : ρ} {d : Document}
    (h : ∀ name s v, (shapes ref).lookup name = some s → d.get? name = some v →
      Conforms shapes s v) :
    Conforms shapes (record ref) (.document d)

theorem Conforms.of_field {shapes : ρ → List (String × Schema ρ)} {ref : ρ} {name : String}
    {s : Schema ρ} {v : Value} (hs : (shapes ref).lookup name = some s)
    (hv : Conforms shapes s v) : Conforms shapes (.record ref) (.document [(name, v)]) := by
  apply Conforms.record
  intro name' s' v' hs' hv'
  rw [Document.get?_cons] at hv'
  split at hv'
  next heq =>
    obtain rfl := Option.some.inj hv'
    obtain rfl := Option.some.inj (hs.symm.trans (heq ▸ hs'))
    exact hv
  next => cases hv'

variable (shapes : ρ → List (String × Schema ρ))

/-- The shape at which the resolution of a path ends. -/
def endOf? (s : Schema ρ) (p : Path) : Option (Schema ρ) :=
  (s.walk? shapes p.segments).map Prod.snd

variable {shapes} {segment : String}

theorem lookup_of_matchField? {fields : List (String × Schema ρ)} {name : String} {s : Schema ρ}
    (h : matchField? fields segment = some (name, s)) : fields.lookup name = some s := by
  obtain ⟨t, ht⟩ := exists_lookup_of_mem (matchField?_cases h).1
  have hname := matchField?_of_find? (find?_of_lookup ht)
  rw [matchField?_name h] at hname
  cases hname
  exact ht

theorem resolve?_eq_some_iff_walk? {s : Schema ρ} {p q : Path} :
    s.resolve? shapes p = some q ↔ ∃ last, walk? shapes p.segments s = some (q.segments, last) := by
  rw [resolve?_eq_some_iff]
  constructor
  · rintro ⟨next, last, hstep, hwalk⟩
    exact ⟨last, walk?_cons_eq_some_iff.mpr ⟨q.head, q.tail, next, hstep, hwalk, rfl⟩⟩
  · rintro ⟨last, h⟩
    obtain ⟨name, names, next, hstep, hwalk, hnames⟩ := walk?_cons_eq_some_iff.mp h
    obtain ⟨rfl, rfl⟩ := List.cons.inj hnames
    exact ⟨next, last, hstep, hwalk⟩

theorem ne_empty_of_mem_walk? {segments names : List String} {s last : Schema ρ}
    (h : walk? shapes segments s = some (names, last)) : ∀ segment ∈ segments, segment ≠ "" := by
  induction segments generalizing s names with
  | nil => exact nofun
  | cons segment rest ih =>
    obtain ⟨name, names', next, hstep, hrest, rfl⟩ := walk?_cons_eq_some_iff.mp h
    exact List.forall_mem_cons.mpr ⟨ne_empty_of_step? hstep, ih hrest⟩

/-- What a segment leads to has the shape that its resolution leads to. -/
theorem conforms_of_mem_children {s next : Schema ρ} {name : String} {v w : Value}
    (hstep : s.step? shapes segment = some (name, next))
    (hread : isIndex segment = (Number.index? segment).isSome) (hv : Conforms shapes s v)
    (hw : w ∈ v.children name) : Conforms shapes next w := by
  have hindex : Number.index? name = Number.index? segment :=
    Number.index?_congr (sameIgnoringCase_of_step? hstep)
  have hne := ne_empty_of_step? hstep
  -- An array hands a name on to its items.
  induction s generalizing v with
  | scalar => cases hstep
  | any =>
    rw [step?, if_neg hne] at hstep
    cases hstep
    exact .any w
  | record ref =>
    rw [step?, if_neg hne] at hstep
    cases hv with
    | null => cases hw
    | record hfields =>
      exact hfields name next w (lookup_of_matchField? hstep) (Option.mem_toList.mp hw)
  | array item ih =>
    rw [step?, if_neg hne] at hstep
    cases hv with
    | null => cases hw
    | array hitems =>
      by_cases hposition : isIndex segment
      · rw [if_pos hposition] at hstep
        cases hstep
        obtain ⟨i, hi⟩ := Option.isSome_iff_exists.mp (hread ▸ hposition)
        rw [Value.children_array_of_index hi, Option.mem_toList] at hw
        exact hitems w (List.mem_of_getElem? hw)
      · rw [if_neg hposition] at hstep
        have hnone : Number.index? name = none := by
          rw [hindex]
          simpa [hread] using hposition
        obtain ⟨u, hu, hfield⟩ := (Value.mem_children_array_of_name hnone).mp hw
        exact ih hstep (hitems u hu) (Value.mem_children_of_field? hfield)

theorem conforms_of_mem_follow {segments names : List String} {s last : Schema ρ} {v w : Value}
    (hwalk : walk? shapes segments s = some (names, last))
    (hread : ∀ segment ∈ segments, isIndex segment = (Number.index? segment).isSome)
    (hv : Conforms shapes s v) (hw : w ∈ Value.follow names v) : Conforms shapes last w := by
  induction segments generalizing s names v with
  | nil =>
    cases hwalk
    obtain rfl := List.mem_singleton.mp hw
    exact hv
  | cons segment rest ih =>
    obtain ⟨name, names', next, hstep, hrest, rfl⟩ := walk?_cons_eq_some_iff.mp hwalk
    rw [Value.follow_cons] at hw
    obtain ⟨u, hu, hw⟩ := List.mem_flatMap.mp hw
    have hnext := conforms_of_mem_children hstep (hread segment List.mem_cons_self) hv hu
    exact ih hrest (fun t ht => hread t (List.mem_cons_of_mem _ ht)) hnext hw

/-- A path that resolves ends at some shape, and every value that it addresses is of this shape. -/
theorem lookup_conforms {s : Schema ρ} {p q : Path} {v : Value}
    (hresolve : s.resolve? shapes p = some q)
    (hsize : ∀ segment ∈ p.segments, ∀ n, Number.natOfDigits? segment.toList = some n →
      n < UInt64.size)
    (hsign : ∀ segment ∈ p.segments, segment.toList.head? ≠ some '+')
    (hv : Conforms shapes s v) :
    ∃ last, s.endOf? shapes p = some last ∧
      (∀ w ∈ v.follow q.segments, Conforms shapes last w) ∧
      ∀ d : Document, v = .document d → ∀ w ∈ d.lookup q, Conforms shapes last w := by
  obtain ⟨last, hwalk⟩ := resolve?_eq_some_iff_walk?.mp hresolve
  have hread : ∀ segment ∈ p.segments, isIndex segment = (Number.index? segment).isSome := by
    intro segment hsegment
    have hne := ne_empty_of_mem_walk? hwalk segment hsegment
    apply Bool.eq_iff_iff.mpr
    constructor
    · intro h
      exact Number.isSome_index?_of_isIndex hne h (hsize segment hsegment)
    · intro h
      exact (Number.head?_or_isIndex_of_index? h).resolve_left (hsign segment hsegment)
  have hfollow : ∀ w ∈ v.follow q.segments, Conforms shapes last w := fun w hw =>
    conforms_of_mem_follow hwalk hread hv hw
  refine ⟨last, ?_, hfollow, ?_⟩
  · rw [endOf?, hwalk]
    rfl
  · rintro d rfl
    exact hfollow

/-- A label in a tree of nodes, reached by a position and through an array. One of the nodes is
missing. -/
theorem lookup_conforms_of_tree :
    let T := Catalogue.tree
    let d : Document := [("root", .document [("kids", .array [.null,
      .document [("kids", .array [.document [("label", .string "a")], .null])]])])]
    T.schema.resolve? T.shapes (Path.ofString "ROOT.Kids.1.kids.LABEL") =
        some (Path.ofString "root.kids.1.kids.label") ∧
      Conforms T.shapes T.schema (.document d) ∧
      Value.string "a" ∈ d.lookup (Path.ofString "root.kids.1.kids.label") ∧
      Conforms T.shapes .scalar (.string "a") := by
  intro T d
  have hresolve : T.schema.resolve? T.shapes (Path.ofString "ROOT.Kids.1.kids.LABEL") =
      some (Path.ofString "root.kids.1.kids.label") := by rfl
  have hleaf : Conforms T.shapes (.record "Node") (.document [("label", .string "a")]) :=
    .of_field rfl (.scalar rfl)
  have hnode : Conforms T.shapes (.record "Node")
      (.document [("kids", .array [.document [("label", .string "a")], .null])]) := by
    apply Conforms.of_field (s := .array (.record "Node")) rfl
    apply Conforms.array
    simp [hleaf, Conforms.null]
  have hd : Conforms T.shapes T.schema (.document d) := by
    apply Conforms.of_field (s := .record "Node") rfl
    apply Conforms.of_field (s := .array (.record "Node")) rfl
    apply Conforms.array
    simp [hnode, Conforms.null]
  have hlookup : Value.string "a" ∈ d.lookup (Path.ofString "root.kids.1.kids.label") :=
    List.mem_singleton.mpr rfl
  obtain ⟨last, hlast, -, h⟩ := lookup_conforms hresolve (by decide) (by decide) hd
  obtain rfl : Schema.scalar = last := Option.some.inj hlast
  exact ⟨hresolve, hd, hlookup, h d rfl _ hlookup⟩

end Schema

end Docbase
