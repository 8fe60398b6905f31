import Docbase.Declaration.Nesting
import Docbase.Proofs.DocumentType.Maintained
import Docbase.Proofs.Schema.Conforming
import Mathlib.Data.List.Nodup
import Mathlib.Logic.Relation

namespace Docbase

namespace Declaration

variable {D : Derived} {c : Constant} {stored text : String}

structure Derived.MadeOf (D : Derived) (library : String) (fields : List Field)
    (identity : Option String) : Prop where
  constants : D.constants = (fields.filter Field.isStored).map (constantFor library identity)
  schema : D.schema = (fields.filter Field.isStored).map fun f => (f.storedName, f.type.text)
  identity_none : D.document = none → identity = none
  identity_some : ∀ part, D.document = some part →
    ∃ f ∈ fields.filter Field.isStored, identity = some f.name ∧ part.identity = f.storedName

theorem mem_of_fieldFor {role : Role} {fields : List Field} {f : Field}
    (h : fieldFor role fields = .ok f) : f ∈ fields := by
  unfold fieldFor at h
  split at h
  next f' hmarked =>
    cases h
    have hmem : f ∈ fields.filter fun f => f.settings.roles.contains role := by
      rw [hmarked]
      exact List.mem_singleton_self f
    exact (List.mem_filter.mp hmem).1
  next => cases h
  next =>
    split at h
    next f' hnamed =>
      cases h
      exact List.mem_of_find?_eq_some hnamed
    next => cases h

theorem exists_of_derive_eq_ok {s : Source} (h : derive s = .ok D) :
    ∃ library fields identity, D.MadeOf library fields identity := by
  obtain ⟨-, -, h⟩ := exists_of_bind_eq_ok h
  obtain ⟨c, -, h⟩ := exists_of_bind_eq_ok h
  obtain ⟨fields, -, h⟩ := exists_of_bind_eq_ok h
  split at h
  next =>
    obtain ⟨identity, hidentity, h⟩ := exists_of_bind_eq_ok h
    obtain ⟨timestamp, -, h⟩ := exists_of_bind_eq_ok h
    split at h
    next hstored =>
      cases h
      rw [Bool.and_eq_true] at hstored
      have hmem := List.mem_filter.mpr ⟨mem_of_fieldFor hidentity, hstored.1⟩
      refine ⟨_, fields, some identity.name, rfl, rfl, nofun, ?_⟩
      rintro part hpart
      cases hpart
      exact ⟨identity, hmem, rfl, rfl⟩
    next => cases h
  next =>
    split at h
    next => cases h
    next =>
      cases h
      exact ⟨_, fields, none, rfl, rfl, fun _ => rfl, nofun⟩

namespace Derived.MadeOf

variable {library : String} {fields : List Field} {identity : Option String}

theorem mem_fields_iff (h : D.MadeOf library fields identity) :
    (c, stored, text) ∈ D.fields ↔ ∃ f ∈ fields.filter Field.isStored,
      c = constantFor library identity f ∧ stored = f.storedName ∧ text = f.type.text := by
  rw [Derived.fields, h.constants, h.schema, List.zip_map', List.mem_map]
  constructor
  · rintro ⟨f, hf, heq⟩
    cases heq
    exact ⟨f, hf, rfl, rfl, rfl⟩
  · rintro ⟨f, hf, rfl, rfl, rfl⟩
    exact ⟨f, hf, rfl⟩

theorem exists_mem_fields (h : D.MadeOf library fields identity) (hc : c ∈ D.constants) :
    ∃ stored text, (c, stored, text) ∈ D.fields ∧
      c.type = library ++ "::field::Field<Self," ++ text ++ ">" := by
  rw [h.constants] at hc
  obtain ⟨f, hf, rfl⟩ := List.mem_map.mp hc
  exact ⟨f.storedName, f.type.text, h.mem_fields_iff.mpr ⟨f, hf, rfl, rfl, rfl⟩, rfl⟩

theorem path_eq_stored (h : D.MadeOf library fields identity) (hc : (c, stored, text) ∈ D.fields)
    (hid : D.document.isSome → c.path ≠ "_id") : c.path = stored := by
  obtain ⟨f, -, rfl, rfl, -⟩ := h.mem_fields_iff.mp hc
  have hother : identity ≠ some f.name := by
    intro heq
    cases hdocument : D.document with
    | none =>
      rw [h.identity_none hdocument] at heq
      cases heq
    | some part => exact hid (by rw [hdocument]; rfl) (if_pos heq)
  exact if_neg hother

theorem path_cases (h : D.MadeOf library fields identity) (hc : (c, stored, text) ∈ D.fields) :
    c.path = stored ∨ D.document.isSome ∧ c.path = "_id" := by
  by_cases hid : D.document.isSome ∧ c.path = "_id"
  · exact .inr hid
  · exact .inl (h.path_eq_stored hc fun hsome hpath => hid ⟨hsome, hpath⟩)

theorem path_of_identity (h : D.MadeOf library fields identity) {part : DocumentPart}
    (hpart : D.document = some part) (hdistinct : (D.schema.map Prod.fst).Nodup)
    (hc : (c, part.identity, text) ∈ D.fields) : c.path = "_id" := by
  obtain ⟨f, hf, rfl, hstored, -⟩ := h.mem_fields_iff.mp hc
  obtain ⟨g, hg, rfl, hname⟩ := h.identity_some part hpart
  rw [h.schema, List.map_map] at hdistinct
  obtain rfl : f = g := List.inj_on_of_nodup_map hdistinct hf hg (hstored.symm.trans hname)
  exact if_pos rfl

end Derived.MadeOf

theorem Derived.mem_schema_of_mem_fields (hc : (c, stored, text) ∈ D.fields) :
    (stored, text) ∈ D.schema := (List.of_mem_zip hc).2

namespace Declarations

variable {Δ : Declarations} {P : Derived → Constant → String → Prop} {owner path : String}
  {t : ValueType}

theorem exists_madeOf (hD : Δ.derived? owner = some D) :
    ∃ library fields identity, D.MadeOf library fields identity := by
  obtain ⟨s, -, hs⟩ := Option.bind_eq_some_iff.mp hD
  apply exists_of_derive_eq_ok
  cases hderive : derive s with
  | error fault =>
    rw [hderive] at hs
    cases hs
  | ok D' =>
    rw [hderive] at hs
    cases hs
    rfl

theorem Leads.embeds {inner : String} (h : Δ.Leads P owner path t) (ht : t.inner? = some inner) :
    Relation.TransGen Δ.Embeds owner inner := by
  induction h generalizing inner with
  | @constant owner stored text D c hD hc =>
    exact .single ⟨D, stored, text, hD, Derived.mem_schema_of_mem_fields hc, ht⟩
  | andThen _ hinner _ ihpath ihrest => exact (ihpath hinner).trans (ihrest ht)

/-- Whether the stored names of a type, and those of the types its fields hold, can be told apart. -/
def WellNamed (Δ : Declarations) (owner : String) : Prop :=
  ∀ inner D, Relation.ReflTransGen Δ.Embeds owner inner → Δ.derived? inner = some D → D.WellNamed

theorem WellNamed.of_leads {inner : String} (hwell : Δ.WellNamed owner)
    (h : Δ.Leads P owner path t) (ht : t.inner? = some inner) : Δ.WellNamed inner :=
  fun _ _ hreach hD => hwell _ _ ((h.embeds ht).to_reflTransGen.trans hreach) hD

variable {T : DocumentType}

theorem records_of_derived? (hD : Δ.derived? owner = some D) : Δ.records owner =
    D.schema.map fun field => (field.1, (Δ.meaning owner field.2).fieldType) := by
  rw [records, hD]

theorem step?_of_mem (hT : T.records = Δ.records) (hD : Δ.derived? owner = some D)
    (hwell : D.WellNamed) (hmem : (stored, text) ∈ D.schema) :
    Schema.step? T.shapes stored (.record owner) =
      some (stored, (Δ.meaning owner text).fieldType.schema) := by
  have hrecords := hT ▸ records_of_derived? hD
  have hdistinct : ((T.records owner).map Prod.fst).Nodup := by
    rw [hrecords, List.map_map]
    exact hwell.distinct
  have hlookup : (T.records owner).lookup stored = some (Δ.meaning owner text).fieldType := by
    apply lookup_of_mem hdistinct
    rw [hrecords]
    exact List.mem_map_of_mem hmem
  rw [Schema.step?, if_neg (hwell.spelled _ hmem).1]
  exact DocumentType.matchField?_shapes hlookup

theorem mem_of_step? (hT : T.records = Δ.records) (hD : Δ.derived? owner = some D)
    {segment name : String} {next : Schema String}
    (h : Schema.step? T.shapes segment (.record owner) = some (name, next)) :
    name ∈ D.schema.map Prod.fst := by
  have hne := Schema.ne_empty_of_step? h
  rw [Schema.step?, if_neg hne] at h
  obtain ⟨⟨field, t⟩, hfield, heq⟩ := List.mem_map.mp (Schema.matchField?_cases h).1
  cases heq
  rw [hT, records_of_derived? hD] at hfield
  obtain ⟨⟨stored, text⟩, hmem, heq⟩ := List.mem_map.mp hfield
  cases heq
  exact List.mem_map_of_mem hmem

theorem step?_of_inner? {shapes : String → List (String × Schema String)} {inner segment : String}
    (ht : t.inner? = some inner) (hne : segment ≠ "") (hname : ¬Schema.isIndex segment) :
    t.fieldType.schema.step? shapes segment = Schema.step? shapes segment (.record inner) := by
  induction t with
  | plain _ => cases ht
  | declared name =>
    cases ht
    rfl
  | optional _ ih | boxed _ ih => exact ih ht
  | list item ih =>
    rw [← ih ht]
    change Schema.step? shapes segment (.array item.fieldType.schema) = _
    rw [Schema.step?, if_neg hne, if_neg hname]

theorem walk?_of_inner? {shapes : String → List (String × Schema String)} {inner : String}
    {p : Path} (ht : t.inner? = some inner) (hne : p.head ≠ "") (hname : ¬Schema.isIndex p.head) :
    t.fieldType.schema.walk? shapes p.segments = Schema.walk? shapes p.segments (.record inner) := by
  rw [Path.segments, Schema.walk?, Schema.walk?, step?_of_inner? ht hne hname]

theorem spelled_path (hD : Δ.derived? owner = some D) (hwell : D.WellNamed)
    (hc : (c, stored, text) ∈ D.fields) :
    c.path ≠ "" ∧ '.' ∉ c.path.toList ∧ ¬Schema.isIndex c.path := by
  obtain ⟨library, fields, identity, hmade⟩ := exists_madeOf hD
  obtain hpath | ⟨-, hpath⟩ := hmade.path_cases hc
  · rw [hpath]
    exact hwell.spelled _ (Derived.mem_schema_of_mem_fields hc)
  · rw [hpath]
    decide

theorem ofString_path (hD : Δ.derived? owner = some D) (hwell : D.WellNamed)
    (hc : (c, stored, text) ∈ D.fields) : Path.ofString c.path = ⟨c.path, []⟩ :=
  Path.ofString_of_not_mem (spelled_path hD hwell hc).2.1

theorem Leads.exists_head (h : Δ.Leads P owner path t) (hwell : Δ.WellNamed owner) :
    ∃ D c stored text, Δ.derived? owner = some D ∧ (c, stored, text) ∈ D.fields ∧
      P D c stored ∧ (Path.ofString path).head = c.path := by
  induction h with
  | @constant owner stored text D c hD hc hP =>
    refine ⟨D, c, stored, text, hD, hc, hP, ?_⟩
    rw [ofString_path hD (hwell _ _ .refl hD) hc]
  | andThen _ _ _ ihpath _ =>
    rw [Path.ofString_dot]
    exact ihpath hwell

theorem Leads.walk?_of_inner? {inner rest : String} {u : ValueType} (hrest : Δ.Leads P inner rest u)
    (hwell : Δ.WellNamed inner) (ht : t.inner? = some inner)
    (shapes : String → List (String × Schema String)) :
    t.fieldType.schema.walk? shapes (Path.ofString rest).segments =
      Schema.walk? shapes (Path.ofString rest).segments (.record inner) := by
  obtain ⟨D, c, stored, text, hD, hc, -, hhead⟩ := hrest.exists_head hwell
  obtain ⟨hne, -, hname⟩ := spelled_path hD (hwell _ _ .refl hD) hc
  rw [← hhead] at hne hname
  exact Declarations.walk?_of_inner? ht hne hname

/-- A path of constants that are spelled as their fields leads through the shapes as it is. -/
theorem Leads.walk?_eq (hT : T.records = Δ.records) (hwell : Δ.WellNamed owner)
    (h : Δ.Leads Derived.Spells owner path t) :
    Schema.walk? T.shapes (Path.ofString path).segments (.record owner) =
      some ((Path.ofString path).segments, t.fieldType.schema) := by
  -- Each constant goes on in the type in which the one before it ends.
  induction h with
  | @constant owner stored text D c hD hc hP =>
    have hD' : D.WellNamed := hwell _ _ .refl hD
    have hstep := step?_of_mem hT hD hD' (Derived.mem_schema_of_mem_fields hc)
    obtain rfl : c.path = stored := hP
    rw [ofString_path hD hD' hc]
    exact Schema.walk?_cons_eq_some_iff.mpr ⟨c.path, [], _, hstep, rfl, rfl⟩
  | andThen hpath hinner hrest ihpath ihrest =>
    have hwell' := hwell.of_leads hpath hinner
    rw [Path.ofString_dot]
    apply Schema.walk?_append (ihpath hwell)
    exact (hrest.walk?_of_inner? hwell' hinner T.shapes).trans (ihrest hwell')

/-- The constant of an identity ends a path, so a field that is stored under its name is enough. -/
theorem Leads.exists_walk? (hT : T.records = Δ.records) (hplain : Δ.KeysPlain)
    (hwell : Δ.WellNamed owner) (h : Δ.Leads Derived.Names owner path t) :
    ∃ last, Schema.walk? T.shapes (Path.ofString path).segments (.record owner) =
        some ((Path.ofString path).segments, last) ∧
      (t.inner? ≠ none → last = t.fieldType.schema) := by
  induction h with
  | @constant owner stored text D c hD hc hP =>
    have hD' : D.WellNamed := hwell _ _ .refl hD
    obtain ⟨⟨stored', text'⟩, hmem, hname⟩ := List.mem_map.mp hP
    obtain rfl : stored' = c.path := hname
    have hstep := step?_of_mem hT hD hD' hmem
    rw [ofString_path hD hD' hc]
    refine ⟨_, Schema.walk?_cons_eq_some_iff.mpr ⟨c.path, [], _, hstep, rfl, rfl⟩, fun hinner => ?_⟩
    have hspells : c.path = stored := by
      by_contra hne
      exact hinner (hplain owner D c stored text hD hc hne)
    have hown := step?_of_mem hT hD hD' (Derived.mem_schema_of_mem_fields hc)
    rw [← hspells, hstep] at hown
    exact (Prod.mk.inj (Option.some.inj hown)).2
  | andThen hpath hinner hrest ihpath ihrest =>
    have hwell' := hwell.of_leads hpath hinner
    obtain ⟨mid, hfront, hmid⟩ := ihpath hwell
    obtain ⟨last, hback, hlast⟩ := ihrest hwell'
    rw [hmid (by rw [hinner]; exact Option.some_ne_none _)] at hfront
    rw [Path.ofString_dot]
    refine ⟨last, Schema.walk?_append hfront ?_, hlast⟩
    exact (hrest.walk?_of_inner? hwell' hinner T.shapes).trans hback

theorem Leads.names_of_walk? (hT : T.records = Δ.records) (hplain : Δ.KeysPlain)
    (hwell : Δ.WellNamed owner) (h : Δ.Leads P owner path t) {last : Schema String}
    (hwalk : Schema.walk? T.shapes (Path.ofString path).segments (.record owner) =
      some ((Path.ofString path).segments, last)) : Δ.Leads Derived.Names owner path t := by
  induction h generalizing last with
  | @constant owner stored text D c hD hc hP =>
    refine .constant hD hc ?_
    rw [ofString_path hD (hwell _ _ .refl hD) hc] at hwalk
    obtain ⟨name, names, next, hstep, -, hnames⟩ := Schema.walk?_cons_eq_some_iff.mp hwalk
    obtain ⟨rfl, -⟩ := List.cons_eq_cons.mp hnames
    exact mem_of_step? hT hD hstep
  | @andThen owner path inner rest t u hpath hinner hrest ihpath ihrest =>
    have hwell' := hwell.of_leads hpath hinner
    have hsegments : (Path.ofString path ++ Path.ofString rest).segments =
      (Path.ofString path).segments ++ (Path.ofString rest).segments := rfl
    rw [Path.ofString_dot, hsegments] at hwalk
    obtain ⟨front, back, mid, hfront, hback, hnames⟩ := Schema.walk?_append_eq_some_iff.mp hwalk
    obtain ⟨rfl, rfl⟩ := List.append_inj hnames (Schema.length_of_walk? hfront).symm
    have hpath' := ihpath hwell hfront
    -- both walks along the front end in the type that goes on
    obtain ⟨mid', hfront', hmid⟩ := hpath'.exists_walk? hT hplain hwell
    have hnext := hmid (by rw [hinner]; exact Option.some_ne_none _)
    rw [hfront, hnext] at hfront'
    obtain rfl := (Prod.mk.inj (Option.some.inj hfront')).2
    rw [hrest.walk?_of_inner? hwell' hinner] at hback
    exact .andThen hpath' hinner (ihrest hwell' hback)

/-- What makes the names of a type of documents fit for paths: no field but the identity answers to
it, and names can be told apart, those of the documents inside included. -/
structure FitsPaths (Δ : Declarations) (name : String) (D : Derived) (part : DocumentPart) :
    Prop where
  derived : Δ.derived? name = some D
  document : D.document = some part
  wellNamed : Δ.WellNamed name
  others : ∀ field ∈ D.schema, field.1 ≠ part.identity →
    field.1 ≠ "_id" ∧ ¬Text.sameIgnoringCase field.1 part.identity

variable {name : String} {part : DocumentPart}

theorem FitsPaths.head_ne (h : Δ.FitsPaths name D part) (hpath : Δ.Leads P name path t)
    (hhead : (Path.ofString path).head ≠ "_id") :
    ¬Text.sameIgnoringCase (Path.ofString path).head part.identity := by
  obtain ⟨D', c, stored, text, hD, hc, -, hc'⟩ := hpath.exists_head h.wellNamed
  obtain rfl : D = D' := Option.some.inj (h.derived.symm.trans hD)
  obtain ⟨library, fields, identity, hmade⟩ := exists_madeOf hD
  have hdistinct := (h.wellNamed _ _ .refl hD).distinct
  rw [hc'] at hhead ⊢
  obtain rfl : c.path = stored := (hmade.path_cases hc).resolve_right fun hid => hhead hid.2
  refine (h.others _ (Derived.mem_schema_of_mem_fields hc) fun heq => ?_).2
  have heq' : c.path = part.identity := heq
  rw [heq'] at hc
  exact hhead (hmade.path_of_identity h.document hdistinct hc)

theorem FitsPaths.resolvePath_iff (h : Δ.FitsPaths name D part) (key : KeyKind)
    (hpath : Δ.Leads P name path t) (hhead : (Path.ofString path).head ≠ "_id") :
    (Δ.documentType name part key).resolvePath (Path.ofString path) = .ok (Path.ofString path) ↔
      ∃ last, Schema.walk? (Δ.documentType name part key).shapes (Path.ofString path).segments
        (.record name) = some ((Path.ofString path).segments, last) := by
  constructor
  · intro hresolve
    obtain ⟨-, -, hid⟩ | ⟨-, hresolve⟩ := DocumentType.resolvePath_cases hresolve
    · exact absurd (congrArg Path.head hid) hhead
    · exact Schema.resolve?_eq_some_iff_walk?.mp hresolve
  · rintro ⟨last, hwalk⟩
    apply DocumentType.resolvePath_of_resolve?
    · exact not_or.mpr ⟨hhead, h.head_ne hpath hhead⟩
    · exact Schema.resolve?_eq_some_iff_walk?.mpr ⟨last, hwalk⟩

theorem FitsPaths.resolvePath_of_spells (h : Δ.FitsPaths name D part) (key : KeyKind)
    (hpath : Δ.Leads Derived.Spells name path t) (hhead : (Path.ofString path).head ≠ "_id") :
    (Δ.documentType name part key).resolvePath (Path.ofString path) = .ok (Path.ofString path) :=
  (h.resolvePath_iff key hpath hhead).mpr ⟨_, hpath.walk?_eq rfl h.wellNamed⟩

theorem FitsPaths.resolvePath_iff_names (h : Δ.FitsPaths name D part) (key : KeyKind)
    (hplain : Δ.KeysPlain) (hpath : Δ.Leads P name path t)
    (hhead : (Path.ofString path).head ≠ "_id") :
    (Δ.documentType name part key).resolvePath (Path.ofString path) = .ok (Path.ofString path) ↔
      Δ.Leads Derived.Names name path t := by
  rw [h.resolvePath_iff key hpath hhead]
  constructor
  · rintro ⟨last, hwalk⟩
    exact hpath.names_of_walk? rfl hplain h.wellNamed hwalk
  · intro hnames
    obtain ⟨last, hwalk, -⟩ := hnames.exists_walk? (T := Δ.documentType name part key) rfl hplain
      h.wellNamed
    exact ⟨last, hwalk⟩

theorem FitsPaths.resolvePath_constant (h : Δ.FitsPaths name D part) (key : KeyKind)
    (hc : (c, stored, text) ∈ D.fields) (hspells : c.path ≠ "_id" → c.path = stored) :
    (Δ.documentType name part key).resolvePath (Path.ofString c.path) =
      .ok (Path.ofString c.path) := by
  by_cases hid : c.path = "_id"
  · rw [hid]
    exact DocumentType.resolvePath_identity
  · apply h.resolvePath_of_spells key (.constant h.derived hc (hspells hid))
    rwa [ofString_path h.derived (h.wellNamed _ _ .refl h.derived) hc]

/-- Where no document is held inside, every constant but that of the identity is spelled as its
field. -/
theorem Leads.spells (h : Δ.Leads P owner path t) (hwell : Δ.WellNamed owner)
    (hinside : ∀ inner D, Relation.TransGen Δ.Embeds owner inner → Δ.derived? inner = some D →
      D.document = none)
    (hhead : ∀ D, Δ.derived? owner = some D → D.document.isSome →
      (Path.ofString path).head ≠ "_id") : Δ.Leads Derived.Spells owner path t := by
  induction h with
  | @constant owner stored text D c hD hc hP =>
    obtain ⟨library, fields, identity, hmade⟩ := exists_madeOf hD
    refine .constant hD hc (hmade.path_eq_stored hc fun hsome => ?_)
    have hne := hhead D hD hsome
    rwa [ofString_path hD (hwell _ _ .refl hD) hc] at hne
  | andThen hpath hinner hrest ihpath ihrest =>
    have hembeds := hpath.embeds hinner
    rw [Path.ofString_dot] at hhead
    refine .andThen (ihpath hwell hinside hhead) hinner (ihrest (hwell.of_leads hpath hinner) ?_ ?_)
    · exact fun inner D hreach => hinside inner D (hembeds.trans hreach)
    · intro D hD hsome
      rw [hinside _ D hembeds hD] at hsome
      cases hsome

/-- Each constant is its own stored form. So is each path that starts with another than the identity
and is put together from constants spelled as their fields: it leads to the values of the type that its
last constant has, and sort keys and comparisons on it stay as they are. Where no document is held
inside, these are all paths. The identity of a document inside has a constant that is not spelled as its
field, and a path with it is its own stored form only if another field of that document has the name. -/
theorem constants_resolve (h : Δ.FitsPaths name D part) (key : KeyKind) :
    let T := Δ.documentType name part key
    (∃ library, ∀ c ∈ D.constants, ∃ stored text, (c, stored, text) ∈ D.fields ∧
      c.type = library ++ "::field::Field<Self," ++ text ++ ">" ∧
      (stored = part.identity → c.path = "_id") ∧ (c.path ≠ "_id" → c.path = stored) ∧
      T.resolvePath (Path.ofString c.path) = .ok (Path.ofString c.path)) ∧
    (∀ path t, Δ.Leads Derived.Spells name path t → (Path.ofString path).head ≠ "_id" →
      T.resolvePath (Path.ofString path) = .ok (Path.ofString path) ∧
      T.schema.endOf? T.shapes (Path.ofString path) = some t.fieldType.schema ∧
      (∀ direction, T.resolveSort ⟨Path.ofString path, direction⟩ =
        .ok ⟨Path.ofString path, direction⟩) ∧
      ∀ op v, T.resolveFilter (.comparison (Path.ofString path) op v) =
        .ok (.comparison (Path.ofString path) op v)) ∧
    ((∀ inner D, Relation.TransGen Δ.Embeds name inner → Δ.derived? inner = some D →
        D.document = none) →
      ∀ path t, Δ.Leads Derived.Any name path t → (Path.ofString path).head ≠ "_id" →
        Δ.Leads Derived.Spells name path t) ∧
    (Δ.KeysPlain → ∀ path t, Δ.Leads Derived.Any name path t → (Path.ofString path).head ≠ "_id" →
      (T.resolvePath (Path.ofString path) = .ok (Path.ofString path) ↔
        Δ.Leads Derived.Names name path t)) := by
  intro T
  obtain ⟨library, fields, identity, hmade⟩ := exists_madeOf h.derived
  refine ⟨⟨library, fun c hc => ?_⟩, fun path t hpath hhead => ?_,
    fun hinside path t hpath hhead => hpath.spells h.wellNamed hinside fun _ _ _ => hhead,
    fun hplain path t hpath hhead => h.resolvePath_iff_names key hplain hpath hhead⟩
  · obtain ⟨stored, text, hmem, htype⟩ := hmade.exists_mem_fields hc
    have hspells : c.path ≠ "_id" → c.path = stored :=
      fun hid => hmade.path_eq_stored hmem fun _ => hid
    refine ⟨stored, text, hmem, htype, ?_, hspells, h.resolvePath_constant key hmem hspells⟩
    rintro rfl
    exact hmade.path_of_identity h.document (h.wellNamed _ _ .refl h.derived).distinct hmem
  · have hresolve := h.resolvePath_of_spells key hpath hhead
    refine ⟨hresolve, ?_, ?_, ?_⟩
    · rw [Schema.endOf?]
      exact congrArg (Option.map Prod.snd) (hpath.walk?_eq (T := T) rfl h.wellNamed)
    · intro direction
      rw [DocumentType.resolveSort, hresolve]
      rfl
    · intro op v
      have hne : Path.ofString path ≠ Path.identity := fun heq => hhead (by rw [heq]; rfl)
      rw [DocumentType.resolveFilter, hresolve]
      exact congrArg (fun w => Except.ok (Filter.comparison _ op w)) (if_neg hne)

theorem Leads.of_getElem? {i : Nat} (hD : Δ.derived? owner = some D)
    (hpath : (D.constants.map Constant.path)[i]? = some path)
    (hfield : D.schema[i]? = some (stored, text))
    (hP : ∀ c : Constant, c.path = path → P D c stored) :
    Δ.Leads P owner path (Δ.meaning owner text) := by
  rw [List.getElem?_map] at hpath
  obtain ⟨c, hc, rfl⟩ := Option.map_eq_some_iff.mp hpath
  have hmem : D.fields[i]? = some (c, stored, text) :=
    List.getElem?_zip_eq_some.mpr ⟨hc, hfield⟩
  exact .constant hD (List.mem_of_getElem? hmem) (hP c rfl)

theorem exists_of_facts {identity : String} {schema : List (String × String)} {paths : List String}
    (h : (Δ.derived? name).map (fun D =>
      (D.document.map DocumentPart.identity, D.schema, D.constants.map Constant.path)) =
        some (some identity, schema, paths)) :
    ∃ D part, Δ.derived? name = some D ∧ D.document = some part ∧ part.identity = identity ∧
      D.schema = schema ∧ D.constants.map Constant.path = paths := by
  obtain ⟨D, hD, hfacts⟩ := Option.map_eq_some_iff.mp h
  obtain ⟨hidentity, hfacts⟩ := Prod.mk.inj hfacts
  obtain ⟨hschema, hpaths⟩ := Prod.mk.inj hfacts
  obtain ⟨part, hpart, hname⟩ := Option.map_eq_some_iff.mp hidentity
  exact ⟨D, part, hD, hpart, hname, hschema, hpaths⟩

def outlines : Declarations where
  source
    | "Outline" => some
      { target := .document
        name := "Outline"
        shape := .namedFields
        groups := [⟨"serde", [.string "rename_all" "camelCase"]⟩]
        fields :=
          [⟨"number", "Option<i64>", [⟨"document", [.bare "id"]⟩]⟩,
            ⟨"last_changed", "DateTime", [⟨"document", [.bare "modified_on"]⟩]⟩,
            ⟨"draft", "String", [⟨"serde", [.bare "skip"]⟩]⟩,
            ⟨"top_sections", "Vec<Vec<Section>>", []⟩] }
    | "Section" => some
      { target := .embedded
        name := "Section"
        shape := .namedFields
        groups := []
        fields :=
          [⟨"title", "String", [⟨"serde", [.string "rename" "heading"]⟩]⟩,
            ⟨"next", "Option<Box<Section>>", []⟩] }
    | _ => none
  meaning _
    | "Vec<Vec<Section>>" => .list (.list (.declared "Section"))
    | "Option<Box<Section>>" => .optional (.boxed (.declared "Section"))
    | "Option<i64>" => .optional (.plain .int64)
    | "DateTime" => .plain .dateTime
    | _ => .plain .string

theorem derived_outline : ∃ D part, outlines.derived? "Outline" = some D ∧
    D.document = some part ∧ part.identity = "number" ∧
    D.schema = [("number", "Option<i64>"), ("lastChanged", "DateTime"),
      ("topSections", "Vec<Vec<Section>>")] ∧
    D.constants.map Constant.path = ["_id", "lastChanged", "topSections"] :=
  exists_of_facts (by decide +kernel)

theorem derived_section : ∃ D, outlines.derived? "Section" = some D ∧
    D.schema = [("heading", "String"), ("next", "Option<Box<Section>>")] ∧
    D.constants.map Constant.path = ["heading", "next"] := by
  have h : (outlines.derived? "Section").map
      (fun D => (D.schema, D.constants.map Constant.path)) =
        some ([("heading", "String"), ("next", "Option<Box<Section>>")], ["heading", "next"]) := by
    decide +kernel
  obtain ⟨D, hD, hfacts⟩ := Option.map_eq_some_iff.mp h
  obtain ⟨hschema, hpaths⟩ := Prod.mk.inj hfacts
  exact ⟨D, hD, hschema, hpaths⟩

theorem wellNamed_outlines : outlines.WellNamed "Outline" := by
  obtain ⟨D, part, hD, -, -, hschema, -⟩ := derived_outline
  obtain ⟨E, hE, hschema', -⟩ := derived_section
  intro inner D' hreach hD'
  obtain rfl | ⟨owner, -, F, stored, text, -, -, hinner⟩ := Relation.ReflTransGen.cases_tail hreach
  · obtain rfl : D = D' := Option.some.inj (hD.symm.trans hD')
    constructor <;> rw [hschema] <;> decide
  · have hsection : inner = "Section" := by
      simp only [outlines] at hinner
      split at hinner <;> cases hinner <;> rfl
    subst hsection
    obtain rfl : E = D' := Option.some.inj (hE.symm.trans hD')
    constructor <;> rw [hschema'] <;> decide

theorem constants_resolve_of_outlines :
    let path := "topSections.next.next.heading"
    ∃ D part, outlines.FitsPaths "Outline" D part ∧
      outlines.Leads Derived.Spells "Outline" path (.plain .string) ∧
      (outlines.documentType "Outline" part .int64).resolvePath (Path.ofString path) =
        .ok (Path.ofString path) := by
  intro path
  obtain ⟨D, part, hD, hpart, hidentity, hschema, hpaths⟩ := derived_outline
  obtain ⟨E, hE, hschema', hpaths'⟩ := derived_section
  have hfits : outlines.FitsPaths "Outline" D part :=
    ⟨hD, hpart, wellNamed_outlines, by rw [hschema, hidentity]; decide⟩
  have htop : outlines.Leads Derived.Spells "Outline" "topSections"
      (.list (.list (.declared "Section"))) :=
    .of_getElem? (i := 2) hD (by rw [hpaths]; rfl) (by rw [hschema]; rfl) fun _ => id
  have hnext : outlines.Leads Derived.Spells "Section" "next"
      (.optional (.boxed (.declared "Section"))) :=
    .of_getElem? (i := 1) hE (by rw [hpaths']; rfl) (by rw [hschema']; rfl) fun _ => id
  have hheading : outlines.Leads Derived.Spells "Section" "heading" (.plain .string) :=
    .of_getElem? (i := 0) hE (by rw [hpaths']; rfl) (by rw [hschema']; rfl) fun _ => id
  have hpath : outlines.Leads Derived.Spells "Outline" path (.plain .string) :=
    ((htop.andThen rfl hnext).andThen rfl hnext).andThen rfl hheading
  have hhead : (Path.ofString path).head ≠ "_id" := by
    decide +kernel
  exact ⟨D, part, hfits, hpath, ((constants_resolve hfits .int64).2.1 path _ hpath hhead).1⟩

def branches : Declarations where
  source
    | "Branch" => some
      { target := .document
        name := "Branch"
        shape := .namedFields
        groups := []
        fields :=
          [⟨"id", "Option<String>", []⟩, ⟨"modified_on", "Option<DateTime>", []⟩,
            ⟨"kids", "Vec<Branch>", []⟩] }
    | _ => none
  meaning _
    | "Vec<Branch>" => .list (.declared "Branch")
    | "Option<DateTime>" => .optional (.plain .dateTime)
    | _ => .optional (.plain .string)

theorem derived_branch : ∃ D part, branches.derived? "Branch" = some D ∧
    D.document = some part ∧ part.identity = "id" ∧
    D.schema = [("id", "Option<String>"), ("modified_on", "Option<DateTime>"),
      ("kids", "Vec<Branch>")] ∧
    D.constants.map Constant.path = ["_id", "modified_on", "kids"] :=
  exists_of_facts (by decide +kernel)

/-- The constant of the identity leads to the key, which branches inside of another do not have. -/
theorem constants_lead_astray : ∃ D part t, branches.FitsPaths "Branch" D part ∧
    branches.Leads Derived.Any "Branch" "kids._id" t ∧ (Path.ofString "kids._id").head ≠ "_id" ∧
    (branches.documentType "Branch" part .text).resolvePath (Path.ofString "kids._id") =
      .error (.unresolved ⟨"kids", ["_id"]⟩ "Branch") := by
  obtain ⟨D, part, hD, hpart, hidentity, hschema, hpaths⟩ := derived_branch
  have hwell : branches.WellNamed "Branch" := by
    intro inner D' hreach hD'
    have hinner : inner = "Branch" := by
      obtain rfl | ⟨owner, -, F, stored, text, -, -, hinner⟩ :=
        Relation.ReflTransGen.cases_tail hreach
      · rfl
      · simp only [branches] at hinner
        split at hinner <;> cases hinner
        rfl
    subst hinner
    obtain rfl : D = D' := Option.some.inj (hD.symm.trans hD')
    constructor <;> rw [hschema] <;> decide
  have hfits : branches.FitsPaths "Branch" D part :=
    ⟨hD, hpart, hwell, by rw [hschema, hidentity]; decide⟩
  have hkids : branches.Leads Derived.Any "Branch" "kids" (.list (.declared "Branch")) :=
    .of_getElem? (i := 2) hD (by rw [hpaths]; rfl) (by rw [hschema]; rfl) fun _ _ => trivial
  have hid : branches.Leads Derived.Any "Branch" "_id" (.optional (.plain .string)) :=
    .of_getElem? (i := 0) hD (by rw [hpaths]; rfl) (by rw [hschema]; rfl) fun _ _ => trivial
  have hpath : Path.ofString "kids._id" = ⟨"kids", ["_id"]⟩ := by decide +kernel
  have hshapes : Schema.resolve? (DocumentType.mk "" none "" "" .text branches.records).shapes
      (.record "Branch") ⟨"kids", ["_id"]⟩ = none := by decide +kernel
  have hresolve : (branches.documentType "Branch" part .text).schema.resolve?
    (branches.documentType "Branch" part .text).shapes ⟨"kids", ["_id"]⟩ = none := hshapes
  refine ⟨D, part, _, hfits, hkids.andThen rfl hid, by decide +kernel, ?_⟩
  rw [hpath, DocumentType.resolvePath, hresolve]
  have hother : ¬Text.sameIgnoringCase "kids" part.identity := by
    rw [hidentity]
    decide +kernel
  exact if_neg (by simpa [documentType] using hother)

end Declarations

end Declaration

end Docbase
