import Docbase.Proofs.DocumentType.Maintained

namespace Docbase

namespace Schema

variable {ρ : Type} {fields : List (String × Schema ρ)} {segment : String}

theorem matchField?_eq_none {first second : String × Schema ρ} (hfirst : first ∈ fields)
    (hsecond : second ∈ fields) (hne : first.1 ≠ second.1)
    (hsame : Text.sameIgnoringCase first.1 segment)
    (hsame' : Text.sameIgnoringCase second.1 segment) (hnone : segment ∉ fields.map Prod.fst) :
    matchField? fields segment = none := by
  have hfind : fields.find? (fun f => f.1 = segment) = none := by
    rw [List.find?_eq_none]
    intro field hfield hname
    rw [decide_eq_true_eq] at hname
    exact hnone (hname ▸ List.mem_map_of_mem hfield)
  rw [matchField?]
  simp only [hfind]
  split
  next field hfilter =>
    have honly : ∀ f ∈ fields, Text.sameIgnoringCase f.1 segment → f = field := by
      intro f hf hcase
      have hmem : f ∈ fields.filter fun f => Text.sameIgnoringCase f.1 segment :=
        List.mem_filter.mpr ⟨hf, hcase⟩
      rwa [hfilter, List.mem_singleton] at hmem
    exact absurd (congrArg Prod.fst ((honly _ hfirst hsame).trans (honly _ hsecond hsame').symm)) hne
  next => rfl

end Schema

namespace DocumentType

variable {T : DocumentType} {name : String}

def names (T : DocumentType) : List String := T.fields.map Prod.fst

/-- Names that can be told apart and asked for, that of the identity among them. -/
structure WellNamed (T : DocumentType) : Prop where
  distinct : T.names.Nodup
  spelled : ∀ name ∈ T.names, name ≠ "" ∧ '.' ∉ name.toList ∧ name ≠ "_id"
  identity_mem : T.identity ∈ T.names

/-- Whether several fields answer to the name, none of them because it is spelled so. -/
structure IsAmbiguous (T : DocumentType) (name : String) : Prop where
  several : ∃ first ∈ T.names, ∃ second ∈ T.names, first ≠ second ∧
    Text.sameIgnoringCase first name ∧ Text.sameIgnoringCase second name
  not_mem : name ∉ T.names

/-- Whether the identity answers to the name. -/
def IdentityAnswers (T : DocumentType) (name : String) : Prop :=
  name = "_id" ∨ Text.sameIgnoringCase name T.identity

instance : Decidable (T.IdentityAnswers name) := inferInstanceAs (Decidable (_ ∨ _))

/-- Whether each field but the identity is found under its own name, and each ambiguous name is
refused. -/
structure FindsExactNames (T : DocumentType) : Prop where
  found : ∀ name ∈ T.names, name ≠ T.identity →
    T.resolvePath (Path.ofString name) = .ok (Path.ofString name)
  refused : ∀ name, T.IsAmbiguous name →
    T.resolvePath (Path.ofString name) = .error (.unresolved (Path.ofString name) T.name)

theorem map_fst_shapes (T : DocumentType) : (T.shapes T.name).map Prod.fst = T.names := by
  rw [shapes, List.map_map]
  rfl

theorem resolve?_name (hempty : name ≠ "") : T.schema.resolve? T.shapes ⟨name, []⟩ =
    (Schema.matchField? (T.shapes T.name) name).map fun field => ⟨field.1, []⟩ := by
  rw [Schema.resolve?, schema, Schema.step?, if_neg hempty]
  cases Schema.matchField? (T.shapes T.name) name <;> rfl

theorem resolvePath_of_identityAnswers (hdot : '.' ∉ name.toList) (h : T.IdentityAnswers name) :
    T.resolvePath (Path.ofString name) = .ok Path.identity := by
  have hanswers : (decide (name = "_id") || Text.sameIgnoringCase name T.identity) = true := by
    rwa [Bool.or_eq_true, decide_eq_true_eq]
  rw [Path.ofString_of_not_mem hdot, resolvePath, if_pos hanswers]
  rfl

theorem resolvePath_of_resolve?_eq_none {p : Path}
    (hp : ¬(p.head = "_id" ∨ Text.sameIgnoringCase p.head T.identity))
    (h : T.schema.resolve? T.shapes p = none) :
    T.resolvePath p = .error (.unresolved p T.name) := by
  unfold resolvePath
  rw [if_neg (by simpa using hp), h]

theorem resolvePath_of_mem (hT : T.WellNamed) (hmem : name ∈ T.names)
    (hid : ¬T.IdentityAnswers name) :
    T.resolvePath (Path.ofString name) = .ok (Path.ofString name) := by
  obtain ⟨hempty, hdot, -⟩ := hT.spelled name hmem
  obtain ⟨⟨_, t⟩, hfield, rfl⟩ := List.mem_map.mp hmem
  rw [Path.ofString_of_not_mem hdot]
  refine resolvePath_of_resolve? hid ?_
  rw [resolve?_name hempty, matchField?_shapes (lookup_of_mem hT.distinct hfield)]
  rfl

theorem IsAmbiguous.dot_not_mem (hT : T.WellNamed) (h : T.IsAmbiguous name) :
    '.' ∉ name.toList := by
  obtain ⟨first, hfirst, -, -, -, hsame, -⟩ := h.several
  exact mt (Text.mem_iff_of_sameIgnoringCase (by decide) hsame).mpr (hT.spelled first hfirst).2.1

theorem resolvePath_of_isAmbiguous (hT : T.WellNamed) (h : T.IsAmbiguous name)
    (hid : ¬T.IdentityAnswers name) : T.resolvePath (Path.ofString name) =
      .error (.unresolved (Path.ofString name) T.name) := by
  obtain ⟨first, hfirst, second, hsecond, hne, hsame, hsame'⟩ := h.several
  have hempty : name ≠ "" :=
    mt (Text.eq_empty_iff_of_sameIgnoringCase hsame).mpr (hT.spelled first hfirst).1
  rw [← map_fst_shapes, List.mem_map] at hfirst hsecond
  obtain ⟨field, hfield, rfl⟩ := hfirst
  obtain ⟨field', hfield', rfl⟩ := hsecond
  have hnone : Schema.matchField? (T.shapes T.name) name = none :=
    Schema.matchField?_eq_none hfield hfield' hne hsame hsame'
      (by rw [map_fst_shapes]; exact h.not_mem)
  rw [Path.ofString_of_not_mem (h.dot_not_mem hT)]
  refine resolvePath_of_resolve?_eq_none hid ?_
  rw [resolve?_name hempty, hnone]
  rfl

/-- If several fields answer to a name of the identity, one of them is another field that has the
name of the identity in other letters. -/
theorem IsAmbiguous.exists_hidden (h : T.IsAmbiguous name)
    (hid : Text.sameIgnoringCase name T.identity) :
    ∃ hidden ∈ T.names, Text.sameIgnoringCase hidden T.identity ∧ hidden ≠ T.identity := by
  obtain ⟨first, hfirst, second, hsecond, hne, hsame, hsame'⟩ := h.several
  by_cases heq : first = T.identity
  · exact ⟨second, hsecond, Text.sameIgnoringCase_trans hsame' hid, fun h => hne (heq.trans h.symm)⟩
  · exact ⟨first, hfirst, Text.sameIgnoringCase_trans hsame hid, heq⟩

theorem findsExactNames_of_apart (hT : T.WellNamed)
    (happart : ∀ name ∈ T.names, Text.sameIgnoringCase name T.identity → name = T.identity)
    (hkey : ¬T.IsAmbiguous "_id") : T.FindsExactNames where
  found name hmem hne := by
    refine resolvePath_of_mem hT hmem ?_
    rintro (hid | hid)
    · exact (hT.spelled name hmem).2.2 hid
    · exact hne (happart name hmem hid)
  refused name h := by
    refine resolvePath_of_isAmbiguous hT h ?_
    rintro (rfl | hid)
    · exact hkey h
    · obtain ⟨hidden, hmem, hsame, hne⟩ := h.exists_hidden hid
      exact hne (happart hidden hmem hsame)

/-- A field but the identity is found under its own name exactly if the identity does not answer to
it, that is, if the two names differ in more than the case of letters; an ambiguous name is refused
exactly if the identity does not answer to it. So both hold throughout for a type exactly if no other
field has the name of the identity in other letters, and no two fields have `_id` so. -/
theorem findsExactNames_iff (hT : T.WellNamed) :
    (∀ name ∈ T.names, name ≠ T.identity → T.resolvePath (Path.ofString name) =
      .ok (if Text.sameIgnoringCase name T.identity then Path.identity else Path.ofString name)) ∧
    (∀ name, T.IsAmbiguous name → T.resolvePath (Path.ofString name) =
      if T.IdentityAnswers name then .ok Path.identity
      else .error (.unresolved (Path.ofString name) T.name)) ∧
    (T.FindsExactNames ↔
      (∀ name ∈ T.names, Text.sameIgnoringCase name T.identity → name = T.identity) ∧
        ¬T.IsAmbiguous "_id") := by
  refine ⟨fun name hmem hne => ?_, fun name h => ?_, ?_⟩
  · by_cases hid : Text.sameIgnoringCase name T.identity
    · rw [if_pos hid]
      exact resolvePath_of_identityAnswers (hT.spelled name hmem).2.1 (.inr hid)
    · rw [if_neg hid]
      exact resolvePath_of_mem hT hmem (not_or.mpr ⟨(hT.spelled name hmem).2.2, hid⟩)
  · by_cases hid : T.IdentityAnswers name
    · rw [if_pos hid]
      exact resolvePath_of_identityAnswers (h.dot_not_mem hT) hid
    · rw [if_neg hid]
      exact resolvePath_of_isAmbiguous hT h hid
  · constructor
    · intro h
      constructor
      · intro name hmem hid
        by_contra hne
        obtain ⟨-, hdot, hkey⟩ := hT.spelled name hmem
        have hboth : Except.ok (Path.ofString name) = Except.ok Path.identity :=
          (h.found name hmem hne).symm.trans (resolvePath_of_identityAnswers hdot (.inr hid))
        rw [Path.ofString_of_not_mem hdot] at hboth
        cases hboth
        exact hkey rfl
      · intro hkey
        have hboth := (h.refused "_id" hkey).symm.trans
          (resolvePath_of_identityAnswers (hkey.dot_not_mem hT) (.inl rfl))
        cases hboth
    · exact fun ⟨happart, hkey⟩ => findsExactNames_of_apart hT happart hkey

/-- Two names that differ in the case of letters, asked for exactly and in other letters. -/
theorem findsExactNames_of_tree :
    let T := Catalogue.tree
    T.WellNamed ∧ T.IsAmbiguous "name" ∧ T.FindsExactNames ∧
      T.resolvePath (Path.ofString "NAME") = .ok ⟨"NAME", []⟩ ∧
      T.resolvePath (Path.ofString "name") = .error (.unresolved ⟨"name", []⟩ "Tree") := by
  intro T
  have hT : T.WellNamed := ⟨by decide, by decide, by decide⟩
  have hname : T.IsAmbiguous "name" :=
    ⟨⟨"Name", by decide, "NAME", by decide, by decide, by decide, by decide⟩, by decide⟩
  have hkey : ¬T.IsAmbiguous "_id" := by
    rintro ⟨⟨first, hfirst, -, -, -, hsame, -⟩, -⟩
    exact (by decide : ∀ first ∈ T.names, ¬Text.sameIgnoringCase first "_id") first hfirst hsame
  have hfinds : T.FindsExactNames := (findsExactNames_iff hT).2.2.mpr ⟨by decide, hkey⟩
  exact ⟨hT, hname, hfinds, hfinds.found "NAME" (by decide) (by decide), hfinds.refused _ hname⟩

/-- The identity hides a field that has its name in capitals, and answers to a name between them. -/
theorem identity_hides_capitals :
    let T : DocumentType := ⟨"Coin", none, "id", "modified_on", .text, fun _ =>
      [("id", .optional .string), ("modified_on", .optional .dateTime), ("ID", .string)]⟩
    T.WellNamed ∧ "ID" ∈ T.names ∧ "ID" ≠ T.identity ∧
      T.resolvePath (Path.ofString "ID") = .ok Path.identity ∧
      T.IsAmbiguous "Id" ∧ T.resolvePath (Path.ofString "Id") = .ok Path.identity := by
  intro T
  have hname : T.IsAmbiguous "Id" :=
    ⟨⟨"id", by decide, "ID", by decide, by decide, by decide, by decide⟩, by decide⟩
  have hanswers (name : String) (hdot : '.' ∉ name.toList)
      (hsame : Text.sameIgnoringCase name "id") :
      T.resolvePath (Path.ofString name) = .ok Path.identity :=
    resolvePath_of_identityAnswers hdot (.inr hsame)
  exact ⟨⟨by decide, by decide, by decide⟩, by decide, by decide,
    hanswers "ID" (by decide) (by decide), hname, hanswers "Id" (by decide) (by decide)⟩

end DocumentType

end Docbase
