import Docbase.Proofs.Key
import Docbase.Proofs.Repository.Find
import Docbase.Proofs.Sorting.Turned

namespace Docbase

namespace SortKey

/-- The keys turned round, with the greatest identity leading among equals. -/
def allTurned (keys : List SortKey) : List SortKey :=
  keys.map turned ++ [⟨Path.identity, .desc⟩]

end SortKey

/-- The query for the last document of a query's result. -/
def Query.turned (q : Query) : Query where
  filter := q.filter
  sort := SortKey.allTurned q.sort
  skip := some 0
  limit := some 1

theorem Query.run_turned (q : Query) (docs : List Document) : q.turned.run docs =
    (SortKey.sort (SortKey.allTurned q.sort) (Query.select q.filter docs)).head?.toList := by
  have hone : (1 : UInt64).toNat = 1 := rfl
  have hzero : (0 : UInt64).toNat = 0 := rfl
  simp only [Query.run, Query.turned, Query.window, Option.map_some, Option.getD_some, hone, hzero,
    List.drop_zero, List.take_one]

namespace DocumentType

variable {T : DocumentType}

theorem resolveSort_turned (key : SortKey) :
    T.resolveSort key.turned = (T.resolveSort key).map SortKey.turned := by
  unfold resolveSort
  change T.resolvePath key.path >>= _ = _
  cases T.resolvePath key.path <;> rfl

theorem resolveSorts_allTurned (keys : List SortKey) :
    (SortKey.allTurned keys).mapM T.resolveSort =
      (keys.mapM T.resolveSort).map SortKey.allTurned := by
  induction keys with
  | nil => rfl
  | cons key keys ih =>
    change (key.turned :: SortKey.allTurned keys).mapM T.resolveSort = _
    rw [List.mapM_cons, List.mapM_cons, resolveSort_turned, ih]
    cases T.resolveSort key with
    | error e => rfl
    | ok resolved => cases keys.mapM T.resolveSort <;> rfl

end DocumentType

theorem Criteria.compile_reversed (T : DocumentType) (c : Criteria) :
    c.reversed.compile T = (c.compile T).map Query.turned := by
  have hsort : c.reversed.sort = SortKey.allTurned c.sort := rfl
  unfold compile
  rw [hsort, DocumentType.resolveSorts_allTurned]
  change c.filter.mapM T.resolveFilter >>= _ = _
  cases c.filter.mapM T.resolveFilter with
  | error e => rfl
  | ok filter => cases c.sort.mapM T.resolveSort <;> rfl

/-- The value that documents sort by without sort keys. -/
def Document.identity (d : Document) : Value := (d.get? "_id").getD .null

theorem DocumentType.valueOf_identity {T : DocumentType} {stored d : Document}
    (h : T.decode stored = .ok d) (direction : Direction) :
    (⟨Path.identity, direction⟩ : SortKey).valueOf stored = stored.identity := by
  unfold SortKey.valueOf
  rw [Path.identity, Document.lookup_single, Document.identity]
  cases hid : stored.get? "_id" with
  | none => rfl
  | some id =>
    cases id with
    | array items =>
      rw [decode, hid] at h
      obtain ⟨key, hkey, -⟩ := exists_of_bind_eq_ok h
      exact absurd hkey (KeyKind.ofValue_array _ items key)
    | _ => rfl

/-- Whether this is the typed form of a document that no other comes after; where there are no
documents it is none. -/
def DocumentType.IsLast (T : DocumentType) (keys : List SortKey) (docs : List Document) :
    Option Document → Prop
  | none => docs = []
  | some d => ∃ m ∈ docs, T.decode m = .ok d ∧ ∀ x ∈ docs, SortKey.compareByAll keys m x ≠ .lt

/-- Whether the turned keys put behind what the keys put in front, of any two documents with the
property that one collection can hold and that do not have one typed form. -/
def DocumentType.Turns (T : DocumentType) (keys : List SortKey) (property : Document → Prop) :
    Prop :=
  ∀ e f : Entry, Entry.AllFiled [e, f] → property e.document → property f.document →
    T.decode e.document ≠ T.decode f.document →
    SortKey.compareByAll keys e.document f.document = .lt →
    SortKey.compareByAll (SortKey.allTurned keys) e.document f.document = .gt

theorem DocumentType.turns_of_choices {T : DocumentType} {keys : List SortKey}
    {property : Document → Prop}
    (h : ∀ d, property d → ∀ key ∈ keys, (key.choices d).length ≤ 1) : T.Turns keys property := by
  intro e f _ he hf _ hlt
  rw [SortKey.allTurned, SortKey.compareByAll_append, SortKey.compareByAll_turned (h _ he) (h _ hf),
    hlt]
  rfl

namespace Repository

variable {repo : Repository} {c : Criteria} {q : Query} {s : Store}

theorem last_eq (hq : c.compile repo.type = .ok q) (s : Store) :
    repo.last s c = (repo.decodeAll (SortKey.sort (SortKey.allTurned q.sort)
      (repo.matching s q)).head?.toList).map List.head? := by
  have hcompile : c.reversed.compile repo.type = .ok q.turned := by
    rw [Criteria.compile_reversed, hq]
    rfl
  unfold last
  rw [find_of_compile hcompile, Query.run_turned]
  rfl

theorem last_of_nil (hq : c.compile repo.type = .ok q) (h : repo.matching s q = []) :
    repo.last s c = .ok none := by
  rw [last_eq hq, (SortKey.head?_sort_eq_none_iff _ _).mpr h]
  rfl

theorem last_of_first (hq : c.compile repo.type = .ok q) {m d : Document}
    (hm : (SortKey.sort (SortKey.allTurned q.sort) (repo.matching s q)).head? = some m)
    (hd : repo.type.decode m = .ok d) : repo.last s c = .ok (some d) := by
  rw [last_eq hq, hm, Option.toList_some, decodeAll, List.mapM_cons, hd]
  rfl

theorem last_cases (hq : c.compile repo.type = .ok q)
    (hs : ∀ d ∈ s.documents repo.name, ∃ t, repo.type.decode d = .ok t) :
    (repo.matching s q = [] ∧ repo.last s c = .ok none) ∨ ∃ m d,
      (SortKey.sort (SortKey.allTurned q.sort) (repo.matching s q)).head? = some m ∧
      repo.type.decode m = .ok d ∧ repo.last s c = .ok (some d) := by
  cases hm : (SortKey.sort (SortKey.allTurned q.sort) (repo.matching s q)).head? with
  | none =>
    have hnil := (SortKey.head?_sort_eq_none_iff _ _).mp hm
    exact .inl ⟨hnil, last_of_nil hq hnil⟩
  | some m =>
    obtain ⟨d, hd⟩ := hs m (mem_matching.mp (SortKey.head?_sort _ _ hm).1).1
    exact .inr ⟨m, d, rfl, hd, last_of_first hq hm hd⟩

theorem order_identity_of_first {m x t t' : Document} (hm : repo.type.decode m = .ok t)
    (hx : repo.type.decode x = .ok t')
    (h : SortKey.compareByAll (SortKey.allTurned []) m x ≠ .gt) :
    x.identity.order m.identity ≠ .gt := by
  have hcompare : SortKey.compareByAll (SortKey.allTurned []) m x =
      x.identity.order m.identity := by
    change (SortKey.compareBy ⟨Path.identity, .desc⟩ m x).then .eq = _
    rw [Ordering.then_eq, SortKey.compareBy, DocumentType.valueOf_identity hm,
      DocumentType.valueOf_identity hx]
  rwa [← hcompare]

theorem isLast_of_turns {P : Document → Prop} (hs : s.IsFiled)
    (hP : ∀ d ∈ repo.matching s q, P d) (hturns : repo.type.Turns q.sort P) {m d : Document}
    (hm : (SortKey.sort (SortKey.allTurned q.sort) (repo.matching s q)).head? = some m)
    (hd : repo.type.decode m = .ok d) :
    repo.type.IsLast q.sort (repo.matching s q) (some d) := by
  obtain ⟨hmem, hfirst⟩ := SortKey.head?_sort _ _ hm
  obtain ⟨l, hl, hlast⟩ := SortKey.exists_last q.sort (List.ne_nil_of_mem hmem)
  by_cases hlt : SortKey.compareByAll q.sort m l = .lt
  · by_cases htyped : repo.type.decode m = repo.type.decode l
    · exact ⟨l, hl, htyped ▸ hd, hlast⟩
    · obtain ⟨e, he, rfl⟩ := List.mem_map.mp (mem_matching.mp hmem).1
      obtain ⟨f, hf, rfl⟩ := List.mem_map.mp (mem_matching.mp hl).1
      have hne : e ≠ f := fun hef => htyped (hef ▸ rfl)
      have hpair := (hs.allFiled repo.name).pair he hf hne
      exact absurd (hturns e f hpair (hP _ hmem) (hP _ hl) htyped hlt) (hfirst _ hl)
  · refine ⟨m, hmem, hd, fun x hx hmx => hlt ?_⟩
    have hxl : (SortKey.compareByAll q.sort x l).isLE := by
      rw [← SortKey.compareByAll_swap q.sort l x, Ordering.isLE_swap]
      cases hlx : SortKey.compareByAll q.sort l x
      · exact absurd hlx (hlast x hx)
      · rfl
      · rfl
    exact Std.TransCmp.lt_of_lt_of_isLE hmx hxl

theorem turns_of_isLast (hq : c.compile repo.type = .ok q) {P : Document → Prop}
    (hP : ∀ d, P d → ∃ t, repo.type.decode d = .ok t)
    (h : ∀ ops s, Store.Reachable ops s → (∀ d ∈ s.documents repo.name, P d) →
      ∀ o, repo.last s c = .ok o → repo.type.IsLast q.sort (repo.matching s q) o) :
    repo.type.Turns q.sort fun d => P d ∧ Query.selects q.filter d := by
  intro e f hpair he hf htyped hlt
  obtain ⟨s, hs, hentries⟩ := Store.exists_reachable [] repo.name hpair
  have hdocuments : s.documents repo.name = [e.document, f.document] := by
    rw [Store.documents, hentries]
    rfl
  have hmatching : repo.matching s q = [e.document, f.document] := by
    rw [matching, Query.select_eq_filter, hdocuments]
    simp [he.2, hf.2]
  have hproperty : ∀ d ∈ s.documents repo.name, P d := by
    simp [hdocuments, he.1, hf.1]
  obtain ⟨t, ht⟩ := hP _ he.1
  cases hturned : SortKey.compareByAll (SortKey.allTurned q.sort) e.document f.document with
  | gt => rfl
  | lt | eq =>
    have hfirst : (SortKey.sort (SortKey.allTurned q.sort) (repo.matching s q)).head? =
        some e.document := by
      rw [hmatching, SortKey.sort_pair _ (by simp [hturned])]
      rfl
    obtain ⟨m, hm, hmt, hlast⟩ := h [] s hs hproperty (some t) (last_of_first hq hfirst ht)
    rw [hmatching] at hm hlast
    simp only [List.mem_cons, List.not_mem_nil, or_false] at hm
    obtain rfl | rfl := hm
    · exact absurd hlt (hlast f.document (by simp))
    · exact absurd (ht.trans hmt.symm) htyped

/-- The last document of a result is found if there is one, and without sort keys it is the one with
the greatest identity. In all collections of certain documents it is one that no other comes after
exactly if the turned keys turn the order of these documents round. -/
theorem last_isLast_iff (repo : Repository) (c : Criteria) {P : Document → Prop}
    (hP : ∀ d, P d → ∃ t, repo.type.decode d = .ok t) :
    (∀ e, c.compile repo.type = .error e → ∀ s, repo.last s c = .error e) ∧
    ∀ q, c.compile repo.type = .ok q →
      (∀ s, (∀ d ∈ s.documents repo.name, P d) → ∃ o, repo.last s c = .ok o ∧
        (o = none ↔ repo.matching s q = []) ∧ ∀ d, o = some d → ∃ m ∈ repo.matching s q,
          repo.type.decode m = .ok d ∧
          (q.sort = [] → ∀ x ∈ repo.matching s q, x.identity.order m.identity ≠ .gt)) ∧
      ((∀ ops s, Store.Reachable ops s → (∀ d ∈ s.documents repo.name, P d) →
          ∀ o, repo.last s c = .ok o → repo.type.IsLast q.sort (repo.matching s q) o) ↔
        repo.type.Turns q.sort fun d => P d ∧ Query.selects q.filter d) := by
  refine ⟨fun e he s => ?_, fun q hq => ⟨fun s hs => ?_, fun h => ?_, fun h ops s hr hs o ho => ?_⟩⟩
  · unfold last find
    rw [Criteria.compile_reversed, he]
    rfl
  · obtain ⟨hnil, hlast⟩ | ⟨m, d, hm, hd, hlast⟩ := last_cases hq fun d hd => hP d (hs d hd)
    · exact ⟨none, hlast, by simp [hnil], nofun⟩
    · obtain ⟨hmem, hfirst⟩ := SortKey.head?_sort _ _ hm
      refine ⟨some d, hlast, by simp [List.ne_nil_of_mem hmem], ?_⟩
      rintro _ ⟨⟩
      refine ⟨m, hmem, hd, fun hsort x hx => ?_⟩
      obtain ⟨t, ht⟩ := hP x (hs x (mem_matching.mp hx).1)
      exact order_identity_of_first hd ht (hsort ▸ hfirst x hx)
  · exact turns_of_isLast hq hP h
  · obtain ⟨hnil, hlast⟩ | ⟨m, d, hm, hd, hlast⟩ := last_cases hq fun d hd => hP d (hs d hd)
    · obtain rfl := Except.ok.inj (hlast.symm.trans ho)
      exact hnil
    · obtain rfl := Except.ok.inj (hlast.symm.trans ho)
      have hproperty : ∀ x ∈ repo.matching s q, P x ∧ Query.selects q.filter x := fun x hx =>
        ⟨hs x (mem_matching.mp hx).1, (mem_matching.mp hx).2⟩
      exact isLast_of_turns hr.isFiled hproperty h hm hd

theorem last_isLast_of_numbers :
    let T : DocumentType :=
      ⟨"Count", none, "id", "modified_on", .int32, fun _ => [("id", .int32), ("n", .int32)]⟩
    let a : Document := [("_id", .int32 1), ("n", .int32 20)]
    let b : Document := [("_id", .int32 2), ("n", .int32 10)]
    let c : Criteria := { sort := [⟨⟨"n", []⟩, .asc⟩] }
    let s := Store.after {} (.insertMany (fun _ => ⟨0⟩) [a, b] "Count")
    ∃ o, (⟨T, ⟨"Count"⟩⟩ : Repository).last s c = .ok o ∧ T.IsLast c.sort [a, b] o := by
  intro T a b c s
  have hboth : ∀ d, d ∈ [a, b] ↔ d = a ∨ d = b := by simp
  have hdecode : ∀ d, d ∈ [a, b] → ∃ t, T.decode d = .ok t := by
    intro d hd
    obtain rfl | rfl := (hboth d).mp hd <;> exact ⟨_, rfl⟩
  have hchoices : ∀ d, d ∈ [a, b] ∧ Query.selects none d → ∀ key ∈ c.sort,
      (key.choices d).length ≤ 1 := by
    intro d hd key hkey
    obtain rfl := List.mem_singleton.mp hkey
    obtain rfl | rfl := (hboth d).mp hd.1 <;> decide
  have hcompile : c.compile T = .ok { sort := c.sort } := by
    subst T c
    rfl
  have hs : ∀ d ∈ s.documents "Count", d ∈ [a, b] := fun d hd => hd
  obtain ⟨-, h⟩ := last_isLast_iff ⟨T, ⟨"Count"⟩⟩ c hdecode
  obtain ⟨hfound, hlast⟩ := h { sort := c.sort } hcompile
  obtain ⟨o, ho, -⟩ := hfound s hs
  exact ⟨o, ho, hlast.mpr (DocumentType.turns_of_choices hchoices) [] s (.after _ .empty) hs o ho⟩

/-- Two documents in the order of a list of numbers. Both the least and the greatest of these numbers
are in one document. -/
theorem last_not_isLast_of_lists :
    let T : DocumentType :=
      ⟨"Count", none, "id", "modified_on", .int32, fun _ => [("id", .int32), ("n", .list .int32)]⟩
    let a : Document := [("_id", .int32 1), ("n", .array [.int32 1, .int32 10])]
    let b : Document := [("_id", .int32 2), ("n", .array [.int32 5])]
    let c : Criteria := { sort := [⟨⟨"n", []⟩, .asc⟩] }
    let s := Store.after {} (.insertMany (fun _ => ⟨0⟩) [a, b] "Count")
    ∃ o, (⟨T, ⟨"Count"⟩⟩ : Repository).last s c = .ok o ∧ ¬ T.IsLast c.sort [a, b] o := by
  intro T a b c s
  have ha : T.decode a = .ok [("id", .int32 1), ("n", .array [.int32 1, .int32 10])] := rfl
  have hb : T.decode b = .ok [("id", .int32 2), ("n", .array [.int32 5])] := rfl
  have hturned : SortKey.compareByAll (SortKey.allTurned c.sort) a b = .lt := by decide +kernel
  have hfirst : (SortKey.sort (SortKey.allTurned c.sort) [a, b]).head? = some a := by
    rw [SortKey.sort_pair _ (by simp [hturned])]
    rfl
  have hcompile : c.compile T = .ok { sort := c.sort } := by
    subst T c
    rfl
  refine ⟨_, (last_of_first hcompile hfirst ha : (⟨T, ⟨"Count"⟩⟩ : Repository).last s c = _), ?_⟩
  rintro ⟨m, hm, hmt, hlast⟩
  simp only [List.mem_cons, List.not_mem_nil, or_false] at hm
  obtain rfl | rfl := hm
  · exact hlast b (by simp) (by decide +kernel)
  · rw [hb] at hmt
    cases hmt

end Repository

end Docbase
