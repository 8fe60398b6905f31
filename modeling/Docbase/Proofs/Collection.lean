import Docbase.Collection
import Docbase.Proofs.Filter.Connective
import Docbase.Proofs.Query
import Docbase.Proofs.Store.Reachable
import Docbase.Proofs.Value.Telling

namespace Docbase

/-- Any document but one with an array for an identity is tested by its identity alone. -/
theorem Filter.accepts_identity_of_ne_array {d : Document} {v w : Value}
    (hd : d.get? "_id" = some v) (harray : ∀ items, v ≠ .array items) :
    (Filter.comparison Path.identity .eq w).accepts d = v.agrees w := by
  have hcandidates : v.candidates = [v] := by
    cases v <;> first | rfl | exact absurd rfl (harray _)
  rw [Filter.accepts, Path.identity, Document.lookup_single, hd]
  simp [Operator.holds, Operator.holdsEq, Operator.anyCandidate, hcandidates]

theorem Filter.accepts_identity {d : Document} {v w : Value} {i : Identity}
    (hd : d.get? "_id" = some v) (hv : v.IsIdentity i) :
    (Filter.comparison Path.identity .eq w).accepts d = v.agrees w :=
  accepts_identity_of_ne_array hd (by rintro items rfl; cases hv)

theorem Store.find_all (s : Store) (name : String) : s.find {} name = s.documents name :=
  SortKey.sort_nil _

namespace Entry

/-- The entry is filed under the text of an identity of a common kind. -/
def IsTyped (e : Entry) : Prop :=
  ∃ v i, e.document.get? "_id" = some v ∧ v.IsIdentity i ∧ e.key = v.display

/-- If the property and being a certain entry single out the same entry, both find it in the same
place. -/
theorem exists_append_of_find? {es : List Entry} (hn : (es.map key).Nodup) {test : Entry → Bool}
    {first : Entry} (hfirst : es.find? test = some first) {f : Entry → Bool}
    (hf : ∀ e ∈ es, f e ↔ e = first) :
    ∃ before after, es = before ++ first :: after ∧ (∀ b ∈ before, test b = false) ∧ test first ∧
      (∀ b ∈ before, f b = false) ∧ f first := by
  obtain ⟨htest, before, after, rfl, hbefore⟩ := List.find?_eq_some_iff_append.mp hfirst
  refine ⟨before, after, rfl, by simpa using hbefore, htest, fun b hb => ?_, ?_⟩
  · rw [List.map_append, List.nodup_append] at hn
    refine Bool.eq_false_iff.mpr fun hfb => ?_
    obtain rfl := (hf b (by simp [hb])).mp hfb
    exact hn.2.2 b.key (List.mem_map_of_mem hb) b.key (by simp) rfl
  · exact (hf first (by simp)).mpr rfl

end Entry

namespace Store

open Entry

variable {s : Store} {name : String} {filter : Option Filter} {f : Filter}

theorem updateMany_congr (hf : ∀ e ∈ s.entries name, f.accepts e.document = Query.selects filter
    e.document) (now : Int64) (update : Update) :
    s.updateMany now (some f) update name = s.updateMany now filter update name := by
  unfold updateMany
  rw [mapM_congr (g := fun e => if Query.selects filter e.document then e.update now update
    else .ok e)]
  intro e he
  rw [← hf e he]
  rfl

theorem updateMany_of_none (hs : s.IsFiled)
    (hnone : ∀ e ∈ s.entries name, Query.selects filter e.document = false) (now : Int64)
    (update : Update) : s.updateMany now filter update name = (.ok (), s) := by
  unfold updateMany
  rw [mapM_of_forall_ok fun e he => by rw [hnone e he]; rfl]
  dsimp only
  rw [hs.modify_self rfl]

theorem deleteMany_congr (hs : s.IsFiled) (hf : ∀ e ∈ s.entries name,
    f.accepts e.document = Query.selects filter e.document) :
    s.deleteMany (some f) name = s.deleteMany filter name := by
  refine hs.modify_congr (List.filter_congr fun e he => ?_)
  rw [← hf e he]
  rfl

theorem deleteMany_of_none (hs : s.IsFiled)
    (hnone : ∀ e ∈ s.entries name, Query.selects filter e.document = false) :
    s.deleteMany filter name = s :=
  hs.modify_self (List.filter_eq_self.mpr fun e he => by rw [hnone e he]; rfl)

variable {g : Filter} {first : Entry}

theorem replaceOne_congr (hs : s.IsFiled)
    (hfirst : (s.entries name).find? (fun e => g.accepts e.document) = some first)
    (hf : ∀ e ∈ s.entries name, f.accepts e.document ↔ e = first) (replacement : Document) :
    s.replaceOne f replacement name = s.replaceOne g replacement name := by
  obtain ⟨before, after, hes, htest, hfirst', hfbefore, hff⟩ :=
    exists_append_of_find? (hs.allFiled name).nodup hfirst hf
  have hfind : (s.entries name).find? (fun e => f.accepts e.document) = some first :=
    List.find?_eq_some_iff_append.mpr ⟨hff, before, after, hes, by simpa using hfbefore⟩
  have hmodify : ∀ d, s.modify name (replaceFirst (fun e => f.accepts e.document) d) =
      s.modify name (replaceFirst (fun e => g.accepts e.document) d) := by
    refine fun d => hs.modify_congr ?_
    rw [hes, replaceFirst_append hfbefore hff, replaceFirst_append htest hfirst']
  unfold replaceOne
  simp only [hfind, hfirst, hmodify]

theorem replaceOne_of_none
    (hnone : (s.entries name).find? (fun e => f.accepts e.document) = none)
    (replacement : Document) : s.replaceOne f replacement name = (.ok false, s) := by
  unfold replaceOne
  simp only [hnone]

theorem deleteOne_congr (hs : s.IsFiled)
    (hfirst : (s.entries name).find? (fun e => g.accepts e.document) = some first)
    (hf : ∀ e ∈ s.entries name, f.accepts e.document ↔ e = first) :
    s.deleteOne f name = s.deleteOne g name := by
  obtain ⟨before, after, hes, htest, hfirst', hfbefore, hff⟩ :=
    exists_append_of_find? (hs.allFiled name).nodup hfirst hf
  have herase : ∀ test : Entry → Bool, (∀ b ∈ before, test b = false) → test first →
      (before ++ first :: after).eraseP test = before ++ after := by
    intro test hb hfirst
    rw [List.eraseP_append_right _ (by simpa using hb), List.eraseP_cons_of_pos hfirst]
  refine hs.modify_congr ?_
  rw [hes, herase _ hfbefore hff, herase _ htest hfirst']

theorem deleteOne_of_none (hs : s.IsFiled)
    (hnone : (s.entries name).find? (fun e => f.accepts e.document) = none) :
    s.deleteOne f name = s :=
  hs.modify_self (List.eraseP_of_forall_not (List.find?_eq_none.mp hnone))

end Store

namespace Collection

open Entry

theorem accepts_of_identityFilter? {ids : List Value} {f : Filter}
    (h : identityFilter? ids = some f) (d : Document) :
    f.accepts d = ids.any fun id => (Filter.comparison Path.identity .eq id).accepts d := by
  match ids, h with
  | [id], h =>
    cases h
    simp
  | id :: id' :: rest, h =>
    cases h
    simp [List.any_map, Function.comp_def]

theorem identityFilter?_eq_none_iff {ids : List Value} : identityFilter? ids = none ↔ ids = [] := by
  match ids with
  | [] => simp [identityFilter?]
  | [id] => simp [identityFilter?]
  | id :: id' :: rest => simp [identityFilter?]

theorem eq_nil_of_identityFilter? {chosen : List Entry} (hchosen : ∀ e ∈ chosen, e.IsTyped)
    (h : identityFilter? (chosen.filterMap (·.document.get? "_id")) = none) : chosen = [] := by
  rw [identityFilter?_eq_none_iff, List.filterMap_eq_nil_iff] at h
  refine List.eq_nil_iff_forall_not_mem.mpr fun e he => ?_
  obtain ⟨v, i, hv, -⟩ := hchosen e he
  have hmissing : e.document.get? "_id" = none := h e he
  rw [hmissing] at hv
  cases hv

/-- The filter on the identities of some entries accepts a document exactly if it is filed under the
text of one of them. -/
theorem selects_of_identityFilter? {chosen : List Entry} {f : Filter} {e : Entry}
    (hchosen : ∀ e' ∈ chosen, e'.IsTyped) (he : e.IsTyped)
    (h : identityFilter? (chosen.filterMap (·.document.get? "_id")) = some f) :
    f.accepts e.document ↔ ∃ e' ∈ chosen, e'.key = e.key := by
  obtain ⟨v, i, hv, hi, hkey⟩ := he
  rw [accepts_of_identityFilter? h, List.any_eq_true]
  simp only [Filter.accepts_identity hv hi, List.mem_filterMap]
  constructor
  · rintro ⟨w, ⟨e', he', hw⟩, hagrees⟩
    obtain ⟨w', j, hw', hj, hkey'⟩ := hchosen e' he'
    obtain rfl := Option.some.inj (hw.symm.trans hw')
    refine ⟨e', he', ?_⟩
    rw [hkey, hkey', (hi.agrees_iff_display_eq hj).mp hagrees]
  · rintro ⟨e', he', hkeys⟩
    obtain ⟨w, j, hw, hj, hkey'⟩ := hchosen e' he'
    refine ⟨w, ⟨e', he', hw⟩, (hi.agrees_iff_display_eq hj).mpr ?_⟩
    rw [← hkey, ← hkey', hkeys]

theorem selects_of_identityFilter?_filter {es : List Entry} (hes : ∀ e ∈ es, e.IsTyped)
    (hn : (es.map key).Nodup) {test : Entry → Bool} {f : Filter}
    (h : identityFilter? ((es.filter test).filterMap (·.document.get? "_id")) = some f) {e : Entry}
    (he : e ∈ es) : f.accepts e.document = test e := by
  have hchosen : ∀ e' ∈ es.filter test, e'.IsTyped := fun e' he' => hes e' (List.mem_filter.mp he').1
  rw [Bool.eq_iff_iff, selects_of_identityFilter? hchosen (hes e he) h]
  constructor
  · rintro ⟨e', he', hkey⟩
    obtain ⟨hmem, htest⟩ := List.mem_filter.mp he'
    rwa [← eq_of_key_eq hn hmem he hkey]
  · exact fun htest => ⟨e, List.mem_filter.mpr ⟨he, htest⟩, rfl⟩

theorem selects_of_identityFilter?_find? {es : List Entry} (hes : ∀ e ∈ es, e.IsTyped)
    (hn : (es.map key).Nodup) {first : Entry} (hfirst : first ∈ es) {f : Filter}
    (h : identityFilter? ([first].filterMap (·.document.get? "_id")) = some f) {e : Entry}
    (he : e ∈ es) : f.accepts e.document ↔ e = first := by
  have hchosen : ∀ e' ∈ [first], e'.IsTyped := fun e' he' =>
    List.mem_singleton.mp he' ▸ hes first hfirst
  rw [selects_of_identityFilter? hchosen (hes e he) h]
  constructor
  · rintro ⟨e', he', hkey⟩
    obtain rfl := List.mem_singleton.mp he'
    exact (eq_of_key_eq hn hfirst he hkey).symm
  · rintro rfl
    exact ⟨e, List.mem_singleton_self e, rfl⟩

variable (c : Collection) {s : Store}

theorem selection?_all (filter : Option Filter) : c.selection? s filter none =
    identityFilter? (((s.entries c.name).filter fun e => Query.selects filter e.document).filterMap
      (·.document.get? "_id")) := by
  rw [selection?, Store.find_all, Query.run, SortKey.sort_nil, Query.select_eq_filter,
    Store.documents, List.filter_map]
  simp only [Query.window, Option.map_none, Option.getD_none, List.drop_zero, List.filterMap_map]
  rfl

theorem selection?_first (f : Filter) : c.selection? s (some f) (some 1) =
    identityFilter? (((s.entries c.name).find? fun e => f.accepts e.document).toList.filterMap
      (·.document.get? "_id")) := by
  have hone : (1 : UInt64).toNat = 1 := rfl
  rw [selection?, Store.find_all, Query.run, SortKey.sort_nil, Query.select_eq_filter,
    Store.documents, List.filter_map]
  simp only [Query.window, Option.map_none, Option.getD_none, List.drop_zero, hone, ← List.map_take,
    List.take_one, List.head?_filter, List.filterMap_map]
  rfl

section Writes

variable (hs : s.IsFiled) (htyped : ∀ e ∈ s.entries c.name, e.IsTyped)
include hs htyped

theorem selection?_all_cases (filter : Option Filter) :
    (∃ f, c.selection? s filter none = some f ∧ ∀ e ∈ s.entries c.name,
      f.accepts e.document = Query.selects filter e.document) ∨
    (c.selection? s filter none = none ∧ ∀ e ∈ s.entries c.name,
      Query.selects filter e.document = false) := by
  rw [selection?_all]
  cases hf : identityFilter? _ with
  | some f =>
    exact .inl ⟨f, rfl, fun e he => selects_of_identityFilter?_filter htyped
      (hs.allFiled c.name).nodup hf he⟩
  | none =>
    have hnil := eq_nil_of_identityFilter? (fun e he => htyped e (List.mem_filter.mp he).1) hf
    exact .inr ⟨rfl, fun e he => by simpa using List.filter_eq_nil_iff.mp hnil e he⟩

theorem selection?_first_cases (g : Filter) :
    (∃ f first, c.selection? s (some g) (some 1) = some f ∧
      (s.entries c.name).find? (fun e => g.accepts e.document) = some first ∧
      ∀ e ∈ s.entries c.name, f.accepts e.document ↔ e = first) ∨
    (c.selection? s (some g) (some 1) = none ∧
      (s.entries c.name).find? (fun e => g.accepts e.document) = none) := by
  rw [selection?_first]
  cases hfirst : (s.entries c.name).find? (fun e => g.accepts e.document) with
  | none => exact .inr ⟨rfl, rfl⟩
  | some first =>
    have hmem := List.mem_of_find?_eq_some hfirst
    rw [Option.toList_some]
    cases hf : identityFilter? _ with
    | some f =>
      exact .inl ⟨f, first, rfl, rfl, fun e he => selects_of_identityFilter?_find? htyped
        (hs.allFiled c.name).nodup hmem hf he⟩
    | none =>
      have hone : ∀ e ∈ [first], e.IsTyped := fun e he =>
        List.mem_singleton.mp he ▸ htyped first hmem
      cases eq_nil_of_identityFilter? hone hf

theorem updateMany_eq (now : Int64) (filter : Option Filter) (update : Update) :
    c.updateMany now filter update s = s.updateMany now filter update c.name := by
  unfold updateMany
  split
  · rfl
  · obtain ⟨f, hf, hall⟩ | ⟨hf, hnone⟩ := c.selection?_all_cases hs htyped filter
    · rw [hf]
      exact Store.updateMany_congr hall now update
    · rw [hf]
      exact (Store.updateMany_of_none hs hnone now update).symm

theorem deleteMany_eq (filter : Option Filter) :
    c.deleteMany filter s = s.deleteMany filter c.name := by
  unfold deleteMany
  split
  · rfl
  · obtain ⟨f, hf, hall⟩ | ⟨hf, hnone⟩ := c.selection?_all_cases hs htyped filter
    · rw [hf]
      exact Store.deleteMany_congr hs hall
    · rw [hf]
      exact (Store.deleteMany_of_none hs hnone).symm

theorem replaceOne_eq (g : Filter) (replacement : Document) :
    c.replaceOne g replacement s = s.replaceOne g replacement c.name := by
  unfold replaceOne
  split
  · rfl
  · obtain ⟨f, first, hf, hfirst, hall⟩ | ⟨hf, hnone⟩ := c.selection?_first_cases hs htyped g
    · rw [hf]
      exact Store.replaceOne_congr hs hfirst hall replacement
    · rw [hf]
      exact (Store.replaceOne_of_none hnone replacement).symm

theorem deleteOne_eq (g : Filter) : c.deleteOne g s = s.deleteOne g c.name := by
  unfold deleteOne
  split
  · rfl
  · obtain ⟨f, first, hf, hfirst, hall⟩ | ⟨hf, hnone⟩ := c.selection?_first_cases hs htyped g
    · rw [hf]
      exact Store.deleteOne_congr hs hfirst hall
    · rw [hf]
      exact (Store.deleteOne_of_none hs hnone).symm

end Writes

theorem updateMany_cases (now : Int64) (filter : Option Filter) (update : Update) :
    c.updateMany now filter update s = (.ok (), s) ∨
      ∃ f, c.updateMany now filter update s = s.updateMany now f update c.name := by
  unfold updateMany
  split
  · exact .inr ⟨filter, rfl⟩
  · split
    · exact .inr ⟨_, rfl⟩
    · exact .inl rfl

theorem replaceOne_cases (g : Filter) (replacement : Document) :
    c.replaceOne g replacement s = (.ok false, s) ∨
      ∃ f, c.replaceOne g replacement s = s.replaceOne f replacement c.name := by
  unfold replaceOne
  split
  · exact .inr ⟨g, rfl⟩
  · split
    · exact .inr ⟨_, rfl⟩
    · exact .inl rfl

theorem deleteOne_cases (g : Filter) :
    c.deleteOne g s = s ∨ ∃ f, c.deleteOne g s = s.deleteOne f c.name := by
  unfold deleteOne
  split
  · exact .inr ⟨g, rfl⟩
  · split
    · exact .inr ⟨_, rfl⟩
    · exact .inl rfl

theorem deleteMany_cases (filter : Option Filter) :
    c.deleteMany filter s = s ∨ ∃ f, c.deleteMany filter s = s.deleteMany f c.name := by
  unfold deleteMany
  split
  · exact .inr ⟨filter, rfl⟩
  · split
    · exact .inr ⟨_, rfl⟩
    · exact .inl rfl

theorem find_eq (q : Query) : c.find s q = s.find q c.name := by
  unfold find
  split
  · rfl
  · rw [Store.find_all, Store.find]

theorem count_eq (filter : Option Filter) : c.count s filter = s.count filter c.name := by
  unfold count
  split
  · rfl
  · rw [Store.find_all, Store.count]

end Collection

/-- The store with the same documents that evaluates every operator itself. -/
def Store.capable (s : Store) : Store := { s with unsupported := [] }

/-- The outcomes are the same, and so are the documents after it in their order. -/
def SameEffect {α : Type} (x y : α × Store) : Prop :=
  x.1 = y.1 ∧ x.2.collections = y.2.collections

namespace Store

theorem sameEffect_updateMany (s : Store) (now : Int64) (filter : Option Filter) (update : Update)
    (name : String) : SameEffect (s.updateMany now filter update name)
      (s.capable.updateMany now filter update name) := by
  have hentries : s.capable.entries name = s.entries name := rfl
  unfold updateMany
  rw [hentries]
  dsimp only
  split <;> exact ⟨rfl, rfl⟩

theorem sameEffect_replaceOne (s : Store) (filter : Filter) (replacement : Document)
    (name : String) : SameEffect (s.replaceOne filter replacement name)
      (s.capable.replaceOne filter replacement name) := by
  have hentries : s.capable.entries name = s.entries name := rfl
  unfold replaceOne
  rw [hentries]
  dsimp only
  split
  · exact ⟨rfl, rfl⟩
  · split
    · exact ⟨rfl, rfl⟩
    · split <;> exact ⟨rfl, rfl⟩

end Store

/-- Whichever operators a store leaves to its clients, every call on a collection has the effect that
it has on a store that evaluates them all, and that of the call on the store itself. -/
theorem Collection.client_side_eq_native {ops : List Operator} {s : Store} (c : Collection)
    (hs : Store.Reachable ops s) (hid : ∀ d ∈ s.documents c.name, ∀ v, d.get? "_id" = some v →
      ∃ i, v.IsIdentity i) (q : Query) (filter : Option Filter) (f : Filter) (now : Int64)
    (update : Update) (replacement : Document) :
    c.find s q = c.find s.capable q ∧
    c.count s filter = c.count s.capable filter ∧
    SameEffect (c.updateMany now filter update s) (c.updateMany now filter update s.capable) ∧
    SameEffect (c.replaceOne f replacement s) (c.replaceOne f replacement s.capable) ∧
    (c.deleteOne f s).collections = (c.deleteOne f s.capable).collections ∧
    (c.deleteMany filter s).collections = (c.deleteMany filter s.capable).collections ∧
    c.find s q = s.find q c.name ∧
    c.count s filter = s.count filter c.name ∧
    c.updateMany now filter update s = s.updateMany now filter update c.name ∧
    c.replaceOne f replacement s = s.replaceOne f replacement c.name ∧
    c.deleteOne f s = s.deleteOne f c.name ∧
    c.deleteMany filter s = s.deleteMany filter c.name := by
  have hfiled := hs.isFiled
  have htyped : ∀ e ∈ s.entries c.name, e.IsTyped := by
    intro e he
    obtain ⟨v, hv, hkey⟩ := (hfiled.allFiled c.name).filed e he
    obtain ⟨i, hi⟩ := hid e.document (List.mem_map_of_mem he) v hv
    exact ⟨v, i, hv, hi, hkey⟩
  have hfiled' : s.capable.IsFiled := ⟨hfiled.names, hfiled.filed⟩
  have htyped' : ∀ e ∈ s.capable.entries c.name, e.IsTyped := htyped
  refine ⟨?_, ?_, ?_, ?_, ?_, ?_, c.find_eq q, c.count_eq filter,
    c.updateMany_eq hfiled htyped now filter update, c.replaceOne_eq hfiled htyped f replacement,
    c.deleteOne_eq hfiled htyped f, c.deleteMany_eq hfiled htyped filter⟩
  · rw [find_eq, find_eq]
    rfl
  · rw [count_eq, count_eq]
    rfl
  · rw [c.updateMany_eq hfiled htyped, c.updateMany_eq hfiled' htyped']
    exact s.sameEffect_updateMany now filter update c.name
  · rw [c.replaceOne_eq hfiled htyped, c.replaceOne_eq hfiled' htyped']
    exact s.sameEffect_replaceOne f replacement c.name
  · rw [c.deleteOne_eq hfiled htyped, c.deleteOne_eq hfiled' htyped']
    rfl
  · rw [c.deleteMany_eq hfiled htyped, c.deleteMany_eq hfiled' htyped']
    rfl

/-- Two documents, one with an identity that the store made, where no equality is evaluated by the
store. -/
theorem Collection.client_side_eq_native_without_equality :
    let newId : Nat → ObjectId := fun i => ⟨BitVec.ofNat 96 i⟩
    let docs : List Document := [[("_id", .string "a"), ("n", .int32 1)], [("n", .int32 1)]]
    let s := Store.after { unsupported := [.eq] } (.insertMany newId docs "c")
    let f : Filter := .comparison ⟨"n", []⟩ .eq (.int32 1)
    s.supports f = false ∧ (Collection.deleteOne ⟨"c"⟩ f s).collections =
      (Collection.deleteOne ⟨"c"⟩ f s.capable).collections := by
  intro newId docs s f
  have hs : Store.Reachable [.eq] s := .after _ .empty
  have hdocuments : s.documents "c" = [[("_id", .string "a"), ("n", .int32 1)],
      [("_id", .objectId ⟨1⟩), ("n", .int32 1)]] := by rfl
  have hid : ∀ d ∈ s.documents "c", ∀ v, d.get? "_id" = some v → ∃ i, v.IsIdentity i := by
    intro d hd v hv
    rw [hdocuments] at hd
    simp only [List.mem_cons, List.not_mem_nil, or_false] at hd
    obtain rfl | rfl := hd
    · cases hv
      exact ⟨_, .text "a"⟩
    · cases hv
      exact ⟨_, .objectId ⟨1⟩⟩
  exact ⟨rfl, (Collection.client_side_eq_native ⟨"c"⟩ hs hid {} none f 0 [] []).2.2.2.2.1⟩

end Docbase
