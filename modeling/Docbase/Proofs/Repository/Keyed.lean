import Docbase.Proofs.DocumentType.Maintained
import Docbase.Proofs.Repository.Replace
import Docbase.Proofs.Repository.Typed
import Mathlib.Data.List.Nodup

namespace Docbase

theorem Value.IsIdentity.unique {v : Value} {i j : Identity} (h : v.IsIdentity i)
    (h' : v.IsIdentity j) : i = j := by
  cases h <;> cases h' <;> rfl

namespace Document

/-- Whether the document is stored under the identity, an integer in either width. -/
def HasIdentity (d : Document) (i : Identity) : Prop := ∃ v, d.get? "_id" = some v ∧ v.IsIdentity i

theorem HasIdentity.of_sameIdentity {d d' : Document} {i : Identity} (h : d.HasIdentity i)
    (hsame : Store.SameIdentity d' d) : d'.HasIdentity i := by
  obtain ⟨v, hv, hi⟩ := h
  exact ⟨v, hsame.trans hv, hi⟩

theorem HasIdentity.accepted {d : Document} {key : Key} (h : d.HasIdentity key.identity) :
    (Repository.idFilter key).accepts d := by
  obtain ⟨v, hv, hi⟩ := h
  rw [Repository.idFilter, Path.eq, Filter.accepts_identity hv hi]
  exact (hi.agrees_iff key.isIdentity_stored).mpr rfl

end Document

/-- `Locates i docs front found rest`: of these documents only the one found has the identity. -/
structure Locates (i : Identity) (docs front : List Document) (found : Option Document)
    (rest : List Document) : Prop where
  split : docs = front ++ found.toList ++ rest
  found : ∀ d ∈ found, d.HasIdentity i
  others : ∀ d ∈ front ++ rest, ¬ d.HasIdentity i

namespace Locates

variable {i : Identity} {docs front rest : List Document} {found new : Option Document}

theorem replace (h : Locates i docs front found rest) (hnew : ∀ d ∈ new, d.HasIdentity i) :
    Locates i (front ++ new.toList ++ rest) front new rest := ⟨rfl, hnew, h.others⟩

theorem not_front (h : Locates i docs front found rest) : ∀ d ∈ front, ¬ d.HasIdentity i :=
  fun d hd => h.others d (List.mem_append_left _ hd)

theorem not_rest (h : Locates i docs front found rest) : ∀ d ∈ rest, ¬ d.HasIdentity i :=
  fun d hd => h.others d (List.mem_append_right _ hd)

theorem not_mem (h : Locates i docs front none rest) : ∀ d ∈ docs, ¬ d.HasIdentity i := by
  intro d hd
  rw [h.split] at hd
  exact h.others d (by simpa using hd)

theorem split_some {d : Document} (h : Locates i docs front (some d) rest) :
    docs = front ++ d :: rest := by
  rw [h.split, Option.toList_some, List.append_assoc, List.singleton_append]

end Locates

namespace Entry

theorem IsFiled.key_eq {e f : Entry} {i : Identity} (he : e.IsFiled) (hf : f.IsFiled)
    (hei : e.document.HasIdentity i) (hfi : f.document.HasIdentity i) : e.key = f.key := by
  obtain ⟨v, hv, hkey⟩ := he
  obtain ⟨w, hw, hkey'⟩ := hf
  obtain ⟨v', hv', hi⟩ := hei
  obtain ⟨w', hw', hi'⟩ := hfi
  obtain rfl := Option.some.inj (hv.symm.trans hv')
  obtain rfl := Option.some.inj (hw.symm.trans hw')
  rw [hkey, hkey']
  exact (hi.agrees_iff_display_eq hi').mp ((hi.agrees_iff hi').mpr rfl)

end Entry

namespace Store

variable {s : Store} {name : String}

theorem IsFiled.entry (h : s.IsFiled) : ∀ e ∈ s.entries name, e.IsFiled := (h.allFiled name).filed

theorem IsFiled.exists_locates (h : s.IsFiled) (name : String) (i : Identity) :
    ∃ front found rest, Locates i (s.documents name) front found rest := by
  by_cases hany : ∃ e ∈ s.entries name, e.document.HasIdentity i
  · obtain ⟨e, he, hi⟩ := hany
    obtain ⟨front, rest, hsplit⟩ := List.append_of_mem he
    refine ⟨front.map Entry.document, some e.document, rest.map Entry.document, ?_, ?_, ?_⟩
    · rw [documents_of_entries hsplit]
      simp
    · rintro _ ⟨⟩
      exact hi
    · intro d hd hdi
      rw [← List.map_append] at hd
      obtain ⟨f, hf, rfl⟩ := List.mem_map.mp hd
      have hf' : f ∈ s.entries name := by
        rw [hsplit]
        obtain hf | hf := List.mem_append.mp hf <;> simp [hf]
      have hkey := (h.entry f hf').key_eq (h.entry e he) hdi hi
      have hn := (h.allFiled name).nodup
      rw [hsplit, List.map_append, List.map_cons, List.nodup_middle, List.nodup_cons,
        ← List.map_append] at hn
      exact hn.1 (hkey ▸ List.mem_map_of_mem hf)
  · refine ⟨s.documents name, none, [], by simp, nofun, ?_⟩
    intro d hd hdi
    rw [List.append_nil] at hd
    obtain ⟨e, he, rfl⟩ := List.mem_map.mp hd
    exact hany ⟨e, he, hdi⟩

theorem IsFiled.eq_of_hasIdentity (h : s.IsFiled) {d d' : Document} {i : Identity}
    (hd : d ∈ s.documents name) (hd' : d' ∈ s.documents name) (hi : d.HasIdentity i)
    (hi' : d'.HasIdentity i) : d = d' := by
  obtain ⟨e, he, rfl⟩ := List.mem_map.mp hd
  obtain ⟨f, hf, rfl⟩ := List.mem_map.mp hd'
  have hkey := (h.entry e he).key_eq (h.entry f hf) hi hi'
  rw [Entry.eq_of_key_eq (h.allFiled name).nodup he hf hkey]

/-- Whether the filter for the key accepts no document but that with its identity. -/
def Tells (s : Store) (name : String) (key : Key) : Prop :=
  ∀ d ∈ s.documents name, (Repository.idFilter key).accepts d → d.HasIdentity key.identity

theorem IsTyped.accepts_iff (h : s.IsTyped) {d : Document} (hd : d ∈ s.documents name) (key : Key) :
    (Repository.idFilter key).accepts d ↔ d.HasIdentity key.identity := by
  refine ⟨fun haccepts => ?_, Document.HasIdentity.accepted⟩
  obtain ⟨e, he, rfl⟩ := List.mem_map.mp hd
  obtain ⟨v, i, hv, hi, -⟩ := h.entries e he
  rw [Repository.idFilter, Path.eq, Filter.accepts_identity hv hi,
    hi.agrees_iff key.isIdentity_stored] at haccepts
  obtain rfl := haccepts
  exact ⟨v, hv, hi⟩

end Store

theorem Update.apply_stamp {field : String} (hfield : field ≠ "_id") (now : Int64) (d : Document) :
    Update.apply now [.currentDate ⟨field, []⟩] d = (.ok (), d.insert field (.dateTime now)) := by
  have hop : UpdateOp.apply now (.currentDate ⟨field, []⟩) d =
    .ok (d.insert field (.dateTime now)) := if_neg hfield
  rw [Update.apply, hop]
  rfl

theorem Update.apply_of_run {now : Int64} {update : Update} {d : Document} :
    (∀ d', update.run now d = .ok d' → update.apply now d = (.ok (), d')) ∧
    ∀ e, update.run now d = .error e → ∃ left, update.apply now d = (.error e, left) := by
  unfold run
  cases update.apply now d with
  | mk outcome left => cases outcome <;> simp

namespace Store

/-- `KeepsBeside s s' name i front new rest`: the collection holds the documents `front` and `rest` as
before, none of which has the identity, and between them `new`, which has it. The other collections
are as before. -/
structure KeepsBeside (s s' : Store) (name : String) (i : Identity) (front : List Document)
    (new : Option Document) (rest : List Document) : Prop where
  located : Locates i (s'.documents name) front new rest
  others : ∀ other, other ≠ name → s'.collections.lookup other = s.collections.lookup other

theorem KeepsBeside.refl {s : Store} {name : String} {i : Identity} {front rest : List Document}
    {found : Option Document} (hl : Locates i (s.documents name) front found rest) :
    KeepsBeside s s name i front found rest := ⟨hl, fun _ _ => rfl⟩

theorem forall₂_kept {now : Int64} {ops : Update} {f : Filter} {docs : List Document}
    (h : ∀ d ∈ docs, f.accepts d = false) :
    List.Forall₂ (fun d d' => if Query.selects (some f) d then
      Update.apply now ops d = (.ok (), d') else d' = d) docs docs := by
  rw [List.forall₂_same]
  intro d hd
  rw [if_neg (by simp [Query.selects, h d hd])]

theorem forall₂_of_run {now : Int64} {ops : Update} {f : Filter} {found new : Option Document}
    (hfound : ∀ d ∈ found, f.accepts d) (hnew : found.mapM (ops.run now) = .ok new) :
    List.Forall₂ (fun d d' => if Query.selects (some f) d then
      Update.apply now ops d = (.ok (), d') else d' = d) found.toList new.toList ∧
    ∀ d' ∈ new, ∃ d ∈ found, SameIdentity d' d := by
  cases found with
  | none =>
    cases hnew
    exact ⟨.nil, nofun⟩
  | some d =>
    obtain ⟨d', hd', rfl⟩ := exists_of_map_eq_ok hnew
    have hselects : Query.selects (some f) d := hfound d rfl
    refine ⟨.cons ?_ .nil, ?_⟩
    · rw [if_pos hselects]
      exact Update.apply_of_run.1 d' hd'
    · rintro _ ⟨⟩
      exact ⟨d, rfl, Update.get?_run_identity hd'⟩

section Located

variable {s : Store} {name : String} {key : Key} {front rest : List Document}
  {found : Option Document} (h : s.IsFiled) (ht : s.Tells name key)
  (hl : Locates key.identity (s.documents name) front found rest)

section Accepted

include ht hl

theorem front_not_accepted : ∀ d ∈ front, (Repository.idFilter key).accepts d = false := by
  intro d hd
  have hmem : d ∈ s.documents name := by simp [hl.split, hd]
  exact Bool.eq_false_iff.mpr fun ha => hl.not_front d hd (ht d hmem ha)

theorem rest_not_accepted : ∀ d ∈ rest, (Repository.idFilter key).accepts d = false := by
  intro d hd
  have hmem : d ∈ s.documents name := by simp [hl.split, hd]
  exact Bool.eq_false_iff.mpr fun ha => hl.not_rest d hd (ht d hmem ha)

end Accepted

include hl

theorem found_accepted : ∀ d ∈ found, (Repository.idFilter key).accepts d :=
  fun d hd => (hl.found d hd).accepted

theorem keepsBeside_of_split (call : Call) {new : Option Document} (hname : call.name = name)
    (hafter : (s.after call).documents name = front ++ new.toList ++ rest)
    (hnew : ∀ d ∈ new, d.HasIdentity key.identity) :
    KeepsBeside s (s.after call) name key.identity front new rest :=
  ⟨hafter ▸ hl.replace hnew, fun _ hother => s.lookup_after_of_ne (hname ▸ hother)⟩

include h ht

theorem updateMany_of_run {now : Int64} {ops : Update} {new : Option Document}
    (hnew : found.mapM (ops.run now) = .ok new) :
    (s.updateMany now (some (Repository.idFilter key)) ops name).1 = .ok () ∧
    KeepsBeside s (s.updateMany now (some (Repository.idFilter key)) ops name).2 name key.identity
      front new rest := by
  obtain ⟨hmiddle, hsame⟩ := forall₂_of_run (found_accepted hl) hnew
  have hacts : Acts (.updateMany now (some (Repository.idFilter key)) ops name) (s.documents name)
      (.ok .done) (front ++ new.toList ++ rest) := by
    rw [hl.split]
    exact .updated (List.rel_append
      (List.rel_append (forall₂_kept (front_not_accepted ht hl)) hmiddle)
      (forall₂_kept (rest_not_accepted ht hl)))
  obtain ⟨hanswer, hafter⟩ := (h.acts _).unique hacts
  obtain ⟨⟨⟩, hok, -⟩ := exists_of_map_eq_ok hanswer
  refine ⟨hok, keepsBeside_of_split hl (.updateMany _ _ _ name) rfl hafter fun d' hd' => ?_⟩
  obtain ⟨d, hd, hidentity⟩ := hsame d' hd'
  exact (hl.found d hd).of_sameIdentity hidentity

omit h ht hl in
theorem documents_updateMany_stamp (h : s.IsFiled) {field : String} (hfield : field ≠ "_id")
    (now : Int64) (f : Filter) :
    (s.updateMany now (some f) [.currentDate ⟨field, []⟩] name).2.documents name =
      (s.documents name).map fun d =>
        if f.accepts d then d.insert field (.dateTime now) else d := by
  have hacts : Acts (.updateMany now (some f) [.currentDate ⟨field, []⟩] name) (s.documents name)
      (.ok .done) ((s.documents name).map fun d =>
        if f.accepts d then d.insert field (.dateTime now) else d) := by
    refine .updated (List.forall₂_map_right_iff.mpr (List.forall₂_same.mpr fun d _ => ?_))
    rw [Query.selects, Update.apply_stamp hfield]
    by_cases haccepts : f.accepts d <;> simp [haccepts]
  exact ((h.acts _).unique hacts).2

theorem updateMany_of_run_error {now : Int64} {ops : Update} {e : UpdateError}
    (he : found.mapM (ops.run now) = .error e) :
    s.updateMany now (some (Repository.idFilter key)) ops name = (.error (.update e), s) := by
  cases found with
  | none => cases he
  | some d =>
    obtain ⟨left, hleft⟩ := Update.apply_of_run.2 e (eq_error_of_map_eq_error he)
    have hacts : Acts (.updateMany now (some (Repository.idFilter key)) ops name)
        (s.documents name) (.error (.update e)) (s.documents name) := by
      refine .notUpdated hl.split_some ?_ (found_accepted hl d rfl) hleft
      intro c hc hselects
      have hrefused : (Repository.idFilter key).accepts c = false := front_not_accepted ht hl c hc
      cases hrefused.symm.trans hselects
    obtain ⟨hanswer, -⟩ := (h.acts _).unique hacts
    exact updateMany_of_error (eq_error_of_map_eq_error hanswer)

omit h hl in
theorem replaceOne_of_not_found
    (hl : Locates key.identity (s.documents name) front none rest) (replacement : Document) :
    s.replaceOne (Repository.idFilter key) replacement name = (.ok false, s) := by
  refine replaceOne_of_none (List.find?_eq_none.mpr fun e he => ?_) replacement
  have hmem : e.document ∈ s.documents name := List.mem_map_of_mem he
  exact fun ha => hl.not_mem _ hmem (ht _ hmem ha)

omit hl in
theorem replaceOne_of_found {d : Document} {id : Value}
    (hl : Locates key.identity (s.documents name) front (some d) rest)
    (hid : d.get? "_id" = some id) (replacement : Document) :
    ((s.replaceOne (Repository.idFilter key) replacement name).1 = .ok true ∧
      KeepsBeside s (s.replaceOne (Repository.idFilter key) replacement name).2 name key.identity
        front (some (("_id", id) :: replacement.erase "_id")) rest) ∨
    s.replaceOne (Repository.idFilter key) replacement name =
      (.error (.identityChanged id.display), s) := by
  obtain ⟨-, hok, hafter⟩ | ⟨-, hrefused⟩ := h.replaceOne_first_cases hl.split_some
    (front_not_accepted ht hl) (found_accepted hl d rfl) hid replacement
  · refine .inl ⟨hok, keepsBeside_of_split hl (.replaceOne _ _ name) rfl ?_ ?_⟩
    · rw [Option.toList_some, List.append_assoc, List.singleton_append]
      exact hafter
    · rintro _ ⟨⟩
      exact (hl.found d rfl).of_sameIdentity ((Document.get?_cons_self _ _ _).trans hid.symm)
  · exact .inr hrefused

theorem deleteOne_idFilter : KeepsBeside s (s.deleteOne (Repository.idFilter key) name) name
    key.identity front none rest := by
  have hacts : Acts (.deleteOne (Repository.idFilter key) name) (s.documents name) (.ok .done)
      (front ++ (none : Option Document).toList ++ rest) := by
    rw [Option.toList_none, List.append_nil]
    cases found with
    | none =>
      have hsplit := hl.split
      rw [Option.toList_none, List.append_nil] at hsplit
      rw [← hsplit]
      refine .noneDeleted fun d hd => ?_
      exact Bool.eq_false_iff.mpr fun ha => hl.not_mem d hd (ht _ hd ha)
    | some d =>
      exact .deleted hl.split_some (front_not_accepted ht hl) (found_accepted hl d rfl)
  obtain ⟨-, hafter⟩ := (h.acts _).unique hacts
  exact keepsBeside_of_split hl (.deleteOne _ name) rfl hafter nofun

end Located

end Store

theorem Query.window_none_cases {limit : Option UInt64} {docs found : List Document}
    (hlimit : limit ≠ some 0) (h : window none limit docs = found) :
    found.Sublist docs ∧ (found = [] → docs = []) := by
  subst h
  cases limit with
  | none => exact ⟨.refl docs, id⟩
  | some n =>
    refine ⟨List.take_sublist _ _, fun h => (List.take_eq_nil_iff.mp h).resolve_left fun hn => ?_⟩
    exact hlimit (congrArg some (UInt64.toNat_inj.mp hn))

theorem Store.deleteOne_congr_filter {f g : Filter} (h : ∀ d, f.accepts d = g.accepts d)
    (s : Store) (name : String) : s.deleteOne f name = s.deleteOne g name := by
  have htest : (fun e : Entry => f.accepts e.document) = fun e => g.accepts e.document :=
    funext fun e => h e.document
  unfold deleteOne
  rw [htest]

theorem Collection.identityFilter?_cases {chosen : List Document} {v : Value} {i : Identity}
    (hv : v.IsIdentity i) (h : ∀ d ∈ chosen, d.HasIdentity i) :
    (∃ f, identityFilter? (chosen.filterMap (·.get? "_id")) = some f ∧
      ∀ d, f.accepts d = (Path.identity.eq v).accepts d) ∨
    (identityFilter? (chosen.filterMap (·.get? "_id")) = none ∧ chosen = []) := by
  cases chosen with
  | nil => exact .inr ⟨rfl, rfl⟩
  | cons first rest =>
    left
    obtain ⟨w, hw, -⟩ := h first List.mem_cons_self
    have hall : ∀ id ∈ (first :: rest).filterMap (·.get? "_id"), id.IsIdentity i := by
      intro id hid
      obtain ⟨d, hd, hget⟩ := List.mem_filterMap.mp hid
      obtain ⟨u, hu, hi⟩ := h d hd
      exact Option.some.inj (hu.symm.trans hget) ▸ hi
    have hne : (first :: rest).filterMap (·.get? "_id") ≠ [] := by
      simp [hw]
    obtain ⟨f, hf⟩ := Option.ne_none_iff_exists'.mp (mt identityFilter?_eq_none_iff.mp hne)
    refine ⟨f, hf, fun d => ?_⟩
    rw [accepts_of_identityFilter? hf, Bool.eq_iff_iff, List.any_eq_true]
    constructor
    · rintro ⟨id, hid, haccepts⟩
      exact Filter.accepts_identity_congr (hall id hid) hv d ▸ haccepts
    · intro haccepts
      obtain ⟨id, hid⟩ := List.exists_mem_of_ne_nil _ hne
      exact ⟨id, hid, Filter.accepts_identity_congr hv (hall id hid) d ▸ haccepts⟩

namespace Collection

variable {c : Collection} {s : Store} {key : Key}

theorem selection?_of_tells (ht : s.Tells c.name key) (limit : Option UInt64)
    (hlimit : limit ≠ some 0) :
    (∃ f, c.selection? s (some (Repository.idFilter key)) limit = some f ∧
      ∀ d, f.accepts d = (Repository.idFilter key).accepts d) ∨
    (c.selection? s (some (Repository.idFilter key)) limit = none ∧
      ∀ d ∈ s.documents c.name, (Repository.idFilter key).accepts d = false) := by
  rw [selection?, Store.find_all, Query.run, SortKey.sort_nil, Query.select_eq_filter]
  dsimp only
  generalize hfound : Query.window none limit _ = found
  have hwindow := Query.window_none_cases hlimit hfound
  have hall : ∀ d ∈ found, d.HasIdentity key.identity := by
    intro d hd
    obtain ⟨hmem, haccepts⟩ := List.mem_filter.mp (hwindow.1.subset hd)
    exact ht d hmem haccepts
  obtain hsome | ⟨hnone, hnil⟩ := identityFilter?_cases key.isIdentity_stored hall
  · exact .inl hsome
  · have hnil' := List.filter_eq_nil_iff.mp (hwindow.2 hnil)
    exact .inr ⟨hnone, fun d hd => by simpa [Query.selects] using hnil' d hd⟩

theorem updateMany_of_tells (hs : s.IsFiled) (ht : s.Tells c.name key) (now : Int64)
    (update : Update) : c.updateMany now (some (Repository.idFilter key)) update s =
      s.updateMany now (some (Repository.idFilter key)) update c.name := by
  unfold updateMany
  split
  · rfl
  · obtain ⟨f, hf, hall⟩ | ⟨hf, hnone⟩ := selection?_of_tells ht none nofun
    · rw [hf]
      exact Store.updateMany_congr (fun e _ => hall e.document) now update
    · rw [hf]
      have hnone' : ∀ e ∈ s.entries c.name,
          Query.selects (some (Repository.idFilter key)) e.document = false :=
        fun e he => hnone _ (List.mem_map_of_mem he)
      exact (Store.updateMany_of_none hs hnone' now update).symm

theorem replaceOne_of_tells (ht : s.Tells c.name key) (replacement : Document) :
    c.replaceOne (Repository.idFilter key) replacement s =
      s.replaceOne (Repository.idFilter key) replacement c.name := by
  unfold replaceOne
  split
  · rfl
  · obtain ⟨f, hf, hall⟩ | ⟨hf, hnone⟩ := selection?_of_tells ht (some 1) (by decide)
    · rw [hf]
      exact Store.replaceOne_congr_filter hall s replacement c.name
    · rw [hf]
      refine (Store.replaceOne_of_none (List.find?_eq_none.mpr fun e he => ?_) replacement).symm
      rw [hnone _ (List.mem_map_of_mem he)]
      exact Bool.false_ne_true

theorem deleteOne_of_tells (hs : s.IsFiled) (ht : s.Tells c.name key) :
    c.deleteOne (Repository.idFilter key) s =
      s.deleteOne (Repository.idFilter key) c.name := by
  unfold deleteOne
  split
  · rfl
  · obtain ⟨f, hf, hall⟩ | ⟨hf, hnone⟩ := selection?_of_tells ht (some 1) (by decide)
    · rw [hf]
      exact Store.deleteOne_congr_filter hall s c.name
    · rw [hf]
      refine (Store.deleteOne_of_none hs (List.find?_eq_none.mpr fun e he => ?_)).symm
      rw [hnone _ (List.mem_map_of_mem he)]
      exact Bool.false_ne_true

end Collection

namespace Repository

variable {repo : Repository} {s : Store}

section Equations

variable {key : Key} (h : s.IsFiled) (ht : s.Tells repo.name key)

include h ht in
theorem updateById_of_ok {now : Int64} {update ops : Update}
    (hops : repo.type.resolveUpdate update = .ok ops) :
    repo.updateById now key update s =
      written (s.updateMany now (some (idFilter key)) ops repo.name) := by
  unfold updateById updateStored
  rw [hops]
  exact congrArg written (repo.collection.updateMany_of_tells h ht now ops)

include ht in
theorem replaceWritten_of_ok {fieldsOf : Document → Except Failure Document} {now : Int64}
    {d fields : Document} (hkey : repo.type.keyOf? d = some key)
    (hfields : fieldsOf (repo.type.setModifiedOn now d) = .ok fields) :
    repo.replaceWritten fieldsOf now d s = written (s.replaceOne (idFilter key)
      (repo.type.encodeFields fields (repo.type.setModifiedOn now d)) repo.name) := by
  rw [replaceWritten_of_keyOf? hkey hfields]
  exact congrArg written (repo.collection.replaceOne_of_tells ht _)

include h ht in
theorem deleteById_eq : repo.deleteById key s = s.deleteOne (idFilter key) repo.name :=
  repo.collection.deleteOne_of_tells h ht

end Equations

/-- `repo.TouchesOne s key front found rest`: a write by the key keeps the documents `front` and `rest`
in their places and all other collections. What it was to change is there after the write just if it
was there before, or is gone after a deletion. A write that fails changes nothing, and neither does the
replacement of a document that is not there. -/
structure TouchesOne (repo : Repository) (s : Store) (key : Key) (front : List Document)
    (found : Option Document) (rest : List Document) : Prop where
  updated : ∀ now update, ∃ new : Option Document, new.isSome = found.isSome ∧
    s.KeepsBeside (repo.updateById now key update s).2 repo.name key.identity front new rest ∧
    (∀ e, (repo.updateById now key update s).1 = .error e →
      (repo.updateById now key update s).2 = s) ∧
    ((repo.updateById now key update s).1 = .ok () → ∃ ops,
      repo.type.resolveUpdate update = .ok ops ∧ found.mapM (ops.run now) = .ok new)
  replaced : ∀ fieldsOf now d, repo.type.keyOf? d = some key →
    ∃ new : Option Document, new.isSome = found.isSome ∧
      s.KeepsBeside (repo.replaceWritten fieldsOf now d s).2 repo.name key.identity front new rest ∧
      (∀ e, (repo.replaceWritten fieldsOf now d s).1 = .error e →
        (repo.replaceWritten fieldsOf now d s).2 = s) ∧
      (∀ b, (repo.replaceWritten fieldsOf now d s).1 = .ok b → b = found.isSome) ∧
      (found = none → repo.replaceWritten fieldsOf now d s =
        ((fieldsOf (repo.type.setModifiedOn now d)).map fun _ => false, s))
  deleted : s.KeepsBeside (repo.deleteById key s) repo.name key.identity front none rest

section Located

variable {key : Key} {front rest : List Document}
  {found : Option Document} (h : s.IsFiled) (ht : s.Tells repo.name key)
  (hl : Locates key.identity (s.documents repo.name) front found rest)
include h ht hl

theorem updateById_keepsBeside (now : Int64) (update : Update) :
    ∃ new : Option Document, new.isSome = found.isSome ∧
      s.KeepsBeside (repo.updateById now key update s).2 repo.name key.identity front new rest ∧
      (∀ e, (repo.updateById now key update s).1 = .error e →
        (repo.updateById now key update s).2 = s) ∧
      ((repo.updateById now key update s).1 = .ok () → ∃ ops,
        repo.type.resolveUpdate update = .ok ops ∧ found.mapM (ops.run now) = .ok new) := by
  cases hops : repo.type.resolveUpdate update with
  | error e =>
    have hfails : repo.updateById now key update s = (.error e, s) := by
      simp only [updateById, updateStored, hops]
      rfl
    rw [hfails]
    exact ⟨found, rfl, .refl hl, fun _ _ => rfl, nofun⟩
  | ok ops =>
    rw [updateById_of_ok h ht hops]
    cases hnew : found.mapM (ops.run now) with
    | error e =>
      rw [Store.updateMany_of_run_error h ht hl hnew]
      exact ⟨found, rfl, .refl hl, fun _ _ => rfl, nofun⟩
    | ok new =>
      obtain ⟨hok, hkept⟩ := Store.updateMany_of_run h ht hl hnew
      have hsome : new.isSome = found.isSome := by
        cases found with
        | none =>
          cases hnew
          rfl
        | some d =>
          obtain ⟨d', -, rfl⟩ := exists_of_map_eq_ok hnew
          rfl
      refine ⟨new, hsome, hkept, ?_, fun _ => ⟨ops, rfl, hnew⟩⟩
      rw [written_fst, hok]
      exact nofun

theorem replaceWritten_keepsBeside (fieldsOf : Document → Except Failure Document) (now : Int64)
    {d : Document} (hkey : repo.type.keyOf? d = some key) :
    ∃ new : Option Document, new.isSome = found.isSome ∧
      s.KeepsBeside (repo.replaceWritten fieldsOf now d s).2 repo.name key.identity front new rest ∧
      (∀ e, (repo.replaceWritten fieldsOf now d s).1 = .error e →
        (repo.replaceWritten fieldsOf now d s).2 = s) ∧
      (∀ b, (repo.replaceWritten fieldsOf now d s).1 = .ok b → b = found.isSome) ∧
      (found = none → repo.replaceWritten fieldsOf now d s =
        ((fieldsOf (repo.type.setModifiedOn now d)).map fun _ => false, s)) := by
  cases hfields : fieldsOf (repo.type.setModifiedOn now d) with
  | error e =>
    have hfails : repo.replaceWritten fieldsOf now d s = (.error e, s) := by
      simp only [replaceWritten, requiredId, hkey, hfields]
    rw [hfails]
    exact ⟨found, rfl, .refl hl, fun _ _ => rfl, nofun, fun _ => rfl⟩
  | ok fields =>
    rw [replaceWritten_of_ok ht hkey hfields]
    generalize repo.type.encodeFields fields (repo.type.setModifiedOn now d) = replacement
    cases found with
    | none =>
      rw [Store.replaceOne_of_not_found ht hl replacement]
      refine ⟨none, rfl, .refl hl, nofun, ?_, fun _ => rfl⟩
      rintro b ⟨⟩
      rfl
    | some m =>
      obtain ⟨id, hid, -⟩ := hl.found m rfl
      obtain ⟨hok, hkept⟩ | hfails := Store.replaceOne_of_found h ht hl hid replacement
      · refine ⟨some (("_id", id) :: replacement.erase "_id"), rfl, hkept, ?_, ?_, nofun⟩
        · rw [written_fst, hok]
          exact nofun
        · rw [written_fst, hok]
          rintro b ⟨⟩
          rfl
      · rw [hfails]
        exact ⟨some m, rfl, .refl hl, fun _ _ => rfl, nofun, nofun⟩

theorem touchesOne : repo.TouchesOne s key front found rest where
  updated := updateById_keepsBeside h ht hl
  replaced := fun fieldsOf now _ hkey => replaceWritten_keepsBeside h ht hl fieldsOf now hkey
  deleted := by
    rw [deleteById_eq h ht]
    exact Store.deleteOne_idFilter h ht hl

end Located

theorem documents_updateById_nil {key : Key} (h : s.IsFiled) (hnative : s.supports (idFilter key))
    (hstamp : repo.type.resolvePath (Path.ofString repo.type.timestamp) =
      .ok ⟨repo.type.timestamp, []⟩) (hfield : repo.type.timestamp ≠ "_id") (now : Int64) :
    (repo.updateById now key [] s).2.documents repo.name =
      (s.documents repo.name).map fun d => if (idFilter key).accepts d then
        d.insert repo.type.timestamp (.dateTime now) else d := by
  have hops : repo.type.resolveUpdate [] = .ok [.currentDate ⟨repo.type.timestamp, []⟩] := by
    simp [DocumentType.resolveUpdate, hstamp]
    rfl
  rw [← Store.documents_updateMany_stamp h hfield now (idFilter key)]
  unfold updateById updateStored
  rw [hops]
  change (repo.collection.updateMany now (some (idFilter key)) _ s).2.documents repo.name = _
  rw [Collection.updateMany, if_pos (by simpa [Collection.native] using hnative)]
  rfl

theorem tells_of_updateById {key : Key} (h : s.IsFiled) (hnative : s.supports (idFilter key))
    (hS : repo.type.KeepsTime)
    (hown : repo.type.resolvePath (Path.ofString repo.type.timestamp) ≠ .ok Path.identity)
    (hkeeps : ∀ now, ∀ d ∈ s.documents repo.name, ¬d.HasIdentity key.identity →
      d ∈ (repo.updateById now key [] s).2.documents repo.name) : s.Tells repo.name key := by
  intro d hd haccepts
  by_contra hnot
  obtain ⟨stamp, hstamp⟩ := hS.exists_stamp
  obtain rfl | rfl := hS.resolvePath_timestamp hstamp
  · exact hown hstamp
  have hfield : repo.type.timestamp ≠ "_id" := fun hfield => hown (hfield ▸ hstamp)
  -- a time that the document does not carry yet
  have hnew : ∃ now, d.get? repo.type.timestamp ≠ some (.dateTime now) := by
    by_cases hzero : d.get? repo.type.timestamp = some (.dateTime 0)
    · exact ⟨1, by simp [hzero]⟩
    · exact ⟨0, hzero⟩
  obtain ⟨now, hnow⟩ := hnew
  have hmem := hkeeps now d hd hnot
  rw [documents_updateById_nil h hnative hstamp hfield] at hmem
  obtain ⟨c, -, hc⟩ := List.mem_map.mp hmem
  split at hc
  next =>
    refine hnow ?_
    rw [← hc, Document.get?_insert, if_pos rfl]
  next hrefused => exact hrefused (hc ▸ haccepts)

/-- At most one document of a collection has the identity of a key. The writes by the key touch no
other document if the filter for the key accepts no other, and if the store evaluates the filter itself,
not even the updates do so otherwise. In a store that only repositories write to, with no field but the
identity stored as `_id`, no key is mistaken. -/
theorem keyed_writes_touch_one {ops : List Operator} {s : Store} (hs : Store.Reachable ops s)
    (repo : Repository) (key : Key) :
    (∃ front found rest, Locates key.identity (s.documents repo.name) front found rest ∧
      (s.Tells repo.name key → repo.TouchesOne s key front found rest)) ∧
    (s.supports (idFilter key) → repo.type.KeepsTime →
      repo.type.resolvePath (Path.ofString repo.type.timestamp) ≠ .ok Path.identity →
      (∀ now, ∀ d ∈ s.documents repo.name, ¬d.HasIdentity key.identity →
        d ∈ (repo.updateById now key [] s).2.documents repo.name) → s.Tells repo.name key) ∧
    (Store.TypedReachable ops s → s.Tells repo.name key) := by
  refine ⟨?_, tells_of_updateById hs.isFiled, ?_⟩
  · obtain ⟨front, found, rest, hl⟩ := hs.isFiled.exists_locates repo.name key.identity
    exact ⟨front, found, rest, hl, fun ht => touchesOne hs.isFiled ht hl⟩
  · exact fun htyped d hd => (htyped.isTyped.accepts_iff hd key).mp

/-- Two permits, of which one is deleted, and a third that is not there to be replaced. -/
theorem keyed_writes_touch_one_of_permits :
    let repo : Repository := ⟨Catalogue.permit, ⟨"Permit"⟩⟩
    let permit (n : Int64) : Document :=
      [("permitNumber", .int64 n), ("lastChanged", .null), ("issuedTo", .string "x")]
    let s := repo.after {} (.insertMany .ok 0 (fun i => ⟨BitVec.ofNat 96 i⟩) [permit 7, permit 8])
    repo.replaceOne 1 (permit 9) s = (.ok false, s) ∧
      ∃ front found rest, Locates (.integer 7) (s.documents "Permit") front found rest ∧
        s.KeepsBeside (repo.deleteById (.int64 7) s) "Permit" (.integer 7) front none rest := by
  intro repo permit s
  have hdocs : repo.KeepsKinds .ok 0 [permit 7, permit 8] := by
    refine .of_get?_eq_none ?_
    rintro d hd fields ⟨⟩
    simp only [List.mem_cons, List.not_mem_nil, or_false] at hd
    obtain rfl | rfl := hd <;> rfl
  have hs : Store.TypedReachable [] s := .write repo _ hdocs .empty
  have hdocuments : s.documents "Permit" =
      [[("_id", .int64 7), ("lastChanged", .dateTime 0), ("issuedTo", .string "x")],
        [("_id", .int64 8), ("lastChanged", .dateTime 0), ("issuedTo", .string "x")]] := by rfl
  constructor
  · obtain ⟨⟨front, found, rest, hl, hone⟩, -, htells⟩ :=
      keyed_writes_touch_one hs.reachable repo (.int64 9)
    have hnone : found = none := by
      cases found with
      | none => rfl
      | some d =>
        have hmem : d ∈ s.documents "Permit" := by
          change d ∈ s.documents repo.name
          simp [hl.split]
        obtain ⟨v, hv, hi⟩ := hl.found d rfl
        rw [hdocuments] at hmem
        simp only [List.mem_cons, List.not_mem_nil, or_false] at hmem
        obtain rfl | rfl := hmem <;> cases hv
        · exact absurd (Identity.integer.inj (hi.unique (.int64 7))) (by decide)
        · exact absurd (Identity.integer.inj (hi.unique (.int64 8))) (by decide)
    obtain ⟨-, -, -, -, -, hfalse⟩ := (hone (htells hs)).replaced .ok 1 (permit 9) rfl
    exact hfalse hnone
  · obtain ⟨⟨front, found, rest, hl, hone⟩, -, htells⟩ :=
      keyed_writes_touch_one hs.reachable repo (.int64 7)
    exact ⟨front, found, rest, hl, (hone (htells hs)).deleted⟩

/-- Two readings that keep `[7]` and `[7, 8]` in the place of the identity. The key 7 changes both of
them, deletes the first and replaces it, though neither has the identity. -/
theorem keyed_writes_touch_others :
    let repo : Repository := ⟨DocumentType.readings, ⟨"Reading"⟩⟩
    let reading (n : Int64) (values : List Value) : Document :=
      [("id", .int64 n), ("modified_on", .null), ("_id", .array values)]
    let stored (values : List Value) (now : Int64) : Document :=
      [("_id", .array values), ("modified_on", .dateTime now)]
    let s := repo.after {} (.insertMany .ok 0 (fun i => ⟨BitVec.ofNat 96 i⟩)
      [reading 1 [.int64 7], reading 2 [.int64 7, .int64 8]])
    s.documents "Reading" = [stored [.int64 7] 0, stored [.int64 7, .int64 8] 0] ∧
    (∀ d ∈ s.documents "Reading", ¬d.HasIdentity (Key.int64 7).identity) ∧
    (repo.updateById 1 (.int64 7) [] s).2.documents "Reading" =
      [stored [.int64 7] 1, stored [.int64 7, .int64 8] 1] ∧
    (repo.deleteById (.int64 7) s).documents "Reading" = [stored [.int64 7, .int64 8] 0] ∧
    (repo.replaceOne 1 (reading 7 [.int64 7]) s).1 = .ok true := by
  intro repo reading stored s
  have hdocuments : s.documents "Reading" =
      [stored [.int64 7] 0, stored [.int64 7, .int64 8] 0] := by rfl
  have hs : Store.Reachable [] s := .write .empty repo _
  have hnative : s.supports (idFilter (.int64 7)) := by rfl
  have hstamp : repo.type.resolvePath (Path.ofString repo.type.timestamp) =
      .ok ⟨repo.type.timestamp, []⟩ := by
    rw [DocumentType.keepsTime_readings.ofString_timestamp]
    change DocumentType.readings.resolvePath ⟨"modified_on", []⟩ = .ok ⟨"modified_on", []⟩
    rfl
  have hupdated := documents_updateById_nil hs.isFiled hnative hstamp (by decide) 1
  rw [show s.documents repo.name = _ from hdocuments] at hupdated
  refine ⟨hdocuments, ?_, hupdated.trans (by rfl), by rfl, by rfl⟩
  rintro d hd ⟨v, hv, hi⟩
  rw [hdocuments] at hd
  simp only [List.mem_cons, List.not_mem_nil, or_false] at hd
  obtain rfl | rfl := hd <;> cases hv <;> cases hi

end Repository

end Docbase
