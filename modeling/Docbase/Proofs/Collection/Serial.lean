import Docbase.Proofs.Collection.Client
import Docbase.Proofs.Repository.Typed
import Docbase.Proofs.Store.AllOrNothing

namespace Docbase

theorem Collection.accepts_identityFilter?_congr {ids : List Value} {f : Filter}
    (h : identityFilter? ids = some f) {d d' : Document} (hsame : Store.SameIdentity d d') :
    f.accepts d = f.accepts d' := by
  have hone : ∀ id, (Filter.comparison Path.identity .eq id).accepts d =
      (Filter.comparison Path.identity .eq id).accepts d' := by
    intro id
    rw [Filter.accepts, Filter.accepts, Path.identity, Document.lookup_single,
      Document.lookup_single, hsame]
  rw [accepts_of_identityFilter? h, accepts_of_identityFilter? h]
  simp only [hone]

theorem Entry.Updates.sameIdentity {now : Int64} {update : Update} {selected : Bool} {e e' : Entry}
    (h : e.Updates now update selected e') : Store.SameIdentity e'.document e.document := by
  obtain ⟨-, h⟩ := h
  split at h
  · exact Store.sameIdentity_of_apply h
  · rw [h]
    rfl

namespace Store

variable {s : Store} {name : String}

@[simp]
theorem unsupported_after (s : Store) (call : Call) :
    (s.after call).unsupported = s.unsupported := by
  have hcreate : ∀ name, (s.create name).unsupported = s.unsupported := by
    intro name
    rw [create]
    split <;> rfl
  cases call with
  | insertMany newId docs name =>
    rw [after, insertMany]
    dsimp only
    split <;> exact hcreate name
  | updateMany now filter update name =>
    rw [after, updateMany]
    split <;> rfl
  | replaceOne filter replacement name =>
    rw [after, replaceOne]
    dsimp only
    split
    · rfl
    · split
      · rfl
      · split <;> rfl
  | deleteOne | deleteMany | drop => rfl
  | create name => exact hcreate name

theorem deleteMany_after_updateMany {now : Int64} {filter g : Option Filter} {update : Update}
    {ids : List Value} {f : Filter} (hf : Collection.identityFilter? ids = some f)
    (hall : ∀ e ∈ s.entries name, f.accepts e.document = Query.selects g e.document)
    {es : List Entry} (hes : updatedEntries now filter update (s.entries name) = .ok es) :
    (s.updateMany now filter update name).2.deleteMany (some f) name =
      ((s.deleteMany g name).updateMany now filter update name).2 := by
  have hrest : updatedEntries now filter update ((s.deleteMany g name).entries name) =
      .ok (es.filter fun e => !f.accepts e.document) := by
    rw [deleteMany, entries_modify (.inl rfl)]
    refine mapM_filter_eq_ok hes fun e he e' he' => ?_
    have hsame : SameIdentity e'.document e.document := (updates_of_eq_ok he').sameIdentity
    rw [Collection.accepts_identityFilter?_congr hf hsame, hall e he]
  rw [updateMany_of_ok hes, updateMany_of_ok hrest]
  dsimp only
  rw [deleteMany, deleteMany, modify_modify, modify_modify]
  rfl

end Store

namespace Collection.Write

variable {w : Write} {name : String} {t : Store}

def deletes : Write → Bool
  | deleteMany _ => true
  | _ => false

def replaces : Write → Bool
  | replaceOne .. => true
  | _ => false

theorem isTyped_call (w : Write) (name : String) : (w.call name).IsTyped := by
  cases w <;> trivial

theorem after_on_congr (ht : t.IsFiled) (hw : ¬ w.replaces) {f : Filter}
    (hf : ∀ e ∈ t.entries name, f.accepts e.document = Query.selects w.filter e.document) :
    t.after ((w.on f).call name) = t.after (w.call name) := by
  cases w with
  | updateMany now filter update => exact congrArg Prod.snd (Store.updateMany_congr hf now update)
  | replaceOne => exact absurd rfl hw
  | deleteMany filter => exact Store.deleteMany_congr ht hf

theorem after_of_none (ht : t.IsFiled) (hw : ¬ w.replaces)
    (hnone : ∀ e ∈ t.entries name, Query.selects w.filter e.document = false) :
    t.after (w.call name) = t := by
  cases w with
  | updateMany now filter update =>
    exact congrArg Prod.snd (Store.updateMany_of_none ht hnone now update)
  | replaceOne => exact absurd rfl hw
  | deleteMany filter => exact Store.deleteMany_of_none ht hnone

end Collection.Write

namespace Client

open Collection

variable {a b c : Client} {s t s' : Store}

theorem native_congr (h : t.unsupported = s.unsupported) : c.native t = c.native s := by
  have hsupports : t.supports = s.supports := by
    funext f
    rw [Store.supports, Store.supports, h]
  rw [native, native, Collection.native, Collection.native, hsupports]

@[simp]
theorem unsupported_run (c : Client) (s : Store) : (c.run s).unsupported = s.unsupported := by
  by_cases h : c.native s
  · rw [run, after_of_native h, Store.unsupported_after]
  · rw [run, after_of_not_native h]
    split
    · exact Store.unsupported_after _ _
    · rfl

theorem late_of_native (h : c.native s) : c.late s t = c.run t := by
  rw [late, read, if_pos h, finish_started]

theorem late_of_not_native (h : ¬ c.native s) :
    c.late s t = match identityFilter? (c.selected s) with
      | some f => t.after ((c.write.on f).call c.collection.name)
      | none => t := by
  rw [late, read, if_neg h, finish_choose]
  rfl

theorem run_of_not_native (h : ¬ c.native s) :
    c.run s = match identityFilter? (c.selected s) with
      | some f => s.after ((c.write.on f).call c.collection.name)
      | none => s := after_of_not_native h

theorem selected_eq (c : Client) (s : Store) : c.selected s = (Query.window none c.write.limit
    (Query.select c.write.filter (s.documents c.collection.name))).filterMap (·.get? "_id") := by
  rw [selected, Store.find_all, Query.run, SortKey.sort_nil]

theorem run_of_selected_eq_nil (hnative : ¬ c.native s) (h : c.selected s = []) : c.run s = s := by
  rw [run_of_not_native hnative, h]
  rfl

/-- A client that would choose the same documents again may as well have read later. -/
theorem late_of_selected_eq (hops : t.unsupported = s.unsupported)
    (h : c.selected t = c.selected s) : c.late s t = c.run t := by
  by_cases hnative : c.native s
  · exact late_of_native hnative
  · rw [late_of_not_native hnative, run_of_not_native (by rwa [native_congr hops]), h]

/-- One of the clients makes its whole write before the other begins. -/
def Serial (a b : Client) (s s' : Store) : Prop := s' = b.run (a.run s) ∨ s' = a.run (b.run s)

/-- The write of `a` comes between the reading and the writing of `b`, and changes which documents `b`
would choose; `b` writes those that it has chosen before. -/
structure Overtakes (a b : Client) (s s' : Store) : Prop where
  clientSide : ¬ b.native s
  changed : b.selected (a.run s) ≠ b.selected s
  written : ∃ f, identityFilter? (b.selected s) = some f ∧
    s' = (a.run s).after ((b.write.on f).call b.collection.name)

theorem Serial.swap (h : Serial a b s s') : Serial b a s s' := Or.symm h

theorem Overtakes.eq_late (h : Overtakes a b s s') : s' = b.late s (a.run s) := by
  obtain ⟨f, hf, hs'⟩ := h.written
  rw [late_of_not_native h.clientSide, hf, hs']

theorem late_cases (a b : Client) (s : Store) :
    Serial a b s (b.late s (a.run s)) ∨ Overtakes a b s (b.late s (a.run s)) := by
  by_cases hnative : b.native s
  · exact .inl (.inl (late_of_native hnative))
  by_cases hselected : b.selected (a.run s) = b.selected s
  · exact .inl (.inl (late_of_selected_eq (a.unsupported_run s) hselected))
  have hlate := late_of_not_native (t := a.run s) hnative
  cases hf : identityFilter? (b.selected s) with
  | some f =>
    rw [hf] at hlate
    exact .inr ⟨hnative, hselected, f, hf, hlate⟩
  | none =>
    -- nothing was chosen, so `b` makes no call, and none either if it comes first
    have hfirst : b.run s = s :=
      run_of_selected_eq_nil hnative (identityFilter?_eq_none_iff.mp hf)
    rw [hf] at hlate
    exact .inl (.inr (by rw [hlate, hfirst]))

theorem interleaves_iff_cases : Interleaves a b s .started .started s' ↔
    Serial a b s s' ∨ Overtakes a b s s' ∨ Overtakes b a s s' := by
  rw [interleaves_iff]
  constructor
  · rintro (h | h | rfl | rfl)
    · exact .inl (.inl h)
    · exact .inl (.inr h)
    · exact (late_cases a b s).imp_right .inl
    · exact (late_cases b a s).imp Serial.swap .inr
  · rintro ((h | h) | h | h)
    · exact .inl h
    · exact .inr (.inl h)
    · exact .inr (.inr (.inl h.eq_late))
    · exact .inr (.inr (.inr h.eq_late))

theorem run_eq (hs : s.IsTyped) : c.run s = s.after (c.write.call c.collection.name) := by
  obtain ⟨col, w⟩ := c
  cases w with
  | updateMany now filter update =>
    exact congrArg Prod.snd (col.updateMany_eq hs.filed hs.entries now filter update)
  | replaceOne g replacement =>
    exact congrArg Prod.snd (col.replaceOne_eq hs.filed hs.entries g replacement)
  | deleteMany filter => exact col.deleteMany_eq hs.filed hs.entries filter

theorem isTyped_run (hs : s.IsTyped) : (c.run s).IsTyped := by
  rw [run_eq hs]
  exact hs.after _ (c.write.isTyped_call _)

theorem selected_cases (hs : s.IsTyped) (hw : ¬ c.write.replaces) :
    (∃ f, identityFilter? (c.selected s) = some f ∧ ∀ e ∈ s.entries c.collection.name,
      f.accepts e.document = Query.selects c.write.filter e.document) ∨
    (identityFilter? (c.selected s) = none ∧ ∀ e ∈ s.entries c.collection.name,
      Query.selects c.write.filter e.document = false) := by
  have hlimit : c.write.limit = none := by
    cases hc : c.write with
    | replaceOne => exact absurd (by rw [hc]; rfl) hw
    | updateMany | deleteMany => rfl
  have h := c.collection.selection?_all_cases hs.filed hs.entries c.write.filter
  rw [← hlimit] at h
  exact h

theorem late_of_subset (hs : s.IsTyped) (ht : t.IsTyped)
    (hsub : ∀ e ∈ t.entries c.collection.name, e ∈ s.entries c.collection.name)
    (hw : ¬ c.write.replaces) : c.late s t = c.run t := by
  by_cases hnative : c.native s
  · exact late_of_native hnative
  rw [late_of_not_native hnative, run_eq ht]
  obtain ⟨f, hf, hall⟩ | ⟨hf, hnone⟩ := selected_cases hs hw
  · rw [hf]
    exact Write.after_on_congr ht.filed hw fun e he => hall e (hsub e he)
  · rw [hf]
    exact (Write.after_of_none ht.filed hw fun e he => hnone e (hsub e he)).symm

theorem entries_run_of_ne (hs : s.IsTyped) {name : String} (h : name ≠ c.collection.name) :
    (c.run s).entries name = s.entries name := by
  rw [run_eq hs, Store.entries, Store.entries, Store.lookup_after_of_ne s (by simpa using h)]

theorem entries_run_of_deletes (hs : s.IsTyped) (h : c.write.deletes) {name : String} :
    ∀ e ∈ (c.run s).entries name, e ∈ s.entries name := by
  by_cases hname : name = c.collection.name
  · subst hname
    rw [run_eq hs]
    obtain ⟨col, w⟩ := c
    cases w with
    | deleteMany filter =>
      change ∀ e ∈ (s.deleteMany filter col.name).entries col.name, _
      rw [Store.deleteMany, Store.entries_modify (.inl rfl)]
      exact fun e he => (List.mem_filter.mp he).1
    | updateMany | replaceOne => cases h
  · rw [entries_run_of_ne hs hname]
    exact fun _ he => he

/-- What was chosen for deletion before an update that succeeds is deleted as though it had been
before the update. -/
theorem late_deletion (hs : s.IsTyped) {col : Collection} {now : Int64} {filter g : Option Filter}
    {update : Update} {es : List Entry} (hnative : ¬ Collection.native s g)
    (hes : Store.updatedEntries now filter update (s.entries col.name) = .ok es) :
    late ⟨col, .deleteMany g⟩ s (run ⟨col, .updateMany now filter update⟩ s) =
      run ⟨col, .updateMany now filter update⟩ (run ⟨col, .deleteMany g⟩ s) := by
  rw [late_of_not_native (c := ⟨col, .deleteMany g⟩) hnative, run_eq hs, run_eq (isTyped_run hs),
    run_eq hs]
  obtain ⟨f, hf, hall⟩ | ⟨hf, hnone⟩ := selected_cases (c := ⟨col, .deleteMany g⟩) hs nofun
  · rw [hf]
    exact Store.deleteMany_after_updateMany hf hall hes
  · rw [hf, Write.after_of_none (w := .deleteMany g) hs.filed nofun hnone]

theorem run_of_not_updated (hs : s.IsTyped) {col : Collection} {now : Int64}
    {filter : Option Filter} {update : Update} {e : WriteError}
    (he : Store.updatedEntries now filter update (s.entries col.name) = .error e) :
    run ⟨col, .updateMany now filter update⟩ s = s := by
  rw [run_eq hs]
  exact congrArg Prod.snd (Store.updateMany_of_updatedEntries_error he)

/-- A deletion and a deletion or an update come out as one after the other, whatever each of them
changes in between. -/
theorem serial_late (hs : s.IsTyped) (hdeletes : a.write.deletes ∨ b.write.deletes)
    (ha : ¬ a.write.replaces) (hb : ¬ b.write.replaces) :
    Serial a b s (b.late s (a.run s)) := by
  by_cases hsub : ∀ e ∈ (a.run s).entries b.collection.name, e ∈ s.entries b.collection.name
  · exact .inl (late_of_subset hs (isTyped_run hs) hsub hb)
  by_cases hnative : b.native s
  · exact .inl (late_of_native hnative)
  -- only an update of the same collection that succeeds brings documents that were not there
  have hupdates : ¬ a.write.deletes := fun h => hsub (entries_run_of_deletes hs h)
  have hname : b.collection = a.collection := by
    by_contra hne
    have hne : b.collection.name ≠ a.collection.name := fun h => hne (congrArg Collection.mk h)
    exact hsub fun e he => by rwa [entries_run_of_ne hs hne] at he
  have hb' : b.write.deletes := hdeletes.resolve_left hupdates
  obtain ⟨col, w⟩ := a
  obtain ⟨col', w'⟩ := b
  obtain rfl : col' = col := hname
  cases w' with
  | updateMany | replaceOne => cases hb'
  | deleteMany g =>
    cases w with
    | deleteMany => exact absurd rfl hupdates
    | replaceOne => exact absurd rfl ha
    | updateMany now filter update =>
      cases hes : Store.updatedEntries now filter update (s.entries col'.name) with
      | ok es => exact .inr (late_deletion hs hnative hes)
      | error e =>
        rw [run_of_not_updated hs hes] at hsub
        exact absurd (fun _ he => he) hsub

/-- Two clients that write at the same time leave the store as one after the other would, unless the
write of one of them changes, between the reading and the writing of the other, which documents that
one would choose. A deletion and a deletion or an update are never such an exception. -/
theorem interleaves_iff_serial_or_overtakes {ops : List Operator} (hs : Store.Reachable ops s)
    (hid : ∀ name, ∀ d ∈ s.documents name, d.IsTyped)
    (a b : Client) (s' : Store) :
    (Interleaves a b s .started .started s' ↔
      Serial a b s s' ∨ Overtakes a b s s' ∨ Overtakes b a s s') ∧
    (a.write.deletes ∨ b.write.deletes → ¬ a.write.replaces → ¬ b.write.replaces →
      Interleaves a b s .started .started s' → Serial a b s s') := by
  have htyped : s.IsTyped := ⟨hs.isFiled, hid⟩
  refine ⟨interleaves_iff_cases, fun hdeletes ha hb h => ?_⟩
  obtain h | h | h := interleaves_iff_cases.mp h
  · exact h
  · rw [h.eq_late]
    exact serial_late htyped hdeletes ha hb
  · rw [h.eq_late]
    exact (serial_late htyped hdeletes.symm hb ha).swap

/-- An update falls between the reading and the writing of a deletion and takes away what the document
was chosen for. -/
theorem serial_of_update_and_deletion :
    let s := Store.after { unsupported := [.eq] }
      (.insertMany (fun _ => ⟨0⟩) [[("_id", .int32 1), ("x", .int32 1)]] "c")
    let a : Client := ⟨⟨"c"⟩, .updateMany 0 none [.inc ⟨"x", []⟩ (.int32 1)]⟩
    let b : Client := ⟨⟨"c"⟩, .deleteMany (some (.comparison ⟨"x", []⟩ .eq (.int32 1)))⟩
    let s' : Store := ⟨[("c", [])], [.eq]⟩
    b.selected (a.run s) ≠ b.selected s ∧ Interleaves a b s .started .started s' ∧
      s' ≠ b.run (a.run s) ∧ Serial a b s s' := by
  intro s a b s'
  have hid : ∀ name, ∀ d ∈ s.documents name, d.IsTyped :=
    (Store.IsTyped.after (.empty [.eq]) (.insertMany _ _ "c")
      (List.forall_mem_singleton.mpr (.cons (.int32 1) _))).documents
  have hrun : a.run s = ⟨[("c", [⟨"1", [("_id", .int32 1), ("x", .int32 2)]⟩])], [.eq]⟩ := rfl
  have hbefore : b.selected s = [.int32 1] := by
    rw [selected_eq]
    rfl
  have hafter : b.selected (a.run s) = [] := by
    rw [selected_eq]
    rfl
  have hnative : ¬ b.native s := by decide
  have hlate : s' = b.late s (a.run s) := by
    rw [late_of_not_native hnative, hbefore]
    rfl
  have h : Interleaves a b s .started .started s' := interleaves_iff.mpr (.inr (.inr (.inl hlate)))
  refine ⟨by simp [hbefore, hafter], h, ?_,
    (interleaves_iff_serial_or_overtakes (.after _ .empty) hid a b s').2 (.inr rfl) nofun nofun h⟩
  rw [run_of_selected_eq_nil (by decide) hafter, hrun]
  simp [s']

/-- Both clients choose the one document before either changes it, and it is changed twice. -/
theorem not_serial_of_two_increments :
    let s := Store.after { unsupported := [.eq] }
      (.insertMany (fun _ => ⟨0⟩) [[("_id", .int32 1), ("x", .int32 1)]] "c")
    let c : Client := ⟨⟨"c"⟩, .updateMany 0 (some (.comparison ⟨"x", []⟩ .eq (.int32 1)))
      [.inc ⟨"x", []⟩ (.int32 1)]⟩
    let s' : Store := ⟨[("c", [⟨"1", [("_id", .int32 1), ("x", .int32 3)]⟩])], [.eq]⟩
    Store.Reachable [.eq] s ∧ (∀ name, ∀ d ∈ s.documents name, d.IsTyped) ∧
      Interleaves c c s .started .started s' ∧ ¬ Serial c c s s' := by
  intro s c s'
  have hid : ∀ name, ∀ d ∈ s.documents name, d.IsTyped :=
    (Store.IsTyped.after (.empty [.eq]) (.insertMany _ _ "c")
      (List.forall_mem_singleton.mpr (.cons (.int32 1) _))).documents
  have hbefore : c.selected s = [.int32 1] := by
    rw [selected_eq]
    rfl
  have hnative : ¬ c.native s := by decide
  have hrun : c.run s = ⟨[("c", [⟨"1", [("_id", .int32 1), ("x", .int32 2)]⟩])], [.eq]⟩ := by
    rw [run_of_not_native hnative, hbefore]
    rfl
  have hafter : c.selected (c.run s) = [] := by
    rw [selected_eq, hrun]
    rfl
  have hlate : s' = c.late s (c.run s) := by
    rw [late_of_not_native hnative, hbefore, hrun]
    rfl
  have hagain : c.run (c.run s) = c.run s :=
    run_of_selected_eq_nil (by rwa [native_congr (c.unsupported_run s)]) hafter
  refine ⟨.after _ .empty, hid, interleaves_iff.mpr (.inr (.inr (.inl hlate))), fun h => ?_⟩
  obtain h : s' = c.run s := h.elim (·.trans hagain) (·.trans hagain)
  rw [hrun] at h
  simp [s'] at h

end Client

end Docbase
