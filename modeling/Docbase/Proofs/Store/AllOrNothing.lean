import Docbase.Proofs.Store.Calls

namespace Docbase

/-- `e.Updates now update selected e'`: under the same key stands the document after the whole
update, or, if it is not selected, the document as it was. -/
def Entry.Updates (now : Int64) (update : Update) (selected : Bool) (e e' : Entry) : Prop :=
  e'.key = e.key ∧
    if selected then Update.apply now update e.document = (.ok (), e'.document)
    else e'.document = e.document

theorem Entry.exists_update_eq_error_iff {now : Int64} {update : Update} {e : Entry} :
    (∃ error, e.update now update = .error error) ↔
      ∃ fault left, Update.apply now update e.document = (.error fault, left) := by
  constructor
  · rintro ⟨error, h⟩
    obtain ⟨fault, left, -, hleft⟩ := Store.apply_of_update_eq_error h
    exact ⟨fault, left, hleft⟩
  · rintro ⟨fault, left, h⟩
    exact ⟨.update fault, by rw [Entry.update, Update.run, h]⟩

namespace Store

variable {s : Store} {now : Int64} {filter : Option Filter} {update : Update} {name : String}

/-- `s.Updated now filter update name s'`: the collections hold the same entries in the same order,
and those of the named collection that the filter selects are updated, all at one time. -/
structure Updated (now : Int64) (filter : Option Filter) (update : Update) (name : String)
    (s s' : Store) : Prop where
  unsupported : s'.unsupported = s.unsupported
  collections : List.Forall₂ (fun c c' => c'.1 = c.1 ∧ List.Forall₂ (fun e e' =>
      e.Updates now update (c.1 = name ∧ Query.selects filter e.document) e') c.2 c'.2)
    s.collections s'.collections

/-- The entries that an update of the selected ones comes to, if all can be updated. -/
def updatedEntries (now : Int64) (filter : Option Filter) (update : Update) (es : List Entry) :
    Except WriteError (List Entry) :=
  es.mapM fun e => if Query.selects filter e.document then e.update now update else .ok e

theorem updateMany_of_ok {es : List Entry}
    (h : updatedEntries now filter update (s.entries name) = .ok es) :
    s.updateMany now filter update name = (.ok (), s.modify name fun _ => es) := by
  rw [updatedEntries] at h
  rw [updateMany]
  simp only [h]

theorem updateMany_of_updatedEntries_error {e : WriteError}
    (h : updatedEntries now filter update (s.entries name) = .error e) :
    s.updateMany now filter update name = (.error e, s) := by
  rw [updatedEntries] at h
  rw [updateMany]
  simp only [h]

theorem updates_of_eq_ok {e e' : Entry} (h : (if Query.selects filter e.document
    then e.update now update else .ok e) = (.ok e' : Except WriteError Entry)) :
    e.Updates now update (Query.selects filter e.document) e' := by
  split at h
  next hselected =>
    rw [Entry.Updates, if_pos hselected]
    exact ⟨(Entry.isFiled_update h).1, apply_of_update_eq_ok h⟩
  next hselected =>
    cases h
    rw [Entry.Updates, if_neg hselected]
    exact ⟨rfl, rfl⟩

theorem forall₂_of_updatedEntries {es es' : List Entry}
    (h : updatedEntries now filter update es = .ok es') :
    List.Forall₂ (fun e e' => e.Updates now update (Query.selects filter e.document) e') es es' :=
  (forall₂_of_mapM_eq_ok h).imp fun _ _ => updates_of_eq_ok

theorem exists_updatedEntries_eq_error_iff {es : List Entry} :
    (∃ e, updatedEntries now filter update es = .error e) ↔
      ∃ e ∈ es, Query.selects filter e.document ∧
        ∃ fault left, Update.apply now update e.document = (.error fault, left) := by
  rw [updatedEntries, exists_mapM_eq_error_iff]
  refine exists_congr fun e => and_congr_right fun _ => ?_
  by_cases hselected : Query.selects filter e.document
  · simp only [hselected, true_and]
    exact Entry.exists_update_eq_error_iff
  · simp [hselected]

theorem updated_modify (hnames : (s.collections.map Prod.fst).Nodup) {es : List Entry}
    (h : updatedEntries now filter update (s.entries name) = .ok es) :
    s.Updated now filter update name (s.modify name fun _ => es) := by
  refine ⟨rfl, ?_⟩
  rw [modify, List.forall₂_map_right_iff, List.forall₂_same]
  rintro ⟨n, found⟩ hmem
  refine ⟨rfl, ?_⟩
  dsimp only
  split
  next hn =>
    subst hn
    have hfound : s.entries n = found := by
      rw [entries, lookup_of_mem hnames hmem, Option.getD_some]
    rw [hfound] at h
    simpa using forall₂_of_updatedEntries h
  next hn =>
    rw [List.forall₂_same]
    intro e _
    simp [Entry.Updates, hn]

theorem replaceOne_of_ne_true {g : Filter} {replacement : Document}
    (h : (s.replaceOne g replacement name).1 ≠ .ok true) :
    (s.replaceOne g replacement name).2 = s := by
  revert h
  rw [replaceOne]
  dsimp only
  split
  next => exact fun _ => rfl
  next =>
    split
    next => exact fun _ => rfl
    next =>
      split
      next => exact fun h => absurd rfl h
      next => exact fun _ => rfl

/-- An update fails exactly if it fails on some selected document, and then changes nothing; otherwise
it updates every selected document, as it was before the call, and no other. A replacement that does
not succeed changes nothing either. Nothing is asked of the store but that no two collections have
one name. -/
theorem writes_all_or_nothing (hnames : (s.collections.map Prod.fst).Nodup) (now : Int64)
    (filter : Option Filter) (update : Update) (name : String) (g : Filter)
    (replacement : Document) :
    ((∃ e, (s.updateMany now filter update name).1 = .error e) ↔
      ∃ d ∈ s.documents name, Query.selects filter d ∧
        ∃ fault left, Update.apply now update d = (.error fault, left)) ∧
    (∀ e, (s.updateMany now filter update name).1 = .error e →
      (s.updateMany now filter update name).2 = s) ∧
    ((s.updateMany now filter update name).1 = .ok () →
      s.Updated now filter update name (s.updateMany now filter update name).2) ∧
    ((s.replaceOne g replacement name).1 ≠ .ok true →
      (s.replaceOne g replacement name).2 = s) := by
  have hfails : (∃ d ∈ s.documents name, Query.selects filter d ∧
      ∃ fault left, Update.apply now update d = (.error fault, left)) ↔
        ∃ e, updatedEntries now filter update (s.entries name) = .error e := by
    rw [exists_updatedEntries_eq_error_iff, documents]
    simp only [List.mem_map, exists_exists_and_eq_and]
  rw [hfails]
  refine ⟨?_, ?_, ?_, replaceOne_of_ne_true⟩
  · cases h : updatedEntries now filter update (s.entries name) with
    | ok es => simp [updateMany_of_ok h]
    | error e => simp [updateMany_of_updatedEntries_error h]
  · intro e he
    rw [updateMany_of_error he]
  · intro hok
    cases h : updatedEntries now filter update (s.entries name) with
    | ok es =>
      rw [updateMany_of_ok h]
      exact updated_modify hnames h
    | error e =>
      rw [updateMany_of_updatedEntries_error h] at hok
      cases hok

theorem writes_all_or_nothing_of_text :
    let docs : List Document := [[("_id", .int32 1), ("n", .int32 1)],
      [("_id", .int32 2), ("n", .string "x")]]
    let s := Store.after {} (.insertMany (fun _ => ⟨0⟩) docs "c")
    let ops : Update := [.set ⟨"m", []⟩ (.int32 0), .inc ⟨"n", []⟩ (.int32 1)]
    (s.collections.map Prod.fst).Nodup ∧
      (s.updateMany 0 none ops "c").1 = .error (.update (.notNumeric "n")) ∧
      (s.updateMany 0 none ops "c").2 = s := by
  intro docs s ops
  have hnames : (s.collections.map Prod.fst).Nodup := by decide
  have hfails : (s.updateMany 0 none ops "c").1 = .error (.update (.notNumeric "n")) := rfl
  obtain ⟨-, hkept, -⟩ := writes_all_or_nothing hnames 0 none ops "c" (.all []) []
  exact ⟨hnames, hfails, hkept _ hfails⟩

end Store

end Docbase
