import Docbase.Proofs.Lookup
import Docbase.Proofs.Store.Filed

namespace Docbase.Store

/-- A call that may change the store, with what it takes from outside: new identities and the
time. -/
inductive Call where
  | insertMany (newId : Nat → ObjectId) (docs : List Document) (name : String)
  | updateMany (now : Int64) (filter : Option Filter) (update : Update) (name : String)
  | replaceOne (filter : Filter) (replacement : Document) (name : String)
  | deleteOne (filter : Filter) (name : String)
  | deleteMany (filter : Option Filter) (name : String)
  | create (name : String)
  | drop (name : String)

/-- The store after the call, whether it succeeded or failed. -/
def after (s : Store) : Call → Store
  | .insertMany newId docs name => (s.insertMany newId docs name).2
  | .updateMany now filter update name => (s.updateMany now filter update name).2
  | .replaceOne filter replacement name => (s.replaceOne filter replacement name).2
  | .deleteOne filter name => s.deleteOne filter name
  | .deleteMany filter name => s.deleteMany filter name
  | .create name => s.create name
  | .drop name => s.drop name

/-- The stores that calls lead to from an empty one. -/
inductive Reachable (unsupported : List Operator) : Store → Prop where
  | empty : Reachable unsupported { unsupported }
  | after {s : Store} (call : Call) : Reachable unsupported s →
      Reachable unsupported (s.after call)

structure IsFiled (s : Store) : Prop where
  names : (s.collections.map Prod.fst).Nodup
  filed : ∀ c ∈ s.collections, Entry.AllFiled c.2

variable {s : Store} {name : String} {es : List Entry}

namespace IsFiled

theorem entries_of_mem (h : s.IsFiled) (hmem : (name, es) ∈ s.collections) :
    s.entries name = es := by
  rw [Store.entries, lookup_of_mem h.names hmem, Option.getD_some]

theorem allFiled (h : s.IsFiled) (name : String) : Entry.AllFiled (s.entries name) := by
  cases hl : s.collections.lookup name with
  | none =>
    rw [Store.entries, hl]
    exact .nil
  | some es =>
    rw [Store.entries, hl]
    exact h.filed _ (mem_of_lookup hl)

theorem modify (h : s.IsFiled) {f : List Entry → List Entry}
    (hf : Entry.AllFiled (s.entries name) → Entry.AllFiled (f (s.entries name))) :
    (s.modify name f).IsFiled := by
  constructor
  · rw [Store.modify, List.map_map]
    exact h.names
  · intro c hc
    obtain ⟨⟨n, es⟩, hmem, rfl⟩ := List.mem_map.mp hc
    change Entry.AllFiled (if n = name then f es else es)
    split
    next hn =>
      subst hn
      rw [← h.entries_of_mem hmem]
      exact hf (h.allFiled n)
    next => exact h.filed _ hmem

theorem modify_congr (h : s.IsFiled) {f g : List Entry → List Entry}
    (hfg : f (s.entries name) = g (s.entries name)) : s.modify name f = s.modify name g := by
  unfold Store.modify
  congr 1
  refine List.map_congr_left fun (n, es) hmem => ?_
  dsimp only
  split
  next hn =>
    subst hn
    rw [← h.entries_of_mem hmem, hfg]
  next => rfl

theorem modify_self (h : s.IsFiled) {f : List Entry → List Entry}
    (hf : f (s.entries name) = s.entries name) : s.modify name f = s := by
  have hid : s.modify name id = s := by simp [Store.modify]
  rw [h.modify_congr (g := id) hf, hid]

theorem create (h : s.IsFiled) (name : String) : (s.create name).IsFiled := by
  unfold Store.create
  split
  · exact h
  next hnone =>
    constructor
    · rw [List.map_append, List.nodup_append]
      refine ⟨h.names, by simp, fun n hn m hm hnm => hnone ?_⟩
      obtain ⟨⟨l, es⟩, hmem, rfl⟩ := List.mem_map.mp hn
      obtain rfl : l = name := hnm.trans (List.mem_singleton.mp hm)
      rw [lookup_of_mem h.names hmem]
      rfl
    · intro c hc
      obtain hc | hc := List.mem_append.mp hc
      · exact h.filed c hc
      · obtain rfl := List.mem_singleton.mp hc
        exact .nil

theorem drop (h : s.IsFiled) (name : String) : (s.drop name).IsFiled :=
  ⟨h.names.sublist (List.filter_sublist.map _), fun c hc => h.filed c (List.mem_filter.mp hc).1⟩

theorem insertMany (h : s.IsFiled) (newId : Nat → ObjectId) (docs : List Document)
    (name : String) : (s.insertMany newId docs name).2.IsFiled := by
  have hcreated := h.create name
  unfold Store.insertMany
  dsimp only
  split
  · exact hcreated
  next hnone =>
    refine hcreated.modify (f := (· ++ _)) fun hes => hes.append (fun e he => ?_) hnone
    simp only [List.map_map, List.mem_map] at he
    obtain ⟨⟨d, i⟩, -, rfl⟩ := he
    exact Entry.isFiled_ofIdentified (newId i) d

theorem updateMany (h : s.IsFiled) (now : Int64) (filter : Option Filter) (update : Update)
    (name : String) : (s.updateMany now filter update name).2.IsFiled := by
  unfold Store.updateMany
  dsimp only
  split
  next es hes =>
    refine h.modify (f := fun _ => es) fun hfiled => hfiled.mapM (fun e e' he => ?_) hes
    split at he
    · exact Entry.isFiled_update he
    · cases he
      exact ⟨rfl, fun h => h⟩
  next => exact h

theorem replaceOne (h : s.IsFiled) (filter : Filter) (replacement : Document) (name : String) :
    (s.replaceOne filter replacement name).2.IsFiled := by
  unfold Store.replaceOne
  dsimp only
  split
  next => exact h
  next e he =>
    split
    next => exact h
    next id hid =>
      split
      next => exact h.modify fun hes => hes.replaceFirst he hid (Document.get?_cons_self _ _ _)
      next => exact h

/-- Every call keeps the entries filed. -/
theorem after (h : s.IsFiled) (call : Call) : (s.after call).IsFiled := by
  cases call with
  | insertMany newId docs name => exact h.insertMany newId docs name
  | updateMany now filter update name => exact h.updateMany now filter update name
  | replaceOne filter replacement name => exact h.replaceOne filter replacement name
  | deleteOne filter name => exact h.modify fun hes => hes.of_sublist List.eraseP_sublist
  | deleteMany filter name => exact h.modify fun hes => hes.of_sublist List.filter_sublist
  | create name => exact h.create name
  | drop name => exact h.drop name

end IsFiled

theorem Reachable.isFiled {ops : List Operator} (h : Reachable ops s) : s.IsFiled := by
  induction h with
  | empty => exact ⟨List.nodup_nil, nofun⟩
  | after call _ ih => exact ih.after call

theorem batch_of_isFiled (newId : Nat → ObjectId) {es : List Entry} (h : ∀ e ∈ es, e.IsFiled)
    (n : Nat) : (((es.map Entry.document).zipIdx n).map fun p =>
      Entry.identify (newId p.2) p.1).map Entry.ofIdentified = es := by
  induction es generalizing n with
  | nil => rfl
  | cons e es ih =>
    obtain ⟨id, hid, hkey⟩ := h e (by simp)
    have hfirst : Entry.ofIdentified (Entry.identify (newId n) e.document) = e := by
      rw [Entry.identify, hid, Entry.ofIdentified, ← hkey]
    rw [List.map_cons, List.zipIdx_cons, List.map_cons, List.map_cons, hfirst,
      ih fun e he => h e (by simp [he])]

theorem exists_reachable (ops : List Operator) (name : String) (h : Entry.AllFiled es) :
    ∃ s, Reachable ops s ∧ s.entries name = es := by
  have hnone : Entry.firstDuplicate? [] es = none :=
    Entry.firstDuplicate?_eq_none_iff.mpr ⟨h.nodup, by simp⟩
  have hcreate : Store.create { unsupported := ops } name = ⟨[(name, [])], ops⟩ := rfl
  have hentries : Store.entries ⟨[(name, [])], ops⟩ name = [] := by simp [entries]
  obtain ⟨newId⟩ : Nonempty (Nat → ObjectId) := ⟨fun _ => ⟨0⟩⟩
  refine ⟨_, .after (.insertMany newId (es.map Entry.document) name) .empty, ?_⟩
  unfold Store.after Store.insertMany
  dsimp only
  rw [hcreate, hentries, List.map_nil, batch_of_isFiled _ h.filed 0, hnone]
  simp [modify, entries]

end Docbase.Store
