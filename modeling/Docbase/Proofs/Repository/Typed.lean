import Docbase.Proofs.Collection
import Docbase.Proofs.Repository.Insert
import Docbase.Proofs.Store.Continues

namespace Docbase

namespace Document

/-- Whether the identity of the document, if it has one, is of a kind that keys have. -/
def IsTyped (d : Document) : Prop := ∀ v, d.get? "_id" = some v → ∃ i, v.IsIdentity i

theorem IsTyped.of_sameIdentity {d d' : Document} (h : d.IsTyped) (hsame : Store.SameIdentity d' d) :
    d'.IsTyped := fun v hv => h v (hsame ▸ hv)

theorem IsTyped.cons {v : Value} {i : Identity} (h : v.IsIdentity i) (fields : Document) :
    IsTyped (("_id", v) :: fields) := by
  intro w hw
  rw [get?_cons_self] at hw
  exact ⟨i, Option.some.inj hw ▸ h⟩

theorem mem_of_get?_foldl_insert {fields d : Document} {key : String} {v : Value}
    (h : (fields.foldl (fun d (k, v) => d.insert k v) d).get? key = some v) :
    (key, v) ∈ fields ∨ d.get? key = some v := by
  induction fields generalizing d with
  | nil => exact .inr h
  | cons field fields ih =>
    obtain ⟨k, w⟩ := field
    obtain hmem | hd := ih h
    · exact .inl (List.mem_cons_of_mem _ hmem)
    · rw [get?_insert] at hd
      split at hd
      next hk =>
        obtain rfl := Option.some.inj hd
        exact .inl (by simp [hk])
      next => exact .inr hd

theorem mem_of_get?_ofList {fields : Document} {key : String} {v : Value}
    (h : (ofList fields).get? key = some v) : (key, v) ∈ fields :=
  (mem_of_get?_foldl_insert h).resolve_right nofun

end Document

theorem DocumentType.isTyped_encodeFields {T : DocumentType} {fields : Document}
    (h : ∀ v, ("_id", v) ∈ fields.erase T.identity → ∃ i, v.IsIdentity i) (d : Document) :
    (T.encodeFields fields d).IsTyped := by
  intro v hv
  unfold encodeFields at hv
  cases hkey : T.keyOf? d with
  | none =>
    rw [hkey] at hv
    exact h v (mem_of_lookup hv)
  | some key =>
    rw [hkey] at hv
    obtain heq | hmem := List.mem_cons.mp (Document.mem_of_get?_ofList hv)
    · cases heq
      exact ⟨key.identity, key.isIdentity_stored⟩
    · exact h v hmem

namespace Store

/-- Whether the call brings no documents with other identities. -/
def Call.IsTyped : Call → Prop
  | .insertMany _ docs _ => ∀ d ∈ docs, d.IsTyped
  | _ => True

theorem Stores.isTyped {newId : Nat → ObjectId} {docs : List Document}
    {batch : List (Value × Document)} (h : Stores newId docs batch) (hdocs : ∀ d ∈ docs, d.IsTyped) :
    ∀ d ∈ batch.map Prod.snd, d.IsTyped := by
  intro stored hstored
  obtain ⟨⟨id, stored⟩, hq, rfl⟩ := List.mem_map.mp hstored
  obtain ⟨⟨d, i⟩, hp, hidentifies⟩ := exists_of_mem_forall₂ h hq
  have hd := hdocs d (List.fst_mem_of_mem_zipIdx hp)
  cases hidentifies with
  | own => exact hd
  | new =>
    intro v hv
    obtain rfl := Option.some.inj ((Document.get?_cons_self _ _ _).symm.trans hv)
    exact ⟨_, .objectId _⟩

theorem Acts.isTyped {call : Call} {before after : List Document} {answer : Except WriteError Answer}
    (h : Acts call before answer after) (hcall : call.IsTyped) (hbefore : ∀ d ∈ before, d.IsTyped) :
    ∀ d ∈ after, d.IsTyped := by
  cases h with
  | inserted hbatch =>
    intro d hd
    obtain hd | hd := List.mem_append.mp hd
    · exact hbefore d hd
    · exact hbatch.isTyped hcall d hd
  | updated hall =>
    intro d' hd'
    obtain ⟨d, hd, h⟩ := exists_of_mem_forall₂ hall hd'
    split at h
    · exact (hbefore d hd).of_sameIdentity (sameIdentity_of_apply h)
    · rw [h]
      exact hbefore d hd
  | @replaced _ replacement _ _ front d rest id hsplit hfront hd hid hsame =>
    subst hsplit
    intro c hc
    simp only [List.mem_append, List.mem_cons] at hc hbefore
    obtain hc | rfl | hc := hc
    · exact hbefore c (.inl hc)
    · intro v hv
      rw [Document.get?_cons_self] at hv
      exact hbefore d (.inr (.inl rfl)) v (hid.trans hv)
    · exact hbefore c (.inr (.inr hc))
  | deleted hsplit =>
    subst hsplit
    intro c hc
    apply hbefore c
    obtain hc | hc := List.mem_append.mp hc <;> simp [hc]
  | allDeleted => exact fun d hd => hbefore d (List.mem_filter.mp hd).1
  | dropped => exact nofun
  | duplicate | notUpdated | notReplaced | noneReplaced | noneDeleted | created => exact hbefore

/-- Everything in the store is filed, under identities of the kinds that keys have. -/
structure IsTyped (s : Store) : Prop where
  filed : s.IsFiled
  documents : ∀ name, ∀ d ∈ s.documents name, d.IsTyped

namespace IsTyped

variable {s : Store}

theorem entries (h : s.IsTyped) {name : String} : ∀ e ∈ s.entries name, e.IsTyped := by
  intro e he
  obtain ⟨v, hv, hkey⟩ := (h.filed.allFiled name).filed e he
  obtain ⟨i, hi⟩ := h.documents name e.document (List.mem_map_of_mem he) v hv
  exact ⟨v, i, hv, hi, hkey⟩

theorem empty (ops : List Operator) : IsTyped { unsupported := ops } :=
  ⟨⟨List.nodup_nil, nofun⟩, fun _ => nofun⟩

theorem after (h : s.IsTyped) (call : Call) (hcall : call.IsTyped) : (s.after call).IsTyped := by
  refine ⟨h.filed.after call, fun name => ?_⟩
  by_cases hname : name = call.name
  · rw [hname]
    exact (h.filed.acts call).isTyped hcall (h.documents call.name)
  · rw [documents_after_of_ne s hname]
    exact h.documents name

end IsTyped

end Store

namespace Repository

/-- A call that may change the store, with what it takes from outside: how documents are written out,
new identities and the time. -/
inductive Write where
  | insertMany (fieldsOf : Document → Except Failure Document) (now : Int64)
      (newId : Nat → ObjectId) (docs : List Document)
  | updateById (now : Int64) (id : Key) (update : Update)
  | update (now : Int64) (f : Filter) (update : Update)
  | replaceOne (fieldsOf : Document → Except Failure Document) (now : Int64) (d : Document)
  | deleteById (id : Key)
  | delete (d : Document)
  | deleteMany (f : Filter)

variable (repo : Repository) (s : Store)

def after : Write → Store
  | .insertMany fieldsOf now newId docs => (repo.insertWritten fieldsOf now newId docs s).2
  | .updateById now id update => (repo.updateById now id update s).2
  | .update now f update => (repo.update now f update s).2
  | .replaceOne fieldsOf now d => (repo.replaceWritten fieldsOf now d s).2
  | .deleteById id => repo.deleteById id s
  | .delete d => (repo.delete d s).2
  | .deleteMany f => (repo.deleteMany f s).2

/-- The contract for fields that are stored as `_id` besides the identity: if there are any, they hold
identities, too. -/
def KeepsKinds (fieldsOf : Document → Except Failure Document) (now : Int64)
    (docs : List Document) : Prop :=
  ∀ d ∈ docs, ∀ fields, fieldsOf (repo.type.setModifiedOn now d) = .ok fields →
    ∀ v, ("_id", v) ∈ fields.erase repo.type.identity → ∃ i, v.IsIdentity i

/-- Whether the call, if it is an insertion, keeps to the contract. -/
def Write.IsTyped : Write → Prop
  | .insertMany fieldsOf now _ docs => repo.KeepsKinds fieldsOf now docs
  | _ => True

variable {repo s}

theorem KeepsKinds.of_get?_eq_none {fieldsOf : Document → Except Failure Document} {now : Int64}
    {docs : List Document}
    (h : ∀ d ∈ docs, ∀ fields, fieldsOf (repo.type.setModifiedOn now d) = .ok fields →
      (fields.erase repo.type.identity).get? "_id" = none) : repo.KeepsKinds fieldsOf now docs := by
  intro d hd fields hwritten v hv
  obtain ⟨w, hw⟩ := exists_lookup_of_mem hv
  cases (h d hd fields hwritten).symm.trans hw

theorem isTyped_of_encodeAll {fieldsOf : Document → Except Failure Document} {now : Int64}
    {docs batch : List Document} (h : repo.KeepsKinds fieldsOf now docs)
    (hbatch : repo.encodeAll fieldsOf (docs.map (repo.type.setModifiedOn now)) = .ok batch) :
    ∀ d ∈ batch, d.IsTyped := by
  intro stored hstored
  obtain ⟨typed, htyped, hencoded⟩ := exists_of_mem_forall₂ (forall₂_of_mapM_eq_ok hbatch) hstored
  obtain ⟨d, hd, rfl⟩ := List.mem_map.mp htyped
  obtain ⟨fields, hfields, rfl⟩ := exists_of_map_eq_ok hencoded
  exact repo.type.isTyped_encodeFields (h d hd fields hfields) _

@[simp]
theorem written_fst {α : Type} (x : Except WriteError α × Store) :
    (written x).1 = x.1.mapError .write := rfl

@[simp]
theorem written_snd {α : Type} (x : Except WriteError α × Store) : (written x).2 = x.2 := rfl

section Calls

variable (repo s)

theorem updateStored_snd_cases (now : Int64) (filter : Except Failure Filter) (update : Update) :
    (repo.updateStored now filter update s).2 = s ∨ ∃ f ops,
      (repo.updateStored now filter update s).2 = (s.updateMany now f ops repo.name).2 := by
  unfold updateStored
  split
  next f ops _ =>
    obtain hnone | ⟨g, hcall⟩ := repo.collection.updateMany_cases (s := s) now (some f) ops
    · exact .inl (by rw [hnone, written])
    · exact .inr ⟨g, ops, by rw [hcall, written_snd]; rfl⟩
  next => exact .inl rfl

theorem replaceWritten_snd_cases (fieldsOf : Document → Except Failure Document) (now : Int64)
    (d : Document) : (repo.replaceWritten fieldsOf now d s).2 = s ∨ ∃ f replacement,
      (repo.replaceWritten fieldsOf now d s).2 = (s.replaceOne f replacement repo.name).2 := by
  unfold replaceWritten
  split
  next => exact .inl rfl
  next =>
    dsimp only
    split
    next => exact .inl rfl
    next =>
      obtain hnone | ⟨f, hcall⟩ := repo.collection.replaceOne_cases (s := s) _ _
      · exact .inl (by rw [hnone, written])
      · exact .inr ⟨f, _, by rw [hcall, written_snd]; rfl⟩

theorem deleteById_cases (id : Key) : repo.deleteById id s = s ∨ ∃ f,
    repo.deleteById id s = s.deleteOne f repo.name := repo.collection.deleteOne_cases _

theorem delete_snd_cases (d : Document) : (repo.delete d s).2 = s ∨ ∃ f,
    (repo.delete d s).2 = s.deleteOne f repo.name := by
  unfold delete
  split
  next id _ => exact repo.deleteById_cases s id
  next => exact .inl rfl

theorem deleteMany_snd_cases (f : Filter) : (repo.deleteMany f s).2 = s ∨ ∃ g,
    (repo.deleteMany f s).2 = s.deleteMany g repo.name := by
  unfold deleteMany
  split
  next => exact repo.collection.deleteMany_cases _
  next => exact .inl rfl

theorem after_cases (w : Write) : repo.after s w = s ∨
    ∃ call : Store.Call, (w.IsTyped repo → call.IsTyped) ∧ repo.after s w = s.after call := by
  cases w with
  | insertMany fieldsOf now newId docs =>
    obtain hsame | ⟨batch, hbatch, hafter⟩ := repo.insertWritten_snd_cases fieldsOf now newId docs s
    · exact .inl hsame
    · exact .inr ⟨.insertMany newId batch repo.name, fun hw => isTyped_of_encodeAll hw hbatch, hafter⟩
  | updateById now id update =>
    obtain hsame | ⟨f, ops, hafter⟩ := repo.updateStored_snd_cases s now (.ok (idFilter id)) update
    · exact .inl hsame
    · exact .inr ⟨.updateMany now f ops repo.name, fun _ => trivial, hafter⟩
  | update now f update =>
    obtain hsame | ⟨g, ops, hafter⟩ :=
      repo.updateStored_snd_cases s now (repo.type.resolveFilter f) update
    · exact .inl hsame
    · exact .inr ⟨.updateMany now g ops repo.name, fun _ => trivial, hafter⟩
  | replaceOne fieldsOf now d =>
    obtain hsame | ⟨f, replacement, hafter⟩ := repo.replaceWritten_snd_cases s fieldsOf now d
    · exact .inl hsame
    · exact .inr ⟨.replaceOne f replacement repo.name, fun _ => trivial, hafter⟩
  | deleteById id =>
    obtain hsame | ⟨f, hafter⟩ := repo.deleteById_cases s id
    · exact .inl hsame
    · exact .inr ⟨.deleteOne f repo.name, fun _ => trivial, hafter⟩
  | delete d =>
    obtain hsame | ⟨f, hafter⟩ := repo.delete_snd_cases s d
    · exact .inl hsame
    · exact .inr ⟨.deleteOne f repo.name, fun _ => trivial, hafter⟩
  | deleteMany f =>
    obtain hsame | ⟨g, hafter⟩ := repo.deleteMany_snd_cases s f
    · exact .inl hsame
    · exact .inr ⟨.deleteMany g repo.name, fun _ => trivial, hafter⟩

end Calls

theorem isTyped_after (h : s.IsTyped) {w : Write} (hw : w.IsTyped repo) :
    (repo.after s w).IsTyped := by
  obtain hsame | ⟨call, hcall, hafter⟩ := repo.after_cases s w
  · rwa [hsame]
  · rw [hafter]
    exact h.after call (hcall hw)

end Repository

theorem Store.Reachable.write {ops : List Operator} {s : Store} (h : Reachable ops s)
    (repo : Repository) (w : Repository.Write) : Reachable ops (repo.after s w) := by
  obtain hsame | ⟨call, -, hafter⟩ := repo.after_cases s w
  · rwa [hsame]
  · rw [hafter]
    exact h.after call

/-- The stores that repositories lead to from an empty one. -/
inductive Store.TypedReachable (unsupported : List Operator) : Store → Prop where
  | empty : TypedReachable unsupported { unsupported }
  | write {s : Store} (repo : Repository) (w : Repository.Write) (hw : w.IsTyped repo) :
      TypedReachable unsupported s → TypedReachable unsupported (repo.after s w)
  | create {s : Store} (name : String) : TypedReachable unsupported s →
      TypedReachable unsupported (s.create name)
  | drop {s : Store} (name : String) : TypedReachable unsupported s →
      TypedReachable unsupported (s.drop name)

theorem Store.TypedReachable.isTyped {ops : List Operator} {s : Store} (h : TypedReachable ops s) :
    s.IsTyped := by
  induction h with
  | empty => exact .empty ops
  | write repo w hw _ ih => exact Repository.isTyped_after ih hw
  | create name _ ih => exact ih.after (.create name) trivial
  | drop name _ ih => exact ih.after (.drop name) trivial

theorem Store.TypedReachable.reachable {ops : List Operator} {s : Store} (h : TypedReachable ops s) :
    Reachable ops s := by
  induction h with
  | empty => exact .empty
  | write repo w _ _ ih => exact ih.write repo w
  | create name _ ih => exact ih.after (.create name)
  | drop name _ ih => exact ih.after (.drop name)

end Docbase
