import Docbase.Proofs.Store.Calls

namespace Docbase.Store

def SameIdentity (d d' : Document) : Prop := d.get? "_id" = d'.get? "_id"

instance : Std.Refl SameIdentity := ⟨fun _ => rfl⟩

instance : IsTrans Document SameIdentity := ⟨fun _ _ _ => Eq.trans⟩

/-- `Continues before after`: what is left of the documents `before` comes first, in the same order
and under the same identities. -/
def Continues (before after : List Document) : Prop :=
  ∃ kept added, after = kept ++ added ∧ List.SublistForall₂ SameIdentity kept before

namespace Continues

variable {before between after : List Document}

theorem of_sublist (h : after.Sublist before) : Continues before after :=
  ⟨after, [], (List.append_nil after).symm, h.sublistForall₂⟩

theorem refl (before : List Document) : Continues before before := of_sublist (List.Sublist.refl _)

theorem of_forall₂ (h : List.Forall₂ SameIdentity after before) : Continues before after :=
  ⟨after, [], (List.append_nil after).symm,
    List.sublistForall₂_iff.mpr ⟨before, h, List.Sublist.refl _⟩⟩

theorem trans (h : Continues before between) (h' : Continues between after) :
    Continues before after := by
  obtain ⟨kept, added, rfl, hkept⟩ := h
  obtain ⟨kept', added', rfl, hkept'⟩ := h'
  obtain ⟨olds, hforall, hsublist⟩ := List.sublistForall₂_iff.mp hkept'
  obtain ⟨olds₁, olds₂, rfl, hsublist₁, -⟩ := List.sublist_append_iff.mp hsublist
  -- of what is kept in the second step, the part that was there before the first
  have hfront : List.Forall₂ SameIdentity (kept'.take olds₁.length) olds₁ :=
    List.forall₂_take_append _ _ _ hforall
  have hkept₁ : List.SublistForall₂ SameIdentity (kept'.take olds₁.length) kept :=
    List.sublistForall₂_iff.mpr ⟨olds₁, hfront, hsublist₁⟩
  refine ⟨kept'.take olds₁.length, kept'.drop olds₁.length ++ added', ?_, ?_⟩
  · rw [← List.append_assoc, List.take_append_drop]
  · exact IsTrans.trans _ _ _ hkept₁ hkept

end Continues

theorem sameIdentity_of_apply {now : Int64} {update : Update} {d d' : Document}
    (h : Update.apply now update d = (.ok (), d')) : SameIdentity d' d := by
  have hrun : update.run now d = .ok d' := by rw [Update.run, h]
  exact Update.get?_run_identity hrun

theorem Acts.continues {call : Call} {before after : List Document}
    {answer : Except WriteError Answer} (h : Acts call before answer after) :
    Continues before after := by
  cases h with
  | inserted => exact ⟨before, _, rfl, (List.Sublist.refl _).sublistForall₂⟩
  | updated h =>
    apply Continues.of_forall₂
    refine (h.imp fun d d' hd => ?_).flip
    split at hd
    · exact sameIdentity_of_apply hd
    · rw [hd]
      rfl
  | replaced hsplit hfront hd hid hsame =>
    rw [hsplit]
    apply Continues.of_forall₂
    refine List.rel_append (List.forall₂_refl _) (.cons ?_ (List.forall₂_refl _))
    rw [SameIdentity, hid, Document.get?_cons_self]
  | deleted hsplit =>
    rw [hsplit]
    exact .of_sublist (List.Sublist.append_left (List.sublist_cons_self _ _) _)
  | allDeleted => exact .of_sublist List.filter_sublist
  | dropped => exact .of_sublist (List.nil_sublist _)
  | duplicate | notUpdated | notReplaced | noneReplaced | noneDeleted | created => exact .refl _

theorem IsFiled.continues_after {s : Store} (h : s.IsFiled) (call : Call) (name : String) :
    Continues (s.documents name) ((s.after call).documents name) := by
  by_cases hname : name = call.name
  · rw [hname]
    exact (h.acts call).continues
  · rw [documents_after_of_ne s hname]
    exact .refl _

def run (s : Store) (calls : List Call) : Store := calls.foldl Store.after s

theorem IsFiled.continues_run {s : Store} (h : s.IsFiled) (calls : List Call) (name : String) :
    Continues (s.documents name) ((s.run calls).documents name) := by
  induction calls generalizing s with
  | nil => exact .refl _
  | cons call calls ih => exact (h.continues_after call name).trans (ih (h.after call))

/-- A store is an ordered list of documents for every name. Each entry is filed under the text of
its document's identity, each call acts on the list of its collection in the one way in which it can
and on no other list, and in every run of calls the documents that stay keep their order. -/
theorem acts_on_lists {ops : List Operator} {s : Store} (hs : Reachable ops s) :
    (∀ name, ∀ e ∈ s.entries name, ∃ id, e.document.get? "_id" = some id ∧ e.key = id.display) ∧
    (∀ call answer after, Acts call (s.documents call.name) answer after ↔
      answer = s.answer call ∧ after = (s.after call).documents call.name) ∧
    (∀ call name, name ≠ Call.name call → (s.after call).documents name = s.documents name) ∧
    ∀ calls name, Continues (s.documents name) ((s.run calls).documents name) := by
  have h := hs.isFiled
  refine ⟨?_, ?_, ?_, ?_⟩
  · intro name e he
    exact (h.allFiled name).filed e he
  · intro call answer after
    constructor
    · intro hacts
      exact hacts.unique (h.acts call)
    · rintro ⟨rfl, rfl⟩
      exact h.acts call
  · intro call name hname
    exact documents_after_of_ne s hname
  · intro calls name
    exact h.continues_run calls name

/-- The second of three documents is replaced; it got its identity from the store. -/
theorem acts_on_lists_of_replacement :
    let newId : Nat → ObjectId := fun i => ⟨BitVec.ofNat 96 i⟩
    let docs : List Document := [[("_id", .int32 7)], [("n", .int32 1)], [("_id", .string "a")]]
    let s := Store.after {} (.insertMany newId docs "c")
    let call : Call := .replaceOne (.comparison ⟨"n", []⟩ .eq (.int32 1)) [("m", .null)] "c"
    Acts call (s.documents "c") (.ok (.replaced true))
      [[("_id", .int32 7)], [("_id", .objectId ⟨1⟩), ("m", .null)], [("_id", .string "a")]] := by
  intro newId docs s call
  have hs : Reachable [] s := .after _ .empty
  exact ((acts_on_lists hs).2.1 call _ _).mpr ⟨rfl, rfl⟩

end Docbase.Store
