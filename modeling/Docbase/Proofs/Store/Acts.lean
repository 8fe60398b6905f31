import Docbase.Proofs.Store.Reachable
import Mathlib.Data.List.Forall2

namespace Docbase

/-- `Identifies newId d id stored`: the document is stored in this form under this identity. -/
inductive Document.Identifies (newId : ObjectId) (d : Document) : Value → Document → Prop where
  | own {id : Value} (h : d.get? "_id" = some id) : Identifies newId d id d
  | new (h : d.get? "_id" = none) :
      Identifies newId d (.objectId newId) (("_id", .objectId newId) :: d)

def Document.idText? (d : Document) : Option String := (d.get? "_id").map Value.display

namespace Store

inductive Answer where
  | done
  | inserted (ids : List Value)
  | replaced (found : Bool)

def answer (s : Store) : Call → Except WriteError Answer
  | .insertMany newId docs name => (s.insertMany newId docs name).1.map .inserted
  | .updateMany now filter update name =>
    (s.updateMany now filter update name).1.map fun _ => .done
  | .replaceOne filter replacement name => (s.replaceOne filter replacement name).1.map .replaced
  | .deleteOne .. | .deleteMany .. | .create _ | .drop _ => .ok .done

def Call.name : Call → String
  | .insertMany _ _ name => name
  | .updateMany _ _ _ name => name
  | .replaceOne _ _ name => name
  | .deleteOne _ name => name
  | .deleteMany _ name => name
  | .create name => name
  | .drop name => name

/-- The documents of a batch are stored one by one in these forms under these identities. -/
def Stores (newId : Nat → ObjectId) (docs : List Document) (batch : List (Value × Document)) :
    Prop :=
  List.Forall₂ (fun p q => p.1.Identifies (newId p.2) q.1 q.2) docs.zipIdx batch

/-- The texts of the identities of documents that are stored and of others to be stored. -/
def idTexts (stored : List Document) (batch : List (Value × Document)) : List String :=
  stored.filterMap Document.idText? ++ batch.map fun q => q.1.display

/-- `Acts call before answer after`: where the collection holds the documents `before` in this
order, the call gives the answer and leaves the documents `after`. -/
inductive Acts : Call → List Document → Except WriteError Answer → List Document → Prop where
  | inserted {newId docs name before batch} (hbatch : Stores newId docs batch)
      (hnew : (idTexts before batch).Nodup) :
      Acts (.insertMany newId docs name) before (.ok (.inserted (batch.map Prod.fst)))
        (before ++ batch.map Prod.snd)
  | duplicate {newId docs name before front id d rest}
      (hbatch : Stores newId docs (front ++ (id, d) :: rest))
      (hfront : (idTexts before front).Nodup) (hid : id.display ∈ idTexts before front) :
      Acts (.insertMany newId docs name) before (.error (.duplicateKey id.display name)) before
  | updated {now filter update name before after}
      (h : List.Forall₂ (fun d d' => if Query.selects filter d then
        Update.apply now update d = (.ok (), d') else d' = d) before after) :
      Acts (.updateMany now filter update name) before (.ok .done) after
  | notUpdated {now filter update name before front d rest error left}
      (hsplit : before = front ++ d :: rest)
      (hfront : ∀ c ∈ front, Query.selects filter c → ∃ c', Update.apply now update c = (.ok (), c'))
      (hd : Query.selects filter d) (herror : Update.apply now update d = (.error error, left)) :
      Acts (.updateMany now filter update name) before (.error (.update error)) before
  | replaced {filter replacement name before front d rest id}
      (hsplit : before = front ++ d :: rest)
      (hfront : ∀ c ∈ front, filter.accepts c = false) (hd : filter.accepts d)
      (hid : d.get? "_id" = some id)
      (hsame : ∀ other, Document.get? replacement "_id" = some other → other == id) :
      Acts (.replaceOne filter replacement name) before (.ok (.replaced true))
        (front ++ (("_id", id) :: Document.erase replacement "_id") :: rest)
  | notReplaced {filter replacement name before front d rest id other}
      (hsplit : before = front ++ d :: rest)
      (hfront : ∀ c ∈ front, filter.accepts c = false) (hd : filter.accepts d)
      (hid : d.get? "_id" = some id) (hother : Document.get? replacement "_id" = some other)
      (hne : (other == id) = false) :
      Acts (.replaceOne filter replacement name) before (.error (.identityChanged id.display)) before
  | noneReplaced {filter replacement name before}
      (h : ∀ d ∈ before, filter.accepts d = false) :
      Acts (.replaceOne filter replacement name) before (.ok (.replaced false)) before
  | deleted {filter name before front d rest} (hsplit : before = front ++ d :: rest)
      (hfront : ∀ c ∈ front, filter.accepts c = false) (hd : filter.accepts d) :
      Acts (.deleteOne filter name) before (.ok .done) (front ++ rest)
  | noneDeleted {filter name before} (h : ∀ d ∈ before, filter.accepts d = false) :
      Acts (.deleteOne filter name) before (.ok .done) before
  | allDeleted {filter name before} :
      Acts (.deleteMany filter name) before (.ok .done)
        (before.filter fun d => !Query.selects filter d)
  | created {name before} : Acts (.create name) before (.ok .done) before
  | dropped {name before} : Acts (.drop name) before (.ok .done) []

theorem eq_of_first {α : Type} {P : α → Prop} {front front' rest rest' : List α} {a a' : α}
    (h : front ++ a :: rest = front' ++ a' :: rest') (hfront : ∀ c ∈ front, ¬P c) (ha : P a)
    (hfront' : ∀ c ∈ front', ¬P c) (ha' : P a') : front = front' ∧ a = a' ∧ rest = rest' := by
  obtain ⟨between, hf, hr⟩ | ⟨between, hf, hr⟩ := List.append_eq_append_iff.mp h
  · cases between with
    | nil =>
      obtain ⟨rfl, rfl⟩ := List.cons_eq_cons.mp hr
      exact ⟨by simpa using hf.symm, rfl, rfl⟩
    | cons c between =>
      obtain ⟨rfl, -⟩ := List.cons_eq_cons.mp hr
      exact absurd ha (hfront' a (by simp [hf]))
  · cases between with
    | nil =>
      obtain ⟨rfl, rfl⟩ := List.cons_eq_cons.mp hr
      exact ⟨by simpa using hf, rfl, rfl⟩
    | cons c between =>
      obtain ⟨rfl, -⟩ := List.cons_eq_cons.mp hr
      exact absurd ha' (hfront a' (by simp [hf]))

theorem eq_of_forall₂ {α β : Type} {R : α → β → Prop} (hR : ∀ a b b', R a b → R a b' → b = b')
    {as : List α} {bs bs' : List β} (h : List.Forall₂ R as bs) (h' : List.Forall₂ R as bs') :
    bs = bs' := by
  induction h generalizing bs' with
  | nil =>
    cases h'
    rfl
  | cons hab _ ih =>
    cases h' with
    | cons hab' htail => rw [hR _ _ _ hab hab', ih htail]

theorem Stores.unique {newId : Nat → ObjectId} {docs : List Document}
    {batch batch' : List (Value × Document)} (h : Stores newId docs batch)
    (h' : Stores newId docs batch') : batch = batch' := by
  refine eq_of_forall₂ ?_ h h'
  rintro p ⟨id, d⟩ ⟨id', d'⟩ hd hd'
  cases hd with
  | own hid =>
    cases hd' with
    | own hid' =>
      cases hid.symm.trans hid'
      rfl
    | new hnone => cases hid.symm.trans hnone
  | new hnone =>
    cases hd' with
    | own hid' => cases hnone.symm.trans hid'
    | new => rfl

theorem not_mem_idTexts_of_nodup {before : List Document} {front rest : List (Value × Document)}
    {id : Value} {d : Document} (h : (idTexts before (front ++ (id, d) :: rest)).Nodup) :
    id.display ∉ idTexts before front := by
  have hsplit : idTexts before (front ++ (id, d) :: rest) =
      idTexts before front ++ (id.display :: rest.map fun q => q.1.display) := by
    simp [idTexts]
  rw [hsplit, List.nodup_append] at h
  intro hmem
  exact h.2.2 id.display hmem id.display (by simp) rfl

theorem id_eq_of_first_duplicate {before : List Document}
    {front front' rest rest' : List (Value × Document)} {id id' : Value} {d d' : Document}
    (h : front ++ (id, d) :: rest = front' ++ (id', d') :: rest')
    (hfront : (idTexts before front).Nodup) (hid : id.display ∈ idTexts before front)
    (hfront' : (idTexts before front').Nodup) (hid' : id'.display ∈ idTexts before front') :
    id = id' := by
  obtain ⟨between, hf, hr⟩ | ⟨between, hf, hr⟩ := List.append_eq_append_iff.mp h
  · cases between with
    | nil =>
      obtain ⟨heq, -⟩ := List.cons_eq_cons.mp hr
      exact congrArg Prod.fst heq
    | cons q between =>
      obtain ⟨rfl, -⟩ := List.cons_eq_cons.mp hr
      rw [hf] at hfront'
      exact absurd hid (not_mem_idTexts_of_nodup hfront')
  · cases between with
    | nil =>
      obtain ⟨heq, -⟩ := List.cons_eq_cons.mp hr
      exact (congrArg Prod.fst heq).symm
    | cons q between =>
      obtain ⟨rfl, -⟩ := List.cons_eq_cons.mp hr
      rw [hf] at hfront
      exact absurd hid' (not_mem_idTexts_of_nodup hfront)

theorem eq_of_updates {now : Int64} {filter : Option Filter} {update : Update} (d d₁ d₂ : Document)
    (h₁ : if Query.selects filter d then Update.apply now update d = (.ok (), d₁) else d₁ = d)
    (h₂ : if Query.selects filter d then Update.apply now update d = (.ok (), d₂) else d₂ = d) :
    d₁ = d₂ := by
  by_cases hd : Query.selects filter d
  · rw [if_pos hd] at h₁ h₂
    exact congrArg Prod.snd (h₁.symm.trans h₂)
  · rw [if_neg hd] at h₁ h₂
    rw [h₁, h₂]

def Refuses (now : Int64) (filter : Option Filter) (update : Update) (d : Document) : Prop :=
  Query.selects filter d ∧ ∃ error left, Update.apply now update d = (.error error, left)

theorem not_refuses_of_updates {now : Int64} {filter : Option Filter} {update : Update}
    {before after : List Document}
    (h : List.Forall₂ (fun d d' => if Query.selects filter d then
      Update.apply now update d = (.ok (), d') else d' = d) before after) :
    ∀ d ∈ before, ¬Refuses now filter update d := by
  induction h with
  | nil => nofun
  | cons hd _ ih =>
    intro c hc
    obtain rfl | hc := List.mem_cons.mp hc
    · rintro ⟨hsel, error, left, herror⟩
      rw [if_pos hsel] at hd
      cases hd.symm.trans herror
    · exact ih c hc

theorem not_refuses_of_ok {now : Int64} {filter : Option Filter} {update : Update}
    {front : List Document} (h : ∀ c ∈ front, Query.selects filter c →
      ∃ c', Update.apply now update c = (.ok (), c')) :
    ∀ c ∈ front, ¬Refuses now filter update c := by
  rintro c hc ⟨hsel, error, left, herror⟩
  obtain ⟨c', hc'⟩ := h c hc hsel
  cases hc'.symm.trans herror

theorem eq_of_first_accepted {filter : Filter} {before front front' rest rest' : List Document}
    {d d' : Document} (h : before = front ++ d :: rest) (hfront : ∀ c ∈ front, filter.accepts c = false)
    (hd : filter.accepts d) (h' : before = front' ++ d' :: rest')
    (hfront' : ∀ c ∈ front', filter.accepts c = false) (hd' : filter.accepts d') :
    front = front' ∧ d = d' ∧ rest = rest' :=
  eq_of_first (P := fun c => filter.accepts c = true) (h.symm.trans h')
    (fun c hc => by simp [hfront c hc]) hd (fun c hc => by simp [hfront' c hc]) hd'

theorem not_none_accepted {filter : Filter} {before front rest : List Document} {d : Document}
    (h : before = front ++ d :: rest) (hd : filter.accepts d) :
    ¬∀ c ∈ before, filter.accepts c = false := by
  intro hnone
  rw [hnone d (by simp [h])] at hd
  cases hd

theorem Acts.unique {call : Call} {before after after' : List Document}
    {answer answer' : Except WriteError Answer} (h : Acts call before answer after)
    (h' : Acts call before answer' after') : answer = answer' ∧ after = after' := by
  cases h with
  | inserted hbatch hnew =>
    cases h' with
    | inserted hbatch' =>
      rw [hbatch.unique hbatch']
      exact ⟨rfl, rfl⟩
    | duplicate hbatch' _ hid' =>
      rw [hbatch.unique hbatch'] at hnew
      exact absurd hid' (not_mem_idTexts_of_nodup hnew)
  | duplicate hbatch hfront hid =>
    cases h' with
    | inserted hbatch' hnew' =>
      rw [hbatch'.unique hbatch] at hnew'
      exact absurd hid (not_mem_idTexts_of_nodup hnew')
    | duplicate hbatch' hfront' hid' =>
      rw [id_eq_of_first_duplicate (hbatch.unique hbatch') hfront hid hfront' hid']
      exact ⟨rfl, rfl⟩
  | updated hall =>
    cases h' with
    | updated hall' =>
      rw [eq_of_forall₂ eq_of_updates hall hall']
      exact ⟨rfl, rfl⟩
    | notUpdated hsplit' _ hd' herror' =>
      exact absurd ⟨hd', _, _, herror'⟩ (not_refuses_of_updates hall _ (by simp [hsplit']))
  | notUpdated hsplit hfront hd herror =>
    cases h' with
    | updated hall' =>
      exact absurd ⟨hd, _, _, herror⟩ (not_refuses_of_updates hall' _ (by simp [hsplit]))
    | notUpdated hsplit' hfront' hd' herror' =>
      obtain ⟨-, rfl, -⟩ := eq_of_first (hsplit.symm.trans hsplit') (not_refuses_of_ok hfront)
        ⟨hd, _, _, herror⟩ (not_refuses_of_ok hfront') ⟨hd', _, _, herror'⟩
      cases herror.symm.trans herror'
      exact ⟨rfl, rfl⟩
  | replaced hsplit hfront hd hid hsame =>
    cases h' with
    | replaced hsplit' hfront' hd' hid' =>
      obtain ⟨rfl, rfl, rfl⟩ := eq_of_first_accepted hsplit hfront hd hsplit' hfront' hd'
      cases hid.symm.trans hid'
      exact ⟨rfl, rfl⟩
    | notReplaced hsplit' hfront' hd' hid' hother hne =>
      obtain ⟨-, rfl, -⟩ := eq_of_first_accepted hsplit hfront hd hsplit' hfront' hd'
      cases hid.symm.trans hid'
      rw [hsame _ hother] at hne
      cases hne
    | noneReplaced hnone => exact absurd hnone (not_none_accepted hsplit hd)
  | notReplaced hsplit hfront hd hid hother hne =>
    cases h' with
    | replaced hsplit' hfront' hd' hid' hsame =>
      obtain ⟨-, rfl, -⟩ := eq_of_first_accepted hsplit hfront hd hsplit' hfront' hd'
      cases hid.symm.trans hid'
      rw [hsame _ hother] at hne
      cases hne
    | notReplaced hsplit' hfront' hd' hid' =>
      obtain ⟨-, rfl, -⟩ := eq_of_first_accepted hsplit hfront hd hsplit' hfront' hd'
      cases hid.symm.trans hid'
      exact ⟨rfl, rfl⟩
    | noneReplaced hnone => exact absurd hnone (not_none_accepted hsplit hd)
  | noneReplaced hnone =>
    cases h' with
    | replaced hsplit' _ hd' => exact absurd hnone (not_none_accepted hsplit' hd')
    | notReplaced hsplit' _ hd' => exact absurd hnone (not_none_accepted hsplit' hd')
    | noneReplaced => exact ⟨rfl, rfl⟩
  | deleted hsplit hfront hd =>
    cases h' with
    | deleted hsplit' hfront' hd' =>
      obtain ⟨rfl, rfl, rfl⟩ := eq_of_first_accepted hsplit hfront hd hsplit' hfront' hd'
      exact ⟨rfl, rfl⟩
    | noneDeleted hnone => exact absurd hnone (not_none_accepted hsplit hd)
  | noneDeleted hnone =>
    cases h' with
    | deleted hsplit' _ hd' => exact absurd hnone (not_none_accepted hsplit' hd')
    | noneDeleted => exact ⟨rfl, rfl⟩
  | allDeleted =>
    cases h'
    exact ⟨rfl, rfl⟩
  | created =>
    cases h'
    exact ⟨rfl, rfl⟩
  | dropped =>
    cases h'
    exact ⟨rfl, rfl⟩

end Store

end Docbase
