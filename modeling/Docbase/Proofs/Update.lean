import Docbase.Proofs.Update.Write
import Docbase.Store

namespace Docbase

theorem Document.get?_alter_of_ne {f : Value → Except UpdateError Value} {p : Path}
    {d d' : Document} {key : String} (h : d.alter f p = .ok d') (hp : p.head ≠ key) :
    d'.get? key = d.get? key := by
  obtain ⟨child, -, h⟩ := exists_of_bind_eq_ok h
  cases h
  exact d.get?_insert_of_ne hp

theorem Document.get?_unset_of_ne (d : Document) {p : Path} {key : String} (hp : p.head ≠ key) :
    (d.unset p).get? key = d.get? key := by
  obtain ⟨s, segments⟩ := p
  unfold unset
  cases segments with
  | nil => exact d.get?_erase_of_ne hp
  | cons next rest =>
    cases hs : d.get? s with
    | none => simp only [Value.unset, hs]
    | some child => simpa only [Value.unset, hs] using d.get?_insert_of_ne hp

theorem UpdateOp.lookup_of_apply_currentDate {now : Int64} {p : Path} {d d' : Document}
    (h : (currentDate p).apply now d = .ok d') : d'.lookup p = [.dateTime now] := by
  unfold apply at h
  split at h
  · cases h
  · obtain ⟨-, new, hnew, hlookup, -⟩ := Document.reads_of_alter h
    cases hnew
    exact hlookup

theorem UpdateOp.get?_apply_of_ne {now : Int64} {op : UpdateOp} {d d' : Document} {key : String}
    (h : op.apply now d = .ok d') (hp : op.path.head ≠ key) : d'.get? key = d.get? key := by
  unfold apply at h
  split at h
  · cases h
  · cases op with
    | unset path =>
      cases h
      exact d.get?_unset_of_ne hp
    | set | inc | currentDate => exact Document.get?_alter_of_ne h hp

theorem UpdateOp.head_ne_of_apply {now : Int64} {op : UpdateOp} {d d' : Document}
    (h : op.apply now d = .ok d') : op.path.head ≠ "_id" := by
  intro hp
  simp [apply, hp] at h

theorem UpdateOp.get?_remains_identity (op : UpdateOp) (d : Document) :
    (op.remains d).get? "_id" = d.get? "_id" := by
  unfold remains
  split
  next => rfl
  next hp =>
    split
    next d' h => exact Document.get?_alter_of_ne h hp
    next => rfl

/-- No update changes the identity, not even one that fails on the way. -/
theorem Update.get?_apply_identity (now : Int64) (update : Update) (d : Document) :
    (update.apply now d).2.get? "_id" = d.get? "_id" := by
  induction update generalizing d with
  | nil => rfl
  | cons op rest ih =>
    rw [Update.apply]
    cases h : op.apply now d with
    | ok between =>
      exact (ih between).trans (UpdateOp.get?_apply_of_ne h (UpdateOp.head_ne_of_apply h))
    | error e => exact op.get?_remains_identity d

theorem Update.exists_of_apply_concat {now : Int64} {front : Update} {last : UpdateOp}
    {d d' : Document} (h : Update.apply now (front ++ [last]) d = (.ok (), d')) :
    ∃ between, Update.apply now front d = (.ok (), between) ∧ last.apply now between = .ok d' := by
  induction front generalizing d with
  | nil =>
    rw [List.nil_append, Update.apply] at h
    cases hlast : last.apply now d with
    | ok d₁ =>
      rw [hlast] at h
      obtain ⟨-, rfl⟩ := Prod.mk.inj h
      exact ⟨d, rfl, hlast⟩
    | error e =>
      rw [hlast] at h
      cases h
  | cons op rest ih =>
    rw [List.cons_append, Update.apply] at h
    rw [Update.apply]
    cases hop : op.apply now d with
    | ok d₁ =>
      rw [hop] at h
      exact ih h
    | error e =>
      rw [hop] at h
      cases h

theorem Update.get?_run_identity {now : Int64} {update : Update} {d d' : Document}
    (h : update.run now d = .ok d') : d'.get? "_id" = d.get? "_id" := by
  have hkept := get?_apply_identity now update d
  unfold run at h
  split at h
  next happly =>
    cases h
    rwa [happly] at hkept
  next => cases h

end Docbase
