import Docbase.Proofs.Update.OperatorDocument

namespace Docbase

open Unordered Edit

/-- A document with nothing but a path, and what stands at its end. -/
def Unordered.nest (segments : List String) (t : Unordered) : Unordered :=
  segments.foldr (fun s t => .document (Function.update (fun _ => .absent) s t)) t

def Value.nest (segments : List String) (v : Value) : Value :=
  segments.foldr (fun s v => .document [(s, v)]) v

namespace Unordered

theorem nest_append (p q : List String) (t : Unordered) : nest (p ++ q) t = nest p (nest q t) :=
  List.foldr_append

theorem nest_injective (p : List String) : Function.Injective (nest p) := by
  intro t t' h
  induction p with
  | nil => exact h
  | cons s p ih => exact ih (Function.update_injective _ s (document.inj h))

theorem nest_ne_absent {p : List String} {t : Unordered} (h : t ≠ .absent) :
    nest p t ≠ .absent := by
  cases p with
  | nil => exact h
  | cons s p => exact nofun

end Unordered

namespace Value

theorem unordered_nest (p : List String) (v : Value) :
    (nest p v).unordered = Unordered.nest p v.unordered := by
  induction p with
  | nil => rfl
  | cons s p ih =>
    have hfields : unorderedFields [(s, nest p v)] = Function.update (fun _ => .absent) s _ :=
      @unorderedFields_insert [] s (nest p v)
    rw [nest, List.foldr_cons, ← nest, unordered_document, hfields, ih]
    rfl

theorem hasDistinctKeys_nest {v : Value} (h : v.hasDistinctKeys) (p : List String) :
    (nest p v).hasDistinctKeys := by
  induction p with
  | nil => exact h
  | cons s p ih => exact @fieldsHaveDistinctKeys_insert [] s (nest p v) rfl ih

end Value

namespace Edit

theorem run_nest (e : Edit) (p q : List String) (t : Unordered) :
    e.run (p ++ q) (nest p t) = (e.run q t).map (nest p) := by
  induction p with
  | nil => exact Option.map_id'.symm
  | cons s p ih =>
    have hchild : (nest (s :: p) t).child? s = some (nest p t) :=
      congrArg some (Function.update_self ..)
    have hput (c : Unordered) : (nest (s :: p) t).put s (nest p c) = nest (s :: p) c :=
      congrArg document (Function.update_idem ..)
    rw [List.cons_append, run_cons_of_some hchild, ih, Option.map_map]
    congr 1
    funext c
    exact hput c

theorem run_write_absent_of_eq_some {f : Unordered → Option Unordered} {t : Unordered}
    (hf : f (.plain .null) = some t) (ht : t ≠ .absent) (p : List String) :
    (write f).run p .absent = some (nest p t) := by
  induction p with
  | nil => exact hf
  | cons s p ih =>
    rw [run_cons_of_some (c := .absent) rfl, ih, Option.map_some,
      put_of_isOpen (.inl rfl) (nest_ne_absent ht)]
    rfl

end Edit

namespace UpdateOp

def withOne : UpdateOp → UpdateOp
  | set path _ => set path (.int32 1)
  | inc path _ => inc path (.int32 1)
  | op => op

variable {a b op : UpdateOp} {now : Int64} {p q : List String} {t u : Unordered}

@[simp]
theorem entry_withOne (op : UpdateOp) : op.withOne.entry = op.entry := by cases op <;> rfl

@[simp]
theorem path_withOne (op : UpdateOp) : op.withOne.path = op.path := by cases op <;> rfl

theorem hasDistinctKeys_withOne (op : UpdateOp) : op.withOne.operand.2.hasDistinctKeys := by
  cases op <;> rfl

theorem exists_atEnd_withOne (op : UpdateOp) (now : Int64) :
    ∃ t, t ≠ .plain (.int32 0) ∧
      (op.withOne.edit now).atEnd (.plain (.int32 0)) = some t := by
  cases op with
  | set path value => exact ⟨.plain (.int32 1), by simp, rfl⟩
  | unset path => exact ⟨.absent, nofun, rfl⟩
  | inc path delta => exact ⟨.plain (.int32 1), by simp, rfl⟩
  | currentDate path => exact ⟨.plain (.dateTime now), by simp, rfl⟩

theorem exists_run_withOne_absent (h : op.operand.1 ≠ "$unset") (now : Int64) (p : List String) :
    ∃ t, t ≠ .absent ∧ (op.withOne.edit now).run p .absent = some t := by
  have hwrite {f : Unordered → Option Unordered} {v : Value}
      (hf : f (.plain .null) = some (.plain v)) :
      ∃ t, t ≠ .absent ∧ (write f).run p .absent = some t :=
    ⟨nest p (.plain v), nest_ne_absent nofun, run_write_absent_of_eq_some hf nofun p⟩
  cases op with
  | set path value => exact hwrite (v := .int32 1) rfl
  | unset path => exact absurd rfl h
  | inc path delta => exact hwrite (v := .int32 1) rfl
  | currentDate path => exact hwrite (v := .dateTime now) rfl

theorem edited_nest (hid : op.path.head ≠ "_id") (hpath : op.path.segments = p ++ q)
    (h : (op.edit now).run q t = some u) : op.edited now (nest p t) = some (nest p u) := by
  rw [edited, if_neg hid, hpath, run_nest, h, Option.map_some]

theorem exists_run_withOne_nest (op : UpdateOp) (now : Int64) (p : List String) :
    ∃ t, t ≠ nest p (.plain (.int32 0)) ∧
      (op.withOne.edit now).run p (nest p (.plain (.int32 0))) = some t := by
  obtain ⟨t, ht, hend⟩ := op.exists_atEnd_withOne now
  refine ⟨nest p t, fun h => ht (nest_injective p h), ?_⟩
  have hnest := (op.withOne.edit now).run_nest p [] (.plain (.int32 0))
  rw [List.append_nil] at hnest
  exact hnest.trans (congrArg (Option.map (nest p)) hend)

/-- Paths that are read back from their texts, and values that have no key twice in a document. -/
def IsWellFormed (op : UpdateOp) : Prop :=
  Path.ofString op.path.text = op.path ∧ op.operand.2.hasDistinctKeys

instance (op : UpdateOp) : Decidable op.IsWellFormed := inferInstanceAs (Decidable (_ ∧ _))

/-- The operation replaces or takes out all that the other one may have changed. -/
def Overrides (a b : UpdateOp) : Prop :=
  (a.operand.1 = "$set" ∨ (a.operand.1 = "$unset" ∧ b.operand.1 ≠ "$unset")) ∧
    a.path.segments <+: b.path.segments

/-- With fitting values, an operation leaves in its place what another one below makes something
else of. -/
theorem exists_telling (ha : a.operand.1 = "$set" ∨ (a.operand.1 = "$unset" ∧
    b.operand.1 ≠ "$unset")) (r : List String) :
    ∃ a' : UpdateOp, a'.entry = a.entry ∧ a'.operand.2.hasDistinctKeys ∧
      ∀ now, ∃ t t', t' ≠ t ∧ (∀ u, (a'.edit now).run [] u = some t) ∧
        (b.withOne.edit now).run r t = some t' := by
  cases a with
  | set path value =>
    refine ⟨.set path (.nest r (.int32 0)), rfl, Value.hasDistinctKeys_nest rfl r, fun now => ?_⟩
    obtain ⟨t, ht, hb⟩ := b.exists_run_withOne_nest now r
    refine ⟨nest r (.plain (.int32 0)), t, ht, fun u => ?_, hb⟩
    exact congrArg some (Value.unordered_nest r (.int32 0))
  | unset path =>
    obtain hset | ⟨-, hb⟩ := ha
    · simp [operand] at hset
    · refine ⟨.unset path, rfl, rfl, fun now => ?_⟩
      obtain ⟨t, ht, hb⟩ := exists_run_withOne_absent hb now r
      exact ⟨.absent, t, ht, fun u => rfl, hb⟩
  | inc path delta | currentDate path => simp [operand] at ha

end UpdateOp

namespace Update

/-- The update and its document both succeed, and come to different documents. -/
def DiffersOn (now : Int64) (update : Update) (d : Document) : Prop :=
  (update.apply now d).1 = .ok () ∧ (update.regrouped.apply now d).1 = .ok () ∧
    (Value.document (update.regrouped.apply now d).2).unordered ≠
      (Value.document (update.apply now d).2).unordered

variable {a b : UpdateOp} {now : Int64} {d : Document} {update : Update} {t u : Unordered}

theorem apply_of_edited_eq_some (hd : (Value.document d).hasDistinctKeys)
    (hvalues : ∀ op ∈ update, op.operand.2.hasDistinctKeys)
    (h : Update.edited now update (Value.document d).unordered = some t) :
    (update.apply now d).1 = .ok () ∧ (Value.document (update.apply now d).2).unordered = t := by
  rw [edited_unordered hd hvalues] at h
  split at h
  next hok => exact ⟨hok, Option.some.inj h⟩
  next => cases h

theorem differsOn_of_edited (hupdate : ∀ op ∈ update, op.IsWellFormed)
    (hd : (Value.document d).hasDistinctKeys)
    (h : Update.edited now update (Value.document d).unordered = some t)
    (h' : Update.edited now update.regrouped (Value.document d).unordered = some u)
    (hne : u ≠ t) : DiffersOn now update d := by
  have hvalues (op : UpdateOp) (hop : op ∈ update) := (hupdate op hop).2
  obtain ⟨hok, heq⟩ := apply_of_edited_eq_some hd hvalues h
  have hmem (op : UpdateOp) : op ∈ update.regrouped → op ∈ update :=
    mem_of_mem_regrouped fun op hop => (hupdate op hop).1
  obtain ⟨hok', heq'⟩ := apply_of_edited_eq_some hd (fun op hop => hvalues op (hmem op hop)) h'
  exact ⟨hok, hok', heq' ▸ heq ▸ hne⟩

theorem regrouped_triple (ha : Path.ofString a.path.text = a.path)
    (hb : Path.ofString b.path.text = b.path) (h : a.entry ≠ b.entry) :
    Update.regrouped [a, b, a] = [a, b] := by
  have hofa := UpdateOp.ofFiled?_operand ha
  have hofb := UpdateOp.ofFiled?_operand hb
  rw [regrouped_eq]
  by_cases hname : a.operand.1 = b.operand.1
  · have htext : a.path.text ≠ b.path.text := fun htext =>
      h (Prod.ext hname (ha.symm.trans (htext ▸ hb)))
    rw [← hname] at hofb
    simp [UpdateOp.addTo, ← hname, Document.insert, htext, ofSections, UpdateOp.ofSection,
      hofa, hofb]
  · simp [UpdateOp.addTo, hname, Document.insert, ofSections, UpdateOp.ofSection, hofa, hofb]

theorem exists_differsOn_of_overrides (ha : Path.ofString a.path.text = a.path)
    (hb : Path.ofString b.path.text = b.path) (hid : a.path.head ≠ "_id")
    (hne : a.entry ≠ b.entry) (h : a.Overrides b) :
    ∃ a' b' : UpdateOp, a'.entry = a.entry ∧ b'.entry = b.entry ∧ a'.IsWellFormed ∧
      b'.IsWellFormed ∧ ∃ d, (Value.document d).hasDistinctKeys ∧
        ∀ now, DiffersOn now [a', b', a'] d ∧ DiffersOn now [b', a', b'] d := by
  obtain ⟨hkind, r, hr⟩ := h
  obtain ⟨a', hentry, hkeys, htell⟩ := UpdateOp.exists_telling hkind r
  have hpath : a'.path = a.path := congrArg Prod.snd hentry
  have hwell : a'.IsWellFormed := ⟨hpath ▸ ha, hkeys⟩
  have hwell' : b.withOne.IsWellFormed := ⟨b.path_withOne ▸ hb, b.hasDistinctKeys_withOne⟩
  have hne' : a'.entry ≠ b.withOne.entry := hentry ▸ b.entry_withOne ▸ hne
  have hd := Value.hasDistinctKeys_nest (v := .int32 0) rfl b.path.segments
  refine ⟨a', b.withOne, hentry, b.entry_withOne, hwell, hwell', _, hd, fun now => ?_⟩
  have hstart : (Value.nest b.path.segments (.int32 0)).unordered =
      nest a.path.segments (nest r (.plain (.int32 0))) := by
    rw [Value.unordered_nest, ← hr, nest_append]
    rfl
  obtain ⟨t, t', hdiffers, hrun, hrun'⟩ := htell now
  obtain ⟨t₀, -, hrun₀⟩ := b.exists_run_withOne_nest now r
  have hreplace (u : Unordered) : a'.edited now (nest a.path.segments u) =
      some (nest a.path.segments t) :=
    UpdateOp.edited_nest (hpath ▸ hid) (hpath ▸ (List.append_nil _).symm) (hrun u)
  have hchange {u u' : Unordered} (hu : (b.withOne.edit now).run r u = some u') :
      b.withOne.edited now (nest a.path.segments u) = some (nest a.path.segments u') := by
    have hidb : b.path.head ≠ "_id" := (List.cons.inj hr).1 ▸ hid
    rw [← b.path_withOne] at hidb hr
    exact UpdateOp.edited_nest hidb hr.symm hu
  have hne'' : nest a.path.segments t' ≠ nest a.path.segments t :=
    fun heq => hdiffers (nest_injective _ heq)
  constructor
  · refine differsOn_of_edited (by simp [hwell, hwell']) hd (t := nest a.path.segments t)
      (u := nest a.path.segments t') ?_ ?_ hne''
    · refine (congrArg _ hstart).trans ?_
      simp [edited, hreplace, hchange hrun']
    · rw [regrouped_triple hwell.1 hwell'.1 hne']
      refine (congrArg _ hstart).trans ?_
      simp [edited, hreplace, hchange hrun']
  · refine differsOn_of_edited (by simp [hwell, hwell']) hd (t := nest a.path.segments t')
      (u := nest a.path.segments t) ?_ ?_ hne''.symm
    · refine (congrArg _ hstart).trans ?_
      simp [edited, hreplace, hchange hrun', hchange hrun₀]
    · rw [regrouped_triple hwell'.1 hwell.1 hne'.symm]
      refine (congrArg _ hstart).trans ?_
      simp [edited, hreplace, hchange hrun₀]

theorem exists_differsOn_of_inc {path : Path} (hpath : Path.ofString path.text = path)
    (hid : path.head ≠ "_id") : ∃ d, (Value.document d).hasDistinctKeys ∧
      ∀ now, DiffersOn now [.inc path (.int32 1), .inc path (.int32 1)] d := by
  have hd := Value.hasDistinctKeys_nest (v := .int32 0) rfl path.segments
  have hwell : (UpdateOp.inc path (.int32 1)).IsWellFormed := ⟨hpath, rfl⟩
  have hregrouped : Update.regrouped [.inc path (.int32 1), .inc path (.int32 1)] =
      [.inc path (.int32 1)] := by
    simp [regrouped_eq, UpdateOp.addTo, UpdateOp.operand, Document.insert, ofSections,
      UpdateOp.ofSection, UpdateOp.ofFiled?, UpdateOp.path, hpath]
  have hstart : (Value.nest path.segments (.int32 0)).unordered =
      nest path.segments (.plain (.int32 0)) := Value.unordered_nest ..
  have hadd (now : Int64) {m n : Int32}
      (hsum : UpdateOp.sum? (.int32 m) (.int32 1) = some (.int32 n)) :
      (UpdateOp.inc path (.int32 1)).edited now (nest path.segments (.plain (.int32 m))) =
        some (nest path.segments (.plain (.int32 n))) :=
    UpdateOp.edited_nest hid (List.append_nil _).symm (congrArg (Option.map Unordered.plain) hsum)
  refine ⟨_, hd, fun now => differsOn_of_edited (by simp [hwell]) hd
    (t := nest path.segments (.plain (.int32 2))) (u := nest path.segments (.plain (.int32 1)))
    ?_ ?_ ?_⟩
  · refine (congrArg _ hstart).trans ?_
    simp [edited, hadd now (m := 0) (n := 1) rfl, hadd now (m := 1) (n := 2) rfl]
  · rw [hregrouped]
    refine (congrArg _ hstart).trans ?_
    simp [edited, hadd now (m := 0) (n := 1) rfl]
  · exact fun h => absurd (nest_injective _ h) (by simp)

end Update

end Docbase
