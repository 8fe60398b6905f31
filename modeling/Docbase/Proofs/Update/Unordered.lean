import Docbase.OperatorDocument
import Docbase.Proofs.Update
import Docbase.Proofs.Update.Edit

namespace Docbase

open Unordered Edit

theorem Edit.run_write_absent {f : Unordered → Option Unordered}
    (hf : f (.plain .null) ≠ some .absent) (p : List String) :
    (write f).run p .absent ≠ some .absent ∧
      (write f).run p .absent = (write f).run p (.plain .null) := by
  induction p with
  | nil => exact ⟨hf, rfl⟩
  | cons s p ih =>
    rw [run_cons_of_some (c := .absent) rfl, run_cons_of_some (c := .absent) rfl]
    cases hrun : (write f).run p .absent with
    | none => simp
    | some c =>
      have hc : c ≠ .absent := fun heq => ih.1 (heq ▸ hrun)
      have habsent := put_of_isOpen (s := s) (.inl rfl) hc
      have hnull := put_of_isOpen (s := s) (.inr rfl) hc
      simp [habsent, hnull]

namespace Value

theorem child?_unordered_array {s : String} {i : Nat} (hi : Number.index? s = some i)
    (items : List Value) :
    (array items).unordered.child? s = items[i]?.map unordered := by
  have hchild : (Unordered.array (items.map unordered)).child? s = _ := child?_array_of_eq_some hi
  rw [unordered_array, hchild, List.getElem?_map]
  cases items[i]? with
  | none => rfl
  | some item => exact congrArg some (orNull_of_ne (unordered_ne_absent item))

theorem put_unordered_array {s : String} {i : Nat} {items : List Value}
    (hi : Number.index? s = some i) (item : Value) :
    (array items).unordered.put s item.unordered = (array (items.set i item)).unordered := by
  rw [unordered_array, put_array_of_eq_some hi, orNull_of_ne (unordered_ne_absent item),
    unordered_array, List.map_set]

variable {f : Value → Except UpdateError Value} {g : Unordered → Option Unordered}
  (hfg : ∀ v, g v.unordered = (f v).toOption.map unordered)
include hfg

theorem run_write_getD (segments : List String) (v : Option Value) :
    (write g).run segments ((v.map unordered).getD .absent) =
      (write g).run segments (v.getD .null).unordered := by
  cases v with
  | some v => rfl
  | none =>
    have hnull : g (.plain .null) ≠ some .absent := by
      rw [← unordered_null, hfg]
      cases (f .null).toOption with
      | none => simp
      | some v => simpa using unordered_ne_absent v
    rw [Option.getD_none, unordered_null]
    exact (run_write_absent hnull segments).2

theorem run_write_cons_of_openFields? {v : Value} {fields : Document} {s : String}
    {rest : List String} (h : v.openFields? = some fields) {trail segment : Path}
    (ih : ∀ trail segment v, (write g).run rest v.unordered =
      (alter f trail segment rest v).toOption.map unordered) :
    (write g).run (s :: rest) v.unordered =
      (v.alter f trail segment (s :: rest)).toOption.map unordered := by
  have hchild : v.unordered.child? s = some (((fields.get? s).map unordered).getD .absent) ∧
      ∀ c : Value, v.unordered.put s c.unordered = (document (fields.insert s c)).unordered := by
    obtain ⟨rfl, rfl⟩ | rfl := cases_of_openFields? h
    · refine ⟨rfl, fun c => ?_⟩
      rw [unordered_null, put_of_isOpen (.inr rfl) (unordered_ne_absent c), unordered_document,
        unorderedFields_insert]
      rfl
    · refine ⟨by rw [unordered_document, child?_document, unorderedFields_eq], fun c => ?_⟩
      rw [unordered_document, unordered_document, put_document, unorderedFields_insert]
  rw [run_cons_of_some hchild.1, run_write_getD hfg, ih ⟨s, rest⟩ ⟨s, []⟩, alter_of_openFields? f h]
  cases ((fields.get? s).getD .null).alter f ⟨s, rest⟩ ⟨s, []⟩ rest with
  | error e => rfl
  | ok child => exact congrArg some (hchild.2 child)

theorem run_write_unordered (trail segment : Path) (segments : List String) (v : Value) :
    (write g).run segments v.unordered =
      (v.alter f trail segment segments).toOption.map unordered := by
  induction segments generalizing trail segment v with
  | nil =>
    rw [run, atEnd, orNull_of_ne (unordered_ne_absent v), hfg]
    rfl
  | cons s rest ih =>
    cases v with
    | array items =>
      cases hi : Number.index? s with
      | none =>
        rw [unordered_array, run_cons_of_none (child?_array_of_eq_none hi), alter]
        simp only [hi]
        rfl
      | some i =>
        have hchild := child?_unordered_array hi items
        cases hitem : items[i]? with
        | none =>
          rw [hitem, Option.map_none] at hchild
          rw [run_cons_of_none hchild, alter]
          simp only [hi, hitem]
          rfl
        | some item =>
          rw [hitem, Option.map_some] at hchild
          rw [run_cons_of_some hchild, ih trail ⟨s, rest⟩, alter_array f hi hitem]
          cases item.alter f trail ⟨s, rest⟩ rest with
          | error e => rfl
          | ok item' => exact congrArg some (put_unordered_array hi item')
    | document fields => exact run_write_cons_of_openFields? hfg rfl ih
    | null => exact run_write_cons_of_openFields? hfg rfl ih
    | _ => simp [alter, openFields?]; rfl

omit hfg

theorem run_erase_array {s : String} {segments : List String} {i : Nat} {items : List Value}
    (hi : Number.index? s = some i) (f : Value → Value)
    (hf : ∀ item ∈ items,
      (erase.run segments item.unordered).map orNull = some (f item).unordered) :
    erase.run (s :: segments) (array items).unordered =
      some (array (items.modify i f)).unordered := by
  have hchild := child?_unordered_array hi items
  cases hitem : items[i]? with
  | none =>
    have hlength : items.length ≤ i := by simpa using hitem
    rw [hitem, Option.map_none] at hchild
    rw [run_cons_of_none hchild, List.modify_eq_self hlength, unordered_array, blocked]
  | some item =>
    obtain ⟨y, hy, horNull⟩ := Option.map_eq_some_iff.mp (hf item (List.mem_of_getElem? hitem))
    rw [hitem, Option.map_some] at hchild
    rw [run_cons_of_some hchild, hy, Option.map_some, unordered_array, put_array_of_eq_some hi,
      horNull, unordered_array, List.modify_eq_set_getElem?, hitem]
    simp

theorem run_erase_unordered (s : String) (segments : List String) (v : Value)
    (hv : v.hasDistinctKeys) :
    erase.run (s :: segments) v.unordered = some (v.unset s segments).unordered := by
  induction segments generalizing s v with
  | nil =>
    cases v with
    | document fields =>
      have hn := nodup_of_fieldsHaveDistinctKeys hv
      rw [unordered_document, run_cons_of_some rfl, unset, unordered_document,
        unorderedFields_erase hn]
      rfl
    | array items =>
      rw [unordered_array, unset]
      cases hi : Number.index? s with
      | none => rw [run_cons_of_none (child?_array_of_eq_none hi), unordered_array, blocked]
      | some i =>
        change _ = some (array (items.set i .null)).unordered
        rw [List.set_eq_modify, ← unordered_array]
        exact run_erase_array hi _ fun _ _ => by simp [run, atEnd, orNull]
    | null => rfl
    | _ => simp [unset]; rfl
  | cons next rest ih =>
    cases v with
    | document fields =>
      rw [unordered_document, run_cons_of_some rfl, unorderedFields_eq, unset]
      cases hs : Document.get? fields s with
      | none =>
        have habsent : unorderedFields fields s = .absent := by rw [unorderedFields_eq, hs]; rfl
        rw [Option.map_none, Option.getD_none, run_erase_absent, Option.map_some,
          put_document_absent habsent, unordered_document]
      | some child =>
        have hchild : child.hasDistinctKeys :=
          (fieldsHaveDistinctKeys_iff.mp hv).2 s child (mem_of_lookup hs)
        rw [Option.map_some, Option.getD_some, ih next child hchild, unordered_document,
          unorderedFields_insert]
        rfl
    | array items =>
      rw [unordered_array, unset]
      cases hi : Number.index? s with
      | none => rw [run_cons_of_none (child?_array_of_eq_none hi), unordered_array, blocked]
      | some i =>
        rw [← unordered_array]
        refine run_erase_array hi _ fun item hmem => ?_
        rw [ih next item (haveDistinctKeys_iff.mp hv item hmem), Option.map_some,
          orNull_of_ne (unordered_ne_absent _)]
    | null =>
      rw [unordered_null, run_cons_of_some rfl, run_erase_absent]
      rfl
    | _ => simp [unset]; rfl

variable {fields : Document} {k : String} {v v' : Value}

theorem fieldsHaveDistinctKeys_insert (hfields : fieldsHaveDistinctKeys fields)
    (hv : v.hasDistinctKeys) : fieldsHaveDistinctKeys (fields.insert k v) := by
  obtain ⟨hn, hall⟩ := fieldsHaveDistinctKeys_iff.mp hfields
  have hinsert := Document.nodup_keys_insert fields (k := k) (v := v) hn
  refine fieldsHaveDistinctKeys_iff.mpr ⟨hinsert, fun l w hmem => ?_⟩
  have hget := Document.get?_of_mem _ hinsert hmem
  rw [Document.get?_insert] at hget
  split at hget
  · exact Option.some.inj hget ▸ hv
  · exact hall l w (mem_of_lookup hget)

theorem fieldsHaveDistinctKeys_erase (hfields : fieldsHaveDistinctKeys fields) :
    fieldsHaveDistinctKeys (fields.erase k) := by
  obtain ⟨hn, hall⟩ := fieldsHaveDistinctKeys_iff.mp hfields
  exact fieldsHaveDistinctKeys_iff.mpr ⟨Document.nodup_keys_erase fields hn, fun l w hmem =>
    hall l w ((Document.erase_sublist fields).subset hmem)⟩

theorem hasDistinctKeys_getD (hfields : fieldsHaveDistinctKeys fields) :
    ((fields.get? k).getD .null).hasDistinctKeys := by
  cases hk : fields.get? k with
  | none => rfl
  | some child => exact (fieldsHaveDistinctKeys_iff.mp hfields).2 k child (mem_of_lookup hk)

theorem hasDistinctKeys_alter {f : Value → Except UpdateError Value}
    (hf : ∀ v v', v.hasDistinctKeys → f v = .ok v' → v'.hasDistinctKeys) {trail segment : Path}
    {segments : List String} (h : v.alter f trail segment segments = .ok v')
    (hv : v.hasDistinctKeys) : v'.hasDistinctKeys := by
  induction segments generalizing trail segment v v' with
  | nil => exact hf v v' hv h
  | cons s rest ih =>
    obtain ⟨items, i, item, item', rfl, -, hitem, halter, rfl⟩ | ⟨fields, child, hopen, halter, rfl⟩
      := alter_cons_cases h
    · have hitems := haveDistinctKeys_iff.mp hv
      refine haveDistinctKeys_iff.mpr fun w hw => ?_
      obtain hw | rfl := List.mem_or_eq_of_mem_set hw
      · exact hitems w hw
      · exact ih halter (hitems item (List.mem_of_getElem? hitem))
    · have hfields : fieldsHaveDistinctKeys fields := by
        obtain ⟨-, rfl⟩ | rfl := cases_of_openFields? hopen
        · rfl
        · exact hv
      exact fieldsHaveDistinctKeys_insert hfields (ih halter (hasDistinctKeys_getD hfields))

theorem hasDistinctKeys_unset (s : String) (segments : List String) (hv : v.hasDistinctKeys) :
    (v.unset s segments).hasDistinctKeys := by
  induction segments generalizing s v with
  | nil =>
    cases v with
    | document fields => exact fieldsHaveDistinctKeys_erase hv
    | array items =>
      rw [unset]
      cases Number.index? s with
      | none => exact hv
      | some i =>
        refine haveDistinctKeys_iff.mpr fun w hw => ?_
        obtain hw | rfl := List.mem_or_eq_of_mem_set hw
        · exact haveDistinctKeys_iff.mp hv w hw
        · rfl
    | _ => exact hv
  | cons next rest ih =>
    cases v with
    | document fields =>
      rw [unset]
      cases hs : Document.get? fields s with
      | none => exact hv
      | some child =>
        have hchild := (fieldsHaveDistinctKeys_iff.mp hv).2 s child (mem_of_lookup hs)
        exact fieldsHaveDistinctKeys_insert hv (ih next hchild)
    | array items =>
      rw [unset]
      cases Number.index? s with
      | none => exact hv
      | some i =>
        have hitems := haveDistinctKeys_iff.mp hv
        refine haveDistinctKeys_iff.mpr fun w hw => ?_
        rw [List.modify_eq_set_getElem?] at hw
        cases hitem : items[i]? with
        | none => exact hitems w (by simpa [hitem] using hw)
        | some item =>
          obtain hw | rfl := List.mem_or_eq_of_mem_set (by simpa [hitem] using hw)
          · exact hitems w hw
          · exact ih next (hitems item (List.mem_of_getElem? hitem))
    | _ => exact hv

end Value

namespace Document

theorem exists_of_unset (p : Path) (d : Document) :
    ∃ d', (Value.document d).unset p.head p.tail = .document d' := by
  cases p.tail with
  | nil => exact ⟨_, rfl⟩
  | cons next rest =>
    rw [Value.unset]
    split <;> exact ⟨_, rfl⟩

end Document

namespace UpdateOp

def edit (now : Int64) : UpdateOp → Edit
  | set _ value => .write fun _ => some value.unordered
  | unset _ => .erase
  | inc _ delta => .write fun
    | .plain current => (sum? current delta).map .plain
    | _ => none
  | currentDate _ => .write fun _ => some (.plain (.dateTime now))

def edited (now : Int64) (op : UpdateOp) (t : Unordered) : Option Unordered :=
  if op.path.head = "_id" then none else (op.edit now).run op.path.segments t

variable {now : Int64} {op : UpdateOp} {current delta sum : Value} {d d' : Document}

theorem cases_of_sum? (h : sum? current delta = some sum) :
    (∃ n, sum = .int32 n) ∨ (∃ n, sum = .int64 n) ∨ ∃ x, sum = .double x := by
  unfold sum? at h
  split at h
  case h_1 | h_2 | h_3 => simp [← Option.some.inj h]
  case h_4 => split at h <;> simp [← Option.some.inj h]
  case h_5 | h_6 | h_7 =>
    obtain ⟨n, -, rfl⟩ := Option.map_eq_some_iff.mp h
    exact .inr (.inl ⟨n, rfl⟩)
  case h_8 =>
    obtain ⟨x, -, h⟩ := Option.bind_eq_some_iff.mp h
    obtain ⟨y, -, h⟩ := Option.bind_eq_some_iff.mp h
    exact .inr (.inr ⟨_, (Option.some.inj h).symm⟩)

theorem unordered_of_sum? (h : sum? current delta = some sum) : sum.unordered = .plain sum := by
  obtain ⟨n, rfl⟩ | ⟨n, rfl⟩ | ⟨x, rfl⟩ := cases_of_sum? h <;> simp [Value.unordered]

theorem edit_of_replacement (now : Int64) (hop : ∀ path, op ≠ .unset path) :
    ∃ g, op.edit now = .write g ∧
      ∀ v : Value, g v.unordered = (op.replacement now v).toOption.map Value.unordered := by
  cases op with
  | set path value => exact ⟨_, rfl, fun v => rfl⟩
  | unset path => exact absurd rfl (hop path)
  | currentDate path =>
    exact ⟨_, rfl, fun v => by simp [replacement, Except.toOption, Value.unordered]⟩
  | inc path delta =>
    refine ⟨_, rfl, fun v => ?_⟩
    have hplain (hv : v.unordered = .plain v) : (sum? v delta).map Unordered.plain =
        ((inc path delta).replacement now v).toOption.map Value.unordered := by
      rw [replacement]
      cases hsum : sum? v delta with
      | none => rfl
      | some sum => simp [Except.toOption, unordered_of_sum? hsum]
    cases v with
    | array items | document fields => simp [replacement, sum?, toDouble?, Except.toOption]
    | _ => exact hplain (by simp [Value.unordered])

theorem apply_unset (path : Path) : (unset path).apply now d =
    if (unset path).path.head = "_id" then .error .immutableIdentity else .ok (d.unset path) := rfl

theorem apply_of_ne_unset (hop : ∀ path, op ≠ .unset path) : op.apply now d =
    if op.path.head = "_id" then .error .immutableIdentity
    else d.alter (op.replacement now) op.path := by
  cases op with
  | unset path => exact absurd rfl (hop path)
  | _ => rfl

theorem edited_unordered (hd : (Value.document d).hasDistinctKeys) :
    op.edited now (Value.document d).unordered =
      ((op.apply now d).toOption.map Value.document).map Value.unordered := by
  by_cases hop : ∃ path, op = .unset path
  · obtain ⟨path, rfl⟩ := hop
    obtain ⟨d', hd'⟩ := Document.exists_of_unset path d
    have hunset : d.unset path = d' := by rw [Document.unset, hd']
    rw [edited, apply_unset, hunset]
    split
    next => rfl
    next =>
      refine (Value.run_erase_unordered path.head path.tail (.document d) hd).trans ?_
      rw [hd']
      rfl
  · have hne (path : Path) : op ≠ .unset path := fun h => hop ⟨path, h⟩
    obtain ⟨g, hg, hreplace⟩ := edit_of_replacement now hne
    rw [edited, apply_of_ne_unset hne]
    split
    next => rfl
    next =>
      rw [hg, Value.run_write_unordered hreplace op.path op.path, Document.alter_segments]
      cases d.alter (op.replacement now) op.path <;> rfl

theorem hasDistinctKeys_of_replacement (hop : ∀ path, op ≠ .unset path)
    (hvalue : op.operand.2.hasDistinctKeys) {v v' : Value} (h : op.replacement now v = .ok v') :
    v'.hasDistinctKeys := by
  cases op with
  | set path value => exact Except.ok.inj h ▸ hvalue
  | unset path => exact absurd rfl (hop path)
  | currentDate path => exact Except.ok.inj h ▸ rfl
  | inc path delta =>
    rw [replacement] at h
    split at h
    next sum hsum =>
      obtain rfl := Except.ok.inj h
      obtain ⟨n, rfl⟩ | ⟨n, rfl⟩ | ⟨x, rfl⟩ := cases_of_sum? hsum <;> rfl
    next => cases h

theorem hasDistinctKeys_apply (hd : (Value.document d).hasDistinctKeys)
    (hop : op.operand.2.hasDistinctKeys) (h : op.apply now d = .ok d') :
    (Value.document d').hasDistinctKeys := by
  by_cases hunset : ∃ path, op = .unset path
  · obtain ⟨path, rfl⟩ := hunset
    obtain ⟨e, he⟩ := Document.exists_of_unset path d
    have hunset : d.unset path = e := by rw [Document.unset, he]
    rw [apply_unset, hunset] at h
    split at h
    · cases h
    · cases h
      exact he ▸ Value.hasDistinctKeys_unset path.head path.tail hd
  · have hne (path : Path) : op ≠ .unset path := fun h => hunset ⟨path, h⟩
    rw [apply_of_ne_unset hne] at h
    split at h
    · cases h
    · have halter := Document.alter_segments (op.replacement now) op.path op.path op.path d
      rw [h] at halter
      refine Value.hasDistinctKeys_alter (fun v v' _ hv' => ?_) halter hd
      exact hasDistinctKeys_of_replacement hne hop hv'

end UpdateOp

namespace Update

variable {now : Int64}

def edited (now : Int64) : Update → Unordered → Option Unordered
  | [], t => some t
  | op :: rest, t => (op.edited now t).bind (edited now rest)

theorem edited_append (now : Int64) (front back : Update) (t : Unordered) :
    Update.edited now (front ++ back) t =
      (Update.edited now front t).bind (Update.edited now back) := by
  induction front generalizing t with
  | nil => rfl
  | cons op front ih =>
    rw [List.cons_append, edited, edited]
    cases op.edited now t with
    | none => rfl
    | some t' => exact ih t'

theorem edited_unordered {update : Update} {d : Document} (hd : (Value.document d).hasDistinctKeys)
    (hvalues : ∀ op ∈ update, op.operand.2.hasDistinctKeys) :
    Update.edited now update (Value.document d).unordered =
      if (update.apply now d).1 = .ok () then some (Value.document (update.apply now d).2).unordered
      else none := by
  induction update generalizing d with
  | nil => rfl
  | cons op rest ih =>
    obtain ⟨hop, hrest⟩ := List.forall_mem_cons.mp hvalues
    rw [edited, UpdateOp.edited_unordered hd, apply]
    cases h : op.apply now d with
    | error e => rfl
    | ok d' => exact ih (op.hasDistinctKeys_apply hd hop h) hrest

end Update

end Docbase
