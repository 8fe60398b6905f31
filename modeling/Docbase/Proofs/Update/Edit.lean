import Docbase.Proofs.Value.Unordered
import Docbase.Update

namespace Docbase

/-- Segments that may lead to one place: in arrays, an index may be spelled in several ways. -/
def AlikeSegments (s t : String) : Prop :=
  s = t ∨ ∃ i, Number.index? s = some i ∧ Number.index? t = some i

/-- Whether the place at the end of one list of segments may lie in that of the other. -/
def Touches : List String → List String → Prop
  | [], _ => True
  | _, [] => True
  | s :: p, t :: q => AlikeSegments s t ∧ Touches p q

theorem Touches.symm {p q : List String} (h : Touches p q) : Touches q p := by
  induction p generalizing q with
  | nil => cases q <;> trivial
  | cons s p ih =>
    cases q with
    | nil => trivial
    | cons t q => exact ⟨h.1.imp Eq.symm fun ⟨i, hs, ht⟩ => ⟨i, ht, hs⟩, ih h.2⟩

instance (s t : String) : Decidable (AlikeSegments s t) :=
  decidable_of_iff (s = t ∨ (Number.index? s).isSome ∧ Number.index? s = Number.index? t) <| by
    simp only [AlikeSegments, Option.isSome_iff_exists]
    refine or_congr_right ⟨fun ⟨⟨i, hi⟩, h⟩ => ⟨i, hi, h ▸ hi⟩, fun ⟨i, hs, ht⟩ => ?_⟩
    exact ⟨⟨i, hs⟩, hs.trans ht.symm⟩

def decidableTouches : (p q : List String) → Decidable (Touches p q)
  | [], _ => .isTrue trivial
  | _ :: _, [] => .isTrue trivial
  | s :: p, t :: q =>
    have := decidableTouches p q
    inferInstanceAs (Decidable (AlikeSegments s t ∧ Touches p q))

instance (p q : List String) : Decidable (Touches p q) := decidableTouches p q

theorem touches_self (p : List String) : Touches p p := by
  induction p with
  | nil => trivial
  | cons s p ih => exact ⟨.inl rfl, ih⟩

/-- What is done at the end of a path, in values up to the order of keys. -/
inductive Edit where
  /-- Puts something in the place, making documents on the way. What is missing counts as `null`. -/
  | write (f : Unordered → Option Unordered)
  | erase

namespace Unordered

def orNull : Unordered → Unordered
  | .absent => .plain .null
  | t => t

def IsOpen (t : Unordered) : Prop := t = .absent ∨ t = .plain .null

def child? : Unordered → String → Option Unordered
  | .absent, _ => some .absent
  | .plain .null, _ => some .absent
  | .plain _, _ => none
  | .array items, s => (Number.index? s).bind fun i => items[i]?.map orNull
  | .document fields, s => some (fields s)

def put : Unordered → String → Unordered → Unordered
  | .array items, s, c =>
    match Number.index? s with
    | some i => .array (items.set i c.orNull)
    | none => .array items
  | .document fields, s, c => .document (Function.update fields s c)
  | t, _, .absent => t
  | .absent, s, c | .plain .null, s, c => .document (Function.update (fun _ => .absent) s c)
  | t, _, _ => t

variable {s s' : String} {i : Nat} {t c e : Unordered} {items : List Unordered}
  {fields : String → Unordered}

theorem orNull_of_ne (h : t ≠ .absent) : t.orNull = t := by
  cases t <;> first | rfl | exact absurd rfl h

theorem orNull_ne_absent (t : Unordered) : t.orNull ≠ .absent := by
  cases t <;> simp [orNull]

theorem orNull_orNull (t : Unordered) : t.orNull.orNull = t.orNull :=
  orNull_of_ne (orNull_ne_absent t)

theorem child?_of_isOpen (h : t.IsOpen) : t.child? s = some .absent := by
  obtain rfl | rfl := h <;> rfl

theorem put_absent_of_isOpen (h : t.IsOpen) : t.put s .absent = t := by
  obtain rfl | rfl := h <;> rfl

theorem put_of_isOpen (h : t.IsOpen) (hc : c ≠ .absent) :
    t.put s c = .document (Function.update (fun _ => .absent) s c) := by
  obtain rfl | rfl := h <;> cases c <;> first | rfl | exact absurd rfl hc

theorem child?_document : (document fields).child? s = some (fields s) := rfl

theorem child?_array : (array items).child? s =
    (Number.index? s).bind fun i => items[i]?.map orNull := rfl

theorem child?_array_of_eq_some (h : Number.index? s = some i) :
    (array items).child? s = items[i]?.map orNull := by
  rw [child?_array, h, Option.bind_some]

theorem child?_array_of_eq_none (h : Number.index? s = none) :
    (array items).child? s = none := by
  rw [child?_array, h, Option.bind_none]

theorem put_document : (document fields).put s c = .document (Function.update fields s c) := rfl

theorem put_array : (array items).put s c = match Number.index? s with
    | some i => .array (items.set i c.orNull)
    | none => .array items := rfl

theorem put_array_of_eq_some (h : Number.index? s = some i) :
    (array items).put s c = .array (items.set i c.orNull) := by
  rw [put_array, h]

theorem put_array_of_eq_none (h : Number.index? s = none) :
    (array items).put s c = .array items := by
  rw [put_array, h]

theorem put_document_absent (h : fields s = .absent) :
    (document fields).put s .absent = .document fields := by
  rw [put_document, ← h, Function.update_eq_self]

theorem child?_cases (t : Unordered) (s : String) : t.IsOpen ∨ (∃ fields, t = .document fields) ∨
    (∃ items i, t = .array items ∧ Number.index? s = some i ∧ i < items.length) ∨
    t.child? s = none := by
  cases t with
  | absent => exact .inl (.inl rfl)
  | document fields => exact .inr (.inl ⟨fields, rfl⟩)
  | array items =>
    cases hi : Number.index? s with
    | none => exact .inr (.inr (.inr (child?_array_of_eq_none hi)))
    | some i =>
      by_cases hlength : i < items.length
      · exact .inr (.inr (.inl ⟨items, i, rfl, rfl, hlength⟩))
      · exact .inr (.inr (.inr (by simpa [child?_array_of_eq_some hi] using hlength)))
  | plain v =>
    cases v with
    | null => exact .inl (.inr rfl)
    | _ => exact .inr (.inr (.inr rfl))

theorem put_of_child?_eq_none (h : t.child? s = none) : t.put s c = t := by
  cases t with
  | absent | document fields => cases h
  | array items =>
    cases hi : Number.index? s with
    | none => exact put_array_of_eq_none hi
    | some i =>
      have hlength : items.length ≤ i := by simpa [child?_array_of_eq_some hi] using h
      rw [put_array_of_eq_some hi, List.set_eq_of_length_le hlength]
  | plain v => cases v <;> cases c <;> first | rfl | cases h

theorem put_ne_absent (ht : t ≠ .absent) : t.put s c ≠ .absent := by
  obtain hopen | ⟨fields, rfl⟩ | ⟨items, i, rfl, hi, -⟩ | hnone := child?_cases t s
  · by_cases hc : c = .absent
    · rwa [hc, put_absent_of_isOpen hopen]
    · simp [put_of_isOpen hopen hc]
  · exact nofun
  · simp [put_array_of_eq_some hi]
  · rwa [put_of_child?_eq_none hnone]

def Apart (t : Unordered) (s s' : String) : Prop :=
  s ≠ s' ∧ ∀ items, t = .array items → ∀ i, Number.index? s = some i → Number.index? s' ≠ some i

theorem Apart.symm (h : t.Apart s s') : t.Apart s' s :=
  ⟨h.1.symm, fun items ht i hi hi' => h.2 items ht i hi' hi⟩

theorem apart_of_not_alike (h : ¬ AlikeSegments s s') : t.Apart s s' :=
  ⟨fun heq => h (.inl heq), fun _ _ i hi hi' => h (.inr ⟨i, hi, hi'⟩)⟩

theorem Apart.child?_put (h : t.Apart s s') : (t.put s c).child? s' = t.child? s' := by
  obtain hopen | ⟨fields, rfl⟩ | ⟨items, i, rfl, hi, -⟩ | hnone := child?_cases t s
  · by_cases hc : c = .absent
    · rw [hc, put_absent_of_isOpen hopen]
    · rw [put_of_isOpen hopen hc, child?_of_isOpen hopen, child?_document,
        Function.update_of_ne (Ne.symm h.1)]
  · rw [put_document, child?_document, child?_document, Function.update_of_ne (Ne.symm h.1)]
  · rw [put_array_of_eq_some hi, child?_array, child?_array]
    cases hi' : Number.index? s' with
    | none => rfl
    | some j =>
      have hij : i ≠ j := fun heq => h.2 items rfl i hi (heq ▸ hi')
      simp [List.getElem?_set_ne hij]
  · rw [put_of_child?_eq_none hnone]

theorem put_put_absent (h : t.IsOpen) (hs : s ≠ s') : (t.put s' c).put s .absent = t.put s' c := by
  by_cases hc : c = .absent
  · rw [hc, put_absent_of_isOpen h, put_absent_of_isOpen h]
  · rw [put_of_isOpen h hc, put_document_absent (Function.update_of_ne hs ..)]

theorem Apart.put_put (h : t.Apart s s') : (t.put s c).put s' e = (t.put s' e).put s c := by
  obtain hopen | ⟨fields, rfl⟩ | ⟨items, i, rfl, hi, -⟩ | hnone := child?_cases t s
  · by_cases hc : c = .absent
    · rw [hc, put_put_absent hopen h.1, put_absent_of_isOpen hopen]
    · by_cases he : e = .absent
      · rw [he, put_put_absent hopen h.1.symm, put_absent_of_isOpen hopen]
      · rw [put_of_isOpen hopen hc, put_of_isOpen hopen he, put_document, put_document,
          Function.update_comm h.1]
  · rw [put_document, put_document, put_document, put_document, Function.update_comm h.1]
  · cases hi' : Number.index? s' with
    | none => simp [put_array, hi, hi']
    | some j =>
      have hij : i ≠ j := fun heq => h.2 items rfl i hi (heq ▸ hi')
      rw [put_array_of_eq_some hi, put_array_of_eq_some hi', put_array_of_eq_some hi',
        put_array_of_eq_some hi, List.set_comm _ _ hij]
  · have hnone' : (t.put s' e).child? s = none := by rw [h.symm.child?_put, hnone]
    rw [put_of_child?_eq_none hnone, put_of_child?_eq_none hnone']

end Unordered

namespace Edit

open Unordered

def atEnd : Edit → Unordered → Option Unordered
  | write f, t => f t.orNull
  | erase, _ => some .absent

def blocked : Edit → Unordered → Option Unordered
  | write _, _ => none
  | erase, t => some t

def run (e : Edit) : List String → Unordered → Option Unordered
  | [], t => e.atEnd t
  | s :: p, t =>
    match t.child? s with
    | none => e.blocked t
    | some c => (run e p c).map (t.put s)

variable {e a b : Edit} {s s' : String} {p q : List String} {t t' c x : Unordered}

theorem run_cons_of_none (h : t.child? s = none) : e.run (s :: p) t = e.blocked t := by
  rw [run, h]

theorem run_cons_of_some (h : t.child? s = some c) :
    e.run (s :: p) t = (e.run p c).map (t.put s) := by
  rw [run, h]

theorem run_erase_absent (p : List String) : erase.run p .absent = some .absent := by
  induction p with
  | nil => rfl
  | cons s p ih => rw [run_cons_of_some rfl, ih]; rfl

theorem exists_run_erase (p : List String) (t : Unordered) : ∃ t', erase.run p t = some t' := by
  induction p generalizing t with
  | nil => exact ⟨_, rfl⟩
  | cons s p ih =>
    cases h : t.child? s with
    | none => exact ⟨t, run_cons_of_none h⟩
    | some c =>
      obtain ⟨c', hc'⟩ := ih c
      exact ⟨t.put s c', by rw [run_cons_of_some h, hc']; rfl⟩

theorem run_cons_ne_absent (ht : t ≠ .absent) : e.run (s :: p) t ≠ some .absent := by
  cases h : t.child? s with
  | none =>
    rw [run_cons_of_none h]
    cases e <;> simp [blocked, ht]
  | some c =>
    rw [run_cons_of_some h]
    simp [put_ne_absent ht]

theorem map_orNull_run (t : Unordered) :
    (e.run p t.orNull).map orNull = (e.run p t).map orNull := by
  cases t with
  | absent =>
    cases p with
    | nil => cases e <;> rfl
    | cons s p =>
      rw [orNull, run_cons_of_some (c := .absent) rfl, run_cons_of_some (c := .absent) rfl]
      cases e.run p .absent with
      | none => rfl
      | some c => cases c <;> rfl
  | _ => rfl

theorem run_put_self (hc : t.child? s = some c)
    (hopen : t.IsOpen → x ≠ .absent → e.run p x ≠ some .absent) :
    e.run (s :: p) (t.put s x) = (e.run p x).map (t.put s) := by
  obtain h | ⟨fields, rfl⟩ | ⟨items, i, rfl, hi, hlength⟩ | hnone := child?_cases t s
  · by_cases hx : x = .absent
    · rw [hx, put_absent_of_isOpen h, run_cons_of_some (child?_of_isOpen h)]
    · rw [put_of_isOpen h hx, run_cons_of_some rfl, Function.update_self]
      cases hrun : e.run p x with
      | none => rfl
      | some y =>
        have hy : y ≠ .absent := fun heq => hopen h hx (heq ▸ hrun)
        rw [Option.map_some, Option.map_some, put_document, put_of_isOpen h hy,
          Function.update_idem]
  · rw [put_document, run_cons_of_some rfl, Function.update_self]
    congr 1
    funext y
    rw [put_document, put_document, Function.update_idem]
  · have hchild : (array (items.set i x.orNull)).child? s = some x.orNull := by
      rw [child?_array_of_eq_some hi, List.getElem?_set_self hlength, Option.map_some,
        orNull_orNull]
    have hput (y : Unordered) : (array (items.set i x.orNull)).put s y = (array items).put s y := by
      rw [put_array_of_eq_some hi, put_array_of_eq_some hi, List.set_set]
    have horNull (y : Unordered) : (array items).put s y.orNull = (array items).put s y := by
      rw [put_array_of_eq_some hi, put_array_of_eq_some hi, orNull_orNull]
    rw [put_array_of_eq_some hi, run_cons_of_some hchild]
    calc (e.run p x.orNull).map ((array (items.set i x.orNull)).put s)
      _ = ((e.run p x.orNull).map orNull).map ((array items).put s) := by
        rw [Option.map_map]
        congr 1
        funext y
        rw [hput, Function.comp_apply, horNull]
      _ = ((e.run p x).map orNull).map ((array items).put s) := by rw [map_orNull_run]
      _ = (e.run p x).map ((array items).put s) := by
        rw [Option.map_map]
        congr 1
        funext y
        exact horNull y
  · rw [hnone] at hc
    cases hc

theorem run_cons_array_congr {i : Nat} {items : List Unordered} (hs : Number.index? s = some i)
    (hs' : Number.index? s' = some i) :
    e.run (s :: p) (array items) = e.run (s' :: p) (array items) := by
  have hput : (array items).put s = (array items).put s' := by
    funext c
    rw [put_array_of_eq_some hs, put_array_of_eq_some hs']
  rw [run, run, child?_array_of_eq_some hs, child?_array_of_eq_some hs', hput]

theorem exists_of_run_cons (h : e.run (s :: p) t = some t') : t' = t ∨ ∃ c, t' = t.put s c := by
  cases hc : t.child? s with
  | none =>
    rw [run_cons_of_none hc] at h
    cases e with
    | write f => cases h
    | erase => exact .inl (Option.some.inj h).symm
  | some c =>
    rw [run_cons_of_some hc] at h
    obtain ⟨c', -, rfl⟩ := Option.map_eq_some_iff.mp h
    exact .inr ⟨c', rfl⟩

theorem bind_run_cons_array_congr {i : Nat} {items : List Unordered}
    (hs : Number.index? s = some i) (hs' : Number.index? s' = some i) {r : String} :
    (a.run (r :: p) (array items)).bind (b.run (s :: q)) =
      (a.run (r :: p) (array items)).bind (b.run (s' :: q)) := by
  refine Option.bind_congr fun t ht => ?_
  obtain rfl | ⟨c, rfl⟩ := exists_of_run_cons ht
  · exact run_cons_array_congr hs hs'
  · rw [put_array]
    split <;> exact run_cons_array_congr hs hs'

theorem run_bind_run_cons (hc : t.child? s = some c)
    (hkeeps : a ≠ .erase → ∀ x, x ≠ .absent → b.run q x ≠ some .absent) :
    (a.run (s :: p) t).bind (b.run (s :: q)) = ((a.run p c).bind (b.run q)).map (t.put s) := by
  rw [run_cons_of_some hc]
  cases hx : a.run p c with
  | none => rfl
  | some x =>
    refine run_put_self hc fun hopen hne => hkeeps ?_ x hne
    rintro rfl
    obtain rfl : c = .absent := Option.some.inj (hc.symm.trans (child?_of_isOpen hopen))
    exact hne (Option.some.inj (hx.symm.trans (run_erase_absent p)))

theorem blocked_bind_run (hs : t.child? s = none) (hb : ∀ t', b.run q t = some t' →
    t'.child? s = none) :
    (a.run (s :: p) t).bind (b.run q) = (b.run q t).bind (a.run (s :: p)) := by
  rw [run_cons_of_none hs]
  cases hrun : b.run q t with
  | none => cases a <;> simp [blocked, hrun]
  | some t' =>
    rw [Option.bind_some, run_cons_of_none (hb t' hrun)]
    cases a <;> simp [blocked, hrun]

theorem run_comm_of_apart (h : t.Apart s s') :
    (a.run (s :: p) t).bind (b.run (s' :: q)) = (b.run (s' :: q) t).bind (a.run (s :: p)) := by
  have hkeeps {e : Edit} {r : List String} {s s' : String} (h : t.Apart s s')
      (hs : t.child? s = none) (t' : Unordered) (ht' : e.run (s' :: r) t = some t') :
      t'.child? s = none := by
    obtain rfl | ⟨c, rfl⟩ := exists_of_run_cons ht'
    · exact hs
    · rw [h.symm.child?_put, hs]
  cases hs : t.child? s with
  | none => exact blocked_bind_run hs (hkeeps h hs)
  | some c =>
    cases hs' : t.child? s' with
    | none => exact (blocked_bind_run hs' (hkeeps h.symm hs')).symm
    | some c' =>
      have hright (x : Unordered) : b.run (s' :: q) (t.put s x) =
          (b.run q c').map ((t.put s x).put s') := run_cons_of_some (h.child?_put.trans hs')
      have hleft (y : Unordered) : a.run (s :: p) (t.put s' y) =
          (a.run p c).map ((t.put s' y).put s) := run_cons_of_some (h.symm.child?_put.trans hs)
      rw [run_cons_of_some hs, run_cons_of_some hs']
      cases hx : a.run p c <;> cases hy : b.run q c' <;> simp [hleft, hright, hx, hy, h.put_put]

theorem run_ne_absent_of_not_touches (h : ¬ Touches p q ∨ (a = .erase ∧ b = .erase))
    (ha : a ≠ .erase) (hx : x ≠ .absent) : b.run q x ≠ some .absent := by
  cases q with
  | nil =>
    have htouch : Touches p [] := by cases p <;> trivial
    exact absurd htouch (h.resolve_right fun h => ha h.1)
  | cons s q => exact run_cons_ne_absent hx

/-- Edits of places apart give the same in both orders. So do any two that take something out. -/
theorem run_comm (h : ¬ Touches p q ∨ (a = .erase ∧ b = .erase)) (t : Unordered) :
    (a.run p t).bind (b.run q) = (b.run q t).bind (a.run p) := by
  induction p generalizing q t with
  | nil =>
    obtain ⟨rfl, rfl⟩ := h.resolve_left (not_not_intro trivial)
    obtain ⟨t', ht'⟩ := exists_run_erase q t
    rw [ht']
    exact run_erase_absent q
  | cons s p ih =>
    cases q with
    | nil =>
      obtain ⟨rfl, rfl⟩ := h.resolve_left (not_not_intro trivial)
      obtain ⟨t', ht'⟩ := exists_run_erase (s :: p) t
      rw [ht']
      exact (run_erase_absent (s :: p)).symm
    | cons s' q =>
      by_cases hapart : t.Apart s s'
      · exact run_comm_of_apart hapart
      · have halike : AlikeSegments s s' := not_not.mp (mt apart_of_not_alike hapart)
        have hrest : ¬ Touches p q ∨ (a = .erase ∧ b = .erase) :=
          h.imp_left fun h htouch => h ⟨halike, htouch⟩
        have hsame (s : String) : (a.run (s :: p) t).bind (b.run (s :: q)) =
            (b.run (s :: q) t).bind (a.run (s :: p)) := by
          cases hs : t.child? s with
          | none =>
            refine blocked_bind_run hs fun t' ht' => ?_
            obtain rfl | ⟨c, rfl⟩ := exists_of_run_cons ht'
            · exact hs
            · rwa [put_of_child?_eq_none hs]
          | some c =>
            have hrest' : ¬ Touches q p ∨ (b = .erase ∧ a = .erase) :=
              hrest.imp (mt Touches.symm) And.symm
            rw [run_bind_run_cons hs fun ha x => run_ne_absent_of_not_touches hrest ha, ih hrest,
              run_bind_run_cons hs fun hb x => run_ne_absent_of_not_touches hrest' hb]
        by_cases heq : s = s'
        · exact heq ▸ hsame s
        · -- the segments are spellings of one index of an array
          have hspelled : ∃ items, t = array items ∧ ∃ i, Number.index? s = some i ∧
              Number.index? s' = some i := by
            simpa [Apart, heq] using hapart
          obtain ⟨items, rfl, i, hs, hs'⟩ := hspelled
          rw [bind_run_cons_array_congr hs' hs, hsame s, run_cons_array_congr hs hs']

theorem run_run_self (h : (a = .erase ∧ b = .erase) ∨
    ∃ x y, y ≠ .absent ∧ a = .write (fun _ => some x) ∧ b = .write (fun _ => some y))
    (t : Unordered) : (a.run p t).bind (b.run p) = b.run p t := by
  induction p generalizing t with
  | nil => obtain ⟨rfl, rfl⟩ | ⟨x, y, -, rfl, rfl⟩ := h <;> rfl
  | cons s p ih =>
    cases hs : t.child? s with
    | none =>
      rw [run_cons_of_none hs, run_cons_of_none hs]
      obtain ⟨rfl, rfl⟩ | ⟨x, y, -, rfl, rfl⟩ := h
      · exact run_cons_of_none hs
      · rfl
    | some c =>
      rw [run_bind_run_cons hs, ih, run_cons_of_some hs]
      intro ha x hx
      cases p with
      | cons s' p => exact run_cons_ne_absent hx
      | nil =>
        obtain ⟨rfl, -⟩ | ⟨-, y, hy, -, rfl⟩ := h
        · exact absurd rfl ha
        · simpa [run, atEnd] using hy

end Edit

end Docbase
