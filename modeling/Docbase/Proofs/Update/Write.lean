import Docbase.Proofs.Except
import Docbase.Proofs.Location
import Docbase.Update

namespace Docbase

namespace Value

variable {f g : Value → Except UpdateError Value} {trail segment : Path} {v v' : Value}
  {fields : Document} {s : String} {rest segments : List String}

theorem cases_of_openFields? (h : v.openFields? = some fields) :
    (v = .null ∧ fields = []) ∨ v = .document fields := by
  cases v <;> cases h
  · exact .inl ⟨rfl, rfl⟩
  · exact .inr rfl

theorem alter_of_openFields? (f : Value → Except UpdateError Value)
    (h : v.openFields? = some fields) : v.alter f trail segment (s :: rest) =
      (((fields.get? s).getD .null).alter f ⟨s, rest⟩ ⟨s, []⟩ rest).map fun child =>
        .document (fields.insert s child) := by
  obtain ⟨rfl, rfl⟩ | rfl := cases_of_openFields? h <;> rfl

theorem alter_array (f : Value → Except UpdateError Value) {i : Nat} {items : List Value}
    {item : Value} (hi : Number.index? s = some i) (hitem : items[i]? = some item) :
    (array items).alter f trail segment (s :: rest) =
      (item.alter f trail ⟨s, rest⟩ rest).map fun item => .array (items.set i item) := by
  rw [alter]
  simp only [hi, hitem]
  rfl

/-- One segment leads into an element of an array, or to a field of a document or of what counts as
one. -/
theorem alter_cons_cases (h : v.alter f trail segment (s :: rest) = .ok v') :
    (∃ items i item item', v = .array items ∧ Number.index? s = some i ∧ items[i]? = some item ∧
      item.alter f trail ⟨s, rest⟩ rest = .ok item' ∧ v' = .array (items.set i item')) ∨
    ∃ fields child, v.openFields? = some fields ∧
      ((Document.get? fields s).getD .null).alter f ⟨s, rest⟩ ⟨s, []⟩ rest = .ok child ∧
      v' = .document (Document.insert fields s child) := by
  by_cases harray : ∃ items, v = .array items
  · obtain ⟨items, rfl⟩ := harray
    rw [alter] at h
    split at h
    next => cases h
    next i hi =>
      split at h
      next => cases h
      next item hitem =>
        obtain ⟨item', halter, h⟩ := exists_of_bind_eq_ok h
        exact .inl ⟨items, i, item, item', rfl, hi, hitem, halter, (Except.ok.inj h).symm⟩
  · rw [alter] at h
    rotate_left
    · exact fun items hv => harray ⟨items, hv⟩
    split at h
    next => cases h
    next fields hopen =>
      obtain ⟨child, halter, h⟩ := exists_of_bind_eq_ok h
      exact .inr ⟨fields, child, hopen, halter, (Except.ok.inj h).symm⟩

theorem changesAt_of_openFields? (h : v.openFields? = some fields) (child : Value) :
    ChangesAt (· <+: ·) (.key s) (some child) v (document (fields.insert s child)) := by
  obtain ⟨rfl, rfl⟩ | rfl := cases_of_openFields? h
  · refine ⟨Document.get?_cons_self [] s child, fun other hother => ?_, .opened _⟩
    cases other with
    | index i => rfl
    | key l =>
      have hl : s ≠ l := fun heq => hother (congrArg Step.key heq.symm)
      exact (Document.get?_cons [] s l child).trans (if_neg hl)
  · exact changesAt_insert fields.prefix_keys_insert

/-- How writes pass a segment of their path: they write to the value that it leads to, and `put`
stands for the whole with the outcome in its place. -/
structure Passes (trail segment : Path) (s : String) (rest : List String) (v : Value)
    (trail' segment' : Path) (put : Value → Value) : Prop where
  changes : ∀ c, ChangesAt (· <+: ·) (v.stepTo s) (some c) v (put c)
  children : v.children s = (v.child? (v.stepTo s)).toList
  children_put : ∀ c, (put c).children s = [c]
  alter : ∀ f, v.alter f trail segment (s :: rest) =
    (((v.child? (v.stepTo s)).getD .null).alter f trail' segment' rest).map put
  alter_put : ∀ f c, (put c).alter f trail segment (s :: rest) =
    (c.alter f trail' segment' rest).map put

theorem exists_passes (h : v.alter f trail segment (s :: rest) = .ok v') :
    ∃ trail' segment' put, Passes trail segment s rest v trail' segment' put := by
  obtain ⟨items, i, item, -, rfl, hi, hitem, -⟩ | ⟨fields, -, hopen, -⟩ := alter_cons_cases h
  · have hlength : i < items.length := (List.getElem?_eq_some_iff.mp hitem).1
    have hset (c : Value) : (items.set i c)[i]? = some c := List.getElem?_set_self hlength
    refine ⟨trail, ⟨s, rest⟩, fun c => .array (items.set i c), ?_, ?_, ?_, ?_, ?_⟩
    · rw [stepTo_array hi]
      exact fun c => changesAt_set hlength
    · rw [stepTo_array hi]
      exact children_array_of_index hi
    · intro c
      rw [children_array_of_index hi, hset]
      rfl
    · intro f
      rw [stepTo_array hi, child?, hitem]
      exact alter_array f hi hitem
    · intro f c
      rw [alter_array f hi (hset c)]
      simp only [List.set_set]
  · have hv : ∀ items, v ≠ .array items := by
      rintro items rfl
      cases hopen
    have hchild : ((v.child? (.key s)).getD .null) = (fields.get? s).getD .null := by
      obtain ⟨rfl, rfl⟩ | rfl := cases_of_openFields? hopen <;> rfl
    have hinsert (c : Value) : (Document.get? (fields.insert s c) s).getD .null = c := by
      rw [Document.get?_insert, if_pos rfl, Option.getD_some]
    refine ⟨⟨s, rest⟩, ⟨s, []⟩, fun c => .document (fields.insert s c), ?_, ?_, ?_, ?_, ?_⟩
    · rw [stepTo_of_ne_array hv]
      exact changesAt_of_openFields? hopen
    · exact children_eq_toList_child? fun items heq => absurd heq (hv items)
    · intro c
      rw [children, Document.get?_insert, if_pos rfl, Option.toList_some]
    · intro f
      rw [stepTo_of_ne_array hv, hchild]
      exact alter_of_openFields? f hopen
    · intro f c
      have hopen' : (document (fields.insert s c)).openFields? = some (fields.insert s c) := rfl
      rw [alter_of_openFields? f hopen', hinsert]
      simp only [Document.insert_insert]

theorem Passes.exists_of_alter {trail' segment' : Path} {put : Value → Value}
    (hpass : Passes trail segment s rest v trail' segment' put)
    (h : v.alter f trail segment (s :: rest) = .ok v') :
    ∃ c, ((v.child? (v.stepTo s)).getD .null).alter f trail' segment' rest = .ok c ∧
      v' = put c := by
  rw [hpass.alter] at h
  obtain ⟨c, hc, hput⟩ := exists_of_map_eq_ok h
  exact ⟨c, hc, hput.symm⟩

/-- A write replaces the value at the location of its segments, which is the one that they lead to
before and after. -/
theorem reads_of_alter (h : v.alter f trail segment segments = .ok v') :
    v.follow segments = (v.at? (v.locate segments)).toList ∧
      ∃ new, f (v.held segments) = .ok new ∧
        v'.follow segments = [new] ∧ v'.at? (v.locate segments) = some new := by
  induction segments generalizing trail segment v v' with
  | nil => exact ⟨rfl, v', h, rfl, rfl⟩
  | cons s rest ih =>
    obtain ⟨trail', segment', put, hpass⟩ := exists_passes h
    obtain ⟨c, halter, rfl⟩ := hpass.exists_of_alter h
    obtain ⟨hfollow, new, hf, hfollow', hat⟩ := ih halter
    rw [follow_cons, follow_cons, locate_cons, at?_cons, at?_cons, held_cons,
      hpass.children, hpass.children_put, (hpass.changes c).child]
    refine ⟨?_, new, hf, by simpa using hfollow', hat⟩
    cases hc : v.child? (v.stepTo s) with
    | none => rfl
    | some c => simpa [hc] using hfollow

/-- Where one write has reached the end of its path, every other does, and fails only in what it does
there. -/
theorem alter_of_reached (h : v.alter g trail segment segments = .ok v')
    (f : Value → Except UpdateError Value) :
    (∀ new, f (v.held segments) = .ok new → ∃ w, v.alter f trail segment segments = .ok w) ∧
      ∀ e, f (v.held segments) = .error e → v.alter f trail segment segments = .error e := by
  induction segments generalizing trail segment v v' with
  | nil => exact ⟨fun new hnew => ⟨new, hnew⟩, fun e he => he⟩
  | cons s rest ih =>
    obtain ⟨trail', segment', put, hpass⟩ := exists_passes h
    obtain ⟨c, halter, -⟩ := hpass.exists_of_alter h
    obtain ⟨hok, herror⟩ := ih halter
    rw [held_cons, hpass.alter]
    refine ⟨fun new hnew => ?_, fun e he => ?_⟩
    · obtain ⟨w, hw⟩ := hok new hnew
      exact ⟨put w, by rw [hw]; rfl⟩
    · rw [herror e he]
      rfl

theorem alter_alter (h : v.alter g trail segment segments = .ok v')
    (f : Value → Except UpdateError Value) :
    v'.alter f trail segment segments = v.alter (fun w => g w >>= f) trail segment segments := by
  induction segments generalizing trail segment v v' with
  | nil =>
    have hg : g v = .ok v' := h
    change f v' = g v >>= f
    rw [hg]
    rfl
  | cons s rest ih =>
    obtain ⟨trail', segment', put, hpass⟩ := exists_passes h
    obtain ⟨c, halter, rfl⟩ := hpass.exists_of_alter h
    rw [hpass.alter_put, hpass.alter, ih halter]

end Value

namespace Document

variable {f g : Value → Except UpdateError Value} {p : Path} {d d' : Document}

def locate (d : Document) (p : Path) : Location := (Value.document d).locate p.segments

/-- What stands at a path, where what is missing counts as `null`. -/
def held (d : Document) (p : Path) : Value := (Value.document d).held p.segments

theorem alter_segments (f : Value → Except UpdateError Value) (p trail segment : Path)
    (d : Document) : (Value.document d).alter f trail segment p.segments =
      (d.alter f p).map .document := by
  rw [Path.segments, Value.alter, alter]
  · simp only [Value.openFields?]
    cases Value.alter f ⟨p.head, p.tail⟩ ⟨p.head, []⟩ p.tail ((d.get? p.head).getD .null) <;> rfl
  · intro items hitems
    cases hitems

theorem alter_eq_iff : d.alter f p = .ok d' ↔
    (Value.document d).alter f p p p.segments = .ok (.document d') := by
  rw [alter_segments]
  cases d.alter f p <;> simp [Except.map]

theorem follow_segments (p : Path) (d : Document) :
    (Value.document d).follow p.segments = d.lookup p := by
  rw [Path.segments, Value.follow, lookup]

theorem reads_of_alter (h : d.alter f p = .ok d') :
    d.lookup p = ((Value.document d).at? (d.locate p)).toList ∧
      ∃ new, f (d.held p) = .ok new ∧ d'.lookup p = [new] ∧
        (Value.document d').at? (d.locate p) = some new := by
  rw [← follow_segments, ← follow_segments]
  exact Value.reads_of_alter (alter_eq_iff.mp h)

theorem held_eq_of_reached (h : d.alter g p = .ok d') : d.held p = (d.lookup p).headD .null := by
  rw [(reads_of_alter h).1, held, Value.held, ← locate]
  cases (Value.document d).at? (d.locate p) <;> rfl

theorem exists_alter_of_reached {new : Value} (h : d.alter g p = .ok d')
    (hf : f (d.held p) = .ok new) : ∃ d', d.alter f p = .ok d' := by
  obtain ⟨w, hw⟩ := (Value.alter_of_reached (alter_eq_iff.mp h) f).1 new hf
  rw [alter_segments] at hw
  obtain ⟨d', hd', -⟩ := exists_of_map_eq_ok hw
  exact ⟨d', hd'⟩

theorem alter_eq_error_of_reached {e : UpdateError} (h : d.alter g p = .ok d')
    (hf : f (d.held p) = .error e) : d.alter f p = .error e := by
  have herror := (Value.alter_of_reached (alter_eq_iff.mp h) f).2 e hf
  rw [alter_segments] at herror
  exact eq_error_of_map_eq_error herror

theorem exists_alter_alter (h : d.alter g p = .ok d') (hf : ∀ v, ∃ new, f v = .ok new) :
    ∃ d'', d'.alter f p = .ok d'' := by
  obtain ⟨-, new, hnew, -⟩ := reads_of_alter h
  obtain ⟨new', hnew'⟩ := hf new
  have htwice : (fun v => g v >>= f) (d.held p) = .ok new' := by
    dsimp only
    rw [hnew]
    exact hnew'
  obtain ⟨d'', hd''⟩ := exists_alter_of_reached (f := fun v => g v >>= f) h htwice
  refine ⟨d'', ?_⟩
  rw [alter_eq_iff] at h hd'' ⊢
  rw [Value.alter_alter h, hd'']

end Document

end Docbase
