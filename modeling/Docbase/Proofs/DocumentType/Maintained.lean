import Docbase.Proofs.DocumentType.Resolution
import Docbase.Proofs.Lookup
import Docbase.Proofs.Path
import Docbase.Proofs.Update

namespace Docbase

theorem FieldType.schema_required (t : FieldType) : t.required.schema = t.schema := by
  induction t with
  | optional inner ih => exact ih
  | _ => rfl

namespace DocumentType

variable {T : DocumentType}

/-- The contract for the field of the last write: it is declared as a time, under a name that a path
can have as a segment. -/
structure KeepsTime (T : DocumentType) : Prop where
  ne_empty : T.timestamp ≠ ""
  dot_not_mem : '.' ∉ T.timestamp.toList
  declared : ∃ t, T.fields.lookup T.timestamp = some t ∧ t.required = .dateTime

/-- The paths of the fields that the repository keeps. -/
def kept (T : DocumentType) : List Path := [Path.identity, Path.ofString T.timestamp]

/-- Whether no path leads into one of these fields, in a type whose updates have a stored form. -/
def KeepsWhole (T : DocumentType) : Prop := ∀ stamp p q, ∀ field ∈ T.kept, ∀ below,
  T.resolvePath (Path.ofString T.timestamp) = .ok stamp → T.resolvePath p = .ok q →
    q = field ++ below → q ∈ T.kept

/-- Whether another field than that of the identity is stored under the key of the identity and has
parts, and is the only one to go by this name in any case. -/
def ExposesIdentity (T : DocumentType) : Prop :=
  ¬Text.sameIgnoringCase "_id" T.identity ∧ ∃ s segment part,
    (T.shapes T.name).filter (fun f => Text.sameIgnoringCase f.1 "_id") = [("_id", s)] ∧
      s.step? T.shapes segment = some part

/-- Whether the path, as it is or in its stored form, leads to the stored field or goes on from
there. -/
def Concerns (T : DocumentType) (field p : Path) : Prop :=
  (∃ q, T.resolvePath p = .ok q ∧ (q = field ∨ ∃ below, q = field ++ below)) ∨
    ∃ above below, p = above ++ below ∧ T.resolvePath above = .ok field

theorem matchField?_shapes {owner name : String} {t : FieldType}
    (h : (T.records owner).lookup name = some t) :
    Schema.matchField? (T.shapes owner) name = some (name, t.schema) := by
  apply Schema.matchField?_of_find?
  rw [shapes, List.find?_map]
  exact congrArg (Option.map _) (find?_of_lookup h)

theorem KeepsTime.step?_timestamp (hS : T.KeepsTime) {next : Schema String} {name : String}
    (h : T.schema.step? T.shapes T.timestamp = some (name, next)) :
    name = T.timestamp ∧ next = .scalar := by
  obtain ⟨-, -, t, ht, htime⟩ := hS
  have hscalar : t.schema = .scalar := by
    rw [← FieldType.schema_required, htime]
    rfl
  have hne := Schema.ne_empty_of_step? h
  unfold schema at h
  rw [Schema.step?, if_neg hne, matchField?_shapes ht, hscalar] at h
  obtain ⟨rfl, rfl⟩ := Prod.mk.inj (Option.some.inj h)
  exact ⟨rfl, rfl⟩

theorem KeepsTime.eq_of_resolve? (hS : T.KeepsTime) {p q : Path}
    (h : T.schema.resolve? T.shapes p = some q) (hq : q.head = T.timestamp) :
    q = ⟨T.timestamp, []⟩ := by
  obtain ⟨next, last, hstep, hwalk⟩ := Schema.resolve?_eq_some_iff.mp (Schema.resolve?_resolved h)
  obtain ⟨head, tail⟩ := q
  obtain rfl : head = T.timestamp := hq
  obtain ⟨-, rfl⟩ := hS.step?_timestamp hstep
  cases tail with
  | nil => rfl
  | cons segment rest => cases hwalk

theorem KeepsTime.ofString_timestamp (hS : T.KeepsTime) :
    Path.ofString T.timestamp = ⟨T.timestamp, []⟩ := Path.ofString_of_not_mem hS.dot_not_mem

theorem KeepsTime.exists_stamp (hS : T.KeepsTime) :
    ∃ stamp, T.resolvePath (Path.ofString T.timestamp) = .ok stamp := by
  obtain ⟨t, ht, -⟩ := hS.declared
  have hstep : T.schema.step? T.shapes T.timestamp = some (T.timestamp, t.schema) := by
    rw [schema, Schema.step?, if_neg hS.ne_empty]
    exact matchField?_shapes ht
  rw [hS.ofString_timestamp]
  by_cases hid : T.timestamp = "_id" ∨ Text.sameIgnoringCase T.timestamp T.identity
  · exact ⟨Path.identity, by simp [resolvePath, hid]⟩
  · exact ⟨⟨T.timestamp, []⟩, resolvePath_of_resolve? hid
      (Schema.resolve?_eq_some_iff.mpr ⟨t.schema, t.schema, hstep, rfl⟩)⟩

theorem resolvePath_append {above below field q : Path}
    (habove : T.resolvePath above = .ok field) (h : T.resolvePath (above ++ below) = .ok q) :
    ∃ rest, q = field ++ rest := by
  have hhead : (above ++ below).head = above.head := rfl
  obtain ⟨-, hnil, -⟩ | ⟨hp, hq⟩ := resolvePath_cases h
  · exact absurd hnil (List.append_ne_nil_of_right_ne_nil _ (List.cons_ne_nil _ _))
  obtain ⟨hid, -⟩ | ⟨-, hfield⟩ := resolvePath_cases habove
  · exact absurd hid hp
  obtain ⟨next, last, hstep, hwalk⟩ := Schema.resolve?_eq_some_iff.mp hq
  obtain ⟨next', end', hstep', hwalk'⟩ := Schema.resolve?_eq_some_iff.mp hfield
  rw [hhead, hstep'] at hstep
  obtain ⟨hname, rfl⟩ := Prod.mk.inj (Option.some.inj hstep)
  obtain ⟨names, rest, mid, hfront, hrest, htail⟩ := Schema.walk?_append_eq_some_iff.mp hwalk
  obtain ⟨name, names', -, -, -, rfl⟩ := Schema.walk?_cons_eq_some_iff.mp hrest
  rw [hwalk'] at hfront
  obtain ⟨rfl, -⟩ := Prod.mk.inj (Option.some.inj hfront)
  obtain ⟨qhead, qtail⟩ := q
  obtain rfl : field.head = qhead := hname
  obtain rfl : qtail = field.tail ++ name :: names' := htail
  exact ⟨⟨name, names'⟩, rfl⟩

theorem Concerns.eq_or_eq_append {field p q : Path} (h : T.Concerns field p)
    (hq : T.resolvePath p = .ok q) : q = field ∨ ∃ below, q = field ++ below := by
  obtain ⟨q', hq', hfield⟩ | ⟨above, below, rfl, habove⟩ := h
  · rwa [Except.ok.inj (hq.symm.trans hq')]
  · exact .inr (resolvePath_append habove hq)

theorem eq_unresolved_of_resolvePath {p : Path} {e : Failure} (h : T.resolvePath p = .error e) :
    e = .unresolved p T.name := by
  unfold resolvePath at h
  split at h
  · split at h <;> cases h
    rfl
  · split at h <;> cases h
    rfl

def Refuses (T : DocumentType) (e : Failure) : Prop :=
  (∃ q, e = .invalidArgument (.maintainedField q)) ∨ ∃ p, e = .unresolved p T.name

theorem refuses_of_resolveOp {op : UpdateOp} {e : Failure} (h : T.resolveOp op = .error e) :
    T.Refuses e := by
  unfold resolveOp at h
  cases hpath : T.resolvePath op.path with
  | error e' =>
    rw [hpath] at h
    cases h
    exact .inr ⟨op.path, eq_unresolved_of_resolvePath hpath⟩
  | ok q =>
    rw [hpath] at h
    change (if _ then _ else _) = _ at h
    split at h <;> cases h
    exact .inl ⟨_, rfl⟩

theorem refuses_of_resolveUpdate {update : Update} {e : Failure}
    (h : T.resolveUpdate update = .error e) : T.Refuses e := by
  unfold resolveUpdate at h
  cases hops : update.mapM T.resolveOp with
  | error e' =>
    rw [hops] at h
    cases h
    obtain ⟨-, op, -, -, -, hop⟩ := exists_of_mapM_eq_error hops
    exact refuses_of_resolveOp hop
  | ok ops =>
    rw [hops] at h
    cases hstamp : T.resolvePath (Path.ofString T.timestamp) with
    | error e' =>
      change T.resolvePath (Path.ofString T.timestamp) >>= _ = _ at h
      rw [hstamp] at h
      cases h
      exact .inr ⟨_, eq_unresolved_of_resolvePath hstamp⟩
    | ok stamp =>
      change T.resolvePath (Path.ofString T.timestamp) >>= _ = _ at h
      rw [hstamp] at h
      cases h

theorem exists_of_resolveOp {op op' : UpdateOp} (h : T.resolveOp op = .ok op') :
    ∃ q, T.resolvePath op.path = .ok q ∧ q ∉ T.kept := by
  obtain ⟨q, hq, h⟩ := exists_of_bind_eq_ok h
  split at h
  next => cases h
  next hkept => exact ⟨q, hq, by simpa [kept] using hkept⟩

theorem exists_of_resolveUpdate {update ops : Update} (h : T.resolveUpdate update = .ok ops) :
    ∃ front stamp, update.mapM T.resolveOp = .ok front ∧
      T.resolvePath (Path.ofString T.timestamp) = .ok stamp ∧
      ops = front ++ [.currentDate stamp] := by
  obtain ⟨front, hfront, h⟩ := exists_of_bind_eq_ok h
  obtain ⟨stamp, hstamp, h⟩ := exists_of_bind_eq_ok h
  cases h
  exact ⟨front, stamp, hfront, hstamp, rfl⟩

/-- Whether every update that concerns a field which the repository keeps is refused. -/
def RefusesKept (T : DocumentType) : Prop :=
  ∀ (update : Update), ∀ op ∈ update, ∀ field ∈ T.kept, T.Concerns field op.path →
    ∃ e, T.resolveUpdate update = .error e ∧ T.Refuses e

theorem KeepsWhole.refusesKept (hT : T.KeepsWhole) : T.RefusesKept := by
  intro update op hop field hfield hconcerns
  cases hresolved : T.resolveUpdate update with
  | error e => exact ⟨e, rfl, refuses_of_resolveUpdate hresolved⟩
  | ok ops =>
    obtain ⟨front, stamp, hfront, hstamp, -⟩ := exists_of_resolveUpdate hresolved
    obtain ⟨op', -, hop'⟩ := exists_of_mem_forall₂ (forall₂_of_mapM_eq_ok hfront).flip hop
    obtain ⟨q, hq, hother⟩ := exists_of_resolveOp hop'
    obtain rfl | ⟨below, hbelow⟩ := hconcerns.eq_or_eq_append hq
    · exact absurd hfield hother
    · exact absurd (hT stamp _ q field hfield below hstamp hq hbelow) hother

theorem RefusesKept.keepsWhole (h : T.RefusesKept) : T.KeepsWhole := by
  intro stamp p q field hfield below hstamp hq hbelow
  by_contra hother
  have hop : T.resolveOp (.unset p) = .ok (.unset q) := by
    simp only [kept, List.mem_cons, List.not_mem_nil, or_false] at hother
    change T.resolvePath p >>= _ = _
    rw [hq]
    exact if_neg (by simpa using hother)
  have hresolved : T.resolveUpdate [.unset p] = .ok [.unset q, .currentDate stamp] := by
    simp [resolveUpdate, hop, hstamp]
    rfl
  obtain ⟨e, he, -⟩ := h [.unset p] (.unset p) (List.mem_singleton_self _) field hfield
    (.inl ⟨q, hq, .inr ⟨below, hbelow⟩⟩)
  cases he.symm.trans hresolved

/-- Unless it goes by the name of the identity, the field of the last write is stored under its own
name. -/
theorem KeepsTime.resolvePath_timestamp (hS : T.KeepsTime) {stamp : Path}
    (h : T.resolvePath (Path.ofString T.timestamp) = .ok stamp) :
    stamp = Path.identity ∨ stamp = ⟨T.timestamp, []⟩ := by
  rw [hS.ofString_timestamp] at h
  obtain ⟨-, -, rfl⟩ | ⟨-, hresolve⟩ := resolvePath_cases h
  · exact .inl rfl
  · obtain ⟨next, last, hstep, -⟩ := Schema.resolve?_eq_some_iff.mp hresolve
    exact .inr (hS.eq_of_resolve? hresolve (hS.step?_timestamp hstep).1)

theorem not_exposesIdentity (hT : T.KeepsIdentity) : ¬T.ExposesIdentity := by
  rintro ⟨hother, s, segment, part, hfilter, -⟩
  have hmem : ("_id", s) ∈ (T.shapes T.name).filter (fun f => Text.sameIgnoringCase f.1 "_id") := by
    rw [hfilter]
    exact List.mem_singleton_self _
  obtain ⟨t, ht⟩ := exists_field_of_shape (List.mem_filter.mp hmem).1
  rw [hT t ht] at hother
  exact hother (Text.sameIgnoringCase_refl _)

theorem exposesIdentity_of_resolvePath {p below : Path}
    (h : T.resolvePath p = .ok (Path.identity ++ below)) : T.ExposesIdentity := by
  obtain ⟨-, -, hq⟩ | ⟨hp, hq⟩ := resolvePath_cases h
  · exact absurd (congrArg Path.tail hq) (List.cons_ne_nil _ _)
  obtain ⟨hkey, hidentity⟩ := not_or.mp hp
  obtain ⟨s, last, hstep, hwalk⟩ := Schema.resolve?_eq_some_iff.mp hq
  have hsame := Schema.sameIgnoringCase_of_step? hstep
  have hempty := Schema.ne_empty_of_step? hstep
  obtain ⟨head, tail⟩ := p
  cases tail with
  | nil => cases hwalk
  | cons segment rest =>
  obtain ⟨name, names, next, hpart, -⟩ := Schema.walk?_cons_eq_some_iff.mp hwalk
  rw [schema, Schema.step?, if_neg hempty] at hstep
  obtain ⟨-, ⟨hexact, -⟩ | hfilter⟩ := Schema.matchField?_cases hstep
  · exact absurd hexact.symm hkey
  refine ⟨fun hid => hidentity ?_, s, segment, (name, next), ?_, hpart⟩
  · exact Text.sameIgnoringCase_trans (Text.sameIgnoringCase_symm hsame) hid
  · exact (List.filter_congr fun f _ => Text.sameIgnoringCase_congr_right hsame).trans hfilter

theorem ExposesIdentity.exists_resolvePath (h : T.ExposesIdentity) :
    ∃ p below, T.resolvePath p = .ok (Path.identity ++ below) := by
  obtain ⟨hother, s, segment, ⟨name, next⟩, hfilter, hpart⟩ := h
  have hsame : Text.sameIgnoringCase "_id" "_ID" := by decide +kernel
  have hstep : T.schema.step? T.shapes "_ID" = some ("_id", s) := by
    rw [schema, Schema.step?, if_neg (by decide)]
    apply Schema.matchField?_of_filter
    rw [← hfilter]
    exact List.filter_congr fun f _ => Text.sameIgnoringCase_congr_right
      (Text.sameIgnoringCase_symm hsame)
  refine ⟨⟨"_ID", [segment]⟩, ⟨name, []⟩, resolvePath_of_resolve? ?_ ?_⟩
  · rintro (hkey | hid)
    · exact absurd hkey (by simp)
    · exact hother (Text.sameIgnoringCase_trans hsame hid)
  · exact Schema.resolve?_eq_some_iff.mpr ⟨s, next, hstep,
      Schema.walk?_cons_eq_some_iff.mpr ⟨name, [], next, hpart, rfl, rfl⟩⟩

theorem KeepsTime.keepsWhole_iff (hS : T.KeepsTime) : T.KeepsWhole ↔ ¬T.ExposesIdentity := by
  have hkept : T.kept = [Path.identity, ⟨T.timestamp, []⟩] := by
    rw [kept, hS.ofString_timestamp]
  constructor
  · rintro hT hexposes
    obtain ⟨p, below, hp⟩ := hexposes.exists_resolvePath
    obtain ⟨stamp, hstamp⟩ := hS.exists_stamp
    have hmem := hT stamp p _ Path.identity (by simp [kept]) below hstamp hp rfl
    rw [hkept] at hmem
    simp only [List.mem_cons, List.not_mem_nil, or_false] at hmem
    obtain heq | heq := hmem <;> exact absurd (congrArg Path.tail heq) (List.cons_ne_nil _ _)
  · rintro hexposes stamp p q field hfield below - hq rfl
    rw [hkept] at hfield
    simp only [List.mem_cons, List.not_mem_nil, or_false] at hfield
    obtain rfl | rfl := hfield
    · exact absurd (exposesIdentity_of_resolvePath hq) hexposes
    · obtain ⟨-, -, heq⟩ | ⟨-, hresolve⟩ := resolvePath_cases hq
      · exact absurd (congrArg Path.tail heq) (List.cons_ne_nil _ _)
      · have heq := hS.eq_of_resolve? hresolve rfl
        exact absurd (congrArg Path.tail heq) (List.cons_ne_nil _ _)

/-- No update changes the identity, even if it fails on the way, and an update in stored form that
succeeds has set the time in the end. Every update that concerns the identity or the time of the last
write is refused exactly in the types in which no path leads into one of them; if the time is declared
as one, no path leads into it, and none into the identity unless another field is stored in its
place. -/
theorem updates_stamp_and_keep_identity (T : DocumentType) :
    (∀ (now : Int64) (spec : Update) (d : Document),
      (spec.apply now d).2.get? "_id" = d.get? "_id") ∧
    (∀ update ops, T.resolveUpdate update = .ok ops →
      ∃ stamp, T.resolvePath (Path.ofString T.timestamp) = .ok stamp ∧
        ∀ now d d', ops.apply now d = (.ok (), d') →
          d'.get? "_id" = d.get? "_id" ∧ d'.lookup stamp = [.dateTime now] ∧
          (T.KeepsTime → d'.get? T.timestamp = some (.dateTime now))) ∧
    ((∀ (update : Update), ∀ op ∈ update, ∀ field ∈ T.kept, T.Concerns field op.path →
        ∃ e, T.resolveUpdate update = .error e ∧
          ((∃ q, e = .invalidArgument (.maintainedField q)) ∨ ∃ p, e = .unresolved p T.name)) ↔
      T.KeepsWhole) ∧
    (T.KeepsTime → (T.KeepsWhole ↔ ¬T.ExposesIdentity)) := by
  refine ⟨Update.get?_apply_identity, fun update ops hops => ?_,
    ⟨RefusesKept.keepsWhole, KeepsWhole.refusesKept⟩, KeepsTime.keepsWhole_iff⟩
  obtain ⟨front, stamp, -, hstamp, rfl⟩ := exists_of_resolveUpdate hops
  refine ⟨stamp, hstamp, fun now d d' happly => ?_⟩
  have hkept := Update.get?_apply_identity now (front ++ [.currentDate stamp]) d
  rw [happly] at hkept
  obtain ⟨between, -, hlast⟩ := Update.exists_of_apply_concat happly
  have hlookup := UpdateOp.lookup_of_apply_currentDate hlast
  refine ⟨hkept, hlookup, fun hS => ?_⟩
  obtain rfl | rfl := hS.resolvePath_timestamp hstamp
  · exact absurd rfl (UpdateOp.head_ne_of_apply hlast)
  · rw [Document.lookup_single] at hlookup
    exact Option.toList_eq_singleton_iff.mp hlookup

theorem keeps_of_mem_types (hT : T ∈ Catalogue.types) : T.KeepsIdentity ∧ T.KeepsTime := by
  have hall : ∀ T ∈ Catalogue.types, "_id" ∉ T.fields.map Prod.fst ∧ T.timestamp ≠ "" ∧
      '.' ∉ T.timestamp.toList ∧
      (T.fields.lookup T.timestamp).map FieldType.required = some .dateTime := by decide
  obtain ⟨hid, hempty, hdot, htime⟩ := hall T hT
  exact ⟨fun t ht => absurd (List.mem_map_of_mem ht) hid,
    hempty, hdot, Option.map_eq_some_iff.mp htime⟩

theorem updates_of_restaurants :
    let T := Catalogue.restaurant
    let d : Document := [("_id", .string "a"), ("name", .string "x")]
    (∃ ops d', T.resolveUpdate [.set ⟨"NAME", []⟩ (.string "y")] = .ok ops ∧
      ops.apply 7 d = (.ok (), d') ∧ d'.get? "name" = some (.string "y") ∧
      d'.get? "_id" = some (.string "a") ∧ d'.get? "modified_on" = some (.dateTime 7)) ∧
    ∃ e, T.resolveUpdate [.set ⟨"MODIFIED_ON", ["year"]⟩ .null] = .error e ∧
      ((∃ q, e = .invalidArgument (.maintainedField q)) ∨ ∃ p, e = .unresolved p T.name) := by
  intro T d
  obtain ⟨hT, hS⟩ := keeps_of_mem_types (T := T) List.mem_cons_self
  have hname : Catalogue.restaurant.resolveUpdate [.set ⟨"NAME", []⟩ (.string "y")] =
      .ok [.set ⟨"name", []⟩ (.string "y"), .currentDate ⟨"modified_on", []⟩] := by rfl
  have habove : Catalogue.restaurant.resolvePath ⟨"MODIFIED_ON", []⟩ =
    .ok ⟨"modified_on", []⟩ := by rfl
  obtain ⟨-, hstamps, hrefuses, hwhole⟩ := updates_stamp_and_keep_identity T
  constructor
  · obtain ⟨stamp, -, happly⟩ := hstamps _ _ hname
    obtain ⟨hid, -, htime⟩ := happly 7 d _ rfl
    exact ⟨_, _, hname, rfl, rfl, hid, htime hS⟩
  · refine hrefuses.mpr ((hwhole hS).mpr (not_exposesIdentity hT)) _ _ List.mem_cons_self _ ?_
      (.inr ⟨_, ⟨"year", []⟩, rfl, habove⟩)
    rw [kept, hS.ofString_timestamp]
    exact List.mem_cons_of_mem _ List.mem_cons_self

def readings : DocumentType :=
  ⟨"Reading", none, "id", "modified_on", .int64, fun _ =>
    [("id", .optional .int64), ("modified_on", .optional .dateTime), ("_id", .list .int64)]⟩

theorem keepsTime_readings : readings.KeepsTime := ⟨by decide, by decide, _, rfl, rfl⟩

/-- The first value of a reading is a part of what is stored as the identity. -/
theorem update_reaches_into_identity : ∃ (T : DocumentType) (op : UpdateOp) (ops : Update),
    T.KeepsTime ∧ T.Concerns Path.identity op.path ∧ T.resolveUpdate [op] = .ok ops := by
  have hpath : readings.resolvePath ⟨"_ID", ["0"]⟩ = .ok ⟨"_id", ["0"]⟩ := by rfl
  have hupdate : readings.resolveUpdate [.set ⟨"_ID", ["0"]⟩ (.int64 1)] =
      .ok [.set ⟨"_id", ["0"]⟩ (.int64 1), .currentDate ⟨"modified_on", []⟩] := by rfl
  exact ⟨readings, .set ⟨"_ID", ["0"]⟩ (.int64 1), _, keepsTime_readings,
    .inl ⟨_, hpath, .inr ⟨⟨"0", []⟩, rfl⟩⟩, hupdate⟩

end DocumentType

end Docbase
