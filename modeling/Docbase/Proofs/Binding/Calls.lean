import Docbase.Proofs.Binding

namespace Docbase.Registry

variable {r r' : Registry} {T : BoundType}

/-- A call that binds a type. -/
inductive Call where
  | register (T : BoundType) (collection : String)
  | inherit (derived base : BoundType)

namespace Call

def type : Call → BoundType
  | register T _ => T
  | inherit derived _ => derived

def binding : Call → Binding
  | register _ collection => .named collection
  | inherit _ base => .inherits base

def registers (T : BoundType) : Call → Bool
  | register U _ => U.fullName = T.fullName
  | inherit .. => false

def inherits (T : BoundType) : Call → Bool
  | register .. => false
  | inherit U _ => U.fullName = T.fullName

theorem type_eq_iff (c : Call) :
    c.type.fullName = T.fullName ↔ c.registers T ∨ c.inherits T := by
  cases c <;> simp [type, registers, inherits]

end Call

def after (r : Registry) : Call → Registry
  | .register T collection => r.register T collection
  | .inherit derived base => r.inherit derived base

def run (r : Registry) (calls : List Call) : Registry := calls.foldl after r

theorem run_cons (r : Registry) (c : Call) (calls : List Call) :
    r.run (c :: calls) = (r.after c).run calls := rfl

theorem run_append (r : Registry) (calls calls' : List Call) :
    r.run (calls ++ calls') = (r.run calls).run calls' := List.foldl_append ..

theorem lookup_after (r : Registry) (c : Call) (k : String) :
    (r.after c).bindings.lookup k =
      if k = c.type.fullName then some c.binding else r.bindings.lookup k := by
  cases c <;> exact lookup_cons _

theorem lookup_run_congr {keep : Call → Bool} {k : String} {calls : List Call}
    (hkeep : ∀ c ∈ calls, c.type.fullName = k → keep c)
    (h : r.bindings.lookup k = r'.bindings.lookup k) :
    (r.run calls).bindings.lookup k = (r'.run (calls.filter keep)).bindings.lookup k := by
  induction calls generalizing r r' with
  | nil => exact h
  | cons c calls ih =>
    have hrest : ∀ c ∈ calls, c.type.fullName = k → keep c := fun d hd => hkeep d (by simp [hd])
    rw [List.filter_cons]
    split
    next =>
      refine ih hrest ?_
      rw [lookup_after, lookup_after, h]
    next hdropped =>
      refine ih hrest ?_
      have hne : k ≠ c.type.fullName := fun hk => hdropped (hkeep c (by simp) hk.symm)
      rw [lookup_after, if_neg hne, h]

theorem lookup_run_of_exists {keep : Call → Bool} {k : String} {calls : List Call}
    (hkeep : ∀ c ∈ calls, c.type.fullName = k → keep c)
    (hbound : ∃ c ∈ calls, c.type.fullName = k) :
    (r.run calls).bindings.lookup k = (r'.run (calls.filter keep)).bindings.lookup k := by
  induction calls generalizing r r' with
  | nil =>
    obtain ⟨c, hc, -⟩ := hbound
    cases hc
  | cons c calls ih =>
    have hrest : ∀ c ∈ calls, c.type.fullName = k → keep c := fun d hd => hkeep d (by simp [hd])
    by_cases hk : c.type.fullName = k
    · rw [List.filter_cons_of_pos (hkeep c (by simp) hk)]
      refine lookup_run_congr hrest ?_
      rw [lookup_after, lookup_after, if_pos hk.symm, if_pos hk.symm]
    · have hbound : ∃ c ∈ calls, c.type.fullName = k := by
        obtain ⟨d, hd, hdk⟩ := hbound
        obtain rfl | hd := List.mem_cons.mp hd
        · exact absurd hdk hk
        · exact ⟨d, hd, hdk⟩
      rw [List.filter_cons]
      split
      · exact ih hrest hbound
      · exact ih hrest hbound

theorem lookup_run_of_forall_ne {k : String} {calls : List Call}
    (h : ∀ c ∈ calls, c.type.fullName ≠ k) :
    (r.run calls).bindings.lookup k = r.bindings.lookup k := by
  have hkeep : ∀ c ∈ calls, c.type.fullName = k → (decide (c.type.fullName = k) : Bool) :=
    fun c _ hk => by simpa using hk
  have hnone : calls.filter (fun c => c.type.fullName = k) = [] := by
    simpa [List.filter_eq_nil_iff] using h
  rw [lookup_run_congr hkeep rfl, hnone]
  rfl

section LastRegistration

variable {front rest : List Call} {name : String} (hlast : ∀ c ∈ rest, ¬ c.registers T)
include hlast

/-- A type that is made to inherit after its last registration is bound as though it had never been
registered. -/
theorem lookup_run_of_inherits (h : ∃ c ∈ rest, c.inherits T) (k : String) :
    (r.run (front ++ .register T name :: rest)).bindings.lookup k =
      (r.run ((front ++ .register T name :: rest).filter (!·.registers T))).bindings.lookup k := by
  by_cases hk : k = T.fullName
  · obtain ⟨c, hc, hinherits⟩ := h
    rw [run_append, run_cons, List.filter_append, List.filter_cons_of_neg (by simp [Call.registers]),
      run_append]
    refine lookup_run_of_exists (fun d hd _ => by simpa using hlast d hd) ⟨c, hc, ?_⟩
    rw [hk, c.type_eq_iff]
    exact .inr hinherits
  · refine lookup_run_congr (fun d _ hdk => ?_) rfl
    have hne : ¬ d.registers T := fun hd => hk (hdk ▸ (d.type_eq_iff.mpr (.inl hd)))
    simpa using hne

theorem lookup_run_of_registered (h : ∀ c ∈ rest, ¬ c.inherits T) :
    (r.run (front ++ .register T name :: rest)).bindings.lookup T.fullName = some (.named name) := by
  rw [run_append, run_cons, lookup_run_of_forall_ne, lookup_after]
  · exact if_pos rfl
  · intro c hc hT
    exact (c.type_eq_iff.mp hT).elim (hlast c hc) (h c hc)

end LastRegistration

/-- After its last registration a type keeps the name until it is made to inherit. From then on it is
stored where it would be had it never been registered. -/
theorem registered_name_kept_iff (r : Registry) {calls front rest : List Call} {name : String}
    (hcalls : calls = front ++ .register T name :: rest) (hlast : ∀ c ∈ rest, ¬ c.registers T) :
    ((r.run calls).resolve T none = name ↔ (∀ c ∈ rest, ¬ c.inherits T) ∨
      (r.run (calls.filter (!·.registers T))).resolve T none = name) ∧
    ((∃ c ∈ rest, c.inherits T) → ∀ asked, (r.run calls).resolve T asked =
      (r.run (calls.filter (!·.registers T))).resolve T asked) := by
  subst hcalls
  refine ⟨?_, fun h => resolve_congr (lookup_run_of_inherits hlast h) T⟩
  by_cases h : ∃ c ∈ rest, c.inherits T
  · rw [resolve_congr (lookup_run_of_inherits hlast h)]
    have hnot : ¬ ∀ c ∈ rest, ¬ c.inherits T := by simpa using h
    rw [or_iff_right hnot]
  · have hnone : ∀ c ∈ rest, ¬ c.inherits T := by simpa using h
    exact iff_of_true (resolve_of_lookup (lookup_run_of_registered hlast hnone)) (.inl hnone)

/-- The name outlasts what is said about other types later, and about the type itself earlier. -/
theorem registered_name_kept_of_earlier_base :
    let front : List Call := [.register Catalogue.inspection "old",
      .inherit Catalogue.inspection Catalogue.restaurant]
    let rest : List Call := [.inherit Catalogue.permit Catalogue.inspection]
    let r := ({} : Registry).run (front ++ .register Catalogue.inspection "archive" :: rest)
    r.resolve Catalogue.inspection none = "archive" := by
  intro front rest r
  exact (registered_name_kept_iff {} rfl (by decide)).1.mpr (.inl (by decide))

/-- A type that is registered and then made to inherit loses its name. -/
theorem registered_name_lost_to_base :
    let r := ({} : Registry).run [.register Catalogue.inspection "archive",
      .inherit Catalogue.inspection Catalogue.restaurant]
    r.resolve Catalogue.inspection none ≠ "archive" := by
  decide

end Docbase.Registry
