import Docbase.Proofs.Path
import Docbase.Proofs.Update.Unordered
import Mathlib.Data.List.Induction
import Mathlib.Data.List.Nodup
import Mathlib.Data.List.Perm.Basic

namespace Docbase

namespace UpdateOp

/-- The section and the path under which the operation is filed. -/
def entry (op : UpdateOp) : String × Path := (op.operand.1, op.path)

def ofFiled? (name field : String) (v : Value) : Option UpdateOp :=
  match name with
  | "$set" => some (.set (Path.ofString field) v)
  | "$unset" => some (.unset (Path.ofString field))
  | "$inc" => some (.inc (Path.ofString field) v)
  | "$currentDate" => some (.currentDate (Path.ofString field))
  | _ => none

def ofSection (name : String) (fields : Document) : Update :=
  fields.flatMap fun (field, v) => (ofFiled? name field v).toList

variable {op old : UpdateOp} {name field : String} {v : Value} {fields : Document}

theorem entry_of_ofFiled? (h : ofFiled? name field v = some op) :
    op.entry = (name, Path.ofString field) := by
  unfold ofFiled? at h
  split at h <;> first | cases h; rfl | cases h

theorem ofFiled?_operand (hop : Path.ofString op.path.text = op.path) :
    ofFiled? op.operand.1 op.path.text op.operand.2 = some op := by
  cases op <;> (rw [path] at hop; simp only [ofFiled?, operand, path, hop])

theorem exists_ofFiled?_operand (op : UpdateOp) (field : String) (v : Value) :
    ∃ old, ofFiled? op.operand.1 field v = some old := by
  cases op <;> exact ⟨_, rfl⟩

theorem exists_of_mem_ofSection (h : op ∈ ofSection name fields) :
    ∃ field ∈ fields.keys, op.entry = (name, Path.ofString field) := by
  obtain ⟨⟨field, v⟩, hmem, hop⟩ := List.mem_flatMap.mp h
  exact ⟨field, List.mem_map_of_mem hmem, entry_of_ofFiled? (Option.mem_toList.mp hop)⟩

theorem exists_ofSection_insert (hop : Path.ofString op.path.text = op.path) (fields : Document) :
    ∃ front back,
      ofSection op.operand.1 (fields.insert op.path.text op.operand.2) = front ++ op :: back ∧
      ((ofSection op.operand.1 fields = front ++ back ∧ op.path.text ∉ fields.keys) ∨
        ∃ old, old.entry = op.entry ∧ ofSection op.operand.1 fields = front ++ old :: back) := by
  induction fields with
  | nil =>
    refine ⟨[], [], ?_, .inl ⟨rfl, List.not_mem_nil⟩⟩
    simp [Document.insert, ofSection, ofFiled?_operand hop]
  | cons entry rest ih =>
    obtain ⟨field, v⟩ := entry
    rw [Document.insert]
    split
    next heq =>
      obtain ⟨old, hold⟩ := op.exists_ofFiled?_operand field v
      refine ⟨[], ofSection op.operand.1 rest, ?_, .inr ⟨old, ?_, ?_⟩⟩
      · simp [ofSection, ofFiled?_operand hop]
      · rw [entry_of_ofFiled? hold, heq, hop]
        rfl
      · simp [ofSection, hold]
    next hne =>
      obtain ⟨front, back, hnew, h⟩ := ih
      refine ⟨(ofFiled? op.operand.1 field v).toList ++ front, back, ?_, ?_⟩
      · rw [ofSection, List.flatMap_cons, ← ofSection, hnew, List.append_assoc]
      · obtain ⟨hrest, hmem⟩ | ⟨old, hold, hrest⟩ := h
        · refine .inl ⟨?_, ?_⟩
          · rw [ofSection, List.flatMap_cons, ← ofSection, hrest, List.append_assoc]
          · simpa [Document.keys, Ne.symm hne] using hmem
        · refine .inr ⟨old, hold, ?_⟩
          rw [ofSection, List.flatMap_cons, ← ofSection, hrest, List.append_assoc]

end UpdateOp

namespace Update

def ofSections (sections : List (String × Document)) : Update :=
  sections.flatMap fun (name, fields) => UpdateOp.ofSection name fields

def ofDocument (d : Document) : Update :=
  d.flatMap fun (name, v) =>
    match v with
    | .document fields => UpdateOp.ofSection name fields
    | _ => []

/-- The operations as the document of the update has them. -/
def regrouped (update : Update) : Update := ofDocument update.operatorDocument

theorem regrouped_eq (update : Update) :
    update.regrouped = ofSections (update.foldl UpdateOp.addTo []) := by
  rw [regrouped, operatorDocument, ofDocument, List.flatMap_map]
  rfl

theorem map_fst_addTo (sections : List (String × Document)) (op : UpdateOp) :
    (op.addTo sections).map Prod.fst = if op.operand.1 ∈ sections.map Prod.fst then
      sections.map Prod.fst else sections.map Prod.fst ++ [op.operand.1] := by
  induction sections with
  | nil => simp [UpdateOp.addTo]
  | cons entry rest ih =>
    obtain ⟨name, fields⟩ := entry
    rw [UpdateOp.addTo]
    by_cases hname : name = op.operand.1
    · simp [hname]
    · simp only [if_neg hname, List.map_cons, ih, List.mem_cons, Ne.symm hname, false_or]
      split <;> rfl

theorem nodup_map_fst_addTo {sections : List (String × Document)} (op : UpdateOp)
    (h : (sections.map Prod.fst).Nodup) : ((op.addTo sections).map Prod.fst).Nodup := by
  rw [map_fst_addTo]
  split
  next => exact h
  next hmem => exact List.nodup_append.mpr ⟨h, List.nodup_singleton _, by grind⟩

theorem mem_map_fst_of_mem_ofSections {sections : List (String × Document)} {op : UpdateOp}
    (h : op ∈ ofSections sections) : op.entry.1 ∈ sections.map Prod.fst := by
  obtain ⟨⟨name, fields⟩, hmem, hop⟩ := List.mem_flatMap.mp h
  obtain ⟨field, -, hentry⟩ := UpdateOp.exists_of_mem_ofSection hop
  rw [hentry]
  exact List.mem_map_of_mem hmem

theorem exists_ofSections_addTo {op : UpdateOp} (hop : Path.ofString op.path.text = op.path)
    {sections : List (String × Document)} (hn : (sections.map Prod.fst).Nodup) :
    ∃ front back, ofSections (op.addTo sections) = front ++ op :: back ∧
      ((ofSections sections = front ++ back ∧ ∀ other ∈ front ++ back, other.entry ≠ op.entry) ∨
        ∃ old, old.entry = op.entry ∧ ofSections sections = front ++ old :: back) := by
  induction sections with
  | nil =>
    refine ⟨[], [], ?_, .inl ⟨rfl, by simp⟩⟩
    simp [UpdateOp.addTo, ofSections, UpdateOp.ofSection, UpdateOp.ofFiled?_operand hop]
  | cons entry rest ih =>
    obtain ⟨name, fields⟩ := entry
    obtain ⟨hname, hn⟩ := List.nodup_cons.mp hn
    rw [UpdateOp.addTo]
    by_cases heq : name = op.operand.1
    · subst heq
      obtain ⟨front, back, hnew, h⟩ := UpdateOp.exists_ofSection_insert hop fields
      refine ⟨front, back ++ ofSections rest, ?_, ?_⟩
      · simp only [if_pos, ofSections, List.flatMap_cons, hnew, List.append_assoc,
          List.cons_append]
      · obtain ⟨hold, hfield⟩ | ⟨old, hentry, hold⟩ := h
        · refine .inl ⟨by simp only [ofSections, List.flatMap_cons, hold, List.append_assoc], ?_⟩
          intro other hother hentry
          rw [← List.append_assoc, ← hold] at hother
          obtain hmem | hmem := List.mem_append.mp hother
          · obtain ⟨field, hkey, hother⟩ := UpdateOp.exists_of_mem_ofSection hmem
            have hpath : Path.ofString field = op.path :=
              congrArg Prod.snd (hother.symm.trans hentry)
            rw [← hpath, Path.text_ofString] at hfield
            exact hfield hkey
          · have hsection := mem_map_fst_of_mem_ofSections hmem
            rw [hentry] at hsection
            exact hname hsection
        · refine .inr ⟨old, hentry, ?_⟩
          simp only [ofSections, List.flatMap_cons, hold, List.append_assoc, List.cons_append]
    · obtain ⟨front, back, hnew, h⟩ := ih hn
      refine ⟨UpdateOp.ofSection name fields ++ front, back, ?_, ?_⟩
      · simp only [if_neg heq, ofSections, List.flatMap_cons, List.append_assoc]
        rw [← ofSections, hnew]
      · obtain ⟨hold, hother⟩ | ⟨old, hentry, hold⟩ := h
        · refine .inl ⟨?_, ?_⟩
          · rw [ofSections, List.flatMap_cons, ← ofSections, hold, List.append_assoc]
          · intro other hmem hentry
            rw [List.append_assoc] at hmem
            obtain hmem | hmem := List.mem_append.mp hmem
            · obtain ⟨field, -, hfield⟩ := UpdateOp.exists_of_mem_ofSection hmem
              exact heq (congrArg Prod.fst (hfield.symm.trans hentry))
            · exact hother other hmem hentry
        · refine .inr ⟨old, hentry, ?_⟩
          rw [ofSections, List.flatMap_cons, ← ofSections, hold, List.append_assoc]

theorem nodup_map_fst_filed (update : Update) :
    ((update.foldl UpdateOp.addTo []).map Prod.fst).Nodup := by
  induction update using List.reverseRecOn with
  | nil => exact List.nodup_nil
  | append_singleton front op ih =>
    rw [List.foldl_append]
    exact nodup_map_fst_addTo op ih

variable {update : Update} {op : UpdateOp}

theorem exists_regrouped_concat (update : Update) (hop : Path.ofString op.path.text = op.path) :
    ∃ front back, Update.regrouped (update ++ [op]) = front ++ op :: back ∧
      ((update.regrouped = front ++ back ∧ ∀ other ∈ front ++ back, other.entry ≠ op.entry) ∨
        ∃ old, old.entry = op.entry ∧ update.regrouped = front ++ old :: back) := by
  rw [regrouped_eq, regrouped_eq, List.foldl_append]
  exact exists_ofSections_addTo hop (nodup_map_fst_filed update)

theorem mem_of_mem_regrouped (hpaths : ∀ op ∈ update, Path.ofString op.path.text = op.path)
    (h : op ∈ update.regrouped) : op ∈ update := by
  induction update using List.reverseRecOn with
  | nil => cases h
  | append_singleton front last ih =>
    obtain ⟨hfront, hlast⟩ := List.forall_mem_append.mp hpaths
    obtain ⟨before, after, hnew, hold⟩ :=
      exists_regrouped_concat front (hlast last (List.mem_singleton_self last))
    have hsubset : ∀ other, other ∈ before ++ after → other ∈ regrouped front := by
      obtain ⟨hold, -⟩ | ⟨old, -, hold⟩ := hold
      · exact fun other hother => hold ▸ hother
      · intro other hother
        rw [hold]
        simp only [List.mem_append, List.mem_cons] at hother ⊢
        exact hother.imp_right .inr
    have hcases : op = last ∨ op ∈ before ++ after := by
      rw [hnew] at h
      simp only [List.mem_append, List.mem_cons] at h ⊢
      tauto
    obtain rfl | hmem := hcases
    · exact List.mem_append_right _ (List.mem_singleton_self op)
    · exact List.mem_append_left _ (ih hfront (hsubset op hmem))

theorem sublist_regrouped_concat (update : Update)
    (hop : Path.ofString op.path.text = op.path) :
    List.Sublist (update.regrouped.map UpdateOp.entry)
      ((Update.regrouped (update ++ [op])).map UpdateOp.entry) := by
  obtain ⟨front, back, hnew, ⟨hold, -⟩ | ⟨old, hentry, hold⟩⟩ := exists_regrouped_concat update hop
  · rw [hnew, hold]
    exact (List.Sublist.append_left (List.sublist_cons_self op back) front).map _
  · rw [hnew, hold]
    simp [hentry]

theorem nodup_map_entry_regrouped (hpaths : ∀ op ∈ update, Path.ofString op.path.text = op.path) :
    (update.regrouped.map UpdateOp.entry).Nodup := by
  induction update using List.reverseRecOn with
  | nil => exact List.nodup_nil
  | append_singleton front last ih =>
    obtain ⟨hfront, hlast⟩ := List.forall_mem_append.mp hpaths
    have hn := ih hfront
    obtain ⟨before, after, hnew, ⟨hold, hother⟩ | ⟨old, hentry, hold⟩⟩ :=
      exists_regrouped_concat front (hlast last (List.mem_singleton_self last))
    · have hperm : (before ++ last :: after).Perm (last :: (before ++ after)) :=
        List.perm_middle
      rw [hnew, (hperm.map UpdateOp.entry).nodup_iff, List.map_cons, List.nodup_cons, ← hold]
      refine ⟨fun hmem => ?_, hn⟩
      obtain ⟨other, hmem, hentry⟩ := List.mem_map.mp hmem
      exact hother other (hold ▸ hmem) hentry
    · rw [hold] at hn
      rw [hnew]
      simpa [hentry] using hn

theorem regrouped_perm_iff (hpaths : ∀ op ∈ update, Path.ofString op.path.text = op.path) :
    update.regrouped.Perm update ↔ (update.map UpdateOp.entry).Nodup := by
  constructor
  · intro hperm
    exact (hperm.map UpdateOp.entry).nodup_iff.mp (nodup_map_entry_regrouped hpaths)
  · intro hn
    induction update using List.reverseRecOn with
    | nil => exact List.Perm.refl _
    | append_singleton front last ih =>
      obtain ⟨hfront, hlast⟩ := List.forall_mem_append.mp hpaths
      rw [List.map_append, List.nodup_append] at hn
      obtain ⟨before, after, hnew, ⟨hold, -⟩ | ⟨old, hentry, hold⟩⟩ :=
        exists_regrouped_concat front (hlast last (List.mem_singleton_self last))
      · have hrest : List.Perm (before ++ after) front := hold ▸ ih hfront hn.1
        rw [hnew]
        exact List.perm_middle.trans
          ((hrest.cons last).trans (List.perm_append_singleton last front).symm)
      · have hmem : old ∈ front := mem_of_mem_regrouped hfront (by simp [hold])
        exact absurd hentry (hn.2.2 _ (List.mem_map_of_mem hmem) _ (List.mem_singleton_self _))

end Update

end Docbase
