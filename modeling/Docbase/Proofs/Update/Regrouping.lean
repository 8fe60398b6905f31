import Docbase.Proofs.Update.Overlap

namespace Docbase

namespace UpdateOp

variable {a b : UpdateOp}

theorem edit_eq_erase_iff {now : Int64} : a.edit now = .erase ↔ a.operand.1 = "$unset" := by
  cases a <;> simp [edit, operand]

theorem edited_comm (now : Int64) (h : ¬ Touches a.path.segments b.path.segments ∨
    (a.operand.1 = "$unset" ∧ b.operand.1 = "$unset")) (t : Unordered) :
    (a.edited now t).bind (b.edited now) = (b.edited now t).bind (a.edited now) := by
  unfold edited
  by_cases ha : a.path.head = "_id"
  · simp [ha]
  · by_cases hb : b.path.head = "_id"
    · simp [hb]
    · simp only [if_neg ha, if_neg hb]
      refine Edit.run_comm (h.imp_right fun h => ?_) t
      exact ⟨edit_eq_erase_iff.mpr h.1, edit_eq_erase_iff.mpr h.2⟩

theorem edited_edited_of_entry_eq (now : Int64) (h : a.entry = b.entry)
    (hinc : b.operand.1 ≠ "$inc") (t : Unordered) :
    (a.edited now t).bind (b.edited now) = b.edited now t := by
  obtain ⟨hname, hpath⟩ := Prod.mk.inj h
  unfold edited
  rw [hpath]
  by_cases hid : b.path.head = "_id"
  · simp [hid]
  · simp only [if_neg hid]
    refine Edit.run_run_self ?_ t
    cases a <;> cases b
    case unset.unset => exact .inl ⟨rfl, rfl⟩
    case set.set => exact .inr ⟨_, _, Value.unordered_ne_absent _, rfl, rfl⟩
    case currentDate.currentDate =>
      exact .inr ⟨_, .plain (.dateTime now), by simp, rfl, rfl⟩
    case inc.inc => exact absurd rfl hinc
    all_goals simp [operand] at hname

end UpdateOp

namespace Update

/-- Whether operations that touch each other have their entries in the same order, except for two
that take out fields and for those that replace an earlier one with the same entry. -/
def KeepsOrderOf (entries : List (String × Path)) (update : Update) : Prop :=
  update.Pairwise fun a b => Touches a.path.segments b.path.segments →
    entries.idxOf a.entry < entries.idxOf b.entry ∨
      (a.entry = b.entry ∧ b.operand.1 ≠ "$inc") ∨
      (a.operand.1 = "$unset" ∧ b.operand.1 = "$unset")

/-- Whether the document keeps the order of operations that touch each other. -/
def KeepsOrder (update : Update) : Prop :=
  update.KeepsOrderOf (update.regrouped.map UpdateOp.entry)

instance (update : Update) : Decidable update.KeepsOrder :=
  inferInstanceAs (Decidable (List.Pairwise _ update))

theorem keepsOrder_of_apart {update : Update}
    (h : update.Pairwise fun a b => ¬ Touches a.path.segments b.path.segments) :
    update.KeepsOrder :=
  h.imp fun hapart htouch => absurd htouch hapart

theorem edited_concat (now : Int64) {back : Update} {op : UpdateOp}
    (h : ∀ x ∈ back, ∀ t, (x.edited now t).bind (op.edited now) =
      (op.edited now t).bind (x.edited now)) (t : Unordered) :
    Update.edited now (back ++ [op]) t = Update.edited now (op :: back) t := by
  induction back generalizing t with
  | nil => rfl
  | cons x back ih =>
    obtain ⟨hx, hback⟩ := List.forall_mem_cons.mp h
    calc Update.edited now (x :: back ++ [op]) t
      _ = (x.edited now t).bind (Update.edited now (back ++ [op])) := rfl
      _ = (x.edited now t).bind (Update.edited now (op :: back)) := by
        congr 1
        funext t
        exact ih hback t
      _ = ((x.edited now t).bind (op.edited now)).bind (Update.edited now back) := by
        rw [Option.bind_assoc]
        rfl
      _ = ((op.edited now t).bind (x.edited now)).bind (Update.edited now back) := by rw [hx]
      _ = Update.edited now (op :: x :: back) t := by
        rw [Option.bind_assoc]
        rfl

theorem edited_append_congr {now : Int64} {front xs ys : Update}
    (h : ∀ t, Update.edited now xs t = Update.edited now ys t) (t : Unordered) :
    Update.edited now (front ++ xs) t = Update.edited now (front ++ ys) t := by
  rw [edited_append, edited_append]
  congr 1
  funext t
  exact h t

theorem edited_replace (now : Int64) {old op : UpdateOp} {back : Update}
    (hreplaces : ∀ t, (old.edited now t).bind (op.edited now) = op.edited now t)
    (hmove : ∀ t, Update.edited now (back ++ [op]) t = Update.edited now (op :: back) t)
    (t : Unordered) :
    Update.edited now (op :: back) t = Update.edited now (old :: back ++ [op]) t := by
  calc Update.edited now (op :: back) t
    _ = (op.edited now t).bind (Update.edited now back) := rfl
    _ = ((old.edited now t).bind (op.edited now)).bind (Update.edited now back) := by
      rw [hreplaces]
    _ = (old.edited now t).bind (Update.edited now (op :: back)) := by
      rw [Option.bind_assoc]
      rfl
    _ = (old.edited now t).bind (Update.edited now (back ++ [op])) := by
      congr 1
      funext t
      exact (hmove t).symm
    _ = Update.edited now (old :: back ++ [op]) t := rfl

variable {update : Update}

theorem idxOf_lt_of_sublist {α : Type} [BEq α] [LawfulBEq α] {xs front back : List α} {a b : α}
    (hn : xs.Nodup) (h : List.Sublist (front ++ a :: back) xs) (hb : b ∈ back) :
    xs.idxOf a < xs.idxOf b := by
  have hsorted : xs.Pairwise fun a b => xs.idxOf a < xs.idxOf b := by
    rw [List.pairwise_iff_getElem]
    intro i j hi hj hij
    rwa [hn.idxOf_getElem, hn.idxOf_getElem]
  exact List.rel_of_pairwise_cons (List.pairwise_append.mp (hsorted.sublist h)).2.1 hb

theorem edited_regrouped_of_sublist (now : Int64) {entries : List (String × Path)}
    (hn : entries.Nodup) (hpaths : ∀ op ∈ update, Path.ofString op.path.text = op.path)
    (hsub : List.Sublist (update.regrouped.map UpdateOp.entry) entries)
    (hkeeps : update.KeepsOrderOf entries) (t : Unordered) :
    Update.edited now update.regrouped t = Update.edited now update t := by
  -- On the operations, with the order of the whole document throughout.
  induction update using List.reverseRecOn generalizing t with
  | nil => rfl
  | append_singleton front last ih =>
    obtain ⟨hfront, hlast⟩ := List.forall_mem_append.mp hpaths
    have hop := hlast last (List.mem_singleton_self last)
    obtain ⟨hpairs, -, hpairs'⟩ := List.pairwise_append.mp hkeeps
    have hfrontlast (a : UpdateOp) (ha : a ∈ front) :=
      hpairs' a ha last (List.mem_singleton_self last)
    have ih := ih hfront ((sublist_regrouped_concat front hop).trans hsub) hpairs
    obtain ⟨before, after, hnew, hold⟩ := exists_regrouped_concat front hop
    have hcomm (x : UpdateOp) (hx : x ∈ after) (t : Unordered) :
        (x.edited now t).bind (last.edited now) = (last.edited now t).bind (x.edited now) := by
      refine UpdateOp.edited_comm now (or_iff_not_imp_left.mpr fun htouch => ?_) t
      have hmem : x ∈ front := by
        refine mem_of_mem_regrouped hfront ?_
        obtain ⟨hold, -⟩ | ⟨old, -, hold⟩ := hold <;> simp [hold, hx]
      have hlt : entries.idxOf last.entry < entries.idxOf x.entry := by
        rw [hnew, List.map_append, List.map_cons] at hsub
        exact idxOf_lt_of_sublist hn hsub (List.mem_map_of_mem hx)
      obtain hlt' | ⟨heq, -⟩ | hunset := hfrontlast x hmem (not_not.mp htouch)
      · exact absurd hlt' (Nat.lt_asymm hlt)
      · exact absurd (heq ▸ hlt) (Nat.lt_irrefl _)
      · exact hunset
    have hmove := edited_concat now hcomm
    rw [edited_append, ← ih, ← edited_append]
    obtain ⟨hold, -⟩ | ⟨old, hentry, hold⟩ := hold
    · rw [hnew, hold, List.append_assoc]
      exact (edited_append_congr hmove t).symm
    · -- the new operation undoes the old one, in whose place it comes
      have hmem : old ∈ front := mem_of_mem_regrouped hfront (by simp [hold])
      have hreplaces (t : Unordered) :
          (old.edited now t).bind (last.edited now) = last.edited now t := by
        have hpath : old.path = last.path := congrArg Prod.snd hentry
        have htouch : Touches old.path.segments last.path.segments :=
          hpath ▸ touches_self old.path.segments
        refine UpdateOp.edited_edited_of_entry_eq now hentry ?_ t
        obtain hlt | ⟨-, hinc⟩ | ⟨-, hunset⟩ := hfrontlast old hmem htouch
        · exact absurd (hentry ▸ hlt) (Nat.lt_irrefl _)
        · exact hinc
        · simp [hunset]
      rw [hnew, hold, List.append_assoc]
      exact edited_append_congr (edited_replace now hreplaces hmove) t

theorem edited_regrouped (now : Int64)
    (hpaths : ∀ op ∈ update, Path.ofString op.path.text = op.path) (h : update.KeepsOrder)
    (t : Unordered) : Update.edited now update.regrouped t = Update.edited now update t :=
  edited_regrouped_of_sublist now (nodup_map_entry_regrouped hpaths) hpaths
    (List.Sublist.refl _) h t

/-- The update and its document succeed on the same documents, with the same outcome up to the order
of keys. -/
theorem apply_regrouped (hupdate : ∀ op ∈ update, op.IsWellFormed) (h : update.KeepsOrder)
    (now : Int64) {d : Document} (hd : (Value.document d).hasDistinctKeys) :
    ((update.regrouped.apply now d).1 = .ok () ↔ (update.apply now d).1 = .ok ()) ∧
      ¬ DiffersOn now update d := by
  have hpaths (op : UpdateOp) (hop : op ∈ update) := (hupdate op hop).1
  have hvalues (op : UpdateOp) (hop : op ∈ update) := (hupdate op hop).2
  have hsame := edited_regrouped now hpaths h (Value.document d).unordered
  rw [edited_unordered hd hvalues, edited_unordered hd fun op hop =>
    hvalues op (mem_of_mem_regrouped hpaths hop)] at hsame
  refine ⟨?_, fun ⟨hok, hok', hne⟩ => hne ?_⟩
  · split at hsame <;> split at hsame <;> simp_all
  · rw [if_pos hok, if_pos hok'] at hsame
    exact Option.some.inj hsame

/-- Read as operations, the document of an update does not lose any exactly if no two have the same
entry. It comes to the same as the update if it keeps the order of operations that touch each other.
This has to be asked wherever one operation overrides another, and where numbers are added to one
field: with other values the same entries come to something else. -/
theorem regrouped_keeps_outcome (hupdate : ∀ op ∈ update, op.IsWellFormed) :
    (update.regrouped.Perm update ↔ (update.map UpdateOp.entry).Nodup) ∧
    (update.KeepsOrder → ∀ now d, (Value.document d).hasDistinctKeys →
      ((update.regrouped.apply now d).1 = .ok () ↔ (update.apply now d).1 = .ok ()) ∧
        ¬ DiffersOn now update d) ∧
    (∀ a ∈ update, ∀ b ∈ update, a.path.head ≠ "_id" → a.entry ≠ b.entry → a.Overrides b →
      ∃ a' b' : UpdateOp, a'.entry = a.entry ∧ b'.entry = b.entry ∧ a'.IsWellFormed ∧
        b'.IsWellFormed ∧ ∃ d, (Value.document d).hasDistinctKeys ∧
          ∀ now, DiffersOn now [a', b', a'] d ∧ DiffersOn now [b', a', b'] d) ∧
    ∀ a ∈ update, a.path.head ≠ "_id" → a.operand.1 = "$inc" →
      ∃ a' : UpdateOp, a'.entry = a.entry ∧ a'.IsWellFormed ∧
        ∃ d, (Value.document d).hasDistinctKeys ∧ ∀ now, DiffersOn now [a', a'] d := by
  refine ⟨?_, fun h now d hd => apply_regrouped hupdate h now hd, ?_, ?_⟩
  · exact regrouped_perm_iff fun op hop => (hupdate op hop).1
  · intro a ha b hb hid hne h
    exact exists_differsOn_of_overrides (hupdate a ha).1 (hupdate b hb).1 hid hne h
  · intro a ha hid hinc
    exact ⟨.inc a.path (.int32 1), Prod.ext hinc.symm rfl, ⟨(hupdate a ha).1, rfl⟩,
      exists_differsOn_of_inc (hupdate a ha).1 hid⟩

theorem regrouped_keeps_outcome_of_order_kept :
    Update.apply 0 [.unset ⟨"y", []⟩, .set ⟨"x", ["a"]⟩ (.int32 1), .unset ⟨"y", []⟩,
      .inc ⟨"x", ["a"]⟩ (.int32 1)] [("y", .null)] =
        (.ok (), [("x", .document [("a", .int32 2)])]) ∧
    ¬ DiffersOn 0 [.unset ⟨"y", []⟩, .set ⟨"x", ["a"]⟩ (.int32 1), .unset ⟨"y", []⟩,
      .inc ⟨"x", ["a"]⟩ (.int32 1)] [("y", .null)] := by
  refine ⟨rfl, ?_⟩
  exact ((regrouped_keeps_outcome (by decide)).2.1 (by decide) 0 _ (by decide)).2

/-- Of two numbers added to one field, only the second is left in the document. -/
theorem differsOn_of_two_numbers : DiffersOn 0
    [.inc ⟨"x", []⟩ (.int32 1), .inc ⟨"x", []⟩ (.int32 2)] [] := by
  have happly : Update.apply 0 [.inc ⟨"x", []⟩ (.int32 1), .inc ⟨"x", []⟩ (.int32 2)] [] =
      (.ok (), [("x", .int32 3)]) := rfl
  have hregrouped : (Update.regrouped [.inc ⟨"x", []⟩ (.int32 1), .inc ⟨"x", []⟩ (.int32 2)]).apply
      0 [] = (.ok (), [("x", .int32 2)]) := rfl
  refine ⟨by rw [happly], by rw [hregrouped], fun h => ?_⟩
  rw [happly, hregrouped] at h
  have hx := congrFun (Unordered.document.inj (by simpa using h)) "x"
  simp [Value.unorderedFields, Value.unordered] at hx

end Update

end Docbase
