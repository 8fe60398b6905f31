import Docbase.Proofs.Number.Position
import Docbase.Proofs.Update.Regrouping
import Mathlib.Data.List.Pairwise

namespace Docbase

variable {p q : List String}

theorem eq_of_alikeSegments {s t : String} (hs : Number.isPadded s = false)
    (ht : Number.isPadded t = false) (h : AlikeSegments s t) : s = t := by
  obtain heq | ⟨i, hi, hi'⟩ := h
  · exact heq
  · exact Number.eq_of_index?_eq hi hi' hs ht

theorem prefix_or_prefix_of_touches (hp : ∀ s ∈ p, Number.isPadded s = false)
    (hq : ∀ s ∈ q, Number.isPadded s = false) (h : Touches p q) : p <+: q ∨ q <+: p := by
  induction p generalizing q with
  | nil => exact .inl List.nil_prefix
  | cons s p ih =>
    cases q with
    | nil => exact .inr List.nil_prefix
    | cons t q =>
      obtain ⟨hs, hrest⟩ := List.forall_mem_cons.mp hp
      obtain ⟨ht, hrest'⟩ := List.forall_mem_cons.mp hq
      have heq : s = t := eq_of_alikeSegments hs ht h.1
      exact (ih hrest hrest' h.2).imp (fun h => List.cons_prefix_cons.mpr ⟨heq, h⟩)
        fun h => List.cons_prefix_cons.mpr ⟨heq.symm, h⟩

namespace Update

variable {update other : Update} {now : Int64}

theorem edited_perm (hperm : List.Perm other update)
    (hcomm : ∀ a ∈ update, ∀ b ∈ update, ∀ t, (a.edited now t).bind (b.edited now) =
      (b.edited now t).bind (a.edited now)) (t : Unordered) :
    Update.edited now other t = Update.edited now update t := by
  induction hperm generalizing t with
  | nil => rfl
  | cons op hperm ih =>
    rw [edited, edited]
    congr 1
    funext t
    exact ih (fun a ha b hb => hcomm a (by simp [ha]) b (by simp [hb])) t
  | swap a b rest =>
    have hab := hcomm a (by simp) b (by simp) t
    calc Update.edited now (b :: a :: rest) t
      _ = ((b.edited now t).bind (a.edited now)).bind (Update.edited now rest) := by
        rw [Option.bind_assoc]
        rfl
      _ = ((a.edited now t).bind (b.edited now)).bind (Update.edited now rest) := by rw [hab]
      _ = Update.edited now (a :: b :: rest) t := by
        rw [Option.bind_assoc]
        rfl
  | trans hperm hperm' ih ih' =>
    rw [ih fun a ha b hb => hcomm a (hperm'.mem_iff.mp ha) b (hperm'.mem_iff.mp hb), ih' hcomm]

/-- Whether no path is another one or goes on from it. -/
def KeepsApart (update : Update) : Prop :=
  update.Pairwise fun a b =>
    ¬ a.path.segments <+: b.path.segments ∧ ¬ b.path.segments <+: a.path.segments

instance (update : Update) : Decidable update.KeepsApart :=
  inferInstanceAs (Decidable (List.Pairwise _ update))

theorem edited_comm_of_keepsApart (happart : update.KeepsApart)
    (hplain : ∀ op ∈ update, ∀ s ∈ op.path.segments, Number.isPadded s = false)
    {a b : UpdateOp} (ha : a ∈ update) (hb : b ∈ update) (t : Unordered) :
    (a.edited now t).bind (b.edited now) = (b.edited now t).bind (a.edited now) := by
  by_cases hab : a = b
  · rw [hab]
  · have : Std.Symm fun a b : UpdateOp =>
        ¬ a.path.segments <+: b.path.segments ∧ ¬ b.path.segments <+: a.path.segments :=
      ⟨fun _ _ => And.symm⟩
    obtain ⟨hnot, hnot'⟩ := happart.forall ha hb hab
    refine UpdateOp.edited_comm now (.inl fun htouch => ?_) t
    exact (prefix_or_prefix_of_touches (hplain a ha) (hplain b hb) htouch).elim hnot hnot'

/-- Operations on fields none of which lies in another may come in any order: they succeed on the
same documents, and lead to the same up to the order of keys. -/
theorem independent_operations_commute (hperm : List.Perm other update)
    (hapart : update.KeepsApart)
    (hplain : ∀ op ∈ update, ∀ s ∈ op.path.segments, Number.isPadded s = false)
    (hvalues : ∀ op ∈ update, op.operand.2.hasDistinctKeys) (now : Int64) {d : Document}
    (hd : (Value.document d).hasDistinctKeys) :
    ((other.apply now d).1 = .ok () ↔ (update.apply now d).1 = .ok ()) ∧
      ((update.apply now d).1 = .ok () → (Value.document (other.apply now d).2).unordered =
        (Value.document (update.apply now d).2).unordered) := by
  have hsame : Update.edited now other (Value.document d).unordered =
      Update.edited now update (Value.document d).unordered :=
    edited_perm hperm (fun a ha b hb => edited_comm_of_keepsApart hapart hplain ha hb) _
  have hvalues' (op : UpdateOp) (hop : op ∈ other) : op.operand.2.hasDistinctKeys :=
    hvalues op (hperm.mem_iff.mp hop)
  rw [edited_unordered hd hvalues, edited_unordered hd hvalues'] at hsame
  constructor
  · split at hsame <;> split at hsame <;> simp_all
  · intro hok
    rw [if_pos hok] at hsame
    split at hsame
    next => exact Option.some.inj hsame
    next => cases hsame

theorem independent_operations_commute_of_grades :
    Update.apply 0 [.set ⟨"a", ["b"]⟩ (.int32 1), .currentDate ⟨"a", ["c"]⟩,
      .inc ⟨"grades", ["0", "n"]⟩ (.int32 2)]
        [("a", .null), ("grades", .array [.document [("n", .int32 5)]])] =
      (.ok (), [("a", .document [("b", .int32 1), ("c", .dateTime 0)]),
        ("grades", .array [.document [("n", .int32 7)]])]) ∧
    (Value.document (Update.apply 0 [.inc ⟨"grades", ["0", "n"]⟩ (.int32 2),
      .currentDate ⟨"a", ["c"]⟩, .set ⟨"a", ["b"]⟩ (.int32 1)]
        [("a", .null), ("grades", .array [.document [("n", .int32 5)]])]).2).unordered =
      (Value.document [("a", .document [("b", .int32 1), ("c", .dateTime 0)]),
        ("grades", .array [.document [("n", .int32 7)]])]).unordered := by
  have hd : (Value.document [("a", .null),
      ("grades", .array [.document [("n", .int32 5)]])]).hasDistinctKeys := by decide
  have hperm := List.reverse_perm [UpdateOp.set ⟨"a", ["b"]⟩ (.int32 1),
    .currentDate ⟨"a", ["c"]⟩, .inc ⟨"grades", ["0", "n"]⟩ (.int32 2)]
  refine ⟨rfl, ?_⟩
  exact (independent_operations_commute hperm (by decide) (by decide) (by decide) 0 hd).2 rfl

end Update

end Docbase
