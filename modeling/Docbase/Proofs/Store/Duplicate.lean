import Docbase.Proofs.Store.Calls
import Docbase.Proofs.Value.Telling

namespace Docbase

/-- Whether a member of the batch is related to one before it, or to one that was there already. -/
def Clash (R : Value → Value → Prop) (present batch : List Value) : Prop :=
  ∃ front v rest, batch = front ++ v :: rest ∧ ∃ w ∈ present ++ front, R v w

namespace Clash

variable {R S : Value → Value → Prop} {present batch : List Value}

theorem not_nil : ¬Clash R present [] := by
  rintro ⟨front, v, rest, hsplit, -⟩
  simp at hsplit

theorem cons_iff {v : Value} :
    Clash R present (v :: batch) ↔ (∃ w ∈ present, R v w) ∨ Clash R (v :: present) batch := by
  constructor
  · rintro ⟨front, u, rest, hsplit, w, hw, hR⟩
    cases front with
    | nil =>
      obtain ⟨rfl, rfl⟩ := List.cons_eq_cons.mp hsplit
      exact .inl ⟨w, by simpa using hw, hR⟩
    | cons c front =>
      obtain ⟨rfl, rfl⟩ := List.cons_eq_cons.mp hsplit
      exact .inr ⟨front, u, rest, rfl, w, by simpa [or_left_comm] using hw, hR⟩
  · rintro (⟨w, hw, hR⟩ | ⟨front, u, rest, rfl, w, hw, hR⟩)
    · exact ⟨[], v, batch, rfl, w, by simpa using hw, hR⟩
    · exact ⟨v :: front, u, rest, rfl, w, by simpa [or_left_comm] using hw, hR⟩

theorem congr (h : ∀ v ∈ present ++ batch, ∀ w ∈ present ++ batch, R v w ↔ S v w) :
    Clash R present batch ↔ Clash S present batch := by
  have himp : ∀ {R S : Value → Value → Prop},
      (∀ v ∈ present ++ batch, ∀ w ∈ present ++ batch, R v w → S v w) →
      Clash R present batch → Clash S present batch := by
    rintro R S h ⟨front, v, rest, rfl, w, hw, hR⟩
    refine ⟨front, v, rest, rfl, w, hw, h v (by simp) w ?_ hR⟩
    obtain hw | hw := List.mem_append.mp hw <;> simp [hw]
  exact ⟨himp fun v hv w hw => (h v hv w hw).mp, himp fun v hv w hw => (h v hv w hw).mpr⟩

end Clash

theorem Entry.firstDuplicate?_isSome_iff {present : List Value}
    {batch : List (Value × Document)} :
    (firstDuplicate? (present.map Value.display) (batch.map ofIdentified)).isSome ↔
      Clash Value.SameText present (batch.map Prod.fst) := by
  induction batch generalizing present with
  | nil => simp [firstDuplicate?, Clash.not_nil]
  | cons p batch ih =>
    have hfirst : p.1.display ∈ present.map Value.display ↔ ∃ w ∈ present, p.1.SameText w := by
      simp [Value.SameText, eq_comm]
    rw [List.map_cons, List.map_cons, firstDuplicate?, Clash.cons_iff, ← hfirst, ← ih]
    by_cases h : p.1.display ∈ present.map Value.display <;> simp [ofIdentified, h]

namespace Store

variable {s : Store}

def identities (s : Store) (name : String) : List Value :=
  (s.documents name).filterMap (·.get? "_id")

/-- The identities of the documents of a batch, the new ones among them. -/
def batchIdentities (newId : Nat → ObjectId) (docs : List Document) : List Value :=
  docs.zipIdx.map fun (d, i) => (d.get? "_id").getD (.objectId (newId i))

/-- Whether the store does not insert the batch, because of a duplicate key. -/
def RefusesBatch (s : Store) (newId : Nat → ObjectId) (docs : List Document) (name : String) : Prop :=
  ∃ key, (s.insertMany newId docs name).1 = .error (.duplicateKey key name)

theorem map_display_identities (h : s.IsFiled) (name : String) :
    (s.identities name).map Value.display = (s.entries name).map Entry.key := by
  have htexts := Entry.idTexts_of_isFiled (h.allFiled name).filed
  rw [← htexts, identities, documents, List.map_filterMap]
  rfl

theorem map_fst_identify (newId : Nat → ObjectId) (docs : List Document) :
    (docs.zipIdx.map fun (d, i) => Entry.identify (newId i) d).map Prod.fst =
      batchIdentities newId docs := by
  rw [List.map_map, batchIdentities]
  apply List.map_congr_left
  rintro ⟨d, i⟩ -
  simp only [Function.comp, Entry.identify]
  cases d.get? "_id" <;> rfl

theorem IsFiled.refusesBatch_iff (h : s.IsFiled) (newId : Nat → ObjectId) (docs : List Document)
    (name : String) : s.RefusesBatch newId docs name ↔
      Clash Value.SameText (s.identities name) (batchIdentities newId docs) := by
  rw [← map_fst_identify, ← Entry.firstDuplicate?_isSome_iff, map_display_identities h]
  unfold RefusesBatch Store.insertMany
  simp only [entries_create]
  cases hdup : Entry.firstDuplicate? ((s.entries name).map Entry.key)
      ((docs.zipIdx.map fun (d, i) => Entry.identify (newId i) d).map Entry.ofIdentified) with
  | none => simp
  | some e => simp

/-- The store refuses just the batches with an identity that agrees with another one, as long as all
identities belong to the family. -/
def FindsEqual (P : Value → Prop) : Prop :=
  ∀ {ops s}, Reachable ops s → ∀ newId docs name,
    (∀ v ∈ s.identities name ++ batchIdentities newId docs, P v) →
    (s.RefusesBatch newId docs name ↔
      Clash (fun v w => v.agrees w) (s.identities name) (batchIdentities newId docs))

theorem refuses_second_iff (v w : Value) : ∃ s : Store, Reachable [] s ∧
    s.identities "c" = [w] ∧ ∀ newId, batchIdentities newId [[("_id", v)]] = [v] := by
  have hfiled : Entry.AllFiled [⟨w.display, [("_id", w)]⟩] :=
    ⟨by simpa using ⟨w, rfl, rfl⟩, by simp⟩
  obtain ⟨s, hs, hentries⟩ := exists_reachable [] "c" hfiled
  refine ⟨s, hs, ?_, fun newId => rfl⟩
  rw [identities, documents, hentries]
  rfl

theorem clash_singletons_iff {R : Value → Value → Prop} {v w : Value} :
    Clash R [w] [v] ↔ R v w := by
  rw [Clash.cons_iff]
  simp [Clash.not_nil]

theorem findsEqual_iff (P : Value → Prop) :
    FindsEqual P ↔ ∀ v w, P v → P w → (v.agrees w ↔ v.SameText w) := by
  constructor
  · intro h v w hv hw
    obtain ⟨s, hs, hstored, hbatch⟩ := refuses_second_iff v w
    obtain ⟨newId⟩ : Nonempty (Nat → ObjectId) := ⟨fun _ => ⟨0⟩⟩
    have hall : ∀ u ∈ s.identities "c" ++ batchIdentities newId [[("_id", v)]], P u := by
      rw [hstored, hbatch]
      simp [hv, hw]
    have hagrees := h hs newId [[("_id", v)]] "c" hall
    rw [hs.isFiled.refusesBatch_iff, hstored, hbatch, clash_singletons_iff,
      clash_singletons_iff] at hagrees
    exact hagrees.symm
  · intro h ops s hs newId docs name hall
    rw [hs.isFiled.refusesBatch_iff]
    exact Clash.congr fun v hv w hw => (h v w (hall v hv) (hall w hw)).symm

/-- A batch is refused exactly when two texts of identities are the same. That decides whether two
identities are equal if all are telling, and on just the families in which the text says as much as
queries see. -/
theorem finds_duplicates_by_text {ops : List Operator} {s : Store} (hs : Reachable ops s)
    (newId : Nat → ObjectId) (docs : List Document) (name : String) :
    (s.RefusesBatch newId docs name ↔
      Clash Value.SameText (s.identities name) (batchIdentities newId docs)) ∧
    ((∀ v ∈ s.identities name ++ batchIdentities newId docs, v.Telling) →
      (s.RefusesBatch newId docs name ↔
        Clash (fun v w => v.agrees w) (s.identities name) (batchIdentities newId docs))) ∧
    ∀ P, FindsEqual P ↔ ∀ v w, P v → P w → (v.agrees w ↔ v.SameText w) := by
  refine ⟨hs.isFiled.refusesBatch_iff newId docs name, ?_, findsEqual_iff⟩
  intro htelling
  have hfinds : FindsEqual Value.Telling := by
    rw [findsEqual_iff]
    intro v w hv hw
    exact hv.agrees_iff hw
  exact hfinds hs newId docs name htelling

/-- Equal lists of numbers in equal documents, whatever the widths of the numbers. -/
theorem finds_duplicates_by_text_of_widths :
    let a : Value := .document [("a", .array [.int32 1, .string "x"])]
    let b : Value := .document [("a", .array [.double ⟨0x3FF0000000000000⟩, .string "x"])]
    let s : Store := Store.after {} (.insertMany (fun _ => ⟨0⟩) [[("_id", a)]] "c")
    Reachable [] s ∧ (∀ v ∈ [a, b], v.Telling) ∧ s.RefusesBatch (fun _ => ⟨0⟩) [[("_id", b)]] "c" := by
  intro a b s
  have hs : Reachable [] s := .after _ .empty
  have hstored : s.identities "c" = [a] := by rfl
  have hbatch : batchIdentities (fun _ => ⟨0⟩) [[("_id", b)]] = [b] := by rfl
  have hitems : ∀ {n : Value} {m : Number}, n.number? = some m → m.IsExact →
      (Value.document [("a", .array [n, .string "x"])]).Legible := by
    intro n m hn hm
    have hlist : (Value.array [n, .string "x"]).Legible := .array (by
      simpa using ⟨.number hn hm, .string (by decide)⟩)
    exact .document (by simp) (by simpa using hlist)
  have htelling : ∀ v ∈ [a, b], v.Telling := by
    simp only [List.forall_mem_cons, List.not_mem_nil, false_imp_iff, implies_true, and_true]
    exact ⟨.legible (hitems rfl (by decide)), .legible (hitems rfl (by decide +kernel))⟩
  obtain ⟨-, hequal, -⟩ := finds_duplicates_by_text hs (fun _ => ⟨0⟩) [[("_id", b)]] "c"
  rw [hstored, hbatch, clash_singletons_iff] at hequal
  exact ⟨hs, htelling, (hequal htelling).mpr (by decide +kernel)⟩

/-- Two documents that are not equal have one text, so the second is refused. -/
theorem refuses_of_quotes :
    let a : Value := .document [("a", .string "1"), ("b", .string "2")]
    let b : Value := .document [("a", .string "1\", \"b\": \"2")]
    let s : Store := Store.after {} (.insertMany (fun _ => ⟨0⟩) [[("_id", a)]] "c")
    Reachable [] s ∧ s.RefusesBatch (fun _ => ⟨0⟩) [[("_id", b)]] "c" ∧
      ¬ Clash (fun v w => v.agrees w) (s.identities "c")
        (batchIdentities (fun _ => ⟨0⟩) [[("_id", b)]]) := by
  intro a b s
  have hs : Reachable [] s := .after _ .empty
  have hstored : s.identities "c" = [a] := by rfl
  have hbatch : batchIdentities (fun _ => ⟨0⟩) [[("_id", b)]] = [b] := by rfl
  rw [hs.isFiled.refusesBatch_iff, hstored, hbatch, clash_singletons_iff, clash_singletons_iff]
  exact ⟨hs, by decide +kernel, by decide +kernel⟩

end Store

end Docbase
