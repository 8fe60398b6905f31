import Docbase.Proofs.Number.Width
import Docbase.Proofs.Update
import Mathlib.Data.List.Induction
import Mathlib.Data.List.Infix

namespace Docbase

open Number (FitsIn)

namespace Value

def isInteger : Value → Bool
  | int32 _ | int64 _ => true
  | _ => false

def isInt32 : Value → Bool
  | int32 _ => true
  | _ => false

def amount : Value → Int
  | int32 n => n.toInt
  | int64 n => n.toInt
  | _ => 0

variable {v : Value}

theorem isInteger_iff : v.isInteger ↔ (∃ n, v = .int32 n) ∨ ∃ n, v = .int64 n := by
  cases v <;> simp [isInteger]

theorem null_amount_add (v : Value) : null.amount + v.amount = v.amount := Int.zero_add _

theorem fitsIn_amount (v : Value) : FitsIn 64 v.amount := by
  cases v with
  | int32 n => exact (Number.fitsIn_int32 n).widen
  | int64 n => exact Number.fitsIn_int64 n
  | _ => simp [FitsIn, amount]

theorem fitsIn_amount_of_isInt32 (h : v.isInt32) : FitsIn 32 v.amount := by
  cases v <;> cases h
  exact Number.fitsIn_int32 _

end Value

namespace UpdateOp

variable {current start delta sum : Value} {front deltas : List Value} {n : Int}

theorem exists_wide (h : FitsIn 64 n) :
    ∃ m, (Number.int64? n).map Value.int64 = some (.int64 m) ∧ m.toInt = n := by
  obtain ⟨m, hm, hmn⟩ := Number.int64?_of_fitsIn h
  exact ⟨m, by rw [hm, Option.map_some], hmn⟩

theorem exists_sum?_of_fitsIn (hcurrent : current.isInteger) (hdelta : delta.isInteger)
    (h : FitsIn 64 (current.amount + delta.amount)) :
    ∃ sum, sum? current delta = some sum ∧ sum.isInteger ∧
      sum.amount = current.amount + delta.amount ∧
      (sum.isInt32 ↔ current.isInt32 ∧ delta.isInt32 ∧
        FitsIn 32 (current.amount + delta.amount)) := by
  rw [Value.isInteger_iff] at hcurrent hdelta
  obtain ⟨a, rfl⟩ | ⟨a, rfl⟩ := hcurrent
  · obtain ⟨b, rfl⟩ | ⟨b, rfl⟩ := hdelta
    · simp only [Value.amount] at h ⊢
      by_cases hnarrow : FitsIn 32 (a.toInt + b.toInt)
      · obtain ⟨m, hm, hsum⟩ := Number.int32?_of_fitsIn hnarrow
        exact ⟨.int32 m, by rw [sum?, hm], rfl, hsum, by simp [Value.isInt32, hnarrow]⟩
      · refine ⟨_, by rw [sum?, Number.int32?_eq_none hnarrow], rfl, ?_, ?_⟩
        · exact Int64.toInt_ofInt_of_le h.1 h.2
        · simp [Value.isInt32, hnarrow]
    · obtain ⟨m, hsum, hm⟩ := exists_wide h
      exact ⟨.int64 m, hsum, rfl, hm, by simp [Value.isInt32]⟩
  · obtain ⟨m, hsum, hm⟩ := exists_wide h
    refine ⟨.int64 m, ?_, rfl, hm, by simp [Value.isInt32]⟩
    obtain ⟨b, rfl⟩ | ⟨b, rfl⟩ := hdelta <;> exact hsum

theorem sum?_eq_none (hcurrent : current.isInteger) (hdelta : delta.isInteger)
    (h : ¬ FitsIn 64 (current.amount + delta.amount)) : sum? current delta = none := by
  have hwide : (Number.int64? (current.amount + delta.amount)).map Value.int64 = none := by
    rw [Number.int64?_eq_none h, Option.map_none]
  rw [Value.isInteger_iff] at hcurrent hdelta
  obtain ⟨a, rfl⟩ | ⟨a, rfl⟩ := hcurrent
  · obtain ⟨b, rfl⟩ | ⟨b, rfl⟩ := hdelta
    · -- two numbers of 32 bits never need more than 64
      have ha := Number.fitsIn_int32 a
      have hb := Number.fitsIn_int32 b
      simp only [FitsIn, Value.amount] at ha hb h
      omega
    · exact hwide
  · obtain ⟨b, rfl⟩ | ⟨b, rfl⟩ := hdelta <;> exact hwide

theorem sum?_null (hdelta : delta.isInteger) : sum? .null delta = some delta := by
  obtain ⟨n, rfl⟩ | ⟨n, rfl⟩ := Value.isInteger_iff.mp hdelta <;> rfl

def total (start : Value) (deltas : List Value) : Int :=
  deltas.foldl (fun n delta => n + delta.amount) start.amount

theorem total_nil (start : Value) : total start [] = start.amount := rfl

theorem total_concat (start : Value) (front : List Value) (delta : Value) :
    total start (front ++ [delta]) = total start front + delta.amount := by
  rw [total, List.foldl_append]
  rfl

/-- All sums on the way to the last fit into so many bits. -/
def SumsFitIn (bits : Nat) (start : Value) (deltas : List Value) : Prop :=
  ∀ front, front <+: deltas → FitsIn bits (total start front)

instance (bits : Nat) (start : Value) (deltas : List Value) :
    Decidable (SumsFitIn bits start deltas) :=
  decidable_of_iff (∀ front ∈ deltas.inits, FitsIn bits (total start front))
    (by simp only [SumsFitIn, List.mem_inits])

theorem sumsFitIn_nil {bits : Nat} : SumsFitIn bits start [] ↔ FitsIn bits start.amount := by
  simp only [SumsFitIn, List.prefix_nil, forall_eq, total_nil]

theorem sumsFitIn_concat {bits : Nat} : SumsFitIn bits start (front ++ [delta]) ↔
    SumsFitIn bits start front ∧ FitsIn bits (total start (front ++ [delta])) := by
  simp only [SumsFitIn, List.prefix_concat_iff, forall_eq_or_imp]
  exact and_comm

/-- What integers that are added to a start one by one come to. It has 32 bits as long as nothing
that went into it needs more. -/
structure IsSum (start : Value) (deltas : List Value) (sum : Value) : Prop where
  integer : sum.isInteger
  amount : sum.amount = total start deltas
  int32 : sum.isInt32 ↔ (start = .null ∨ start.isInt32) ∧ (∀ delta ∈ deltas, delta.isInt32) ∧
    SumsFitIn 32 start deltas

theorem isSum_nil (hstart : start.isInteger) : IsSum start [] start where
  integer := hstart
  amount := (total_nil start).symm
  int32 := by
    have hne : start ≠ .null := by
      rintro rfl
      cases hstart
    rw [or_iff_right hne, sumsFitIn_nil]
    exact ⟨fun h => ⟨h, nofun, Value.fitsIn_amount_of_isInt32 h⟩, fun h => h.1⟩

theorem isSum_null (hdelta : delta.isInteger) : IsSum .null [delta] delta where
  integer := hdelta
  amount := by rw [← List.nil_append [delta], total_concat, total_nil, Value.null_amount_add]
  int32 := by
    rw [← List.nil_append [delta], sumsFitIn_concat, sumsFitIn_nil, total_concat, total_nil,
      Value.null_amount_add]
    have hnull : FitsIn 32 Value.null.amount := by simp [FitsIn, Value.amount]
    simpa [hnull] using Value.fitsIn_amount_of_isInt32

theorem IsSum.concat {sum' : Value} (h : IsSum start front sum) (hinteger : sum'.isInteger)
    (hamount : sum'.amount = sum.amount + delta.amount)
    (hint32 : sum'.isInt32 ↔ sum.isInt32 ∧ delta.isInt32 ∧
      FitsIn 32 (sum.amount + delta.amount)) : IsSum start (front ++ [delta]) sum' where
  integer := hinteger
  amount := by rw [hamount, h.amount, total_concat]
  int32 := by
    rw [hint32, h.int32, h.amount, sumsFitIn_concat, total_concat]
    simp only [List.forall_mem_append, List.forall_mem_singleton]
    tauto

theorem exists_isSum (hstart : start.isInteger ∨ start = .null ∧ deltas ≠ [])
    (hdeltas : ∀ delta ∈ deltas, delta.isInteger) (h : SumsFitIn 64 start deltas) :
    ∃ sum, deltas.foldlM sum? start = some sum ∧ IsSum start deltas sum := by
  induction deltas using List.reverseRecOn with
  | nil =>
    have hinteger : start.isInteger := hstart.resolve_right fun hnil => hnil.2 rfl
    exact ⟨start, rfl, isSum_nil hinteger⟩
  | append_singleton front delta ih =>
    obtain ⟨hfront, hdelta⟩ := List.forall_mem_append.mp hdeltas
    have hlast : delta.isInteger := hdelta delta (by simp)
    by_cases hfirst : start = .null ∧ front = []
    · obtain ⟨rfl, rfl⟩ := hfirst
      refine ⟨delta, ?_, isSum_null hlast⟩
      rw [List.nil_append, List.foldlM_cons, sum?_null hlast]
      rfl
    · obtain ⟨hfits, hfit⟩ := sumsFitIn_concat.mp h
      obtain ⟨sum, hsum, hbetween⟩ := ih (by tauto) hfront hfits
      rw [total_concat, ← hbetween.amount] at hfit
      obtain ⟨sum', hsum', hinteger, hamount, hint32⟩ :=
        exists_sum?_of_fitsIn hbetween.integer hlast hfit
      refine ⟨sum', ?_, hbetween.concat hinteger hamount hint32⟩
      rw [List.foldlM_append, hsum]
      change [delta].foldlM sum? sum = some sum'
      rw [List.foldlM_cons, hsum']
      rfl

theorem exists_first_of_not_sumsFitIn {bits : Nat} (hstart : FitsIn bits start.amount)
    (h : ¬ SumsFitIn bits start deltas) : ∃ front delta rest, deltas = front ++ delta :: rest ∧
      SumsFitIn bits start front ∧ ¬ FitsIn bits (total start (front ++ [delta])) := by
  induction deltas using List.reverseRecOn with
  | nil => exact absurd (sumsFitIn_nil.mpr hstart) h
  | append_singleton begin last ih =>
    by_cases hbegin : SumsFitIn bits start begin
    · exact ⟨begin, last, [], rfl, hbegin, fun hlast => h (sumsFitIn_concat.mpr ⟨hbegin, hlast⟩)⟩
    · obtain ⟨front, delta, rest, rfl, hfits, hfirst⟩ := ih hbegin
      exact ⟨front, delta, rest ++ [last], by simp, hfits, hfirst⟩

end UpdateOp

namespace Document

def Reaches (d : Document) (p : Path) : Prop := p.head ≠ "_id" ∧ ∃ d', d.alter .ok p = .ok d'

theorem Reaches.held_eq {d : Document} {p : Path} (h : d.Reaches p) :
    d.held p = (d.lookup p).headD .null :=
  held_eq_of_reached h.2.choose_spec

end Document

namespace UpdateOp

variable {now : Int64} {p : Path} {d d' : Document} {v delta sum : Value}

theorem reaches_of_apply_set (h : (set p v).apply now d = .ok d') : d.Reaches p := by
  have hp : p.head ≠ "_id" := head_ne_of_apply h
  have halter : d.alter ((set p v).replacement now) p = .ok d' := (if_neg hp).symm.trans h
  exact ⟨hp, Document.exists_alter_of_reached halter rfl⟩

theorem apply_inc_of_sum (hreach : d.Reaches p) (hsum : sum? (d.held p) delta = some sum) :
    ∃ d', (inc p delta).apply now d = .ok d' ∧ d'.lookup p = [sum] ∧ d'.Reaches p := by
  obtain ⟨hp, d₀, hd₀⟩ := hreach
  have hnew : (inc p delta).replacement now (d.held p) = .ok sum := by rw [replacement, hsum]
  obtain ⟨d', hd'⟩ := Document.exists_alter_of_reached hd₀ hnew
  obtain ⟨-, new, hnew', hlookup, -⟩ := Document.reads_of_alter hd'
  cases hnew.symm.trans hnew'
  refine ⟨d', (if_neg hp).trans hd', hlookup, hp, ?_⟩
  exact Document.exists_alter_alter hd' fun v => ⟨v, rfl⟩

theorem apply_inc_of_none (hreach : d.Reaches p) (hnone : sum? (d.held p) delta = none) :
    (inc p delta).apply now d = .error (.notNumeric p.text) ∧
      ((inc p delta).remains d).lookup p = [d.held p] := by
  obtain ⟨hp, d', hd'⟩ := hreach
  have herror : (inc p delta).replacement now (d.held p) = .error (.notNumeric p.text) := by
    rw [replacement, hnone]
  obtain ⟨-, new, hnew, hlookup, -⟩ := Document.reads_of_alter hd'
  cases hnew
  refine ⟨(if_neg hp).trans (Document.alter_eq_error_of_reached hd' herror), ?_⟩
  have hremains : (inc p delta).remains d = d' := by
    simp only [remains, path, if_neg hp, hd']
  exact hremains ▸ hlookup

end UpdateOp

namespace Update

open UpdateOp

variable {now : Int64} {p : Path} {d d' d₀ : Document} {v start sum delta : Value}
  {front deltas : List Value}

theorem apply_append {front rest : Update} (h : Update.apply now front d = (.ok (), d')) :
    Update.apply now (front ++ rest) d = Update.apply now rest d' := by
  induction front generalizing d with
  | nil =>
    cases h
    rfl
  | cons op front ih =>
    rw [Update.apply] at h
    rw [List.cons_append, Update.apply]
    cases hop : op.apply now d with
    | ok between =>
      rw [hop] at h
      exact ih h
    | error e =>
      rw [hop] at h
      cases h

/-- Increments of one place add up there. -/
theorem apply_incs (hreach : d.Reaches p) (h : deltas.foldlM sum? (d.held p) = some sum) :
    ∃ d', Update.apply now (deltas.map (.inc p)) d = (.ok (), d') ∧ d'.Reaches p ∧
      d'.held p = sum ∧ (deltas ≠ [] → d'.lookup p = [sum]) := by
  induction deltas using List.reverseRecOn generalizing sum with
  | nil =>
    cases h
    exact ⟨d, rfl, hreach, rfl, fun hne => absurd rfl hne⟩
  | append_singleton front delta ih =>
    rw [List.foldlM_append] at h
    obtain ⟨sum₁, hfront, hlast⟩ := Option.bind_eq_some_iff.mp h
    obtain ⟨d₁, happly, hreach₁, rfl, -⟩ := ih hfront
    rw [List.foldlM_cons] at hlast
    obtain ⟨sum₂, hsum, hnil⟩ := Option.bind_eq_some_iff.mp hlast
    cases hnil
    obtain ⟨d₂, hinc, hlookup, hreach₂⟩ := apply_inc_of_sum hreach₁ hsum
    refine ⟨d₂, ?_, hreach₂, ?_, fun _ => hlookup⟩
    · rw [List.map_append, apply_append happly, List.map_singleton, Update.apply, hinc]
      rfl
    · rw [hreach₂.held_eq, hlookup]
      rfl

/-- Increments by integers add up exactly as long as the sums fit into 64 bits, and fail at the
first that does not. -/
theorem increments_add_up (hreach : (UpdateOp.set p v).apply now d = .ok d₀)
    (hlookup : d.lookup p = [start] ∨ d.lookup p = [] ∧ start = .null)
    (hstart : start = .null ∨ start.isInteger) (hne : deltas ≠ [])
    (hdeltas : ∀ delta ∈ deltas, delta.isInteger) :
    (SumsFitIn 64 start deltas → ∃ d' sum,
      Update.apply now (deltas.map (.inc p)) d = (.ok (), d') ∧ d'.lookup p = [sum] ∧
      IsSum start deltas sum) ∧
    (¬ SumsFitIn 64 start deltas → ∃ front delta rest between left sum,
      deltas = front ++ delta :: rest ∧ SumsFitIn 64 start front ∧
      ¬ FitsIn 64 (total start (front ++ [delta])) ∧
      Update.apply now (front.map (.inc p)) d = (.ok (), between) ∧
      Update.apply now (deltas.map (.inc p)) d = (.error (.notNumeric p.text), left) ∧
      left.lookup p = [sum] ∧ IsSum start front sum) := by
  have hreaches : d.Reaches p := reaches_of_apply_set hreach
  have hheld : d.held p = start := by
    rw [hreaches.held_eq]
    obtain hlookup | ⟨hlookup, rfl⟩ := hlookup <;> rw [hlookup] <;> rfl
  constructor
  · intro hfits
    have hfirst : start.isInteger ∨ start = .null ∧ deltas ≠ [] :=
      hstart.symm.imp_right fun hnull => ⟨hnull, hne⟩
    obtain ⟨sum, hsum, hexact⟩ := exists_isSum hfirst hdeltas hfits
    obtain ⟨d', happly, -, -, hfound⟩ := apply_incs hreaches (hheld ▸ hsum)
    exact ⟨d', sum, happly, hfound hne, hexact⟩
  · intro hover
    obtain ⟨front, delta, rest, rfl, hfits, hfirst⟩ :=
      exists_first_of_not_sumsFitIn start.fitsIn_amount hover
    obtain ⟨hfront, hdelta⟩ := List.forall_mem_append.mp hdeltas
    -- `null` takes any first integer
    have hbefore : start.isInteger ∨ start = .null ∧ front ≠ [] := by
      refine hstart.symm.imp_right fun hnull => ⟨hnull, ?_⟩
      rintro rfl
      rw [hnull, total_concat, total_nil, Value.null_amount_add] at hfirst
      exact hfirst delta.fitsIn_amount
    obtain ⟨sum, hsum, hexact⟩ := exists_isSum hbefore hfront hfits
    obtain ⟨between, happly, hreaches', hheld', -⟩ := apply_incs hreaches (hheld ▸ hsum)
    rw [total_concat, ← hexact.amount] at hfirst
    have hnone : sum? (between.held p) delta = none :=
      hheld' ▸ sum?_eq_none hexact.integer (hdelta delta (by simp)) hfirst
    obtain ⟨herror, hleft⟩ := apply_inc_of_none hreaches' hnone
    refine ⟨front, delta, rest, between, (inc p delta).remains between, sum, rfl, hfits, ?_,
      happly, ?_, hheld' ▸ hleft, hexact⟩
    · rwa [total_concat, ← hexact.amount]
    · rw [List.map_append, apply_append happly, List.map_cons, Update.apply, herror]

theorem increments_add_up_past_32_bits :
    ∃ d' sum, Update.apply 0 [.inc ⟨"stats", ["n"]⟩ (.int32 1), .inc ⟨"stats", ["n"]⟩ (.int32 (-1))]
        [("stats", .document [("n", .int32 2147483647)])] = (.ok (), d') ∧
      d'.lookup ⟨"stats", ["n"]⟩ = [sum] ∧ sum.amount = 2147483647 ∧ ¬ sum.isInt32 := by
  have hreach : (UpdateOp.set ⟨"stats", ["n"]⟩ .null).apply 0
      [("stats", .document [("n", .int32 2147483647)])] =
      .ok [("stats", .document [("n", .null)])] := by rfl
  have hfits : SumsFitIn 64 (.int32 2147483647) [.int32 1, .int32 (-1)] := by decide
  have hwide : ¬ SumsFitIn 32 (.int32 2147483647) [.int32 1, .int32 (-1)] := by decide
  obtain ⟨d', sum, happly, hlookup, hsum⟩ :=
    (increments_add_up hreach (.inl rfl) (.inr rfl)
      (by simp) (by decide)).1 hfits
  exact ⟨d', sum, happly, hlookup, hsum.amount, fun h => hwide (hsum.int32.mp h).2.2⟩

end Update

end Docbase
