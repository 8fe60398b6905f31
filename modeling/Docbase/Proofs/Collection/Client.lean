import Docbase.Collection
import Docbase.Proofs.Store.Calls

namespace Docbase

namespace Collection

inductive Write where
  | updateMany (now : Int64) (filter : Option Filter) (update : Update)
  | replaceOne (filter : Filter) (replacement : Document)
  | deleteMany (filter : Option Filter)

namespace Write

def filter : Write → Option Filter
  | updateMany _ filter _ => filter
  | replaceOne filter _ => some filter
  | deleteMany filter => filter

/-- How many of the documents that the filter selects are concerned. -/
def limit : Write → Option UInt64
  | replaceOne .. => some 1
  | _ => none

def on (f : Filter) : Write → Write
  | updateMany now _ update => updateMany now (some f) update
  | replaceOne _ replacement => replaceOne f replacement
  | deleteMany _ => deleteMany (some f)

def call (name : String) : Write → Store.Call
  | updateMany now filter update => .updateMany now filter update name
  | replaceOne filter replacement => .replaceOne filter replacement name
  | deleteMany filter => .deleteMany filter name

@[simp]
theorem name_call (w : Write) (name : String) : (w.call name).name = name := by cases w <;> rfl

end Write

/-- The store after the write, whether it succeeded or failed. -/
def after (c : Collection) (s : Store) : Write → Store
  | .updateMany now filter update => (c.updateMany now filter update s).2
  | .replaceOne filter replacement => (c.replaceOne filter replacement s).2
  | .deleteMany filter => c.deleteMany filter s

theorem after_of_native {c : Collection} {s : Store} {w : Write} (h : native s w.filter) :
    c.after s w = s.after (w.call c.name) := by
  cases w with
  | updateMany now filter update => exact congrArg Prod.snd (if_pos h)
  | replaceOne filter replacement => exact congrArg Prod.snd (if_pos h)
  | deleteMany filter => exact if_pos h

theorem after_of_not_native {c : Collection} {s : Store} {w : Write} (h : ¬ native s w.filter) :
    c.after s w = match c.selection? s w.filter w.limit with
      | some f => s.after ((w.on f).call c.name)
      | none => s := by
  cases w with
  | updateMany now filter update =>
    refine (congrArg Prod.snd (if_neg h)).trans ?_
    dsimp only [Write.filter, Write.limit]
    cases c.selection? s filter none <;> rfl
  | replaceOne filter replacement =>
    refine (congrArg Prod.snd (if_neg h)).trans ?_
    dsimp only [Write.filter, Write.limit]
    cases c.selection? s (some filter) (some 1) <;> rfl
  | deleteMany filter =>
    refine (if_neg h).trans ?_
    dsimp only [Write.filter, Write.limit]
    cases c.selection? s filter none <;> rfl

end Collection

/-- A client that makes one write on a collection. -/
structure Client where
  collection : Collection
  write : Collection.Write

inductive Client.Stage where
  | started
  /-- The client has read the collection and chosen documents; the filter names their identities. -/
  | chosen (f : Filter)
  | finished

namespace Client

def native (c : Client) (s : Store) : Bool := Collection.native s c.write.filter

/-- The identities of the documents that the client chooses when it reads the collection. -/
def selected (c : Client) (s : Store) : List Value :=
  (Query.run { filter := c.write.filter, limit := c.write.limit }
    (s.find {} c.collection.name)).filterMap (·.get? "_id")

def choose (c : Client) (s : Store) : Stage :=
  match c.collection.selection? s c.write.filter c.write.limit with
  | some f => .chosen f
  | none => .finished

def step (c : Client) (s : Store) : Stage → Store × Stage
  | .started =>
    if c.native s then (s.after (c.write.call c.collection.name), .finished) else (s, c.choose s)
  | .chosen f => (s.after ((c.write.on f).call c.collection.name), .finished)
  | .finished => (s, .finished)

/-- The store after the calls that are left to a client, two at most. -/
def finish (c : Client) (s : Store) (p : Stage) : Store :=
  (c.step (c.step s p).1 (c.step s p).2).1

/-- `Interleaves a b s p q s'`: the calls that are left to the clients `a` and `b`, at the stages `p`
and `q`, lead in some order from the store `s` to `s'`. -/
inductive Interleaves (a b : Client) : Store → Stage → Stage → Store → Prop where
  | finished (s : Store) : Interleaves a b s .finished .finished s
  | first {s p q s'} (hp : p ≠ .finished)
      (h : Interleaves a b (a.step s p).1 (a.step s p).2 q s') : Interleaves a b s p q s'
  | second {s p q s'} (hq : q ≠ .finished)
      (h : Interleaves a b (b.step s q).1 p (b.step s q).2 s') : Interleaves a b s p q s'

def run (c : Client) (s : Store) : Store := c.collection.after s c.write

def read (c : Client) (s : Store) : Stage → Stage
  | .started => if c.native s then .started else c.choose s
  | p => p

/-- The store `s` after the write of a client that chose the documents from the store `seen`. -/
def late (c : Client) (seen s : Store) : Store := c.finish s (c.read seen .started)

variable {a b c : Client} {s s' : Store} {p q : Stage}

theorem choose_ne_started (c : Client) (s : Store) : c.choose s ≠ .started := by
  rw [choose]
  split <;> simp

@[simp]
theorem finish_finished : c.finish s .finished = s := by simp only [finish, step]

theorem finish_of_ne_started (h : p ≠ .started) : c.finish s p = (c.step s p).1 := by
  cases p with
  | started => exact absurd rfl h
  | chosen | finished => rfl

theorem read_of_ne_started (h : p ≠ .started) : c.read s p = p := by
  cases p with
  | started => exact absurd rfl h
  | chosen | finished => rfl

theorem step_cases (c : Client) (s : Store) (p : Stage) :
    c.step s p = (c.finish s p, .finished) ∨
      c.step s p = (s, c.read s p) ∧ c.read s p ≠ .started := by
  cases p with
  | started =>
    by_cases h : c.native s
    · refine .inl ?_
      simp only [finish, step, if_pos h]
    · refine .inr ?_
      simp only [step, read, if_neg h]
      exact ⟨trivial, c.choose_ne_started s⟩
  | chosen f => exact .inl rfl
  | finished => exact .inl rfl

@[simp]
theorem finish_read (c : Client) (s : Store) (p : Stage) : c.finish s (c.read s p) = c.finish s p := by
  cases p with
  | started =>
    by_cases h : c.native s
    · rw [read, if_pos h]
    · have hlast : c.finish s (c.choose s) = (c.step s (c.choose s)).1 :=
        finish_of_ne_started (c.choose_ne_started s)
      rw [read, if_neg h, hlast]
      simp only [finish, step, if_neg h]
  | chosen | finished => rfl

theorem finish_started_of_native (h : c.native s) :
    c.finish s .started = s.after (c.write.call c.collection.name) := by
  simp only [finish, step, if_pos h]

theorem finish_started_of_not_native (h : ¬ c.native s) :
    c.finish s .started = c.finish s (c.choose s) := by
  rw [← finish_read, read, if_neg h]

theorem finish_choose (c : Client) (seen s : Store) : c.finish s (c.choose seen) =
    match c.collection.selection? seen c.write.filter c.write.limit with
    | some f => s.after ((c.write.on f).call c.collection.name)
    | none => s := by
  rw [choose]
  cases c.collection.selection? seen c.write.filter c.write.limit <;> rfl

theorem finish_started (c : Client) (s : Store) : c.finish s .started = c.run s := by
  by_cases h : c.native s
  · rw [finish_started_of_native h, run, Collection.after_of_native h]
  · rw [finish_started_of_not_native h, finish_choose, run, Collection.after_of_not_native h]

/-- What two clients can make of a store together: the one finishes before the other makes its next
call, or the other has read before and finishes then. -/
def Outcome (a b : Client) (s : Store) (p q : Stage) (s' : Store) : Prop :=
  s' = b.finish (a.finish s p) q ∨ s' = a.finish (b.finish s q) p ∨
    s' = b.finish (a.finish s p) (b.read s q) ∨ s' = a.finish (b.finish s q) (a.read s p)

theorem Outcome.swap (h : Outcome a b s p q s') : Outcome b a s q p s' := by
  obtain h | h | h | h := h
  · exact .inr (.inl h)
  · exact .inl h
  · exact .inr (.inr (.inr h))
  · exact .inr (.inr (.inl h))

/-- A call leads to nothing that could not be had before it. -/
theorem outcome_of_step (h : Outcome a b (a.step s p).1 (a.step s p).2 q s') :
    Outcome a b s p q s' := by
  obtain hstep | ⟨hstep, hread⟩ := a.step_cases s p
  · -- `a` is through, so all that is left is what `b` does
    rw [hstep] at h
    simp only [Outcome, read_of_ne_started (p := .finished) (by simp), finish_finished, finish_read,
      or_self] at h
    exact .inl h
  · rw [hstep] at h
    simp only [Outcome, finish_read, read_of_ne_started hread] at h
    obtain h | h | h | h := h
    · exact .inl h
    · exact .inr (.inr (.inr h))
    · exact .inr (.inr (.inl h))
    · exact .inr (.inr (.inr h))

theorem outcome_of_interleaves (h : Interleaves a b s p q s') : Outcome a b s p q s' := by
  induction h with
  | finished s => exact .inl rfl
  | first _ _ ih => exact outcome_of_step ih
  | second _ _ ih => exact (outcome_of_step ih.swap).swap

theorem Interleaves.swap (h : Interleaves a b s p q s') : Interleaves b a s q p s' := by
  induction h with
  | finished s => exact .finished s
  | first hp _ ih => exact .second hp ih
  | second hq _ ih => exact .first hq ih

theorem interleaves_of_finish (h : Interleaves a b (a.finish s p) .finished q s') :
    Interleaves a b s p q s' := by
  have hlast : ∀ p, p ≠ .started → Interleaves a b (a.finish s p) .finished q s' →
      Interleaves a b s p q s' := by
    intro p hp h
    cases p with
    | started => exact absurd rfl hp
    | chosen f => exact .first (by simp) h
    | finished => exact h
  cases p with
  | started =>
    refine .first (by simp) ?_
    obtain hstep | ⟨hstep, hread⟩ := a.step_cases s .started
    · rw [hstep]
      exact h
    · rw [hstep]
      exact hlast _ hread (by rwa [finish_read])
  | chosen f => exact hlast _ (by simp) h
  | finished => exact h

theorem interleaves_one_by_one (a b : Client) (s : Store) (p q : Stage) :
    Interleaves a b s p q (b.finish (a.finish s p) q) :=
  interleaves_of_finish (interleaves_of_finish (.finished _)).swap

theorem interleaves_late (a b : Client) (s : Store) (p q : Stage) :
    Interleaves a b s p q (b.finish (a.finish s p) (b.read s q)) := by
  by_cases hq : b.read s q = q
  · rw [hq]
    exact interleaves_one_by_one a b s p q
  · cases q with
    | started =>
      refine .second (by simp) ?_
      have hnative : ¬ b.native s := fun h => hq (by rw [read, if_pos h])
      have hstep : b.step s .started = (s, b.read s .started) := by
        simp only [step, read, if_neg hnative]
      rw [hstep]
      exact interleaves_one_by_one a b s p _
    | chosen | finished => exact absurd rfl hq

theorem interleaves_iff_outcome : Interleaves a b s p q s' ↔ Outcome a b s p q s' := by
  constructor
  · exact outcome_of_interleaves
  · rintro (rfl | rfl | rfl | rfl)
    · exact interleaves_one_by_one a b s p q
    · exact (interleaves_one_by_one b a s q p).swap
    · exact interleaves_late a b s p q
    · exact (interleaves_late b a s q p).swap

/-- From the start, one client makes its whole write and then the other, or the other has chosen its
documents before. -/
theorem interleaves_iff : Interleaves a b s .started .started s' ↔
    s' = b.run (a.run s) ∨ s' = a.run (b.run s) ∨
      s' = b.late s (a.run s) ∨ s' = a.late s (b.run s) := by
  rw [interleaves_iff_outcome, Outcome]
  simp only [finish_started, late]

end Client

end Docbase
