import Docbase.Criteria
import Docbase.Proofs.Filter.Connective

namespace Docbase.Criteria

/-- Whether the document satisfies the criteria; without a filter every document does. -/
def accepts (c : Criteria) (d : Document) : Bool := c.filter.all (·.accepts d)

/-- A step that changes which documents satisfy the criteria. -/
inductive Step where
  | restrict (f : Filter)
  | widen (f : Filter)
  | negate

namespace Step

def apply (c : Criteria) : Step → Criteria
  | restrict f => c.and f
  | widen f => c.or f
  | negate => c.not

def connect (d : Document) (truth : Bool) : Step → Bool
  | restrict f => truth && f.accepts d
  | widen f => truth || f.accepts d
  | negate => !truth

end Step

def compose (c : Criteria) (steps : List Step) : Criteria := steps.foldl Step.apply c

variable (c : Criteria)

theorem select_eq_filter_accepts (docs : List Document) :
    Query.select c.filter docs = docs.filter c.accepts := by
  obtain ⟨filter, sort, window⟩ := c
  cases filter with
  | none => exact (List.filter_eq_self.mpr fun _ _ => rfl).symm
  | some f => rfl

/-- One step. Without a filter there is nothing to extend: what restricts takes the place of the
filter, what widens changes nothing, and the negation is that of the empty conjunction. -/
theorem accepts_apply (d : Document) (step : Step) :
    (step.apply c).accepts d = step.connect d (c.accepts d) := by
  obtain ⟨filter, sort, window⟩ := c
  cases filter with
  | none => cases step <;> simp [Step.apply, Step.connect, accepts, and, or, not]
  | some f => cases step <;> simp [Step.apply, Step.connect, accepts, and, or, not]

theorem exists_apply_eq (step : Step) : ∃ filter, step.apply c = { c with filter } := by
  obtain ⟨current, sort, window⟩ := c
  cases step with
  | restrict f | widen f => cases current <;> exact ⟨_, rfl⟩
  | negate => exact ⟨_, rfl⟩

theorem accepts_compose (d : Document) (steps : List Step) :
    (c.compose steps).accepts d = steps.foldl (Step.connect d) (c.accepts d) := by
  induction steps generalizing c with
  | nil => rfl
  | cons step steps ih =>
    calc (c.compose (step :: steps)).accepts d
      _ = steps.foldl (Step.connect d) ((step.apply c).accepts d) := ih (step.apply c)
      _ = (step :: steps).foldl (Step.connect d) (c.accepts d) := by
        rw [accepts_apply, List.foldl_cons]

theorem exists_compose_eq (steps : List Step) : ∃ filter, c.compose steps = { c with filter } := by
  induction steps generalizing c with
  | nil => exact ⟨c.filter, rfl⟩
  | cons step steps ih =>
    obtain ⟨filter, hstep⟩ := exists_apply_eq c step
    obtain ⟨filter', hsteps⟩ := ih (step.apply c)
    refine ⟨filter', hsteps.trans ?_⟩
    rw [hstep]

/-- The documents that satisfy criteria built up step by step are those for which the connectives,
applied in turn to the truth of the start and that of the predicates, come out true. The order and
the window are those of the start. -/
theorem composes_connectives (steps : List Step) :
    (∀ d, (c.compose steps).accepts d = steps.foldl (Step.connect d) (c.accepts d)) ∧
    (∀ docs, Query.select (c.compose steps).filter docs =
      docs.filter fun d => steps.foldl (Step.connect d) (c.accepts d)) ∧
    (c.compose steps).sort = c.sort ∧ (c.compose steps).window = c.window := by
  have haccepts : (c.compose steps).accepts =
      fun d => steps.foldl (Step.connect d) (c.accepts d) :=
    funext fun d => accepts_compose c d steps
  obtain ⟨filter, hframe⟩ := exists_compose_eq c steps
  refine ⟨congrFun haccepts, fun docs => ?_, ?_, ?_⟩
  · rw [select_eq_filter_accepts, haccepts]
  · rw [hframe]
  · rw [hframe]

end Docbase.Criteria
