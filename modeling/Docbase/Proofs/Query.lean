import Docbase.Proofs.Sorting
import Docbase.Store

namespace Docbase.Query

theorem select_eq_filter (filter : Option Filter) (docs : List Document) :
    select filter docs = docs.filter (selects filter) := by
  cases filter with
  | none => exact (List.filter_eq_self.mpr fun _ _ => rfl).symm
  | some f => rfl

theorem run_unpaged (q : Query) (docs : List Document) :
    q.unpaged.run docs = SortKey.sort q.sort (docs.filter (selects q.filter)) := by
  rw [← select_eq_filter]
  rfl

/-- The window on a list holds what stands at its places, counted from the first that is not
skipped. -/
theorem getElem?_window (skip limit : Option UInt64) (docs : List Document) (i : Nat) :
    (window skip limit docs)[i]? =
      if limit.all (i < ·.toNat) then docs[(skip.map UInt64.toNat).getD 0 + i]? else none := by
  unfold window
  cases limit with
  | none => simp [List.getElem?_drop]
  | some n => simp [List.getElem?_take, List.getElem?_drop]

theorem run_eq_window (q : Query) (docs : List Document) :
    q.run docs = window q.skip q.limit (q.unpaged.run docs) := rfl

/-- Without its window a query finds the one stable sort of the documents that the filter accepts,
and with it those among them that stand in the window. -/
theorem run_isStableSort (q : Query) (docs : List Document) :
    (∀ found, SortKey.IsStableSort q.sort (docs.filter fun d => q.filter.all (·.accepts d)) found ↔
      found = q.unpaged.run docs) ∧
    ∀ i, (q.run docs)[i]? =
      if q.limit.all (i < ·.toNat) then
        (q.unpaged.run docs)[(q.skip.map UInt64.toNat).getD 0 + i]?
      else none := by
  refine ⟨fun found => ?_, fun i => ?_⟩
  · rw [run_unpaged]
    exact SortKey.isStableSort_iff q.sort _
  · rw [run_eq_window]
    exact getElem?_window q.skip q.limit _ i

end Docbase.Query
