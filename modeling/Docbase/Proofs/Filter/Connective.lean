import Docbase.Filter.Matching

namespace Docbase.Filter

variable (d : Document)

theorem acceptsAll_eq_all (fs : List Filter) : acceptsAll d fs = fs.all (accepts d) := by
  induction fs with
  | nil => rfl
  | cons f fs ih => rw [acceptsAll, ih, List.all_cons]

theorem acceptsAny_eq_any (fs : List Filter) : acceptsAny d fs = fs.any (accepts d) := by
  induction fs with
  | nil => rfl
  | cons f fs ih => rw [acceptsAny, ih, List.any_cons]

@[simp]
theorem accepts_all (fs : List Filter) : (all fs).accepts d = fs.all (accepts d) := by
  rw [accepts, acceptsAll_eq_all]

@[simp]
theorem accepts_any (fs : List Filter) : (any fs).accepts d = fs.any (accepts d) := by
  rw [accepts, acceptsAny_eq_any]

@[simp]
theorem accepts_and (f g : Filter) : (f.and g).accepts d = (f.accepts d && g.accepts d) := by
  unfold Filter.and
  split <;> simp

@[simp]
theorem accepts_or (f g : Filter) : (f.or g).accepts d = (f.accepts d || g.accepts d) := by
  unfold Filter.or
  split <;> simp

@[simp]
theorem accepts_not (f : Filter) : f.not.accepts d = !f.accepts d := by
  rw [Filter.not, accepts]

end Docbase.Filter
