import Docbase.Proofs.Sorting

namespace Docbase.SortKey

def turned (key : SortKey) : SortKey := ⟨key.path, key.direction.reversed⟩

theorem valueOf_turned {key : SortKey} {d : Document} (h : (key.choices d).length ≤ 1) :
    key.turned.valueOf d = key.valueOf d := by
  have hpath : key.turned.path = key.path := rfl
  unfold choices at h
  unfold valueOf
  rw [hpath]
  cases hvalues : (d.lookup key.path).flatMap spread with
  | nil => rfl
  | cons v rest =>
    obtain rfl : rest = [] := by simpa [hvalues] using h
    rfl

theorem compareBy_turned {key : SortKey} {a b : Document} (ha : (key.choices a).length ≤ 1)
    (hb : (key.choices b).length ≤ 1) : key.turned.compareBy a b = (key.compareBy a b).swap := by
  have hdirection : key.turned.direction = key.direction.reversed := rfl
  unfold compareBy
  rw [hdirection, valueOf_turned ha, valueOf_turned hb]
  cases key.direction <;> exact (Value.order_swap _ _).symm

theorem compareByAll_turned {keys : List SortKey} {a b : Document}
    (ha : ∀ key ∈ keys, (key.choices a).length ≤ 1)
    (hb : ∀ key ∈ keys, (key.choices b).length ≤ 1) :
    compareByAll (keys.map turned) a b = (compareByAll keys a b).swap := by
  induction keys with
  | nil => rfl
  | cons key keys ih =>
    rw [List.map_cons, compareByAll, compareByAll, Ordering.swap_then,
      compareBy_turned (ha key (by simp)) (hb key (by simp)),
      ih (fun k hk => ha k (by simp [hk])) fun k hk => hb k (by simp [hk])]

end Docbase.SortKey
