import Docbase.Proofs.Document
import Docbase.Proofs.Value.Equality
import Mathlib.Logic.Function.Basic

namespace Docbase

/-- A value with the fields of its documents in no order. -/
inductive Unordered where
  | absent
  | plain (v : Value)
  | array (items : List Unordered)
  | document (fields : String → Unordered)

namespace Value

mutual

/-- What is left of the value without the order of keys. -/
def unordered : Value → Unordered
  | .array items => .array (unorderedItems items)
  | .document fields => .document (unorderedFields fields)
  | v => .plain v

def unorderedItems : List Value → List Unordered
  | [] => []
  | v :: rest => v.unordered :: unorderedItems rest

def unorderedFields : List (String × Value) → String → Unordered
  | [], _ => .absent
  | (k, v) :: rest, key => if k = key then v.unordered else unorderedFields rest key

end

@[simp]
theorem unordered_null : unordered .null = .plain .null := by simp [unordered]

@[simp]
theorem unordered_document (fields : Document) :
    (document fields).unordered = .document (unorderedFields fields) := by rw [unordered]

theorem unorderedItems_eq_map (items : List Value) :
    unorderedItems items = items.map unordered := by
  induction items with
  | nil => rfl
  | cons v rest ih => rw [unorderedItems, ih, List.map_cons]

@[simp]
theorem unordered_array (items : List Value) :
    (array items).unordered = .array (items.map unordered) := by
  rw [unordered, unorderedItems_eq_map]

theorem unordered_ne_absent (v : Value) : v.unordered ≠ .absent := by
  cases v <;> simp [unordered]

variable {fields : Document} {key : String} {v : Value}

theorem unorderedFields_eq (fields : Document) (key : String) :
    unorderedFields fields key = ((fields.get? key).map unordered).getD .absent := by
  induction fields with
  | nil => rfl
  | cons field rest ih =>
    obtain ⟨k, v⟩ := field
    rw [unorderedFields, Document.get?_cons, ih]
    split <;> rfl

theorem unorderedFields_insert : unorderedFields (fields.insert key v) =
    Function.update (unorderedFields fields) key v.unordered := by
  funext k
  rw [unorderedFields_eq, Document.get?_insert]
  by_cases hk : k = key
  · simp [hk]
  · rw [if_neg (Ne.symm hk), Function.update_of_ne hk, unorderedFields_eq]

theorem unorderedFields_erase (h : fields.keys.Nodup) : unorderedFields (fields.erase key) =
    Function.update (unorderedFields fields) key .absent := by
  funext k
  by_cases hk : k = key
  · rw [hk, unorderedFields_eq, Document.get?_erase_self _ h, Function.update_self]
    rfl
  · rw [unorderedFields_eq, Document.get?_erase_of_ne _ (Ne.symm hk), Function.update_of_ne hk,
      unorderedFields_eq]

end Value

end Docbase
