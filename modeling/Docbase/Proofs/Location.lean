import Docbase.Proofs.Document
import Docbase.Proofs.Path

namespace Docbase

/-- A step into a value: to a field of a document or to an element of an array. -/
inductive Step where
  | key (k : String)
  | index (i : Nat)
  deriving DecidableEq

abbrev Location := List Step

namespace Value

def child? : Value → Step → Option Value
  | .document fields, .key k => Document.get? fields k
  | .array items, .index i => items[i]?
  | _, _ => none

def at? (v : Value) : Location → Option Value
  | [] => some v
  | step :: rest => (v.child? step).bind fun c => c.at? rest

/-- The step that a segment of a path stands for: in arrays a number is a position. -/
def stepTo (v : Value) (s : String) : Step :=
  match v, Number.index? s with
  | .array _, some i => .index i
  | _, _ => .key s

/-- The location that segments lead to, where something may be missing. -/
def locate (v : Value) : List String → Location
  | [] => []
  | s :: rest => v.stepTo s :: ((v.child? (v.stepTo s)).getD .null).locate rest

variable {v c : Value} {step : Step} {loc rest : Location} {s : String} {segments : List String}

@[simp]
theorem at?_nil (v : Value) : v.at? [] = some v := rfl

theorem at?_cons : v.at? (step :: rest) = (v.child? step).bind fun c => c.at? rest := rfl

theorem stepTo_of_ne_array (h : ∀ items, v ≠ .array items) : v.stepTo s = .key s := by
  unfold stepTo
  split
  next items _ _ => exact absurd rfl (h items)
  next => rfl

theorem stepTo_array {i : Nat} {items : List Value} (h : Number.index? s = some i) :
    (array items).stepTo s = .index i := by
  simp only [stepTo, h]

theorem locate_cons : v.locate (s :: segments) =
    v.stepTo s :: ((v.child? (v.stepTo s)).getD .null).locate segments := rfl

theorem children_eq_toList_child? (h : ∀ items, v = .array items → Number.index? s ≠ none) :
    v.children s = (v.child? (v.stepTo s)).toList := by
  cases v with
  | array items =>
    obtain ⟨i, hi⟩ := Option.ne_none_iff_exists'.mp (h items rfl)
    rw [children_array_of_index hi, stepTo_array hi]
    rfl
  | _ => rfl

/-- What stands at the end of segments, where what is missing counts as `null`. -/
def held (v : Value) (segments : List String) : Value := (v.at? (v.locate segments)).getD .null

theorem held_null (segments : List String) : null.held segments = .null := by
  cases segments <;> rfl

theorem held_cons : v.held (s :: segments) = ((v.child? (v.stepTo s)).getD .null).held segments := by
  rw [held, locate_cons, at?_cons]
  cases v.child? (v.stepTo s) with
  | none => exact (held_null segments).symm
  | some c => rfl

/-- How a value may change on the way to a place below it: a document keeps its keys as `keeps` says,
an array its length, and only `null` becomes something else, a document. -/
inductive KeepsShape (keeps : List String → List String → Prop) : Value → Value → Prop
  | same (v : Value) : KeepsShape keeps v v
  | document {fields fields' : Document} (h : keeps fields.keys fields'.keys) :
    KeepsShape keeps (.document fields) (.document fields')
  | array {items items' : List Value} (h : items'.length = items.length) :
    KeepsShape keeps (.array items) (.array items')
  | opened (fields : Document) : KeepsShape keeps .null (.document fields)

/-- What becomes of a value when only what one step leads to changes, into `c`. -/
structure ChangesAt (keeps : List String → List String → Prop) (step : Step) (c : Option Value)
    (v v' : Value) : Prop where
  child : v'.child? step = c
  other : ∀ other, other ≠ step → v'.child? other = v.child? other
  shape : KeepsShape keeps v v'

variable {keeps : List String → List String → Prop} {fields : Document} {items : List Value}
  {child item : Value} {k : String} {i : Nat}

theorem changesAt_set (h : i < items.length) :
    ChangesAt keeps (.index i) (some item) (array items) (array (items.set i item)) where
  child := List.getElem?_set_self h
  other other hother := by
    cases other with
    | key k => rfl
    | index j =>
      have hij : i ≠ j := fun heq => hother (congrArg Step.index heq.symm)
      exact List.getElem?_set_ne hij
  shape := .array List.length_set

theorem changesAt_insert (h : keeps fields.keys (fields.insert k child).keys) :
    ChangesAt keeps (.key k) (some child) (document fields) (document (fields.insert k child)) where
  child := (fields.get?_insert k k child).trans (if_pos rfl)
  other other hother := by
    cases other with
    | index i => rfl
    | key l => exact fields.get?_insert_of_ne fun heq => hother (congrArg Step.key heq.symm)
  shape := .document h

/-- What stays as it is when a value changes at one location: all that is neither on the way to it
nor inside it, and the shape of what is on the way. -/
structure Frame (keeps : List String → List String → Prop) (target : Location) (v v' : Value) :
    Prop where
  elsewhere : ∀ loc, ¬ loc <+: target → ¬ target <+: loc → v'.at? loc = v.at? loc
  shape : ∀ loc w, ¬ target <+: loc → v.at? loc = some w →
    ∃ w', v'.at? loc = some w' ∧ KeepsShape keeps w w'

namespace Frame

variable {target : Location} {v' : Value} {left : Option Value}

theorem here (v v' : Value) : Frame keeps [] v v' where
  elsewhere _ _ h := absurd List.nil_prefix h
  shape _ _ h := absurd List.nil_prefix h

theorem refl (target : Location) (v : Value) : Frame keeps target v v where
  elsewhere _ _ _ := rfl
  shape _ w _ h := ⟨w, h, .same w⟩

end Frame

end Value

end Docbase
