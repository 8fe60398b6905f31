import Docbase.Path
import Mathlib.Data.List.Basic

namespace Docbase

namespace Text

variable {separator : Char}

theorem splitAt_append (cs ds : List Char) :
    splitAt separator (cs ++ separator :: ds) =
      ((splitAt separator cs).1, (splitAt separator cs).2 ++ pieces separator ds) := by
  induction cs with
  | nil => simp [splitAt, pieces]
  | cons c cs ih =>
    by_cases hc : c = separator
    · simp [splitAt, ih, hc]
    · simp [splitAt, ih, hc]

theorem splitAt_of_not_mem {cs : List Char} (h : separator ∉ cs) :
    splitAt separator cs = (cs, []) := by
  induction cs with
  | nil => rfl
  | cons c cs ih =>
    obtain ⟨hc, hcs⟩ := not_or.mp (mt List.mem_cons.mpr h)
    simp [splitAt, ih hcs, Ne.symm hc]

theorem join_splitAt (separator : Char) (cs : List Char) :
    (splitAt separator cs).1 ++ (splitAt separator cs).2.flatMap (separator :: ·) = cs := by
  induction cs with
  | nil => rfl
  | cons c cs ih =>
    by_cases hc : c = separator
    · simpa [splitAt, hc] using ih
    · simpa [splitAt, hc] using ih

end Text

namespace Path

theorem ofString_dot (s t : String) : ofString (s ++ "." ++ t) = ofString s ++ ofString t := by
  change Path.mk _ _ = append _ _
  simp [append, ofString, String.toList_append, Text.splitAt_append, Text.pieces]

theorem ofString_of_not_mem {s : String} (h : '.' ∉ s.toList) : ofString s = ⟨s, []⟩ := by
  simp [ofString, Text.splitAt_of_not_mem h]

theorem splitLast?_ofString_dot (s : String) {t : String} (h : '.' ∉ t.toList) :
    (ofString (s ++ "." ++ t)).splitLast? = some (ofString s, t) := by
  rw [ofString_dot, ofString_of_not_mem h]
  change splitLast? ⟨_, (ofString s).tail ++ [t]⟩ = _
  simp [splitLast?]

theorem chars_ofString (s : String) : (ofString s).chars = s.toList := by
  refine Eq.trans ?_ (Text.join_splitAt '.' s.toList)
  simp [chars, ofString, List.flatMap_map]

theorem text_ofString (s : String) : (ofString s).text = s := by
  rw [text, chars_ofString, String.ofList_toList]

theorem exists_of_splitLast?_ofString {s name : String} {p : Path}
    (h : (ofString s).splitLast? = some (p, name)) :
    ∃ front, s = front ++ "." ++ name ∧ p = ofString front := by
  by_cases hdot : '.' ∈ s.toList
  · obtain ⟨behind, front, hs, hbehind⟩ :=
      List.eq_append_cons_of_mem (List.mem_reverse.mpr hdot)
    have hs : s = String.ofList front.reverse ++ "." ++ String.ofList behind.reverse := by
      rw [← String.toList_inj, ← List.reverse_inj, hs]
      simp [String.toList_append]
    rw [hs, splitLast?_ofString_dot _ (by simpa using hbehind)] at h
    obtain ⟨rfl, rfl⟩ := Prod.mk.inj (Option.some.inj h)
    exact ⟨_, hs, rfl⟩
  · rw [ofString_of_not_mem hdot] at h
    cases h

end Path

namespace Value

def children (s : String) : Value → List Value
  | .document fields => (Document.get? fields s).toList
  | .array items =>
    match Number.index? s with
    | some i => items[i]?.toList
    | none => items.filterMap (·.field? s)
  | _ => []

variable {s : String} {items : List Value} {v w : Value}

theorem follow_cons (s : String) (rest : List String) (v : Value) :
    follow (s :: rest) v = (v.children s).flatMap (follow rest) := by
  cases v with
  | array items =>
    rw [follow, children]
    cases Number.index? s <;> rfl
  | document fields => rw [follow, children]
  | _ => rfl

theorem children_array_of_index {i : Nat} (h : Number.index? s = some i) :
    (array items).children s = items[i]?.toList := by
  simp only [children, h]

theorem mem_children_array_of_name (h : Number.index? s = none) :
    w ∈ (array items).children s ↔ ∃ v ∈ items, v.field? s = some w := by
  simp only [children, h, List.mem_filterMap]

theorem exists_follow_eq (segments : List String) (v : Value) :
    ∃ u : Value, u.follow segments = [v] := by
  induction segments with
  | nil => exact ⟨v, rfl⟩
  | cons s segments ih =>
    obtain ⟨u, hu⟩ := ih
    refine ⟨.document [(s, u)], ?_⟩
    simp [follow, Document.get?, hu]

end Value

theorem Document.exists_lookup_eq (p : Path) (v : Value) : ∃ d : Document, d.lookup p = [v] := by
  obtain ⟨u, hu⟩ := Value.exists_follow_eq p.tail v
  refine ⟨[(p.head, u)], ?_⟩
  simp [lookup, get?, hu]

end Docbase
