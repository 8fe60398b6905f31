import Docbase.Filter.Field
import Docbase.Proofs.Filter.Comparison
import Docbase.Proofs.Filter.TextOperator

namespace Docbase

theorem Value.agrees_string_iff {c : Value} {s : String} :
    c.agrees (.string s) ↔ c = .string s ∨ c = .symbol s := by
  cases c <;> simp [agrees, number?, valueClass, order, orderPlain, text?]

/-- The values that a condition on the field is tried on: those addressed, and the elements of those
that are arrays. -/
def Document.candidates (d : Document) (p : Path) : List Value :=
  (d.lookup p).flatMap Value.candidates

namespace Filter

variable {d : Document} {p : Path} {s : String}

theorem accepts_eq_string : (p.eq (.string s)).accepts d ↔
    .string s ∈ d.candidates p ∨ .symbol s ∈ d.candidates p := by
  rw [Path.eq, accepts, Operator.holds, Operator.holdsEq_iff, Operator.anyCandidate,
    ← List.any_flatMap]
  simp [Value.agrees_string_iff, Document.candidates, and_or_left, exists_or]

theorem accepts_startsWith : (p.startsWith s).accepts d ↔
    ∃ t : String, .string t ∈ d.candidates p ∧ s.toList <+: t.toList :=
  Operator.holds_startsWith_iff

theorem accepts_endsWith : (p.endsWith s).accepts d ↔
    ∃ t : String, .string t ∈ d.candidates p ∧ s.toList <:+ t.toList :=
  Operator.holds_endsWith_iff

theorem accepts_contains : (p.contains s).accepts d ↔
    ∃ t : String, .string t ∈ d.candidates p ∧ s.toList <:+: t.toList :=
  Operator.holds_contains_iff

theorem accepts_contains_part {part : String} (hpart : part.toList <:+: s.toList)
    (h : (p.startsWith s).accepts d ∨ (p.endsWith s).accepts d) : (p.contains part).accepts d := by
  rw [accepts_startsWith, accepts_endsWith] at h
  obtain ⟨t, ht, hprefix⟩ | ⟨t, ht, hsuffix⟩ := h
  · exact accepts_contains.mpr ⟨t, ht, hpart.trans hprefix.isInfix⟩
  · exact accepts_contains.mpr ⟨t, ht, hpart.trans hsuffix.isInfix⟩

/-- Equality with a text implies that the field starts and ends with it and contains it, exactly if
no symbol with the text is tried, or else strings that start and that end with it. A field that
starts or ends with a text contains every part of it. -/
theorem equal_texts_match_iff (d : Document) (p : Path) (s : String) :
    (((p.eq (.string s)).accepts d →
        (p.startsWith s).accepts d ∧ (p.endsWith s).accepts d ∧ (p.contains s).accepts d) ↔
      (.symbol s ∈ d.candidates p →
        (∃ t : String, .string t ∈ d.candidates p ∧ s.toList <+: t.toList) ∧
        ∃ t : String, .string t ∈ d.candidates p ∧ s.toList <:+ t.toList)) ∧
    ((p.startsWith s).accepts d ∨ (p.endsWith s).accepts d →
      ∀ part : String, part.toList <:+: s.toList → (p.contains part).accepts d) := by
  refine ⟨⟨fun h hsymbol => ?_, fun h heq => ?_⟩, fun h part hpart => accepts_contains_part hpart h⟩
  · obtain ⟨hstarts, hends, -⟩ := h (accepts_eq_string.mpr (.inr hsymbol))
    exact ⟨accepts_startsWith.mp hstarts, accepts_endsWith.mp hends⟩
  · have hboth : (p.startsWith s).accepts d ∧ (p.endsWith s).accepts d := by
      obtain hstring | hsymbol := accepts_eq_string.mp heq
      · exact ⟨accepts_startsWith.mpr ⟨s, hstring, List.prefix_rfl⟩,
          accepts_endsWith.mpr ⟨s, hstring, List.suffix_rfl⟩⟩
      · exact ⟨accepts_startsWith.mpr (h hsymbol).1, accepts_endsWith.mpr (h hsymbol).2⟩
    exact ⟨hboth.1, hboth.2, accepts_contains_part List.infix_rfl (.inl hboth.1)⟩

theorem equal_texts_match_of_tags :
    let d : Document := [("tags", .array [.symbol "ab", .string "ab cab"])]
    let p : Path := ⟨"tags", []⟩
    (p.eq (.string "ab")).accepts d ∧ (p.startsWith "ab").accepts d ∧
      (p.endsWith "ab").accepts d ∧ (p.contains "ab").accepts d ∧ (p.contains "b").accepts d := by
  intro d p
  obtain ⟨hmatch, hparts⟩ := equal_texts_match_iff d p "ab"
  have hlookup : d.lookup p = [.array [.symbol "ab", .string "ab cab"]] := rfl
  have hstring : .string "ab cab" ∈ d.candidates p := by
    simp [Document.candidates, hlookup, Value.candidates]
  have heq : (p.eq (.string "ab")).accepts d := by decide
  obtain ⟨hstarts, hends, hcontains⟩ := hmatch.mpr (fun _ =>
    ⟨⟨_, hstring, by decide⟩, ⟨_, hstring, by decide⟩⟩) heq
  exact ⟨heq, hstarts, hends, hcontains, hparts (.inl hstarts) "b" (by decide)⟩

/-- A symbol is equal to its text, but does not start or end with it or contain it. -/
theorem symbol_equal_without_match :
    let d : Document := [("a", .symbol "s")]
    let p : Path := ⟨"a", []⟩
    (p.eq (.string "s")).accepts d = true ∧ (p.startsWith "s").accepts d = false ∧
      (p.endsWith "s").accepts d = false ∧ (p.contains "s").accepts d = false := by
  decide

end Filter

end Docbase
