import Docbase.Filter.Matching
import Docbase.OperatorDocument
import Docbase.Proofs.Text.RegularExpression
import Docbase.Proofs.Text.Replace

namespace Docbase.Operator

open Text

variable {t s : String} {values : List Value}

theorem anyCandidate_isStringWith (test : List Char → Bool) :
    anyCandidate values (·.isStringWith test) ↔
      ∃ t : String, .string t ∈ values.flatMap Value.candidates ∧ test t.toList := by
  rw [anyCandidate, ← List.any_flatMap, List.any_eq_true]
  constructor
  · rintro ⟨c, hc, htest⟩
    cases c with
    | string t => exact ⟨t, hc, htest⟩
    | _ => cases htest
  · rintro ⟨t, ht, htest⟩
    exact ⟨.string t, ht, htest⟩

theorem holds_contains_iff : contains.holds values (.string s) ↔
    ∃ t : String, .string t ∈ values.flatMap Value.candidates ∧ s.toList <:+: t.toList := by
  rw [holds, holdsContains, anyCandidate_isStringWith]
  simp only [occursIn_iff]

theorem holds_startsWith_iff : startsWith.holds values (.string s) ↔
    ∃ t : String, .string t ∈ values.flatMap Value.candidates ∧ s.toList <+: t.toList := by
  rw [holds, anyCandidate_isStringWith]
  simp only [List.isPrefixOf_iff_prefix]

theorem holds_endsWith_iff : endsWith.holds values (.string s) ↔
    ∃ t : String, .string t ∈ values.flatMap Value.candidates ∧ s.toList <:+ t.toList := by
  rw [holds, anyCandidate_isStringWith]
  simp only [List.isSuffixOf_iff_suffix]

theorem holds_contains_string : contains.holds [.string t] (.string s) ↔ s.toList <:+: t.toList := by
  simp [holds_contains_iff, Value.candidates]

theorem holds_startsWith_string :
    startsWith.holds [.string t] (.string s) ↔ s.toList <+: t.toList := by
  simp [holds_startsWith_iff, Value.candidates]

theorem holds_endsWith_string :
    endsWith.holds [.string t] (.string s) ↔ s.toList <:+ t.toList := by
  simp [holds_endsWith_iff, Value.candidates]

theorem exists_line_iff {p : List Char → Prop} : (∃ line, t.toList = line ++ ['\n'] ∧ p line) ↔
    ∃ line : String, t = line ++ "\n" ∧ p line.toList := by
  constructor
  · rintro ⟨line, ht, hp⟩
    refine ⟨String.ofList line, String.toList_inj.mp ?_, by rwa [String.toList_ofList]⟩
    rw [ht, String.toList_append, String.toList_ofList]
    rfl
  · rintro ⟨line, rfl, hp⟩
    exact ⟨line.toList, String.toList_append, hp⟩

theorem forall_text_iff {p : List Char → Prop} : (∀ t : String, p t.toList) ↔ ∀ cs, p cs :=
  ⟨fun h cs => String.toList_ofList (l := cs) ▸ h (String.ofList cs), fun h t => h t.toList⟩

/-- The pattern of a containment, a start or an end matches what has it. The pattern of an end
matches, besides, what has it in front of a final newline; the two are the same for ends that consist
of newlines, and for no others. -/
theorem pattern_matches_iff {matchesAt : List Char → List Char → List Char → Prop}
    (h : FollowsRules matchesAt) {op : Operator} (hop : op ∈ [contains, startsWith, endsWith])
    (needle : String) :
    ∃ pattern : String, op.document (.string needle) = .ok [("$regex", .string pattern)] ∧
      (∀ t : String, MatchesIn matchesAt pattern.toList t.toList ↔
        op.holds [.string t] (.string needle) ∨
          op = endsWith ∧ ∃ line : String, t = line ++ "\n" ∧
            op.holds [.string line] (.string needle)) ∧
      ((∀ t : String, MatchesIn matchesAt pattern.toList t.toList ↔
          op.holds [.string t] (.string needle)) ↔
        (op = endsWith → ∀ c ∈ needle.toList, c = '\n')) := by
  simp only [List.mem_cons, List.not_mem_nil, or_false] at hop
  obtain rfl | rfl | rfl := hop
  · have hmatches (t : String) : MatchesIn matchesAt (literalPattern needle.toList) t.toList ↔
        contains.holds [.string t] (.string needle) :=
      (matchesIn_literalPattern h).trans holds_contains_string.symm
    refine ⟨String.ofList (literalPattern needle.toList), ?_, fun t => ?_, ?_⟩
    · simp [document, containsDocument, pattern]
    · simp [hmatches]
    · simp [hmatches]
  · have hmatches (t : String) : MatchesIn matchesAt ('^' :: literalPattern needle.toList) t.toList ↔
        startsWith.holds [.string t] (.string needle) :=
      (matchesIn_start h).trans holds_startsWith_string.symm
    refine ⟨String.ofList ('^' :: literalPattern needle.toList), ?_, fun t => ?_, ?_⟩
    · simp [document, pattern]
    · simp [hmatches]
    · simp [hmatches]
  · refine ⟨String.ofList (literalPattern needle.toList ++ ['$']), rfl, fun t => ?_, ?_⟩
    · rw [String.toList_ofList, matchesIn_finish h, exists_line_iff]
      simp only [holds_endsWith_string, true_and]
    · simp only [String.toList_ofList, holds_endsWith_string, true_imp_iff]
      exact forall_text_iff.trans (forall_matchesIn_finish_iff h)

/-- Metacharacters at the end of a text, before a final newline and without one. -/
theorem pattern_matches_of_metacharacters :
    let matchesAt := fun pattern before after => (startsAt pattern before after : Prop)
    FollowsRules matchesAt ∧ endsWith ∈ [contains, startsWith, endsWith] ∧
      ∃ pattern : String, endsWith.document (.string "(1)$") = .ok [("$regex", .string pattern)] ∧
        MatchesIn matchesAt pattern.toList "a(1)$".toList ∧
        MatchesIn matchesAt pattern.toList "a(1)$\n".toList := by
  intro matchesAt
  have hop : endsWith ∈ [contains, startsWith, endsWith] := by decide
  obtain ⟨pattern, hpattern, hmatches, -⟩ := pattern_matches_iff followsRules_startsAt hop "(1)$"
  refine ⟨followsRules_startsAt, hop, pattern, hpattern, (hmatches _).mpr (.inl ?_),
    (hmatches _).mpr (.inr ⟨rfl, "a(1)$", ?_, ?_⟩)⟩ <;> decide

/-- The pattern of an end matches a line that ends so, newline included. -/
theorem matches_final_newline : ∃ (op : Operator) (needle pattern t : String),
    op ∈ [contains, startsWith, endsWith] ∧
      op.document (.string needle) = .ok [("$regex", .string pattern)] ∧
      ¬ op.holds [.string t] (.string needle) ∧
      ∀ matchesAt, FollowsRules matchesAt → MatchesIn matchesAt pattern.toList t.toList := by
  refine ⟨endsWith, "a", "a$", "a\n", by decide, rfl, by decide, fun matchesAt h => ?_⟩
  have hpattern : "a$".toList = literalPattern ['a'] ++ ['$'] := by decide
  rw [hpattern, matchesIn_finish h]
  exact .inr ⟨['a'], by decide, List.suffix_rfl⟩

end Docbase.Operator
