import Docbase.Text.Pattern
import Mathlib.Data.List.Infix

namespace Docbase.Text

/-- The characters that have to be escaped to stand for themselves. -/
def metacharacters : List Char :=
  ['\\', '^', '$', '.', '|', '?', '*', '+', '(', ')', '[', ']', '\x7b', '\x7d']

/-- Patterns that take one character after the other, with at most an anchor behind them. -/
inductive IsSequence : List Char → Prop where
  | nil : IsSequence []
  | finish : IsSequence ['$']
  | plain {c : Char} {rest : List Char} : c ∉ metacharacters → IsSequence rest →
    IsSequence (c :: rest)
  | escaped {c : Char} {rest : List Char} : ¬ c.isAlphanum → IsSequence rest →
    IsSequence ('\\' :: c :: rest)

/-- What regular expressions say of characters and anchors. `matchesAt pattern before after` is that
the pattern matches some part of the text `before ++ after` that starts where `after` does. -/
structure FollowsRules (matchesAt : List Char → List Char → List Char → Prop) : Prop where
  nil (before after : List Char) : matchesAt [] before after
  plain {c : Char} {rest : List Char} (before after : List Char) :
    c ∉ metacharacters → IsSequence rest → (matchesAt (c :: rest) before after ↔
      ∃ behind, after = c :: behind ∧ matchesAt rest (before ++ [c]) behind)
  escaped {c : Char} {rest : List Char} (before after : List Char) :
    ¬ c.isAlphanum → IsSequence rest → (matchesAt ('\\' :: c :: rest) before after ↔
      ∃ behind, after = c :: behind ∧ matchesAt rest (before ++ [c]) behind)
  start {rest : List Char} (before after : List Char) : IsSequence rest →
    (matchesAt ('^' :: rest) before after ↔ before = [] ∧ matchesAt rest before after)
  finish (before after : List Char) : matchesAt ['$'] before after ↔ after = [] ∨ after = ['\n']

def MatchesIn (matchesAt : List Char → List Char → List Char → Prop) (pattern text : List Char) :
    Prop :=
  ∃ before after, text = before ++ after ∧ matchesAt pattern before after

theorem isSpecial_of_mem_metacharacters : ∀ c ∈ metacharacters, isSpecial c :=
  List.all_eq_true.mp (by decide)

theorem not_isAlphanum_of_isSpecial {c : Char} (h : isSpecial c) : ¬ c.isAlphanum := by
  have hall : ['\\', '.', '+', '*', '?', '(', ')', '|', '[', ']', '\x7b', '\x7d', '^', '$', '#', '&',
      '-', '~'].all fun c => !c.isAlphanum := by decide
  simpa using List.all_eq_true.mp hall c (List.contains_iff_mem.mp h)

theorem literalPattern_cons_append (c : Char) (s rest : List Char) :
    literalPattern (c :: s) ++ rest =
      (if isSpecial c then ['\\', c] else [c]) ++ (literalPattern s ++ rest) := by
  rw [literalPattern, List.flatMap_cons, List.append_assoc]
  rfl

theorem IsSequence.literalPattern_append {rest : List Char} (h : IsSequence rest)
    (s : List Char) : IsSequence (literalPattern s ++ rest) := by
  induction s with
  | nil => exact h
  | cons c s ih =>
    rw [literalPattern_cons_append]
    by_cases hc : isSpecial c
    · rw [if_pos hc]
      exact .escaped (not_isAlphanum_of_isSpecial hc) ih
    · rw [if_neg hc]
      exact .plain (mt (isSpecial_of_mem_metacharacters c) hc) ih

theorem isSequence_literalPattern (s : List Char) : IsSequence (literalPattern s) := by
  simpa using IsSequence.nil.literalPattern_append s

theorem eq_of_suffix_append_singleton {s : List Char} {c : Char} (h : s <:+ s ++ [c]) :
    ∀ a ∈ s, a = c := by
  have hreverse (l : List Char) (hl : l <+: c :: l) : ∀ a ∈ l, a = c := by
    induction l with
    | nil => exact nofun
    | cons b l ih =>
      obtain ⟨rfl, hrest⟩ := List.cons_prefix_cons.mp hl
      exact List.forall_mem_cons.mpr ⟨rfl, ih hrest⟩
  simpa using hreverse s.reverse (by simpa using List.reverse_prefix.mpr h)

theorem append_singleton_eq_cons {s : List Char} {c : Char} (h : ∀ a ∈ s, a = c) :
    s ++ [c] = c :: s := by
  rw [List.eq_replicate_of_mem h, ← List.replicate_succ', List.replicate_succ]

section Rules

variable {matchesAt : List Char → List Char → List Char → Prop} (h : FollowsRules matchesAt)
  {s text rest : List Char}
include h

theorem matchesAt_literalPattern_append (hrest : IsSequence rest) (before after : List Char) :
    matchesAt (literalPattern s ++ rest) before after ↔
      ∃ behind, after = s ++ behind ∧ matchesAt rest (before ++ s) behind := by
  induction s generalizing before after with
  | nil => simp [literalPattern]
  | cons c s ih =>
    have hsequence : IsSequence (literalPattern s ++ rest) := hrest.literalPattern_append s
    have hone : matchesAt (literalPattern (c :: s) ++ rest) before after ↔
        ∃ behind, after = c :: behind ∧
          matchesAt (literalPattern s ++ rest) (before ++ [c]) behind := by
      rw [literalPattern_cons_append]
      by_cases hc : isSpecial c
      · rw [if_pos hc]
        exact h.escaped before after (not_isAlphanum_of_isSpecial hc) hsequence
      · rw [if_neg hc]
        exact h.plain before after (mt (isSpecial_of_mem_metacharacters c) hc) hsequence
    rw [hone]
    constructor
    · rintro ⟨_, rfl, hmatches⟩
      obtain ⟨behind, rfl, hrests⟩ := (ih _ _).mp hmatches
      exact ⟨behind, rfl, by simpa using hrests⟩
    · rintro ⟨behind, rfl, hrests⟩
      exact ⟨s ++ behind, rfl, (ih _ _).mpr ⟨behind, rfl, by simpa using hrests⟩⟩

theorem matchesAt_literalPattern (before after : List Char) :
    matchesAt (literalPattern s) before after ↔ s <+: after := by
  have hall := matchesAt_literalPattern_append (s := s) h .nil before after
  rw [List.append_nil] at hall
  rw [hall]
  constructor
  · rintro ⟨behind, rfl, -⟩
    exact List.prefix_append _ _
  · rintro ⟨behind, rfl⟩
    exact ⟨behind, rfl, h.nil _ _⟩

theorem matchesIn_literalPattern : MatchesIn matchesAt (literalPattern s) text ↔ s <:+: text := by
  simp only [MatchesIn, matchesAt_literalPattern h]
  constructor
  · rintro ⟨before, after, rfl, behind, rfl⟩
    exact ⟨before, behind, by simp⟩
  · rintro ⟨before, behind, rfl⟩
    exact ⟨before, s ++ behind, by simp, List.prefix_append _ _⟩

theorem matchesIn_start : MatchesIn matchesAt ('^' :: literalPattern s) text ↔ s <+: text := by
  simp only [MatchesIn, h.start _ _ (isSequence_literalPattern s), matchesAt_literalPattern h]
  constructor
  · rintro ⟨_, after, rfl, rfl, hstarts⟩
    exact hstarts
  · exact fun hstarts => ⟨[], text, rfl, rfl, hstarts⟩

theorem matchesIn_finish : MatchesIn matchesAt (literalPattern s ++ ['$']) text ↔
    s <:+ text ∨ ∃ line, text = line ++ ['\n'] ∧ s <:+ line := by
  simp only [MatchesIn, matchesAt_literalPattern_append h .finish, h.finish]
  constructor
  · rintro ⟨before, after, rfl, behind, rfl, rfl | rfl⟩
    · exact .inl ⟨before, by simp⟩
    · exact .inr ⟨before ++ s, by simp, List.suffix_append _ _⟩
  · rintro (⟨before, rfl⟩ | ⟨_, rfl, before, rfl⟩)
    · exact ⟨before, s, rfl, [], by simp⟩
    · exact ⟨before, s ++ ['\n'], by simp, ['\n'], by simp⟩

theorem forall_matchesIn_finish_iff :
    (∀ text, MatchesIn matchesAt (literalPattern s ++ ['$']) text ↔ s <:+ text) ↔
      ∀ c ∈ s, c = '\n' := by
  simp only [matchesIn_finish h]
  constructor
  · intro hall
    exact eq_of_suffix_append_singleton ((hall (s ++ ['\n'])).mp (.inr ⟨s, rfl, List.suffix_rfl⟩))
  · refine fun hnewlines text => ⟨?_, .inl⟩
    rintro (hends | ⟨_, rfl, before, rfl⟩)
    · exact hends
    · rw [List.append_assoc, append_singleton_eq_cons hnewlines]
      exact ⟨before ++ ['\n'], by simp⟩

end Rules

/-- Whether a text starts with the character and goes on as it has to. -/
def takes (c : Char) (goesOn : List Char → Bool) : List Char → Bool
  | [] => false
  | a :: behind => a = c && goesOn behind

def startsAt : (pattern before after : List Char) → Bool
  | [], _, _ => true
  | ['$'], _, after => after = [] || after = ['\n']
  | '^' :: rest, before, after => before = [] && startsAt rest before after
  | '\\' :: c :: rest, before, after => !c.isAlphanum && takes c (startsAt rest (before ++ [c])) after
  | c :: rest, before, after =>
    c ∉ metacharacters && takes c (startsAt rest (before ++ [c])) after

theorem takes_iff {c : Char} {goesOn : List Char → Bool} {after : List Char} :
    takes c goesOn after ↔ ∃ behind, after = c :: behind ∧ goesOn behind := by
  cases after with
  | nil => simp [takes]
  | cons a after => simp [takes]

theorem startsAt_cons {c : Char} (hc : c ∉ metacharacters) (rest before after : List Char) :
    startsAt (c :: rest) before after = takes c (startsAt rest (before ++ [c])) after := by
  have hne (m : Char) (hm : m ∈ metacharacters) : c ≠ m := fun heq => hc (heq ▸ hm)
  rw [startsAt]
  · simp [hc]
  · exact fun heq => absurd heq (hne '$' (by decide))
  · exact hne '^' (by decide)
  · exact fun _ _ heq => absurd heq (hne '\\' (by decide))

theorem followsRules_startsAt :
    FollowsRules fun pattern before after => startsAt pattern before after where
  nil _ _ := rfl
  plain before after hc _ := by rw [startsAt_cons hc, takes_iff]
  escaped before after hc _ := by simp [startsAt, hc, takes_iff]
  start before after _ := by simp [startsAt]
  finish before after := by simp [startsAt]

end Docbase.Text
