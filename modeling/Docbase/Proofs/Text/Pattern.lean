import Docbase.Text.Pattern
import Docbase.Text.Search
import Mathlib.Data.List.Basic

namespace Docbase.Text

def literal? : List Char → Option (List Char)
  | [] => some []
  | '\\' :: c :: cs => (literal? cs).map (c :: ·)
  | c :: cs => if isSpecial c then none else (literal? cs).map (c :: ·)

/-- The texts that a pattern of a literal text, at most with an anchor, occurs in. -/
def patternOccursIn (pattern : List Char) (text : List Char) : Bool :=
  match pattern with
  | '^' :: rest => (literal? rest).any (·.isPrefixOf text)
  | _ =>
    match literal? pattern with
    | some t => occursIn t text
    | none => pattern.getLast? = some '$' && (literal? pattern.dropLast).any (·.isSuffixOf text)

theorem literal?_literalPattern_append (s rest : List Char) :
    literal? (literalPattern s ++ rest) = (literal? rest).map (s ++ ·) := by
  induction s with
  | nil => simp [literalPattern]
  | cons c s ih =>
    rw [literalPattern, List.flatMap_cons, ← literalPattern]
    by_cases hc : isSpecial c
    · rw [if_pos hc]
      simp [literal?, ih, Function.comp_def]
    · have hplain : literal? (c :: (literalPattern s ++ rest)) =
          (literal? (literalPattern s ++ rest)).map (c :: ·) := by
        rw [literal?, if_neg hc]
        rintro _ _ rfl
        exact absurd rfl hc
      rw [if_neg hc, List.append_assoc, List.singleton_append, hplain, ih]
      simp [Function.comp_def]

theorem literal?_literalPattern (s : List Char) : literal? (literalPattern s) = some s := by
  simpa [literal?] using literal?_literalPattern_append s []

theorem literal?_literalPattern_dollar (s : List Char) :
    literal? (literalPattern s ++ ['$']) = none := by
  have hdollar : literal? ['$'] = none := by decide
  simp [literal?_literalPattern_append, hdollar]

theorem patternOccursIn_of_not_anchor {pattern text : List Char} (h : pattern.head? ≠ some '^') :
    patternOccursIn pattern text = match literal? pattern with
      | some t => occursIn t text
      | none => pattern.getLast? = some '$' && (literal? pattern.dropLast).any (·.isSuffixOf text) := by
  rw [patternOccursIn]
  rintro rest rfl
  exact h rfl

theorem head?_literalPattern (s rest : List Char) (hrest : rest.head? ≠ some '^') :
    (literalPattern s ++ rest).head? ≠ some '^' := by
  cases s with
  | nil => exact hrest
  | cons c s =>
    rw [literalPattern, List.flatMap_cons]
    by_cases hc : isSpecial c
    · simp [hc]
    · intro hcaret
      obtain rfl : c = '^' := by simpa [hc] using hcaret
      exact hc (by decide)

theorem patternOccursIn_literalPattern (s : List Char) :
    patternOccursIn (literalPattern s) = occursIn s := by
  have hhead := head?_literalPattern s [] (by simp)
  rw [List.append_nil] at hhead
  funext text
  rw [patternOccursIn_of_not_anchor hhead, literal?_literalPattern]

theorem patternOccursIn_caret (s : List Char) :
    patternOccursIn ('^' :: literalPattern s) = (s.isPrefixOf ·) := by
  funext text
  simp [patternOccursIn, literal?_literalPattern]

theorem patternOccursIn_dollar (s : List Char) :
    patternOccursIn (literalPattern s ++ ['$']) = (s.isSuffixOf ·) := by
  have hhead := head?_literalPattern s ['$'] (by simp)
  funext text
  rw [patternOccursIn_of_not_anchor hhead, literal?_literalPattern_dollar]
  simp [literal?_literalPattern]

end Docbase.Text
