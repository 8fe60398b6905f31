import Docbase.Declaration.Basic
import Docbase.Proofs.Except
import Docbase.Proofs.Text.Case
import Docbase.Proofs.Text.Replace

namespace Docbase.Declaration

namespace Naming

/-- One pass over a name. It leaves underscores out and puts the character behind them in upper case,
which `raise` asks for at the start. -/
def raised : (raise : Bool) → List Char → List Char
  | _, [] => []
  | raise, c :: cs =>
    if c = '_' then raised true cs
    else (if raise then c.toUpper else c) :: raised false cs

def written (field : List Char) : Naming → List Char
  | lower | snake => field
  | upper | screamingSnake => field.map Char.toUpper
  | pascal => raised true field
  | camel => (raised true field).modifyHead Char.toLower
  | kebab => Text.replaceAll ['_'] ['-'] field
  | screamingKebab => Text.replaceAll ['_'] ['-'] (field.map Char.toUpper)

/-- From any place in a word the pass goes on as the words do: the rest of this word comes first, in
upper case where it is the whole word, and behind it the other words with a capital each. -/
theorem raised_eq_words (raise : Bool) (field : List Char) :
    raised raise field =
      (if raise then capitalize (Text.splitAt '_' field).1 else (Text.splitAt '_' field).1) ++
        (Text.splitAt '_' field).2.flatMap capitalize := by
  induction field generalizing raise with
  | nil => cases raise <;> rfl
  | cons c cs ih =>
    by_cases hc : c = '_'
    · cases raise <;> simp [raised, Text.splitAt, hc, ih, capitalize]
    · cases raise <;> simp [raised, Text.splitAt, hc, ih, capitalize]

theorem joinWords_eq_raised (field : List Char) : joinWords field = raised true field := by
  rw [raised_eq_words]
  rfl

theorem uncapitalize_eq_modifyHead (field : List Char) :
    uncapitalize field = field.modifyHead Char.toLower := by
  cases field <;> rfl

theorem hyphenate_eq_replaceAll (field : List Char) :
    hyphenate field = Text.replaceAll ['_'] ['-'] field := by
  induction field with
  | nil => rfl
  | cons c cs ih =>
    by_cases hc : c = '_'
    · rw [hc, Text.replaceAll_cons_self, ← ih]
      rfl
    · rw [Text.replaceAll_cons_of_ne hc, ← ih, hyphenate, List.map_cons, if_neg hc]
      rfl

theorem map_toUpper_hyphenate (field : List Char) :
    (hyphenate field).map Char.toUpper = hyphenate (field.map Char.toUpper) := by
  rw [hyphenate, hyphenate, List.map_map, List.map_map]
  refine List.map_congr_left fun c _ => ?_
  have hunderscore : c.toUpper = '_' ↔ c = '_' := Text.toUpper_eq_iff (by decide)
  by_cases hc : c = '_'
  · rw [hc]
    rfl
  · simp [hc, hunderscore]

theorem spell_eq_written (rule : Naming) (field : List Char) :
    rule.spell field = rule.written field := by
  cases rule with
  | lower | upper | snake | screamingSnake => rfl
  | pascal => exact joinWords_eq_raised field
  | camel => rw [spell, written, joinWords_eq_raised, uncapitalize_eq_modifyHead]
  | kebab => exact hyphenate_eq_replaceAll field
  | screamingKebab => rw [spell, written, map_toUpper_hyphenate, hyphenate_eq_replaceAll]

end Naming

theorem storedName_of_ofDeclaration {target : Target} {rule : Naming} {f : FieldDeclaration}
    {F : Field} (h : Field.ofDeclaration target (some rule) f = .ok F) :
    F.storedName = F.settings.rename.getD (rule.apply (plainName f.name)) := by
  obtain ⟨settings, -, h⟩ := exists_of_bind_eq_ok h
  split at h
  next => cases h
  next =>
    cases h
    rfl

/-- A rule gives every name the spelling under which a field of this name is written out; so in a
declaration with this rule the stored name of a field is the one it was renamed to, or else the one
under which it is written out. -/
theorem Naming.names_as_written (rule : Naming) :
    (∀ name : String, rule.apply name = String.ofList (rule.written name.toList)) ∧
    ∀ target f F, Field.ofDeclaration target (some rule) f = .ok F →
      F.storedName =
        F.settings.rename.getD (String.ofList (rule.written (plainName f.name).toList)) := by
  have happly (name : String) : rule.apply name = String.ofList (rule.written name.toList) := by
    rw [apply, spell_eq_written]
  refine ⟨happly, fun target f F h => ?_⟩
  rw [storedName_of_ofDeclaration h, happly]

/-- Underscores at both ends and two in a row, with a digit at the end of a word. -/
theorem Naming.names_as_written_of_underscores :
    let f : FieldDeclaration := ⟨"r#_http2__server_", "String", []⟩
    ∃ F, Field.ofDeclaration .document (some .camel) f = .ok F ∧ F.storedName = "http2Server" := by
  intro f
  have hdeclared (type : String) : ∃ F, Field.ofDeclaration .document (some .camel)
      ⟨"r#_http2__server_", type, []⟩ = .ok F ∧ F.settings.rename = none := ⟨_, rfl, rfl⟩
  obtain ⟨F, hF, hrename⟩ := hdeclared "String"
  have hplain : plainName f.name = "_http2__server_" := by decide
  have hcamel : String.ofList (camel.written "_http2__server_".toList) = "http2Server" := by decide
  refine ⟨F, hF, ?_⟩
  rw [(names_as_written .camel).2 .document f F hF, hrename, hplain, hcamel]
  rfl

end Docbase.Declaration
