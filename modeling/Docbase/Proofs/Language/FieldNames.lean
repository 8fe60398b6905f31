import Docbase.Proofs.Language.Soundness
import Docbase.Proofs.Language.Spelling

namespace Docbase

namespace Filter

mutual

/-- The fields that a filter is about. -/
def paths : Filter → List Path
  | all parts => pathsIn parts
  | any parts => pathsIn parts
  | negation inner => paths inner
  | present path _ => [path]
  | comparison path _ _ => [path]

def pathsIn : List Filter → List Path
  | [] => []
  | f :: rest => paths f ++ pathsIn rest

end

theorem pathsIn_append (fs gs : List Filter) : pathsIn (fs ++ gs) = pathsIn fs ++ pathsIn gs := by
  induction fs with
  | nil => rfl
  | cons f fs ih => rw [List.cons_append, pathsIn, pathsIn, ih, List.append_assoc]

@[simp]
theorem paths_and (f g : Filter) : (f.and g).paths = f.paths ++ g.paths := by
  unfold Filter.and
  split <;> simp [paths, pathsIn, pathsIn_append]

@[simp]
theorem paths_or (f g : Filter) : (f.or g).paths = f.paths ++ g.paths := by
  unfold Filter.or
  split <;> simp [paths, pathsIn, pathsIn_append]

@[simp]
theorem paths_not (f : Filter) : f.not.paths = f.paths := by
  rw [Filter.not, paths]

end Filter

namespace Language

/-- No field of the filter is named like a connective. -/
def NamesFields (f : Filter) : Prop := ∀ p ∈ f.paths, IsFieldName p.text

/-- The derivations in which the field of a method call is no connective either. -/
inductive StrictlyDerives : Rank → Nat → List Token → Filter → Prop where
  | truth {levels : Nat} {field : String} : IsFieldName field →
      StrictlyDerives .operand levels [.word field]
        (.comparison (Path.ofString field) .eq (.bool true))
  | comparison {levels : Nat} {field : String} {sign literal : Token} {op : Operator} {v : Value} :
      IsFieldName field → Compares sign op → Literal literal v →
      StrictlyDerives .operand levels [.word field, sign, literal]
        (.comparison (Path.ofString field) op v)
  | call {levels : Nat} {field name : String} {literal : Token} {op : Operator} {v : Value} :
      IsFieldName field → Method name op v → Literal literal v →
      StrictlyDerives .operand levels
        [.word (field ++ "." ++ name), .leftParen, literal, .rightParen]
        (.comparison (Path.ofString field) op v)
  | negation {levels : Nat} {t : Token} {ts : List Token} {f : Filter} : t.Negates →
      StrictlyDerives .operand levels ts f → StrictlyDerives .operand (levels + 1) (t :: ts) f.not
  | parens {levels : Nat} {ts : List Token} {f : Filter} :
      StrictlyDerives .disjunction levels ts f →
      StrictlyDerives .operand (levels + 1) (.leftParen :: (ts ++ [.rightParen])) f
  | operand {levels : Nat} {ts : List Token} {f : Filter} :
      StrictlyDerives .operand levels ts f → StrictlyDerives .conjunction levels ts f
  | and {levels : Nat} {t : Token} {xs ys : List Token} {f g : Filter} :
      StrictlyDerives .conjunction levels xs f → t.Conjoins →
      StrictlyDerives .operand levels ys g →
      StrictlyDerives .conjunction levels (xs ++ t :: ys) (f.and g)
  | conjunction {levels : Nat} {ts : List Token} {f : Filter} :
      StrictlyDerives .conjunction levels ts f → StrictlyDerives .disjunction levels ts f
  | or {levels : Nat} {t : Token} {xs ys : List Token} {f g : Filter} :
      StrictlyDerives .disjunction levels xs f → t.Disjoins →
      StrictlyDerives .conjunction levels ys g →
      StrictlyDerives .disjunction levels (xs ++ t :: ys) (f.or g)

variable {rank : Rank} {levels : Nat} {ts : List Token} {f g : Filter}

theorem namesFields_comparison {field : String} {op : Operator} {v : Value} :
    NamesFields (.comparison (Path.ofString field) op v) ↔ IsFieldName field := by
  simp [NamesFields, Filter.paths, Path.text_ofString]

theorem namesFields_and : NamesFields (f.and g) ↔ NamesFields f ∧ NamesFields g := by
  simp only [NamesFields, Filter.paths_and, List.forall_mem_append]

theorem namesFields_or : NamesFields (f.or g) ↔ NamesFields f ∧ NamesFields g := by
  simp only [NamesFields, Filter.paths_or, List.forall_mem_append]

theorem namesFields_not : NamesFields f.not ↔ NamesFields f := by
  rw [NamesFields, Filter.paths_not, NamesFields]

theorem StrictlyDerives.derives (h : StrictlyDerives rank levels ts f) :
    Derives rank levels ts f := by
  induction h with
  | truth hfield => exact .truth hfield
  | comparison hfield hsign hvalue => exact .comparison hfield hsign hvalue
  | call _ hmethod hvalue => exact .call hmethod hvalue
  | negation ht _ ih => exact .negation ht ih
  | parens _ ih => exact .parens ih
  | operand _ ih => exact .operand ih
  | and _ ht _ ihf ihg => exact .and ihf ht ihg
  | conjunction _ ih => exact .conjunction ih
  | or _ ht _ ihf ihg => exact .or ihf ht ihg

theorem StrictlyDerives.namesFields (h : StrictlyDerives rank levels ts f) : NamesFields f := by
  induction h with
  | truth hfield | comparison hfield | call hfield => exact namesFields_comparison.mpr hfield
  | negation _ _ ih => exact namesFields_not.mpr ih
  | parens _ ih | operand _ ih | conjunction _ ih => exact ih
  | and _ _ _ ihf ihg => exact namesFields_and.mpr ⟨ihf, ihg⟩
  | or _ _ _ ihf ihg => exact namesFields_or.mpr ⟨ihf, ihg⟩

theorem Derives.strictly (h : Derives rank levels ts f) (hf : NamesFields f) :
    StrictlyDerives rank levels ts f := by
  induction h with
  | truth hfield => exact .truth hfield
  | comparison hfield hsign hvalue => exact .comparison hfield hsign hvalue
  | call hmethod hvalue => exact .call (namesFields_comparison.mp hf) hmethod hvalue
  | negation ht _ ih => exact .negation ht (ih (namesFields_not.mp hf))
  | parens _ ih => exact .parens (ih hf)
  | operand _ ih => exact .operand (ih hf)
  | and _ ht _ ihf ihg =>
    obtain ⟨hf, hg⟩ := namesFields_and.mp hf
    exact .and (ihf hf) ht (ihg hg)
  | conjunction _ ih => exact .conjunction (ih hf)
  | or _ ht _ ihf ihg =>
    obtain ⟨hf, hg⟩ := namesFields_or.mp hf
    exact .or (ihf hf) ht (ihg hg)

theorem strictlyDerives_iff :
    StrictlyDerives rank levels ts f ↔ Derives rank levels ts f ∧ NamesFields f :=
  ⟨fun h => ⟨h.derives, h.namesFields⟩, fun h => h.1.strictly h.2⟩

/-- A text is read as a filter exactly if its tokens derive the filter. They derive it without
connectives as fields exactly if no method is called on a connective, that is, if the filter has no
such field. -/
theorem parseFilter_iff_strictlyDerives_iff (text : String) :
    (∀ f, parseFilter text = .ok f ↔ ∃ placed, tokens text = .ok placed ∧
      Derives .disjunction maxNesting (placed.map Placed.token) f) ∧
    ((∀ f, parseFilter text = .ok f ↔ ∃ placed, tokens text = .ok placed ∧
        StrictlyDerives .disjunction maxNesting (placed.map Placed.token) f) ↔
      ∀ f, parseFilter text = .ok f → NamesFields f) := by
  refine ⟨fun f => parseFilter_eq_ok_iff, fun h f hf => ?_, fun h f => ⟨fun hf => ?_, ?_⟩⟩
  · obtain ⟨placed, -, hderives⟩ := (h f).mp hf
    exact hderives.namesFields
  · obtain ⟨placed, hplaced, hderives⟩ := parseFilter_eq_ok_iff.mp hf
    exact ⟨placed, hplaced, hderives.strictly (h f hf)⟩
  · rintro ⟨placed, hplaced, hderives⟩
    exact parseFilter_eq_ok_iff.mpr ⟨placed, hplaced, hderives.derives⟩

/-- The connective is not a field of its own here, and the text is read. -/
theorem parseFilter_of_call_on_and :
    let text := "and.Equals(1)"
    parseFilter text = .ok (.comparison (Path.ofString "and") .eq (.int32 1)) ∧
    ∀ placed f, tokens text = .ok placed →
      ¬ StrictlyDerives .disjunction maxNesting (placed.map Placed.token) f := by
  intro text
  have hwritten : Written [.word "and.Equals", .leftParen, .int 1, .rightParen]
      ("and.Equals".toList ++ (['('] ++ (['1'] ++ ([')'] ++ [])))) := by
    refine .token (.word (by decide)) (runsOn_head (by decide)) ?_
    refine .token (.sign (by decide)) (runsOn_head (by decide)) ?_
    refine .token (.int 1) (runsOn_head (by decide)) ?_
    exact .token (.sign (by decide)) nofun .nil
  have hcall : Derives .operand maxNesting
      [.word ("and" ++ "." ++ "Equals"), .leftParen, .int 1, .rightParen]
      (.comparison (Path.ofString "and") .eq (.int32 1)) :=
    .call (.equals ⟨"Equals", rfl, by decide⟩) (.int32 1)
  have hparse : parseFilter text = .ok (.comparison (Path.ofString "and") .eq (.int32 1)) := by
    obtain ⟨placed, hplaced, htokens⟩ :
        ∃ placed, tokens text = .ok placed ∧ placed.map Placed.token = _ :=
      tokens_of_written (by simpa [text] using hwritten)
    rw [parseFilter_eq_ok_iff]
    exact ⟨placed, hplaced, htokens ▸ .conjunction (.operand hcall)⟩
  refine ⟨hparse, fun placed f hplaced hderives => ?_⟩
  have hf := parseFilter_eq_ok_iff.mpr ⟨placed, hplaced, hderives.derives⟩
  obtain rfl := Except.ok.inj (hparse.symm.trans hf)
  exact (namesFields_comparison.mp hderives.namesFields).1 ⟨"and", rfl, by decide⟩

end Language

end Docbase
