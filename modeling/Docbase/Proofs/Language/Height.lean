import Docbase.Proofs.Filter.Pass
import Docbase.Proofs.Language.Soundness
import Docbase.Proofs.Language.Spelling

namespace Docbase.Language

variable {rank : Rank} {levels : Nat} {ts : List Token} {f g : Filter}

/-- The height of what derives from a rank. A chain may be one level higher than its items, but then
it can take further items without getting higher. -/
def HeightWithin (rank : Rank) (levels : Nat) (f : Filter) : Prop :=
  match rank with
  | .operand => f.height ≤ 2 * levels + 1
  | .conjunction => f.height ≤ 2 * levels + 1 ∨
    f.height ≤ 2 * levels + 2 ∧ ∃ parts, f = .all parts
  | .disjunction => f.height ≤ 2 * levels + 2 ∨
    f.height ≤ 2 * levels + 3 ∧ ∃ parts, f = .any parts

theorem HeightWithin.and (hf : HeightWithin .conjunction levels f)
    (hg : HeightWithin .operand levels g) : HeightWithin .conjunction levels (f.and g) := by
  rw [HeightWithin] at hg
  refine .inr ⟨?_, Filter.exists_and_eq f g⟩
  obtain hf | ⟨hf, parts, rfl⟩ := hf
  · have hle : (f.and g).height ≤ max f.height g.height + 1 := Filter.height_and_le
    omega
  · rw [Filter.height_all_and]
    omega

theorem HeightWithin.or (hf : HeightWithin .disjunction levels f)
    (hg : HeightWithin .conjunction levels g) : HeightWithin .disjunction levels (f.or g) := by
  have hg : g.height ≤ 2 * levels + 2 := by
    obtain hg | ⟨hg, -⟩ := hg <;> omega
  refine .inr ⟨?_, Filter.exists_or_eq f g⟩
  obtain hf | ⟨hf, parts, rfl⟩ := hf
  · have hle : (f.or g).height ≤ max f.height g.height + 1 := Filter.height_or_le
    omega
  · rw [Filter.height_any_or]
    omega

theorem HeightWithin.le (h : HeightWithin .disjunction levels f) : f.height ≤ 2 * levels + 3 := by
  obtain h | ⟨h, -⟩ := h <;> omega

theorem height_comparison (path : Path) (op : Operator) (v : Value) :
    (Filter.comparison path op v).height = 1 := by rw [Filter.height]

theorem heightWithin_of_derives (h : Derives rank levels ts f) : HeightWithin rank levels f := by
  induction h with
  | truth | comparison | call =>
    rw [HeightWithin, height_comparison]
    omega
  | negation _ _ ih =>
    rw [HeightWithin] at ih ⊢
    rw [Filter.height_not]
    omega
  | parens _ ih =>
    have hle := ih.le
    rw [HeightWithin]
    omega
  | operand _ ih => exact .inl ih
  | and _ _ _ ihf ihg => exact ihf.and ihg
  | conjunction _ ih =>
    obtain hf | ⟨hf, -⟩ := ih
    · exact .inl (by omega)
    · exact .inl hf
  | or _ _ _ ihf ihg => exact ihf.or ihg

/-- However long a text is, its filter has bounded height, and that many calls inside each other are
enough for resolving it and for evaluating and translating it or what it resolves to. -/
theorem height_of_parsed_le {text : String} (h : parseFilter text = .ok f) :
    f.height ≤ 2 * maxNesting + 3 ∧
    (∀ T : DocumentType,
      (Pass.resolution T).within (2 * maxNesting + 3) f = some (T.resolveFilter f)) ∧
    ∀ g, (g = f ∨ ∃ T : DocumentType, T.resolveFilter f = .ok g) →
      (∀ d, (Pass.evaluation d).within (2 * maxNesting + 3) g = some (g.accepts d)) ∧
      Pass.translation.within (2 * maxNesting + 3) g = some g.operatorDocument := by
  obtain ⟨placed, -, hderives⟩ := parseFilter_eq_ok_iff.mp h
  have hf : f.height ≤ 2 * maxNesting + 3 := (heightWithin_of_derives hderives).le
  refine ⟨hf, fun T => ?_, fun g hg => ?_⟩
  · rw [Pass.within_eq, if_pos hf, Pass.run_resolution]
  · have hg : g.height ≤ 2 * maxNesting + 3 := by
      obtain rfl | ⟨T, hT⟩ := hg
      · exact hf
      · rw [height_of_resolveFilter hT]
        exact hf
    refine ⟨fun d => ?_, ?_⟩
    · rw [Pass.within_eq, if_pos hg, Pass.run_evaluation]
    · rw [Pass.within_eq, if_pos hg, Pass.run_translation]

theorem height_of_parsed_le_of_negated :
    let text := "!(a or b)"
    let f : Filter := .negation (.any [.comparison (Path.ofString "a") .eq (.bool true),
      .comparison (Path.ofString "b") .eq (.bool true)])
    parseFilter text = .ok f ∧ f.height ≤ 2 * maxNesting + 3 ∧
      Pass.translation.within (2 * maxNesting + 3) f = some f.operatorDocument := by
  intro text f
  have hwritten : Written [.bang, .leftParen, .word "a", .word "or", .word "b", .rightParen]
      (['!'] ++ (['('] ++ ("a".toList ++ ' ' :: ("or".toList ++ ' ' :: ("b".toList ++
        ([')'] ++ [])))))) := by
    refine .token (.sign (by decide)) (runsOn_head (by decide)) ?_
    refine .token (.sign (by decide)) (runsOn_head (by decide)) ?_
    refine .token (.word (by decide)) (runsOn_head (by decide)) (.blank (by decide) ?_)
    refine .token (.word (by decide)) (runsOn_head (by decide)) (.blank (by decide) ?_)
    refine .token (.word (by decide)) (runsOn_head (by decide)) ?_
    exact .token (.sign (by decide)) nofun .nil
  have hfield : ∀ name ∈ ["a", "b"], IsFieldName name := by
    intro name hname
    simp only [List.mem_cons, List.not_mem_nil, or_false] at hname
    obtain rfl | rfl := hname <;> exact isFieldName_iff.mpr (by decide)
  have hor : Derives .disjunction 126 ([.word "a"] ++ .word "or" :: [.word "b"])
      (.any [.comparison (Path.ofString "a") .eq (.bool true),
        .comparison (Path.ofString "b") .eq (.bool true)]) :=
    .or (.conjunction (.operand (.truth (hfield "a" (by decide))))) (.inr ⟨"or", rfl, by decide⟩)
      (.operand (.truth (hfield "b" (by decide))))
  have hnot : Derives .operand maxNesting _ f := .negation (.inl rfl) (.parens hor)
  obtain ⟨placed, hplaced, htokens⟩ :
      ∃ placed, tokens text = .ok placed ∧ placed.map Placed.token = _ :=
    tokens_of_written (by simpa [text] using hwritten)
  have hparse : parseFilter text = .ok f :=
    parseFilter_eq_ok_iff.mpr ⟨placed, hplaced, htokens ▸ .conjunction (.operand hnot)⟩
  obtain ⟨hle, -, hpasses⟩ := height_of_parsed_le hparse
  exact ⟨hparse, hle, (hpasses f (.inl rfl)).2⟩

theorem exists_disjunction_height_eq
    (h : ∃ ts f, Derives .operand levels ts f ∧ Writable ts ∧ f.height = 2 * levels + 1) :
    ∃ ts f, Derives .disjunction levels ts f ∧ Writable ts ∧ f.height = 2 * levels + 3 := by
  obtain ⟨ts, f, hts, hw, hf⟩ := h
  have ha : Derives .operand levels [.word "a"]
      (.comparison (Path.ofString "a") .eq (.bool true)) :=
    .truth (isFieldName_iff.mpr (by decide))
  have hspelling : ∃ cs, Spelling (.word "a") cs := ⟨_, .word (by decide)⟩
  refine ⟨_, _, .or (.conjunction (.operand ha)) (.inl rfl) (.and (.operand ha) (.inl rfl) hts),
    ?_, ?_⟩
  · simpa [Writable, or_imp, forall_and, hspelling] using
      ⟨exists_spelling_sign (t := .doubleOr) (by decide),
        exists_spelling_sign (t := .doubleAnd) (by decide), hw⟩
  · change (Filter.any [_, .all [_, f]]).height = _
    rw [Filter.height_any, Filter.heightIn_pair, Filter.height_all, Filter.heightIn_pair,
      height_comparison]
    omega

theorem exists_operand_height_eq (levels : Nat) :
    ∃ ts f, Derives .operand levels ts f ∧ Writable ts ∧ f.height = 2 * levels + 1 := by
  -- Behind `a or a and` stands a disjunction of this kind in parentheses.
  induction levels with
  | zero =>
    have hfield : IsFieldName "a" := isFieldName_iff.mpr (by decide)
    refine ⟨_, _, .truth hfield, ?_, ?_⟩
    · have hspelling : ∃ cs, Spelling (.word "a") cs := ⟨_, .word (by decide)⟩
      simpa [Writable] using hspelling
    · rw [height_comparison]
  | succ levels ih =>
    obtain ⟨ts, f, hts, hw, hf⟩ := exists_disjunction_height_eq ih
    refine ⟨_, f, .parens hts, ?_, by omega⟩
    simpa [Writable, or_imp, forall_and] using
      ⟨exists_spelling_sign (t := .leftParen) (by decide), hw,
        exists_spelling_sign (t := .rightParen) (by decide)⟩

theorem exists_parsed_height_eq :
    ∃ text f, parseFilter text = .ok f ∧ f.height = 2 * maxNesting + 3 := by
  obtain ⟨ts, f, hts, hw, hf⟩ := exists_disjunction_height_eq (exists_operand_height_eq maxNesting)
  obtain ⟨cs, hcs⟩ := exists_written hw
  rw [← String.toList_ofList (l := cs)] at hcs
  obtain ⟨placed, hplaced, htokens⟩ := tokens_of_written hcs
  exact ⟨_, f, parseFilter_eq_ok_iff.mpr ⟨placed, hplaced, htokens ▸ hts⟩, hf⟩

end Docbase.Language
