import Docbase.Proofs.Filter.Connective
import Docbase.Proofs.Language.Grammar
import Docbase.Proofs.Language.Spelling

namespace Docbase.Language

/-- A path that a text can name: the lexer takes it as one word, and it is no connective. -/
structure FieldName where
  text : String
  isWord : isWordText text.toList
  isFree : IsFieldName text

inductive Comparison where
  | equal
  | unequal
  | less
  | lessEqual
  | greater
  | greaterEqual

def Comparison.sign : Comparison → Token
  | equal => .equal
  | unequal => .unequal
  | less => .less
  | lessEqual => .lessEqual
  | greater => .greater
  | greaterEqual => .greaterEqual

def Comparison.operator : Comparison → Operator
  | equal => .eq
  | unequal => .ne
  | less => .lt
  | lessEqual => .lte
  | greater => .gt
  | greaterEqual => .gte

inductive TextTest where
  | contains
  | startsWith
  | endsWith

def TextTest.name : TextTest → String
  | contains => "contains"
  | startsWith => "startswith"
  | endsWith => "endswith"

def TextTest.operator : TextTest → Operator
  | contains => .contains
  | startsWith => .startsWith
  | endsWith => .endsWith

inductive Constant where
  | string (s : String)
  | int32 (n : Int32)
  | int64 (n : Int64) (wide : ∀ m : Int32, m.toInt64 ≠ n)
  | bool (b : Bool)
  | null

def Constant.value : Constant → Value
  | string s => .string s
  | int32 n => .int32 n
  | int64 n _ => .int64 n
  | bool b => .bool b
  | null => .null

inductive Condition where
  | comparison (field : FieldName) (c : Comparison) (v : Constant)
  | call (field : FieldName) (test : TextTest) (s : String)

def Condition.filter : Condition → Filter
  | comparison field c v => .comparison (Path.ofString field.text) c.operator v.value
  | call field test s => .comparison (Path.ofString field.text) test.operator (.string s)

inductive Formula where
  | condition (c : Condition)
  | and (f g : Formula)
  | or (f g : Formula)
  | not (f : Formula)

namespace Formula

def filter : Formula → Filter
  | condition c => c.filter
  | and f g => f.filter.and g.filter
  | or f g => f.filter.or g.filter
  | not f => f.filter.not

def holds (truth : Condition → Bool) : Formula → Bool
  | condition c => truth c
  | and f g => holds truth f && holds truth g
  | or f g => holds truth f || holds truth g
  | not f => !holds truth f

/-- Whether the formula has to stand in parentheses at a place of the rank. -/
def needsParens : Rank → Formula → Bool
  | .operand, and .. => true
  | .operand, or .. => true
  | .conjunction, or .. => true
  | _, _ => false

/-- How many parentheses and negations are open at once where the formula is written at a place of
the rank. -/
def nesting (rank : Rank) : Formula → Nat
  | condition _ => 0
  | and f g =>
    max (nesting .conjunction f) (nesting .operand g) + (needsParens rank (and f g)).toNat
  | or f g =>
    max (nesting .disjunction f) (nesting .conjunction g) + (needsParens rank (or f g)).toNat
  | not f => nesting .operand f + 1

end Formula

/-- `Phrases c ts`: the tokens write the condition. -/
inductive Phrases : Condition → List Token → Prop where
  | comparison {field : FieldName} {c : Comparison} {v : Constant} {literal : Token} :
      Literal literal v.value →
      Phrases (.comparison field c v) [.word field.text, c.sign, literal]
  | call {field : FieldName} {test : TextTest} {s name : String} :
      (Token.word name).Names test.name →
      Phrases (.call field test s)
        [.word (field.text ++ "." ++ name), .leftParen, .string s, .rightParen]

/-- `Renders rank f ts`: the tokens write the formula at a place of the rank, with parentheses
exactly where they are needed. -/
inductive Renders : Rank → Formula → List Token → Prop where
  | condition {rank : Rank} {c : Condition} {ts : List Token} : Phrases c ts →
      Renders rank (.condition c) ts
  | not {rank : Rank} {f : Formula} {t : Token} {ts : List Token} : t.Negates →
      Renders .operand f ts → Renders rank (.not f) (t :: ts)
  | and {rank : Rank} {f g : Formula} {t : Token} {xs ys : List Token} :
      Formula.needsParens rank (.and f g) = false → Renders .conjunction f xs → t.Conjoins →
      Renders .operand g ys → Renders rank (.and f g) (xs ++ t :: ys)
  | or {rank : Rank} {f g : Formula} {t : Token} {xs ys : List Token} :
      Formula.needsParens rank (.or f g) = false → Renders .disjunction f xs → t.Disjoins →
      Renders .conjunction g ys → Renders rank (.or f g) (xs ++ t :: ys)
  | parens {rank : Rank} {f : Formula} {ts : List Token} : Formula.needsParens rank f →
      Renders .disjunction f ts → Renders rank f (.leftParen :: (ts ++ [.rightParen]))

/-- The text writes the formula. -/
def Formula.WrittenAs (f : Formula) (text : String) : Prop :=
  ∃ ts, Renders .disjunction f ts ∧ Written ts text.toList

theorem derives_of_operand {levels : Nat} {ts : List Token} {f : Filter} (rank : Rank)
    (h : Derives .operand levels ts f) : Derives rank levels ts f := by
  cases rank with
  | operand => exact h
  | conjunction => exact .operand h
  | disjunction => exact .conjunction (.operand h)

theorem derives_of_phrases {levels : Nat} {c : Condition} {ts : List Token} (h : Phrases c ts) :
    Derives .operand levels ts c.filter := by
  cases h with
  | @comparison field c _ _ hv =>
    refine .comparison field.isFree ?_ hv
    cases c <;> constructor
  | @call field test s name hn =>
    refine .call ?_ (.string s)
    cases test with
    | contains => exact .contains hn
    | startsWith => exact .startsWith hn
    | endsWith => exact .endsWith hn

theorem nesting_of_needsParens {rank : Rank} {f : Formula} (h : Formula.needsParens rank f) :
    f.nesting rank = f.nesting .disjunction + 1 := by
  cases rank <;> cases f <;> simp_all [Formula.nesting, Formula.needsParens]

theorem derives_of_renders {rank : Rank} {f : Formula} {ts : List Token} (h : Renders rank f ts)
    {levels : Nat} (hlevels : f.nesting rank ≤ levels) : Derives rank levels ts f.filter := by
  -- What writes a formula derives its filter within as many levels as are open at once.
  induction h generalizing levels with
  | condition hc => exact derives_of_operand _ (derives_of_phrases hc)
  | not ht _ ih =>
    cases levels with
    | zero => exact absurd hlevels (Nat.not_succ_le_zero _)
    | succ levels =>
      exact derives_of_operand _ (.negation ht (ih (Nat.le_of_succ_le_succ hlevels)))
  | @and rank _ _ _ _ _ hn _ ht _ ihf ihg =>
    rw [Formula.nesting, hn, Bool.toNat_false, Nat.add_zero] at hlevels
    have hand := Derives.and (ihf (Nat.le_trans (Nat.le_max_left _ _) hlevels)) ht
      (ihg (Nat.le_trans (Nat.le_max_right _ _) hlevels))
    cases rank with
    | operand => cases hn
    | conjunction => exact hand
    | disjunction => exact .conjunction hand
  | @or rank _ _ _ _ _ hn _ ht _ ihf ihg =>
    rw [Formula.nesting, hn, Bool.toNat_false, Nat.add_zero] at hlevels
    have hor := Derives.or (ihf (Nat.le_trans (Nat.le_max_left _ _) hlevels)) ht
      (ihg (Nat.le_trans (Nat.le_max_right _ _) hlevels))
    cases rank with
    | operand | conjunction => cases hn
    | disjunction => exact hor
  | parens hn _ ih =>
    rw [nesting_of_needsParens hn] at hlevels
    cases levels with
    | zero => exact absurd hlevels (Nat.not_succ_le_zero _)
    | succ levels => exact derives_of_operand _ (.parens (ih (Nat.le_of_succ_le_succ hlevels)))

theorem exists_phrases (c : Condition) : ∃ ts, Phrases c ts ∧ Writable ts := by
  have hword : ∀ text : String, isWordText text.toList → ∃ cs, Spelling (.word text) cs :=
    fun _ h => ⟨_, .word h⟩
  cases c with
  | comparison field c v =>
    have hliteral : ∃ t, Literal t v.value ∧ ∃ cs, Spelling t cs := by
      cases v with
      | string s => exact ⟨.string s, .string s, exists_spelling_string s⟩
      | int32 n => exact ⟨.int n.toInt64, .int32 n, _, .int _⟩
      | int64 n wide => exact ⟨.int n, .int64 wide, _, .int _⟩
      | bool b =>
        cases b with
        | false => exact ⟨.word "false", .false ⟨_, rfl, by decide⟩, hword _ (by decide)⟩
        | true => exact ⟨.word "true", .true ⟨_, rfl, by decide⟩, hword _ (by decide)⟩
      | null => exact ⟨.word "null", .null ⟨_, rfl, by decide⟩, hword _ (by decide)⟩
    obtain ⟨literal, hv, hl⟩ := hliteral
    have hsign : ∃ cs, Spelling c.sign cs := by
      cases c <;> exact exists_spelling_sign (by decide)
    refine ⟨_, .comparison hv, ?_⟩
    simpa [Writable] using ⟨hword _ field.isWord, hsign, hl⟩
  | call field test s =>
    have hname : (Token.word test.name).Names test.name := ⟨_, rfl, by cases test <;> decide⟩
    have htest : (".".toList ++ test.name.toList).all continuesWord := by cases test <;> decide
    have hcall : isWordText (field.text ++ "." ++ test.name).toList := by
      rw [String.toList_append, String.toList_append, List.append_assoc]
      exact isWordText_append field.isWord htest
    refine ⟨_, .call hname, ?_⟩
    simpa [Writable] using ⟨hword _ hcall, exists_spelling_sign (t := .leftParen) (by decide),
      exists_spelling_string s, exists_spelling_sign (t := .rightParen) (by decide)⟩

/-- A formula that can be written at every place where it needs no parentheses can be written at
every place. -/
theorem exists_renders_of_bare {f : Formula}
    (h : ∀ rank, Formula.needsParens rank f = false → ∃ ts, Renders rank f ts ∧ Writable ts)
    (rank : Rank) : ∃ ts, Renders rank f ts ∧ Writable ts := by
  cases hn : Formula.needsParens rank f with
  | false => exact h rank hn
  | true =>
    obtain ⟨ts, hts, hw⟩ := h .disjunction (by cases f <;> rfl)
    refine ⟨_, .parens hn hts, ?_⟩
    simpa [Writable, or_imp, forall_and] using ⟨exists_spelling_sign (t := .leftParen) (by decide),
      hw, exists_spelling_sign (t := .rightParen) (by decide)⟩

theorem exists_renders (f : Formula) (rank : Rank) : ∃ ts, Renders rank f ts ∧ Writable ts := by
  induction f generalizing rank with
  | condition c =>
    obtain ⟨ts, hts, hw⟩ := exists_phrases c
    exact ⟨ts, .condition hts, hw⟩
  | and f g ihf ihg =>
    refine exists_renders_of_bare (fun rank hn => ?_) rank
    obtain ⟨xs, hxs, hwx⟩ := ihf .conjunction
    obtain ⟨ys, hys, hwy⟩ := ihg .operand
    refine ⟨_, .and hn hxs (.inl rfl) hys, ?_⟩
    simpa [Writable, or_imp, forall_and] using
      ⟨hwx, exists_spelling_sign (t := .doubleAnd) (by decide), hwy⟩
  | or f g ihf ihg =>
    refine exists_renders_of_bare (fun rank hn => ?_) rank
    obtain ⟨xs, hxs, hwx⟩ := ihf .disjunction
    obtain ⟨ys, hys, hwy⟩ := ihg .conjunction
    refine ⟨_, .or hn hxs (.inl rfl) hys, ?_⟩
    simpa [Writable, or_imp, forall_and] using
      ⟨hwx, exists_spelling_sign (t := .doubleOr) (by decide), hwy⟩
  | not f ih =>
    obtain ⟨ts, hts, hw⟩ := ih .operand
    refine ⟨_, .not (.inl rfl) hts, ?_⟩
    simpa [Writable] using ⟨exists_spelling_sign (t := .bang) (by decide), hw⟩

theorem accepts_formula (d : Document) (f : Formula) :
    f.filter.accepts d = f.holds fun c => c.filter.accepts d := by
  induction f with
  | condition c => rfl
  | and f g ihf ihg => rw [Formula.filter, Formula.holds, Filter.accepts_and, ihf, ihg]
  | or f g ihf ihg => rw [Formula.filter, Formula.holds, Filter.accepts_or, ihf, ihg]
  | not f ih => rw [Formula.filter, Formula.holds, Filter.accepts_not, ih]

theorem exists_writtenAs (f : Formula) : ∃ text, f.WrittenAs text := by
  obtain ⟨ts, hts, hw⟩ := exists_renders f .disjunction
  obtain ⟨cs, hcs⟩ := exists_written hw
  exact ⟨String.ofList cs, ts, hts, by rwa [String.toList_ofList]⟩

/-- A formula in which no more parentheses and negations are open at once than allowed can be
written, and each text that writes it is read as its filter, which accepts the documents for which
the formula is true. -/
theorem parseFilter_of_writtenAs (f : Formula) (h : f.nesting .disjunction ≤ maxNesting) :
    (∃ text, f.WrittenAs text) ∧ ∀ text, f.WrittenAs text → parseFilter text = .ok f.filter ∧
      ∀ d : Document, f.filter.accepts d = f.holds fun c => c.filter.accepts d := by
  refine ⟨exists_writtenAs f, fun text hf => ⟨?_, fun d => accepts_formula d f⟩⟩
  obtain ⟨ts, hts, hw⟩ := hf
  obtain ⟨placed, hread, hp⟩ := tokens_of_written hw
  have hfilter : filterOfTokens text.utf8ByteSize placed = .ok f.filter :=
    filterOfTokens_of_derives (derives_of_renders hts h) hp
  rw [parseFilter, hread]
  exact hfilter

theorem parseFilter_of_negated_disjunction :
    let a : FieldName := ⟨"a", by decide, isFieldName_iff.mpr (by decide)⟩
    let b : FieldName := ⟨"b.c", by decide, isFieldName_iff.mpr (by decide)⟩
    let f : Formula :=
      .not (.or (.condition (.call a .contains "x")) (.condition (.comparison b .less (.int32 2))))
    let text := "NOT (a.Contains(\"x\") or b.c < 2)"
    f.nesting .disjunction ≤ maxNesting ∧ f.WrittenAs text ∧ parseFilter text = .ok f.filter := by
  intro a b f text
  have hnesting : f.nesting .disjunction ≤ maxNesting := by decide
  have hcall : Renders .disjunction (.condition (.call a .contains "x"))
      [.word "a.Contains", .leftParen, .string "x", .rightParen] :=
    .condition (.call ⟨"Contains", rfl, by decide⟩)
  have hless : Renders .conjunction (.condition (.comparison b .less (.int32 2)))
      [.word "b.c", .less, .int 2] :=
    .condition (.comparison (.int32 2))
  have hrenders : Renders .disjunction f
      [.word "NOT", .leftParen, .word "a.Contains", .leftParen, .string "x", .rightParen,
        .word "or", .word "b.c", .less, .int 2, .rightParen] :=
    .not (.inr ⟨"NOT", rfl, by decide⟩)
      (.parens rfl (.or rfl hcall (.inr ⟨"or", rfl, by decide⟩) hless))
  have hwritten : Written
      [.word "NOT", .leftParen, .word "a.Contains", .leftParen, .string "x", .rightParen,
        .word "or", .word "b.c", .less, .int 2, .rightParen]
      ("NOT".toList ++ ' ' :: (['('] ++ ("a.Contains".toList ++ (['('] ++ (['"', 'x', '"'] ++
        ([')'] ++ ' ' :: ("or".toList ++ ' ' :: ("b.c".toList ++ ' ' :: (['<'] ++ ' ' ::
          (['2'] ++ ([')'] ++ []))))))))))) := by
    refine .token (.word (by decide)) (runsOn_head (by decide)) (.blank (by decide) ?_)
    refine .token (.sign (by decide)) (runsOn_head (by decide)) ?_
    refine .token (.word (by decide)) (runsOn_head (by decide)) ?_
    refine .token (.sign (by decide)) (runsOn_head (by decide)) ?_
    refine .token (.string (.inl rfl) (.plain (by decide) (by decide) .nil))
      (runsOn_head (by decide)) ?_
    refine .token (.sign (by decide)) (runsOn_head (by decide)) (.blank (by decide) ?_)
    refine .token (.word (by decide)) (runsOn_head (by decide)) (.blank (by decide) ?_)
    refine .token (.word (by decide)) (runsOn_head (by decide)) (.blank (by decide) ?_)
    refine .token (.sign (by decide)) (runsOn_head (by decide)) (.blank (by decide) ?_)
    refine .token (.int 2) (runsOn_head (by decide)) ?_
    exact .token (.sign (by decide)) nofun .nil
  have htext : f.WrittenAs text := ⟨_, hrenders, by simpa [text] using hwritten⟩
  exact ⟨hnesting, htext, ((parseFilter_of_writtenAs f hnesting).2 text htext).1⟩

end Docbase.Language
