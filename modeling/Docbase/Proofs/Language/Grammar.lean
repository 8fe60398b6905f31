import Docbase.Language.Parser
import Docbase.Proofs.Number.Decimal
import Docbase.Proofs.Path

namespace Docbase.Language

def Token.Names (keyword : String) (t : Token) : Prop :=
  ∃ text, t = .word text ∧ text.toList.map Char.toLower = keyword.toList

def Token.Conjoins (t : Token) : Prop := t = .doubleAnd ∨ t.Names "and"

def Token.Disjoins (t : Token) : Prop := t = .doubleOr ∨ t.Names "or"

def Token.Negates (t : Token) : Prop := t = .bang ∨ t.Names "not"

def IsFieldName (text : String) : Prop :=
  ¬(Token.word text).Names "and" ∧ ¬(Token.word text).Names "or" ∧ ¬(Token.word text).Names "not"

inductive Compares : Token → Operator → Prop where
  | equal : Compares .equal .eq
  | unequal : Compares .unequal .ne
  | less : Compares .less .lt
  | lessEqual : Compares .lessEqual .lte
  | greater : Compares .greater .gt
  | greaterEqual : Compares .greaterEqual .gte

inductive Literal : Token → Value → Prop where
  | string (s : String) : Literal (.string s) (.string s)
  | int32 (n : Int32) : Literal (.int n.toInt64) (.int32 n)
  | int64 {n : Int64} : (∀ m : Int32, m.toInt64 ≠ n) → Literal (.int n) (.int64 n)
  | double (x : Double) : Literal (.float x) (.double x)
  | true {t : Token} : t.Names "true" → Literal t (.bool true)
  | false {t : Token} : t.Names "false" → Literal t (.bool false)
  | null {t : Token} : t.Names "null" → Literal t .null

/-- `Method name op v`: the method applies the operator and takes the literal. -/
inductive Method (name : String) : Operator → Value → Prop where
  | equals {v : Value} : (Token.word name).Names "equals" → Method name .eq v
  | contains {s : String} : (Token.word name).Names "contains" → Method name .contains (.string s)
  | startsWith {s : String} : (Token.word name).Names "startswith" →
      Method name .startsWith (.string s)
  | endsWith {s : String} : (Token.word name).Names "endswith" → Method name .endsWith (.string s)

inductive Rank where
  | disjunction
  | conjunction
  | operand

/-- `Derives rank levels ts f`: the tokens derive from the rank with at most `levels` parentheses
and negations open at once, and stand for the filter. -/
inductive Derives : Rank → Nat → List Token → Filter → Prop where
  | truth {levels : Nat} {field : String} : IsFieldName field →
      Derives .operand levels [.word field] (.comparison (Path.ofString field) .eq (.bool true))
  | comparison {levels : Nat} {field : String} {sign literal : Token} {op : Operator} {v : Value} :
      IsFieldName field → Compares sign op → Literal literal v →
      Derives .operand levels [.word field, sign, literal] (.comparison (Path.ofString field) op v)
  | call {levels : Nat} {field name : String} {literal : Token} {op : Operator} {v : Value} :
      Method name op v → Literal literal v →
      Derives .operand levels [.word (field ++ "." ++ name), .leftParen, literal, .rightParen]
        (.comparison (Path.ofString field) op v)
  | negation {levels : Nat} {t : Token} {ts : List Token} {f : Filter} : t.Negates →
      Derives .operand levels ts f → Derives .operand (levels + 1) (t :: ts) f.not
  | parens {levels : Nat} {ts : List Token} {f : Filter} : Derives .disjunction levels ts f →
      Derives .operand (levels + 1) (.leftParen :: (ts ++ [.rightParen])) f
  | operand {levels : Nat} {ts : List Token} {f : Filter} : Derives .operand levels ts f →
      Derives .conjunction levels ts f
  | and {levels : Nat} {t : Token} {xs ys : List Token} {f g : Filter} :
      Derives .conjunction levels xs f → t.Conjoins → Derives .operand levels ys g →
      Derives .conjunction levels (xs ++ t :: ys) (f.and g)
  | conjunction {levels : Nat} {ts : List Token} {f : Filter} : Derives .conjunction levels ts f →
      Derives .disjunction levels ts f
  | or {levels : Nat} {t : Token} {xs ys : List Token} {f g : Filter} :
      Derives .disjunction levels xs f → t.Disjoins → Derives .conjunction levels ys g →
      Derives .disjunction levels (xs ++ t :: ys) (f.or g)

section Tokens

variable {t : Token} {text keyword : String}

theorem names_word :
    (Token.word text).Names keyword ↔ text.toList.map Char.toLower = keyword.toList := by
  simp [Token.Names]

theorem sameIgnoringCase_iff (keyword : String)
    (h : keyword.toList.map Char.toLower = keyword.toList) :
    Text.sameIgnoringCase text keyword ↔ (Token.word text).Names keyword := by
  simp [Text.sameIgnoringCase, names_word, h]

theorem isWord_iff (keyword : String) (h : keyword.toList.map Char.toLower = keyword.toList) :
    t.isWord keyword ↔ t.Names keyword := by
  cases t with
  | word text => exact sameIgnoringCase_iff keyword h
  | _ => simp [Token.isWord, Token.Names]

theorem isAnd_iff : t.isAnd ↔ t.Conjoins := by
  simp [Token.isAnd, Token.Conjoins, isWord_iff (t := t) "and" (by decide)]

theorem isOr_iff : t.isOr ↔ t.Disjoins := by
  simp [Token.isOr, Token.Disjoins, isWord_iff (t := t) "or" (by decide)]

theorem isNot_iff : t.isNot ↔ t.Negates := by
  simp [Token.isNot, Token.Negates, isWord_iff (t := t) "not" (by decide)]

theorem isFieldName_iff : IsFieldName text ↔ ¬(Token.word text).isConnective := by
  simp only [Token.isConnective, Bool.or_eq_true, isWord_iff "and" (by decide),
    isWord_iff "or" (by decide), isWord_iff "not" (by decide),
    IsFieldName, not_or, and_assoc]

theorem fieldWord?_eq_some_iff {field : String} :
    fieldWord? t = some field ↔ t = .word field ∧ IsFieldName field := by
  cases t with
  | word text =>
    by_cases hc : (Token.word text).isConnective
    · have hnone : fieldWord? (.word text) = none := if_pos hc
      rw [hnone]
      refine ⟨nofun, fun ⟨h, hfield⟩ => ?_⟩
      obtain rfl := Token.word.inj h
      exact absurd hc (isFieldName_iff.mp hfield)
    · have hsome : fieldWord? (.word text) = some text := if_neg hc
      rw [hsome, Option.some.injEq, Token.word.injEq]
      refine ⟨fun h => ⟨h, ?_⟩, And.left⟩
      rw [← h]
      exact isFieldName_iff.mpr hc
  | _ => simp [fieldWord?]

theorem comparison?_eq_some_iff {op : Operator} : t.comparison? = some op ↔ Compares t op := by
  constructor
  · intro h
    cases t <;> simp [Token.comparison?] at h <;> subst h <;> constructor
  · intro h
    cases h <;> rfl

theorem literal?_of_literal {v : Value} (h : Literal t v) : t.literal? = some v := by
  cases h with
  | string | double => rfl
  | int32 n => simp only [Token.literal?, Int32.toInt_toInt64, Number.int32?_toInt]
  | @int64 n hwide =>
    have hnone : Number.int32? n.toInt = none := by
      refine if_neg fun hfits => ?_
      simp only [Bool.and_eq_true, decide_eq_true_eq] at hfits
      refine hwide (Int32.ofInt n.toInt) (Int64.toInt.inj ?_)
      rw [Int32.toInt_toInt64, Int32.toInt_ofInt_of_le hfits.1 (Int.lt_add_one_of_le hfits.2)]
    simp only [Token.literal?, hnone]
  | «true» hn | «false» hn | null hn =>
    obtain ⟨text, rfl, heq⟩ := hn
    simp [Token.literal?, Token.isWord, sameIgnoringCase_iff "true" (by decide),
      sameIgnoringCase_iff "false" (by decide),
      sameIgnoringCase_iff "null" (by decide), names_word, heq]

theorem method?_of_method {name : String} {op : Operator} {v : Value} (h : Method name op v) :
    method? name = some op := by
  cases h with
  | equals hn | contains hn | startsWith hn | endsWith hn =>
    rw [names_word] at hn
    simp [method?, sameIgnoringCase_iff "equals" (by decide),
      sameIgnoringCase_iff "contains" (by decide),
      sameIgnoringCase_iff "startswith" (by decide),
      sameIgnoringCase_iff "endswith" (by decide), names_word, hn]

theorem dot_not_mem_of_method {name : String} {op : Operator} {v : Value} (h : Method name op v) :
    '.' ∉ name.toList := by
  intro hdot
  have hmem : '.' ∈ name.toList.map Char.toLower := List.mem_map.mpr ⟨'.', hdot, rfl⟩
  cases h with
  | equals hn | contains hn | startsWith hn | endsWith hn =>
    rw [names_word.mp hn] at hmem
    exact absurd hmem (by decide)

theorem isFieldName_dot (field name : String) : IsFieldName (field ++ "." ++ name) := by
  have hmem : '.' ∈ (field ++ "." ++ name).toList.map Char.toLower :=
    List.mem_map.mpr ⟨'.', by simp [String.toList_append], rfl⟩
  simp only [IsFieldName, names_word]
  refine ⟨fun h => ?_, fun h => ?_, fun h => ?_⟩
  all_goals
    rw [h] at hmem
    exact absurd hmem (by decide)

end Tokens

section Reading

variable (finish : Nat)

def EndsField (rest : List Placed) : Prop :=
  ∀ next ∈ rest.head?, next.token ≠ .leftParen ∧ next.token.comparison? = none

/-- Where the reader of a rank gets from tokens that derive from it. At the ranks of chains it is in
front of the rounds that read on, so that more of the chain may follow. -/
def Reads (rank : Rank) (levels : Nat) (placed : List Placed) (f : Filter) : Prop :=
  match rank with
  | .operand => ∀ rest, EndsField rest →
    operand finish levels (placed ++ rest) = .ok (f, rest)
  | .conjunction => ∀ rest, EndsField rest → ∃ rounds, rest.length ≤ rounds ∧
    conjunction (operand finish levels) (placed ++ rest) =
      chainFrom Token.isAnd Filter.and (operand finish levels) rounds f rest
  | .disjunction => ∀ rest, EndsField rest → (∀ next ∈ rest.head?, next.token.isAnd = false) →
    ∃ rounds, rest.length ≤ rounds ∧
      disjunction (operand finish levels) (placed ++ rest) =
        chainFrom Token.isOr Filter.or (conjunction (operand finish levels)) rounds f rest

variable {finish}

theorem endsField_cons {t : Placed} {rest : List Placed}
    (h : t.token.Conjoins ∨ t.token.Disjoins ∨ t.token = .rightParen) : EndsField (t :: rest) := by
  intro next hn
  obtain rfl := Option.some.inj hn
  obtain (h | ⟨_, h, _⟩) | (h | ⟨_, h, _⟩) | h := h
  all_goals simp [h, Token.comparison?]

theorem isAnd_of_disjoins {t : Token} (h : t.Disjoins) : t.isAnd = false := by
  refine Bool.eq_false_iff.mpr fun ha => ?_
  obtain rfl | ⟨text, rfl, heq⟩ := h
  · exact absurd ha (by decide)
  · obtain h | h := isAnd_iff.mp ha
    · cases h
    · rw [names_word, heq] at h
      exact absurd h (by decide)

theorem chain_of_item {separates : Token → Bool} {combine : Filter → Filter → Filter}
    {item : Reader Filter} {ts rest : List Placed} {f : Filter} (h : item ts = .ok (f, rest)) :
    chain separates combine item ts =
      chainFrom separates combine item rest.length f rest := by
  rw [chain, h]
  rfl

theorem chainFrom_step {separates : Token → Bool} {combine : Filter → Filter → Filter}
    {item : Reader Filter} {t : Placed} {ts rest : List Placed} {f g : Filter} (rounds : Nat)
    (ht : separates t.token) (h : item ts = .ok (g, rest)) :
    chainFrom separates combine item (rounds + 1) f (t :: ts) =
      chainFrom separates combine item rounds (combine f g) rest := by
  rw [chainFrom, if_pos ht, h]
  rfl

theorem chainFrom_stop {separates : Token → Bool} {combine : Filter → Filter → Filter}
    {item : Reader Filter} {rest : List Placed} (rounds : Nat) (f : Filter)
    (h : ∀ next ∈ rest.head?, separates next.token = false) :
    chainFrom separates combine item rounds f rest = .ok (f, rest) := by
  cases rounds with
  | zero => rw [chainFrom]
  | succ rounds =>
    cases rest with
    | nil => rfl
    | cons next rest => rw [chainFrom, if_neg (by simp [h next rfl])]

theorem chain_of_rounds {separates : Token → Bool} {combine : Filter → Filter → Filter}
    {item : Reader Filter} {ts rest : List Placed} {f : Filter}
    (h : ∃ rounds, rest.length ≤ rounds ∧
      chain separates combine item ts = chainFrom separates combine item rounds f rest)
    (hstop : ∀ next ∈ rest.head?, separates next.token = false) :
    chain separates combine item ts = .ok (f, rest) := by
  obtain ⟨rounds, -, h⟩ := h
  rw [h, chainFrom_stop rounds f hstop]

theorem chain_of_rounds_cons {separates : Token → Bool} {combine : Filter → Filter → Filter}
    {item : Reader Filter} {t : Placed} {ts us rest : List Placed} {f g : Filter}
    (h : ∃ rounds, (t :: us).length ≤ rounds ∧
      chain separates combine item ts = chainFrom separates combine item rounds f (t :: us))
    (ht : separates t.token) (hitem : item us = .ok (g, rest)) (hlen : rest.length ≤ us.length) :
    ∃ rounds, rest.length ≤ rounds ∧
      chain separates combine item ts =
        chainFrom separates combine item rounds (combine f g) rest := by
  obtain ⟨rounds, hle, h⟩ := h
  obtain ⟨rounds, rfl⟩ : ∃ k, rounds = k + 1 := ⟨rounds - 1, by simp at hle; omega⟩
  refine ⟨rounds, by simp at hle; omega, ?_⟩
  rw [h, chainFrom_step rounds ht hitem]

theorem operand_of_field {levels : Nat} {field : String} {position : Nat} {rest : List Placed}
    (h : IsFieldName field) :
    operand finish levels (⟨.word field, position⟩ :: rest) =
      atom finish (⟨.word field, position⟩ :: rest) := by
  have hnot : (Token.word field).isNot = false := by
    refine Bool.eq_false_iff.mpr fun hn => ?_
    obtain hb | hn := isNot_iff.mp hn
    · cases hb
    · exact h.2.2 hn
  have hopens : opensLevel (⟨.word field, position⟩ :: rest) = false := by
    simp [opensLevel, hnot]
  cases levels with
  | zero => rw [operand, if_neg (by simp [hopens])]
  | succ levels => rw [operand, if_neg (by simp [hnot]), if_neg (by simp)]

theorem atom_of_field {field : String} {position : Nat} {next : Placed} {more : List Placed}
    (h : IsFieldName field) (hnext : next.token ≠ .leftParen) :
    atom finish (⟨.word field, position⟩ :: next :: more) =
      (match next.token.comparison? with
      | none => .ok (.comparison (Path.ofString field) .eq (.bool true), next :: more)
      | some op => do
        let (value, rest) ← literal finish more
        .ok (.comparison (Path.ofString field) op value, rest)) := by
  have hfield : fieldWord? (.word field) = some field := fieldWord?_eq_some_iff.mpr ⟨rfl, h⟩
  unfold atom
  dsimp only
  rw [hfield]
  refine (if_neg hnext).trans ?_
  cases next.token.comparison? <;> rfl

theorem operand_truth {levels : Nat} {field : String} {position : Nat} {rest : List Placed}
    (h : IsFieldName field) (hrest : EndsField rest) :
    operand finish levels (⟨.word field, position⟩ :: rest) =
      .ok (.comparison (Path.ofString field) .eq (.bool true), rest) := by
  rw [operand_of_field h]
  cases rest with
  | nil =>
    have hfield : fieldWord? (.word field) = some field := fieldWord?_eq_some_iff.mpr ⟨rfl, h⟩
    simp only [atom, hfield]
  | cons next more =>
    obtain ⟨hparen, hcomparison⟩ := hrest next rfl
    rw [atom_of_field h hparen, hcomparison]

theorem literal_of_literal {t : Placed} {rest : List Placed} {v : Value} (h : Literal t.token v) :
    literal finish (t :: rest) = .ok (v, rest) := by
  simp only [literal, literal?_of_literal h]

theorem operand_comparison {levels : Nat} {field : String} {position : Nat}
    {sign value : Placed} {rest : List Placed} {op : Operator} {v : Value} (h : IsFieldName field)
    (hsign : Compares sign.token op) (hvalue : Literal value.token v) :
    operand finish levels (⟨.word field, position⟩ :: sign :: value :: rest) =
      .ok (.comparison (Path.ofString field) op v, rest) := by
  have hparen : sign.token ≠ .leftParen := by
    intro heq
    rw [heq] at hsign
    cases hsign
  rw [operand_of_field h, atom_of_field h hparen, comparison?_eq_some_iff.mpr hsign,
    literal_of_literal hvalue]
  rfl

theorem operand_call {levels : Nat} {field name : String} {position : Nat}
    {left value right : Placed} {rest : List Placed} {op : Operator} {v : Value}
    (hmethod : Method name op v) (hleft : left.token = .leftParen)
    (hvalue : Literal value.token v) (hright : right.token = .rightParen) :
    operand finish levels
        (⟨.word (field ++ "." ++ name), position⟩ :: left :: value :: right :: rest) =
      .ok (.comparison (Path.ofString field) op v, rest) := by
  have hname := isFieldName_dot field name
  have hword : fieldWord? (.word (field ++ "." ++ name)) = some (field ++ "." ++ name) :=
    fieldWord?_eq_some_iff.mpr ⟨rfl, hname⟩
  obtain ⟨_, _⟩ := right
  obtain rfl : _ = Token.rightParen := hright
  rw [operand_of_field hname]
  simp only [atom, hword, hleft, if_true, methodCall,
    Path.splitLast?_ofString_dot field (dot_not_mem_of_method hmethod), method?_of_method hmethod,
    literal_of_literal hvalue]
  cases hmethod <;> rfl

theorem operand_negation {levels : Nat} {t : Placed} {ts rest : List Placed} {f : Filter}
    (ht : t.token.Negates) (h : operand finish levels ts = .ok (f, rest)) :
    operand finish (levels + 1) (t :: ts) = .ok (f.not, rest) := by
  rw [operand, if_pos (isNot_iff.mpr ht), h]
  rfl

theorem operand_parens {levels : Nat} {left right : Placed} {ts rest : List Placed} {f : Filter}
    (hleft : left.token = .leftParen) (hright : right.token = .rightParen)
    (h : disjunction (operand finish levels) ts = .ok (f, right :: rest)) :
    operand finish (levels + 1) (left :: ts) = .ok (f, rest) := by
  have hnot : left.token.isNot = false := by rw [hleft]; decide
  obtain ⟨_, _⟩ := right
  obtain rfl : _ = Token.rightParen := hright
  rw [operand, if_neg (by simp [hnot]), if_pos hleft, h]
  rfl

theorem reads_of_derives {rank : Rank} {levels : Nat} {ts : List Token} {f : Filter}
    (h : Derives rank levels ts f) {placed : List Placed} (hp : placed.map Placed.token = ts) :
    Reads finish rank levels placed f := by
  -- The reader of each rank comes to the filter.
  induction h generalizing placed with
  | truth hfield =>
    obtain ⟨⟨_, _⟩, _, rfl, rfl, hnil⟩ := List.map_eq_cons_iff.mp hp
    obtain rfl := List.map_eq_nil_iff.mp hnil
    exact fun rest hrest => operand_truth hfield hrest
  | comparison hfield hsign hvalue =>
    obtain ⟨⟨_, _⟩, _, rfl, rfl, hsigns⟩ := List.map_eq_cons_iff.mp hp
    obtain ⟨sign, _, rfl, rfl, hvalues⟩ := List.map_eq_cons_iff.mp hsigns
    obtain ⟨value, _, rfl, rfl, hnil⟩ := List.map_eq_cons_iff.mp hvalues
    obtain rfl := List.map_eq_nil_iff.mp hnil
    exact fun rest _ => operand_comparison hfield hsign hvalue
  | call hmethod hvalue =>
    obtain ⟨⟨_, _⟩, _, rfl, rfl, hcall⟩ := List.map_eq_cons_iff.mp hp
    obtain ⟨left, _, rfl, hleft, hvalues⟩ := List.map_eq_cons_iff.mp hcall
    obtain ⟨value, _, rfl, rfl, hclose⟩ := List.map_eq_cons_iff.mp hvalues
    obtain ⟨right, _, rfl, hright, hnil⟩ := List.map_eq_cons_iff.mp hclose
    obtain rfl := List.map_eq_nil_iff.mp hnil
    exact fun rest _ => operand_call hmethod hleft hvalue hright
  | negation ht _ ih =>
    obtain ⟨t, _, rfl, rfl, htail⟩ := List.map_eq_cons_iff.mp hp
    exact fun rest hrest => operand_negation ht (ih htail rest hrest)
  | parens _ ih =>
    obtain ⟨left, _, rfl, hleft, htail⟩ := List.map_eq_cons_iff.mp hp
    obtain ⟨inner, _, rfl, hinner, htail⟩ := List.map_eq_append_iff.mp htail
    obtain ⟨right, _, rfl, hright, hnil⟩ := List.map_eq_cons_iff.mp htail
    obtain rfl := List.map_eq_nil_iff.mp hnil
    intro rest _
    have hstop : ∀ s : Token → Bool, s .rightParen = false →
        ∀ next ∈ (right :: rest).head?, s next.token = false := by
      intro s hs next hn
      obtain rfl := Option.some.inj hn
      rw [hright, hs]
    have hread := ih hinner (right :: rest) (endsField_cons (.inr (.inr hright)))
      (hstop _ (by decide))
    rw [List.cons_append, List.append_assoc, List.singleton_append]
    exact operand_parens hleft hright (chain_of_rounds hread (hstop _ (by decide)))
  | operand _ ih => exact fun rest hrest => ⟨rest.length, Nat.le_refl _, chain_of_item (ih hp rest hrest)⟩
  | and _ ht _ ihf ihg =>
    obtain ⟨left, _, rfl, hleft, htail⟩ := List.map_eq_append_iff.mp hp
    obtain ⟨t, right, rfl, rfl, hright⟩ := List.map_eq_cons_iff.mp htail
    intro rest hrest
    have hread := ihf hleft (t :: (right ++ rest)) (endsField_cons (.inl ht))
    have hitem := ihg hright rest hrest
    rw [List.append_assoc, List.cons_append]
    exact chain_of_rounds_cons hread (isAnd_iff.mpr ht) hitem (by simp)
  | conjunction _ ih =>
    intro rest hrest hand
    exact ⟨rest.length, Nat.le_refl _, chain_of_item (chain_of_rounds (ih hp rest hrest) hand)⟩
  | or _ ht _ ihf ihg =>
    obtain ⟨left, _, rfl, hleft, htail⟩ := List.map_eq_append_iff.mp hp
    obtain ⟨t, right, rfl, rfl, hright⟩ := List.map_eq_cons_iff.mp htail
    intro rest hrest hand
    have hread := ihf hleft (t :: (right ++ rest)) (endsField_cons (.inr (.inl ht))) (by
      intro next hn
      obtain rfl := Option.some.inj hn
      exact isAnd_of_disjoins ht)
    have hitem := chain_of_rounds (ihg hright rest hrest) hand
    rw [List.append_assoc, List.cons_append]
    exact chain_of_rounds_cons hread (isOr_iff.mpr ht) hitem (by simp)

theorem filterOfTokens_of_derives {ts : List Token} {f : Filter}
    (h : Derives .disjunction maxNesting ts f) {placed : List Placed}
    (hp : placed.map Placed.token = ts) : filterOfTokens finish placed = .ok f := by
  have hread : Reads finish .disjunction maxNesting placed f := reads_of_derives h hp
  have hread := hread [] (by simp [EndsField]) (by simp)
  have hall := chain_of_rounds hread (by simp)
  rw [List.append_nil] at hall
  have hne : placed.isEmpty = false := by
    cases placed with
    | nil => exact nomatch hall
    | cons t placed => rfl
  rw [filterOfTokens, if_neg (by simp [hne])]
  change chain Token.isOr Filter.or (conjunction (operand finish maxNesting)) placed >>= _ = _
  rw [hall]
  rfl

end Reading

end Docbase.Language
