import Docbase.Language.Lexer
import Docbase.Proofs.Number.Decimal

namespace Docbase.Language

/-- `Escape e d`: behind a backslash the letter `e` stands for `d`. -/
inductive Escape : Char → Char → Prop where
  | newline : Escape 'n' '\n'
  | tab : Escape 't' '\t'
  | return : Escape 'r' '\r'
  | itself {c : Char} : c = '\\' ∨ c = '"' ∨ c = '\'' → Escape c c

/-- `StringBody quote content written`: the content of a string and one way of writing it between
two quotes. -/
inductive StringBody (quote : Char) : List Char → List Char → Prop where
  | nil : StringBody quote [] []
  | plain {c : Char} {content written : List Char} : c ≠ quote → c ≠ '\\' →
      StringBody quote content written → StringBody quote (c :: content) (c :: written)
  | escaped {e d : Char} {content written : List Char} : Escape e d →
      StringBody quote content written → StringBody quote (d :: content) ('\\' :: e :: written)

def Token.signs : Token → List (List Char)
  | leftParen => [['(']]
  | rightParen => [[')']]
  | comma => [[',']]
  | equal => [['='], ['=', '=']]
  | unequal => [['!', '='], ['<', '>']]
  | less => [['<']]
  | lessEqual => [['<', '=']]
  | greater => [['>']]
  | greaterEqual => [['>', '=']]
  | doubleAnd => [['&', '&']]
  | doubleOr => [['|', '|']]
  | bang => [['!']]
  | _ => []

def isWordText : List Char → Bool
  | [] => false
  | c :: cs => startsWord c && cs.all continuesWord

/-- `Spelling t cs`: the characters are one way of writing the token. -/
inductive Spelling : Token → List Char → Prop where
  | word {text : String} : isWordText text.toList → Spelling (.word text) text.toList
  | string {quote : Char} {content written : List Char} : quote = '"' ∨ quote = '\'' →
      StringBody quote content written →
      Spelling (.string (String.ofList content)) (quote :: (written ++ [quote]))
  | int (n : Int64) : Spelling (.int n) (toString n.toInt).toList
  | sign {t : Token} {cs : List Char} : cs ∈ t.signs → Spelling t cs

/-- Whether the characters of a token would go on with the next character. -/
def runsOn (next : Char) : List Char → Bool
  | [] => false
  | c :: cs =>
    if startsWord c then continuesWord next
    else if c = '-' || c.isDigit then next.isDigit || next = '.'
    else cs.isEmpty &&
      (next = '=' && ['=', '!', '<', '>'].contains c || next = '>' && c = '<')

/-- `Written ts cs`: the characters are the tokens one after the other with white space around
them. -/
inductive Written : List Token → List Char → Prop where
  | nil : Written [] []
  | blank {c : Char} {ts : List Token} {cs : List Char} : Text.isBlank c → Written ts cs →
      Written ts (c :: cs)
  | token {t : Token} {ts : List Token} {cs rest : List Char} : Spelling t cs →
      (∀ next ∈ rest.head?, runsOn next cs = false) → Written ts rest →
      Written (t :: ts) (cs ++ rest)

theorem runsOn_head {next : Char} {rest cs : List Char} (h : runsOn next cs = false) :
    ∀ other ∈ (next :: rest).head?, runsOn other cs = false := by
  intro other hother
  obtain rfl := Option.some.inj hother
  exact h

def blankNumbers : List Nat :=
  [9, 10, 11, 12, 13, 0x20, 0x85, 0xa0, 0x1680, 0x2000, 0x2001, 0x2002, 0x2003, 0x2004, 0x2005,
    0x2006, 0x2007, 0x2008, 0x2009, 0x200a, 0x2028, 0x2029, 0x202f, 0x205f, 0x3000]

theorem eq_false_of_isBlank {p : Char → Bool} {c : Char}
    (hall : ∀ n ∈ blankNumbers, p (Char.ofNat n) = false) (h : Text.isBlank c) : p c = false := by
  have hc : c.toNat ∈ blankNumbers := by
    simp only [Text.isBlank, Bool.or_eq_true, Bool.and_eq_true, decide_eq_true_eq] at h
    simp only [blankNumbers, List.mem_cons, List.not_mem_nil, or_false]
    have hs : c = ' ' → c.toNat = 0x20 := fun hs => by rw [hs]; rfl
    grind
  rw [← Char.ofNat_toNat c]
  exact hall c.toNat hc

theorem startsWord_ne {c s : Char} (hc : startsWord c) (hs : startsWord s = false) : c ≠ s := by
  rintro rfl
  rw [hc] at hs
  cases hs

theorem isDigit_of_startsWord {c : Char} (h : startsWord c) : c.isDigit = false := by
  refine Bool.eq_false_iff.mpr fun hd => ?_
  have hall : ∀ n < 58, startsWord (Char.ofNat n) = false := by decide
  have hlt : c.toNat < 58 := Nat.lt_of_le_of_lt (Char.isDigit_iff_toNat.mp hd).2 (by decide)
  have hf := hall c.toNat hlt
  rw [Char.ofNat_toNat, h] at hf
  cases hf

theorem continuesWord_of_isBlank {c : Char} (h : Text.isBlank c) : continuesWord c = false :=
  eq_false_of_isBlank (by decide +kernel) h

theorem isBlank_of_startsWord {c : Char} (h : startsWord c) : Text.isBlank c = false := by
  refine Bool.eq_false_iff.mpr fun hb => ?_
  have hf := continuesWord_of_isBlank hb
  simp only [continuesWord, Bool.or_eq_false_iff] at hf
  simp [startsWord, hf] at h

theorem runsOn_of_isBlank {c : Char} (h : Text.isBlank c) (cs : List Char) :
    runsOn c cs = false := by
  have hnumber : (c.isDigit || c = '.') = false :=
    eq_false_of_isBlank (p := fun c => c.isDigit || c = '.') (by decide) h
  have hsign : (c = '=' || c = '>') = false :=
    eq_false_of_isBlank (p := fun c => c = '=' || c = '>') (by decide) h
  rw [Bool.or_eq_false_iff] at hsign
  cases cs with
  | nil => rfl
  | cons d ds =>
    simp only [runsOn, continuesWord_of_isBlank h, hnumber, hsign, Bool.false_and, Bool.or_self,
      Bool.and_false, ite_self]

theorem unescape?_of_escape {e d : Char} (h : Escape e d) : unescape? e = some d := by
  cases h with
  | newline | tab | «return» => rfl
  | itself hc => obtain rfl | rfl | rfl := hc <;> rfl

theorem stringBody_of_written {quote : Char} {content written : List Char}
    (hq : quote ≠ '\\') (h : StringBody quote content written) (start position : Nat)
    (tail : List Char) :
    stringBody quote start position (written ++ quote :: tail) =
      .ok (content, written.length + 1) := by
  induction h generalizing position with
  | nil =>
    unfold stringBody
    exact if_pos rfl
  | plain hc hb _ ih =>
    unfold stringBody
    simp only [List.cons_append, if_neg hc, if_neg hb, ih]
    rfl
  | escaped he _ ih =>
    unfold stringBody
    simp only [List.cons_append, if_neg hq.symm, if_pos, unescape?_of_escape he, ih]
    rfl

theorem takeWhile_append_of_stop {p : Char → Bool} {cs tail : List Char} (hcs : cs.all p)
    (hstop : ∀ next ∈ tail.head?, p next = false) : (cs ++ tail).takeWhile p = cs := by
  rw [List.takeWhile_append_of_pos (List.all_eq_true.mp hcs)]
  cases tail with
  | nil => simp
  | cons next tail => simp [hstop next rfl]

theorem lexeme_word {position : Nat} {c : Char} {cs tail : List Char}
    (h : isWordText (c :: cs)) (hstop : ∀ next ∈ tail.head?, runsOn next (c :: cs) = false) :
    lexeme position c (cs ++ tail) = .ok (.word (String.ofList (c :: cs)), cs.length) := by
  simp only [isWordText, Bool.and_eq_true] at h
  obtain ⟨hc, hcs⟩ := h
  have hne : ∀ s, startsWord s = false → c ≠ s := fun s hs => startsWord_ne hc hs
  have hmore : (cs ++ tail).takeWhile continuesWord = cs := by
    refine takeWhile_append_of_stop hcs fun next hn => ?_
    simpa only [runsOn, hc, if_true] using hstop next hn
  unfold lexeme
  simp only [hne '(' (by decide), hne ')' (by decide), hne ',' (by decide), hne '=' (by decide),
    hne '!' (by decide), hne '<' (by decide), hne '>' (by decide), hne '&' (by decide),
    hne '|' (by decide), hne '"' (by decide), hne '\'' (by decide), hne '-' (by decide),
    isDigit_of_startsWord hc, hc, hmore, decide_false, Bool.or_self, Bool.false_eq_true, if_false,
    if_true]

theorem ne_of_runsOn {c next : Char} {tail : List Char} (hc : c ∈ ['=', '!', '<', '>'])
    (hstop : ∀ d ∈ (next :: tail).head?, runsOn d [c] = false) :
    next ≠ '=' ∧ (c = '<' → next ≠ '>') := by
  have hn := hstop next rfl
  have hs : ∀ s ∈ ['=', '!', '<', '>'], startsWord s = false ∧ (s = '-' || s.isDigit) = false := by
    intro s hs
    simp only [List.mem_cons, List.not_mem_nil, or_false] at hs
    obtain rfl | rfl | rfl | rfl := hs <;> decide
  simp only [runsOn, hs c hc, Bool.false_eq_true, if_false, List.isEmpty_nil, Bool.true_and,
    List.contains_iff_mem.mpr hc, Bool.and_true, Bool.or_eq_false_iff, Bool.and_eq_false_iff,
    decide_eq_false_iff_not] at hn
  exact ⟨hn.1, fun hlt => hn.2.resolve_right (absurd hlt)⟩

theorem lexeme_sign {position : Nat} {t : Token} {c : Char} {cs tail : List Char}
    (h : c :: cs ∈ t.signs) (hstop : ∀ next ∈ tail.head?, runsOn next (c :: cs) = false) :
    lexeme position c (cs ++ tail) = .ok (t, cs.length) := by
  cases t <;> simp [Token.signs] at h
  case leftParen | rightParen | comma | doubleAnd | doubleOr | lessEqual | greaterEqual =>
    obtain ⟨rfl, rfl⟩ := h
    rfl
  case unequal => obtain ⟨rfl, rfl⟩ | ⟨rfl, rfl⟩ := h <;> rfl
  case equal =>
    obtain ⟨rfl, rfl⟩ | ⟨rfl, rfl⟩ := h
    · cases tail with
      | nil => rfl
      | cons next tail =>
        have hne := ne_of_runsOn (by decide) hstop
        simp [lexeme, hne.1]
    · rfl
  case less | greater | bang =>
    obtain ⟨rfl, rfl⟩ := h
    cases tail with
    | nil => rfl
    | cons next tail =>
      have hne := ne_of_runsOn (by decide) hstop
      simp [lexeme, hne.1, hne.2]

theorem lexeme_string {position : Nat} {quote : Char} {content written tail : List Char}
    (hq : quote = '"' ∨ quote = '\'') (h : StringBody quote content written) :
    lexeme position quote (written ++ [quote] ++ tail) =
      .ok (.string (String.ofList content), (written ++ [quote]).length) := by
  have hne : quote ≠ '\\' := by obtain rfl | rfl := hq <;> decide
  have hbody := stringBody_of_written hne h position (position + 1) tail
  rw [List.append_assoc, List.singleton_append, List.length_append]
  obtain rfl | rfl := hq
  all_goals
    simp [lexeme, hbody]
    rfl

theorem ne_of_starts_number {c s : Char} (hc : c = '-' ∨ c.isDigit)
    (hs : (s = '-' || s.isDigit) = false) : c ≠ s := by
  rintro rfl
  simp only [Bool.or_eq_false_iff, decide_eq_false_iff_not] at hs
  exact hc.elim hs.1 (by simp [hs.2])

theorem numberToken_decimal (position : Nat) (n : Int64) :
    numberToken position (Number.decimal n.toInt) = .ok (.int n) := by
  obtain ⟨c, cs, heq⟩ := List.exists_cons_of_ne_nil (Number.decimal_ne_nil n.toInt)
  obtain ⟨hc, hcs⟩ := Number.of_decimal_eq_cons heq
  have hpoint : ∀ d ∈ Number.decimal n.toInt, d ≠ '.' := by
    intro d hd
    rw [heq] at hd
    obtain rfl | hd := List.mem_cons.mp hd
    · exact ne_of_starts_number hc (by decide)
    · exact ne_of_starts_number (.inr (List.all_eq_true.mp hcs d hd)) (by decide)
  have hdrop : (Number.decimal n.toInt).dropWhile (· ≠ '.') = [] := by
    have happ : (Number.decimal n.toInt ++ []).dropWhile (· ≠ '.') = [].dropWhile (· ≠ '.') :=
      List.dropWhile_append_of_pos (by simpa using hpoint)
    rwa [List.append_nil] at happ
  have hcontains : (Number.decimal n.toInt).contains '.' = false := by
    simpa using fun hmem => hpoint '.' hmem rfl
  unfold numberToken
  simp only [hdrop, hcontains, Number.int64OfText?_decimal, List.drop_nil, List.contains_nil,
    Bool.false_eq_true, if_false, Option.map_some]

theorem lexeme_int {position : Nat} {n : Int64} {c : Char} {cs tail : List Char}
    (h : Number.decimal n.toInt = c :: cs)
    (hstop : ∀ next ∈ tail.head?, runsOn next (c :: cs) = false) :
    lexeme position c (cs ++ tail) = .ok (.int n, cs.length) := by
  obtain ⟨hc, hcs⟩ := Number.of_decimal_eq_cons h
  have hw : startsWord c = false := by
    obtain rfl | hd := hc
    · decide
    · exact Bool.eq_false_iff.mpr fun hw => by simp [isDigit_of_startsWord hw] at hd
  have hmore : (cs ++ tail).takeWhile (fun d => d.isDigit || d = '.') = cs := by
    refine takeWhile_append_of_stop (List.all_eq_true.mpr fun d hd => ?_) fun next hn => ?_
    · simp [List.all_eq_true.mp hcs d hd]
    · have hr := hstop next hn
      simpa only [runsOn, hw, Bool.false_eq_true, if_false, Bool.or_eq_true, decide_eq_true_eq, hc,
        if_true] using hr
  have hne : ∀ s, (s = '-' || s.isDigit) = false → c ≠ s := fun s hs => ne_of_starts_number hc hs
  have htoken := numberToken_decimal position n
  rw [h] at htoken
  unfold lexeme
  simp only [hne '(' (by decide), hne ')' (by decide), hne ',' (by decide), hne '=' (by decide),
    hne '!' (by decide), hne '<' (by decide), hne '>' (by decide), hne '&' (by decide),
    hne '|' (by decide), hne '"' (by decide), hne '\'' (by decide), decide_false, Bool.or_self,
    Bool.false_eq_true, if_false, Bool.or_eq_true, decide_eq_true_eq, hc, if_true, hmore, htoken]
  rfl

theorem isBlank_of_isDigit {c : Char} (h : c.isDigit) : Text.isBlank c = false := by
  refine Bool.eq_false_iff.mpr fun hb => ?_
  have hf := eq_false_of_isBlank (p := Char.isDigit) (by decide) hb
  rw [h] at hf
  cases hf

/-- A token starts with a character that is not blank, and where the next character does not go on
with it the reader finds it. -/
theorem exists_lexeme {t : Token} {cs : List Char} (h : Spelling t cs) :
    ∃ c more, cs = c :: more ∧ Text.isBlank c = false ∧
      ∀ position tail, (∀ next ∈ tail.head?, runsOn next cs = false) →
        lexeme position c (more ++ tail) = .ok (t, more.length) := by
  cases h with
  | @word text hw =>
    have htext := String.ofList_toList (s := text)
    revert hw htext
    cases text.toList with
    | nil => exact fun hw => nomatch hw
    | cons c cs =>
      rintro hw rfl
      have hc : startsWord c := (Bool.and_eq_true _ _ ▸ hw).1
      exact ⟨c, cs, rfl, isBlank_of_startsWord hc, fun _ _ hstop => lexeme_word hw hstop⟩
  | @string quote _ _ hq hbody =>
    refine ⟨quote, _, rfl, ?_, fun _ _ _ => lexeme_string hq hbody⟩
    obtain rfl | rfl := hq <;> decide
  | int n =>
    rw [Number.toList_toString]
    obtain ⟨c, cs, heq⟩ := List.exists_cons_of_ne_nil (Number.decimal_ne_nil n.toInt)
    refine ⟨c, cs, heq, ?_, fun _ _ hstop => lexeme_int heq (heq ▸ hstop)⟩
    obtain rfl | hd := (Number.of_decimal_eq_cons heq).1
    · decide
    · exact isBlank_of_isDigit hd
  | sign hs =>
    have hc : ∃ c more, cs = c :: more ∧ Text.isBlank c = false := by
      cases t <;> simp [Token.signs] at hs
      all_goals first
        | exact ⟨_, _, hs, by decide⟩
        | obtain hs | hs := hs <;> exact ⟨_, _, hs, by decide⟩
    obtain ⟨c, more, rfl, hb⟩ := hc
    exact ⟨c, more, rfl, hb, fun _ _ hstop => lexeme_sign hs hstop⟩

/-- The content of a string with a backslash in front of each backslash and each quote. -/
def escape (quote : Char) : List Char → List Char
  | [] => []
  | c :: cs =>
    if c = quote || c = '\\' then '\\' :: c :: escape quote cs else c :: escape quote cs

theorem stringBody_escape {quote : Char} (hq : quote = '"' ∨ quote = '\'') (content : List Char) :
    StringBody quote content (escape quote content) := by
  induction content with
  | nil => exact .nil
  | cons c content ih =>
    rw [escape]
    split
    next hc =>
      refine .escaped (.itself ?_) ih
      simp only [Bool.or_eq_true, decide_eq_true_eq] at hc
      obtain rfl | hb := hc
      · exact .inr hq
      · exact .inl hb
    next hc =>
      simp only [Bool.or_eq_true, decide_eq_true_eq, not_or] at hc
      exact .plain hc.1 hc.2 ih

theorem exists_spelling_string (s : String) : ∃ cs, Spelling (.string s) cs := by
  have hs := Spelling.string (.inl rfl) (stringBody_escape (.inl rfl) s.toList)
  rw [String.ofList_toList] at hs
  exact ⟨_, hs⟩

theorem exists_spelling_sign {t : Token} (h : t.signs ≠ []) : ∃ cs, Spelling t cs := by
  obtain ⟨cs, hcs⟩ := List.exists_mem_of_ne_nil _ h
  exact ⟨cs, .sign hcs⟩

theorem isWordText_append {cs ds : List Char} (h : isWordText cs) (hds : ds.all continuesWord) :
    isWordText (cs ++ ds) := by
  cases cs with
  | nil => cases h
  | cons c cs =>
    simp only [isWordText, Bool.and_eq_true] at h
    simp only [List.cons_append, isWordText, h.1, List.all_append, h.2, hds, Bool.and_self]

def Writable (ts : List Token) : Prop := ∀ t ∈ ts, ∃ cs, Spelling t cs

theorem exists_written {ts : List Token} (h : Writable ts) : ∃ cs, Written ts cs := by
  induction ts with
  | nil => exact ⟨[], .nil⟩
  | cons t ts ih =>
    obtain ⟨cs, hcs⟩ := h t (List.mem_cons_self ..)
    obtain ⟨rest, hrest⟩ := ih fun t ht => h t (List.mem_cons_of_mem _ ht)
    refine ⟨cs ++ ' ' :: rest, .token hcs ?_ (.blank (by decide) hrest)⟩
    exact runsOn_head (runsOn_of_isBlank (by decide) cs)

theorem tokensFrom_skip (position : Nat) (cs tail : List Char) :
    tokensFrom cs.length position (cs ++ tail) = tokensFrom 0 (position + byteWidth cs) tail := by
  induction cs generalizing position with
  | nil => rfl
  | cons c cs ih =>
    rw [List.length_cons, List.cons_append, tokensFrom, ih, Nat.add_assoc]
    rfl

theorem tokensFrom_of_spelling {t : Token} {cs rest : List Char} (h : Spelling t cs)
    (hstop : ∀ next ∈ rest.head?, runsOn next cs = false) (position : Nat) :
    tokensFrom 0 position (cs ++ rest) = (do
      let placed ← tokensFrom 0 (position + byteWidth cs) rest
      .ok (⟨t, position⟩ :: placed)) := by
  obtain ⟨c, more, rfl, hb, hread⟩ := exists_lexeme h
  rw [List.cons_append, tokensFrom, if_neg (by simp [hb]), hread position rest hstop]
  change (tokensFrom more.length (position + c.utf8Size) (more ++ rest) >>= _) = _
  rw [tokensFrom_skip, Nat.add_assoc]
  rfl

theorem tokensFrom_of_written {ts : List Token} {cs : List Char} (h : Written ts cs)
    (position : Nat) :
    ∃ placed, tokensFrom 0 position cs = .ok placed ∧ placed.map Placed.token = ts := by
  induction h generalizing position with
  | nil => exact ⟨[], rfl, rfl⟩
  | @blank c _ _ hb _ ih =>
    obtain ⟨placed, hp, hts⟩ := ih (position + c.utf8Size)
    exact ⟨placed, by rw [tokensFrom, if_pos hb, hp], hts⟩
  | @token t ts cs rest hs hstop _ ih =>
    obtain ⟨placed, hp, hts⟩ := ih (position + byteWidth cs)
    refine ⟨⟨t, position⟩ :: placed, ?_, by rw [List.map_cons, hts]⟩
    rw [tokensFrom_of_spelling hs hstop, hp]
    rfl

theorem tokens_of_written {ts : List Token} {text : String} (h : Written ts text.toList) :
    ∃ placed, tokens text = .ok placed ∧ placed.map Placed.token = ts :=
  tokensFrom_of_written h 0

end Docbase.Language
