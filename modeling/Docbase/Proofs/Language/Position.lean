import Docbase.Proofs.Except
import Docbase.Proofs.Language.Spelling
import Mathlib.Data.List.TakeWhile
import Mathlib.Data.String.Basic

namespace Docbase.Language

variable {position p : Nat} {c : Char} {cs ds : List Char} {fault : Fault}

theorem byteWidth_append (cs ds : List Char) :
    byteWidth (cs ++ ds) = byteWidth cs + byteWidth ds := by
  induction cs with
  | nil => exact (Nat.zero_add _).symm
  | cons c cs ih =>
    change c.utf8Size + byteWidth (cs ++ ds) = c.utf8Size + byteWidth cs + byteWidth ds
    rw [ih, Nat.add_assoc]

theorem byteWidth_cons (c : Char) (cs : List Char) :
    byteWidth (c :: cs) = c.utf8Size + byteWidth cs := rfl

theorem byteWidth_eq_utf8Len (cs : List Char) : byteWidth cs = String.utf8Len cs := by
  induction cs with
  | nil => rfl
  | cons c cs ih => rw [byteWidth_cons, String.utf8Len_cons, ih, Nat.add_comm]

theorem byteWidth_toList (text : String) : byteWidth text.toList = text.utf8ByteSize := by
  rw [byteWidth_eq_utf8Len, String.utf8Len_toList]

/-- The offset is a boundary between two characters, or an end, of characters that start at
`position`. -/
def IsBoundary (position : Nat) (cs : List Char) (p : Nat) : Prop :=
  ∃ part, part <+: cs ∧ p = position + byteWidth part

theorem isBoundary_start (position : Nat) (cs : List Char) : IsBoundary position cs position :=
  ⟨[], List.nil_prefix, rfl⟩

theorem IsBoundary.cons (h : IsBoundary (position + c.utf8Size) cs p) :
    IsBoundary position (c :: cs) p := by
  obtain ⟨part, hpart, rfl⟩ := h
  exact ⟨c :: part, List.cons_prefix_cons.mpr ⟨rfl, hpart⟩, by rw [byteWidth_cons, Nat.add_assoc]⟩

theorem IsBoundary.mono (h : IsBoundary position cs p) (hcs : cs <+: ds) :
    IsBoundary position ds p := by
  obtain ⟨part, hpart, rfl⟩ := h
  exact ⟨part, hpart.trans hcs, rfl⟩

theorem isBoundary_iff {text : String} :
    IsBoundary 0 text.toList p ↔ (⟨p⟩ : String.Pos.Raw).IsValid text := by
  rw [String.Pos.Raw.isValid_iff_exists_append]
  constructor
  · rintro ⟨part, ⟨rest, hrest⟩, rfl⟩
    refine ⟨String.ofList part, String.ofList rest, ?_, ?_⟩
    · rw [← String.ofList_append, hrest, String.ofList_toList]
    · rw [Nat.zero_add, ← String.toList_ofList (l := part), byteWidth_toList, String.toList_ofList]
      rfl
  · rintro ⟨front, back, rfl, hp⟩
    refine ⟨front.toList, ⟨back.toList, String.toList_append.symm⟩, ?_⟩
    rw [Nat.zero_add, byteWidth_toList]
    exact congrArg String.Pos.Raw.byteIdx hp

theorem isBoundary_of_stringBody {quote : Char} {start : Nat}
    (h : stringBody quote start position cs = .error fault) :
    fault.position = start ∨ IsBoundary position cs fault.position := by
  fun_induction stringBody quote start position cs with
  | case1 | case3 =>
    obtain rfl := Except.error.inj h
    exact .inl rfl
  | case2 => cases h
  | case4 =>
    obtain rfl := Except.error.inj h
    exact .inr (isBoundary_start _ _)
  | case5 position e rest d _ _ ih =>
    obtain h | ⟨_, -, h⟩ := exists_of_bind_eq_error h
    · exact (ih h).imp_right fun hb => .cons (c := '\\') (.cons hb)
    · cases h
  | case6 position c rest _ _ ih =>
    obtain h | ⟨_, -, h⟩ := exists_of_bind_eq_error h
    · exact (ih h).imp_right .cons
    · cases h

theorem isBoundary_of_numberToken (h : numberToken position cs = .error fault) :
    IsBoundary position cs fault.position := by
  unfold numberToken at h
  dsimp only at h
  split at h
  next hsecond =>
    obtain rfl := Except.error.inj h
    cases hrest : cs.dropWhile (· ≠ '.') with
    | nil =>
      rw [hrest] at hsecond
      cases hsecond
    | cons point behind =>
      have hfirst := List.head?_dropWhile_not (· ≠ '.') cs
      rw [hrest] at hfirst
      obtain rfl : point = '.' := by simpa using hfirst
      refine ⟨cs.takeWhile (· ≠ '.') ++ '.' :: behind.takeWhile (· ≠ '.'), ?_, ?_⟩
      · conv_rhs => rw [← List.takeWhile_append_dropWhile (p := (· ≠ '.')) (l := cs), hrest]
        refine (List.prefix_append_right_inj _).mpr (List.cons_prefix_cons.mpr ⟨rfl, ?_⟩)
        exact List.takeWhile_prefix _
      · rw [byteWidth_append, byteWidth_cons, List.drop_one, List.tail_cons, Nat.add_assoc,
          Nat.add_assoc]
        rfl
  next =>
    split at h
    · cases h
    · obtain rfl := Except.error.inj h
      exact isBoundary_start _ _

theorem numberToken_ne_word (position : Nat) (cs : List Char) (w : String) :
    numberToken position cs ≠ .ok (.word w) := by
  intro h
  unfold numberToken at h
  dsimp only at h
  split at h
  · cases h
  · split at h
    next t ht =>
      obtain rfl := Except.ok.inj h
      split at ht
      · obtain ⟨_, -, ht⟩ := Option.map_eq_some_iff.mp ht
        cases ht
      · obtain ⟨_, -, ht⟩ := Option.map_eq_some_iff.mp ht
        cases ht
    next => cases h

theorem exists_lexeme_of_sign (hc : c ∈ ['(', ')', ',', '=', '!', '<', '>']) (position : Nat)
    (cs : List Char) :
    ∃ t more, lexeme position c cs = .ok (t, more) ∧ ∀ w, t ≠ .word w := by
  simp only [List.mem_cons, List.not_mem_nil, or_false] at hc
  obtain rfl | rfl | rfl | hc := hc
  · exact ⟨_, _, rfl, nofun⟩
  · exact ⟨_, _, rfl, nofun⟩
  · exact ⟨_, _, rfl, nofun⟩
  · cases cs with
    | nil => obtain rfl | rfl | rfl | rfl := hc <;> exact ⟨_, _, rfl, nofun⟩
    | cons d cs =>
      by_cases heq : d = '='
      · subst heq
        obtain rfl | rfl | rfl | rfl := hc <;> exact ⟨_, _, rfl, nofun⟩
      · by_cases hgt : d = '>'
        · subst hgt
          obtain rfl | rfl | rfl | rfl := hc <;> exact ⟨_, _, rfl, nofun⟩
        · obtain rfl | rfl | rfl | rfl := hc
          · exact ⟨.equal, 0, by simp [lexeme, heq], nofun⟩
          · exact ⟨.bang, 0, by simp [lexeme, heq], nofun⟩
          · exact ⟨.less, 0, by simp [lexeme, heq, hgt], nofun⟩
          · exact ⟨.greater, 0, by simp [lexeme, heq], nofun⟩

theorem lexeme_of_not_mem (hc : c ∉ ['(', ')', ',', '=', '!', '<', '>']) (position : Nat)
    (cs : List Char) :
    lexeme position c cs =
      if c = '&' then
        if cs.head? = some '&' then .ok (.doubleAnd, 1) else .error ⟨position, .loneAmpersand⟩
      else if c = '|' then
        if cs.head? = some '|' then .ok (.doubleOr, 1) else .error ⟨position, .loneBar⟩
      else if c = '"' || c = '\'' then do
        let (content, read) ← stringBody c position (position + 1) cs
        .ok (.string (String.ofList content), read)
      else if c = '-' || c.isDigit then do
        let more := cs.takeWhile fun d => d.isDigit || d = '.'
        .ok (← numberToken position (c :: more), more.length)
      else if startsWord c then
        let more := cs.takeWhile continuesWord
        .ok (.word (String.ofList (c :: more)), more.length)
      else .error ⟨position, .unexpectedCharacter c⟩ := by
  have hne : ∀ d ∈ ['(', ')', ',', '=', '!', '<', '>'], c ≠ d := by
    rintro d hd rfl
    exact hc hd
  rw [lexeme, if_neg (hne '(' (by decide)), if_neg (hne ')' (by decide)),
    if_neg (hne ',' (by decide)), if_neg (hne '=' (by decide)), if_neg (hne '!' (by decide)),
    if_neg (hne '<' (by decide)), if_neg (hne '>' (by decide))]

theorem isBoundary_of_lexeme (h : lexeme position c cs = .error fault) :
    IsBoundary position (c :: cs) fault.position := by
  have hstart : ∀ cause, fault = ⟨position, cause⟩ →
      IsBoundary position (c :: cs) fault.position := by
    rintro cause rfl
    exact isBoundary_start _ _
  by_cases hc : c ∈ ['(', ')', ',', '=', '!', '<', '>']
  · obtain ⟨t, more, hok, -⟩ := exists_lexeme_of_sign hc position cs
    cases hok.symm.trans h
  rw [lexeme_of_not_mem hc] at h
  split at h
  · split at h
    · cases h
    · exact hstart _ (Except.error.inj h).symm
  split at h
  · split at h
    · cases h
    · exact hstart _ (Except.error.inj h).symm
  split at h
  next hquote =>
    obtain h | ⟨_, -, h⟩ := exists_of_bind_eq_error h
    · obtain h | h := isBoundary_of_stringBody h
      · exact h ▸ isBoundary_start _ _
      · have hsize : c.utf8Size = 1 := by
          simp only [Bool.or_eq_true, decide_eq_true_eq] at hquote
          obtain rfl | rfl := hquote <;> rfl
        exact .cons (hsize ▸ h)
    · cases h
  split at h
  · obtain h | ⟨_, -, h⟩ := exists_of_bind_eq_error h
    · exact (isBoundary_of_numberToken h).mono
        (List.cons_prefix_cons.mpr ⟨rfl, List.takeWhile_prefix _⟩)
    · cases h
  split at h
  · cases h
  · exact hstart _ (Except.error.inj h).symm

theorem word_of_lexeme {w : String} {more : Nat} (h : lexeme position c cs = .ok (.word w, more)) :
    startsWord c ∧ w = String.ofList (c :: cs.takeWhile continuesWord) := by
  by_cases hc : c ∈ ['(', ')', ',', '=', '!', '<', '>']
  · obtain ⟨t, _, hok, ht⟩ := exists_lexeme_of_sign hc position cs
    cases hok.symm.trans h
    exact absurd rfl (ht w)
  rw [lexeme_of_not_mem hc] at h
  split at h
  · split at h <;> cases h
  split at h
  · split at h <;> cases h
  split at h
  · obtain ⟨_, -, h⟩ := exists_of_bind_eq_ok h
    cases h
  split at h
  · obtain ⟨t, ht, h⟩ := exists_of_bind_eq_ok h
    cases h
    exact absurd ht (numberToken_ne_word _ _ _)
  split at h
  next hstarts =>
    cases h
    exact ⟨hstarts, rfl⟩
  next => cases h

theorem isBoundary_of_tokensFrom {skip : Nat} (h : tokensFrom skip position cs = .error fault) :
    IsBoundary position cs fault.position := by
  fun_induction tokensFrom skip position cs with
  | case1 => cases h
  | case2 skip position c cs ih => exact (ih h).cons
  | case3 position c cs _ ih => exact (ih h).cons
  | case4 position c cs hblank ih =>
    obtain h | ⟨⟨token, more⟩, -, h⟩ := exists_of_bind_eq_error h
    · exact isBoundary_of_lexeme h
    · obtain h | ⟨_, -, h⟩ := exists_of_bind_eq_error h
      · exact (ih _ h).cons
      · cases h

/-- The token stands between characters that start at `position`, and a word in front of its own
characters. -/
def StandsIn (position : Nat) (cs : List Char) (t : Placed) : Prop :=
  ∃ front back, cs = front ++ back ∧ t.position = position + byteWidth front ∧
    ∀ w, t.token = .word w → isWordText w.toList ∧ w.toList <+: back

theorem StandsIn.cons {t : Placed} (h : StandsIn (position + c.utf8Size) cs t) :
    StandsIn position (c :: cs) t := by
  obtain ⟨front, back, rfl, hp, hw⟩ := h
  exact ⟨c :: front, back, rfl, by rw [hp, byteWidth_cons, Nat.add_assoc], hw⟩

theorem standsIn_of_tokensFrom {skip : Nat} {placed : List Placed}
    (h : tokensFrom skip position cs = .ok placed) : ∀ t ∈ placed, StandsIn position cs t := by
  fun_induction tokensFrom skip position cs generalizing placed with
  | case1 =>
    obtain rfl := Except.ok.inj h
    nofun
  | case2 skip position c cs ih => exact fun t ht => (ih h t ht).cons
  | case3 position c cs _ ih => exact fun t ht => (ih h t ht).cons
  | case4 position c cs hblank ih =>
    obtain ⟨⟨token, more⟩, htoken, h⟩ := exists_of_bind_eq_ok h
    obtain ⟨rest, hrest, h⟩ := exists_of_bind_eq_ok h
    obtain rfl := Except.ok.inj h
    intro t ht
    obtain rfl | ht := List.mem_cons.mp ht
    · refine ⟨[], c :: cs, rfl, rfl, ?_⟩
      rintro w rfl
      obtain ⟨hc, rfl⟩ := word_of_lexeme htoken
      rw [String.toList_ofList]
      refine ⟨?_, List.cons_prefix_cons.mpr ⟨rfl, List.takeWhile_prefix _⟩⟩
      rw [isWordText, hc, Bool.true_and]
      exact List.all_takeWhile
    · exact (ih _ hrest t ht).cons

end Docbase.Language
