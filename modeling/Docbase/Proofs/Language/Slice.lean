import Docbase.Failure
import Docbase.Proofs.Language.Position

namespace Docbase.Language

/-- Why a reader that checks each of its steps stops. -/
inductive Stop where
  | failed (failure : Failure)
  | outOfRange
  /-- A loop has not come to an end after the rounds that it may take. -/
  | endless

def carrying {α : Type} (text : String) (answer : Except Fault α) : Except Stop α :=
  answer.mapError fun fault => .failed (.parse text fault)

/-- A token, or the mark behind the last one, and the byte offset of its first character. -/
structure Entry where
  token? : Option Token
  position : Nat

def entries (text : String) (placed : List Placed) : List Entry :=
  placed.map (fun t => ⟨some t.token, t.position⟩) ++ [⟨none, text.utf8ByteSize⟩]

def slice (text : String) (start stop : Nat) : Except Stop String :=
  if start ≤ stop ∧ (⟨start⟩ : String.Pos.Raw).IsValid text ∧
      (⟨stop⟩ : String.Pos.Raw).IsValid text then
    .ok (String.Pos.Raw.extract text ⟨start⟩ ⟨stop⟩)
  else .error .outOfRange

/-- Reads on in a word that has been read up to `stop`. Gives how many characters follow and where
the last one ends. -/
def wordEnd : (stop : Nat) → List Char → Nat × Nat
  | stop, [] => (0, stop)
  | stop, c :: cs =>
    if continuesWord c then
      let (read, last) := wordEnd (stop + c.utf8Size) cs
      (read + 1, last)
    else (0, stop)

def continuesNumber (c : Char) : Bool := c.isDigit || c = '.'

/-- Reads on in a number that has been read up to `stop`, perhaps with a point in it. Gives how many
characters follow, where the last one ends and whether there is a point. -/
def numberEnd : (point : Bool) → (stop : Nat) → List Char → Except Fault (Nat × Nat × Bool)
  | point, stop, [] => .ok (0, stop, point)
  | point, stop, c :: cs =>
    if continuesNumber c then
      if c = '.' && point then .error ⟨stop, .secondPoint⟩
      else do
        let (read, last, point) ← numberEnd (point || c = '.') (stop + c.utf8Size) cs
        .ok (read + 1, last, point)
    else .ok (0, stop, point)

def numberOf? (point : Bool) (cs : List Char) : Option Token :=
  if point then (Number.doubleOfText? cs).map Token.float
  else (Number.int64OfText? cs).map Token.int

/-- The token that starts with `c`, with its characters cut out of the text if they are needed. -/
def cutLexeme (text : String) (position : Nat) (c : Char) (cs : List Char) :
    Except Stop (Token × Nat) :=
  if c = '-' || c.isDigit then do
    let (read, stop, point) ← carrying text (numberEnd false (position + c.utf8Size) cs)
    let number ← slice text position stop
    match numberOf? point number.toList with
    | some t => .ok (t, read)
    | none => .error (.failed (.parse text ⟨position, .malformedNumber number⟩))
  else if startsWord c then do
    let (read, stop) := wordEnd (position + c.utf8Size) cs
    .ok (.word (← slice text position stop), read)
  else carrying text (lexeme position c cs)

def cutTokensFrom (text : String) : (skip position : Nat) → List Char → Except Stop (List Entry)
  | _, _, [] => .ok [⟨none, text.utf8ByteSize⟩]
  | skip + 1, position, c :: cs => cutTokensFrom text skip (position + c.utf8Size) cs
  | 0, position, c :: cs =>
    if Text.isBlank c then cutTokensFrom text 0 (position + c.utf8Size) cs
    else do
      let (token, more) ← cutLexeme text position c cs
      let rest ← cutTokensFrom text more (position + c.utf8Size) cs
      .ok (⟨some token, position⟩ :: rest)

def cutTokens (text : String) : Except Stop (List Entry) := cutTokensFrom text 0 0 text.toList

variable {text : String} {front cs : List Char} {c : Char}

theorem slice_of_append {part back : List Char} (h : text.toList = front ++ (part ++ back)) :
    slice text (byteWidth front) (byteWidth front + byteWidth part) = .ok (String.ofList part) := by
  have hstart : IsBoundary 0 text.toList (byteWidth front) :=
    ⟨front, ⟨part ++ back, h.symm⟩, (Nat.zero_add _).symm⟩
  have hstop : IsBoundary 0 text.toList (byteWidth front + byteWidth part) :=
    ⟨front ++ part, ⟨back, by rw [h, List.append_assoc]⟩, by rw [byteWidth_append, Nat.zero_add]⟩
  rw [slice, if_pos ⟨Nat.le_add_right _ _, isBoundary_iff.mp hstart, isBoundary_iff.mp hstop⟩]
  rw [← String.ofList_toList (s := text), h, ← List.append_assoc, byteWidth_eq_utf8Len,
    byteWidth_eq_utf8Len, String.extract_of_valid]

theorem wordEnd_eq (stop : Nat) (cs : List Char) :
    wordEnd stop cs = ((cs.takeWhile continuesWord).length,
      stop + byteWidth (cs.takeWhile continuesWord)) := by
  fun_induction wordEnd stop cs with
  | case1 => rfl
  | case2 stop c cs hc read last heq ih =>
    obtain ⟨rfl, rfl⟩ := Prod.mk.inj (heq.symm.trans ih)
    rw [List.takeWhile_cons_of_pos hc, List.length_cons, byteWidth_cons, Nat.add_assoc]
  | case3 stop c cs hc =>
    rw [List.takeWhile_cons_of_neg hc]
    rfl

theorem numberEnd_of_point (stop : Nat) (cs : List Char) :
    numberEnd true stop cs =
      if (cs.takeWhile continuesNumber).contains '.' then
        .error ⟨stop + byteWidth ((cs.takeWhile continuesNumber).takeWhile (· ≠ '.')), .secondPoint⟩
      else .ok ((cs.takeWhile continuesNumber).length,
        stop + byteWidth (cs.takeWhile continuesNumber), true) := by
  induction cs generalizing stop with
  | nil => rfl
  | cons c cs ih =>
    rw [numberEnd]
    by_cases hc : continuesNumber c
    · rw [if_pos hc, List.takeWhile_cons_of_pos hc]
      by_cases hpoint : c = '.'
      · subst hpoint
        rfl
      · rw [if_neg (by simp [hpoint]), Bool.true_or, ih, List.takeWhile_cons_of_pos (by simpa),
          List.contains_cons, beq_false_of_ne (Ne.symm hpoint), Bool.false_or]
        split
        · rw [byteWidth_cons, Nat.add_assoc]
          rfl
        · rw [byteWidth_cons, Nat.add_assoc]
          rfl
    · rw [if_neg hc, List.takeWhile_cons_of_neg hc]
      rfl

theorem numberEnd_eq (stop : Nat) (cs : List Char) :
    numberEnd false stop cs =
      let more := cs.takeWhile continuesNumber
      let behind := (more.dropWhile (· ≠ '.')).drop 1
      if behind.contains '.' then
        .error ⟨stop + byteWidth (more.takeWhile (· ≠ '.')) + 1 +
          byteWidth (behind.takeWhile (· ≠ '.')), .secondPoint⟩
      else .ok (more.length, stop + byteWidth more, more.contains '.') := by
  dsimp only
  induction cs generalizing stop with
  | nil => rfl
  | cons c cs ih =>
    rw [numberEnd]
    by_cases hc : continuesNumber c
    · rw [if_pos hc, List.takeWhile_cons_of_pos hc]
      generalize hmore : cs.takeWhile continuesNumber = more at ih
      by_cases hpoint : c = '.'
      · subst hpoint
        change numberEnd true (stop + 1) cs >>= _ = _
        rw [numberEnd_of_point, hmore]
        change _ = if more.contains '.' then _ else _
        split
        · rfl
        · rw [byteWidth_cons, Nat.add_assoc]
          rfl
      · rw [if_neg (by simp [hpoint]), decide_eq_false hpoint, Bool.or_self, ih,
          List.takeWhile_cons_of_pos (by simpa), List.dropWhile_cons_of_pos (by simpa),
          List.contains_cons, beq_false_of_ne (Ne.symm hpoint), Bool.false_or, byteWidth_cons,
          byteWidth_cons, ← Nat.add_assoc, ← Nat.add_assoc]
        split <;> rfl
    · rw [if_neg hc, List.takeWhile_cons_of_neg hc]
      rfl

theorem lexeme_of_number (hc : c = '-' ∨ c.isDigit) (position : Nat) (cs : List Char) :
    lexeme position c cs = (do
      let more := cs.takeWhile continuesNumber
      .ok (← numberToken position (c :: more), more.length)) := by
  have hne : ∀ s, (s = '-' || s.isDigit) = false → c ≠ s := fun s hs => ne_of_starts_number hc hs
  have hsign : c ∉ ['(', ')', ',', '=', '!', '<', '>'] := by
    simp [hne '(' (by decide), hne ')' (by decide), hne ',' (by decide), hne '=' (by decide),
      hne '!' (by decide), hne '<' (by decide), hne '>' (by decide)]
  rw [lexeme_of_not_mem hsign, if_neg (hne '&' (by decide)), if_neg (hne '|' (by decide)),
    if_neg (by simp [hne '"' (by decide), hne '\'' (by decide)]), if_pos (by simpa using hc)]
  rfl

theorem numberToken_cons (hc : c ≠ '.') (position : Nat) (more : List Char) :
    numberToken position (c :: more) =
      let behind := (more.dropWhile (· ≠ '.')).drop 1
      if behind.contains '.' then
        .error ⟨position + c.utf8Size + byteWidth (more.takeWhile (· ≠ '.')) + 1 +
          byteWidth (behind.takeWhile (· ≠ '.')), .secondPoint⟩
      else
        match numberOf? (more.contains '.') (c :: more) with
        | some t => .ok t
        | none => .error ⟨position, .malformedNumber (String.ofList (c :: more))⟩ := by
  unfold numberToken
  dsimp only
  rw [List.takeWhile_cons_of_pos (by simpa), List.dropWhile_cons_of_pos (by simpa),
    List.contains_cons, beq_false_of_ne (Ne.symm hc), Bool.false_or, byteWidth_cons,
    ← Nat.add_assoc]
  rfl

theorem lexeme_of_startsWord (hc : startsWord c) (position : Nat) (cs : List Char) :
    lexeme position c cs = .ok (.word (String.ofList (c :: cs.takeWhile continuesWord)),
      (cs.takeWhile continuesWord).length) := by
  have hne : ∀ s, startsWord s = false → c ≠ s := fun s hs => startsWord_ne hc hs
  have hsign : c ∉ ['(', ')', ',', '=', '!', '<', '>'] := by
    simp [hne '(' (by decide), hne ')' (by decide), hne ',' (by decide), hne '=' (by decide),
      hne '!' (by decide), hne '<' (by decide), hne '>' (by decide)]
  rw [lexeme_of_not_mem hsign, if_neg (hne '&' (by decide)), if_neg (hne '|' (by decide)),
    if_neg (by simp [hne '"' (by decide), hne '\'' (by decide)]),
    if_neg (by simp [hne '-' (by decide), isDigit_of_startsWord hc]), if_pos hc]

theorem slice_of_takeWhile (p : Char → Bool) (h : text.toList = front ++ c :: cs) :
    slice text (byteWidth front) (byteWidth front + c.utf8Size + byteWidth (cs.takeWhile p)) =
      .ok (String.ofList (c :: cs.takeWhile p)) := by
  have happend : text.toList = front ++ (c :: cs.takeWhile p ++ cs.dropWhile p) := by
    rw [h, List.cons_append, List.takeWhile_append_dropWhile]
  rw [Nat.add_assoc, ← byteWidth_cons]
  exact slice_of_append happend

theorem cutLexeme_eq (h : text.toList = front ++ c :: cs) :
    cutLexeme text (byteWidth front) c cs = carrying text (lexeme (byteWidth front) c cs) := by
  rw [cutLexeme]
  split
  next hc =>
    have hc : c = '-' ∨ c.isDigit := by simpa using hc
    have hpoint : c ≠ '.' := ne_of_starts_number hc (by decide)
    rw [numberEnd_eq, lexeme_of_number hc]
    have hslice := slice_of_takeWhile continuesNumber h
    dsimp only
    generalize cs.takeWhile continuesNumber = more at hslice
    rw [numberToken_cons hpoint]
    dsimp only
    split
    · rfl
    · change slice text _ _ >>= _ = _
      rw [bind_of_eq_ok hslice, String.toList_ofList]
      cases numberOf? (more.contains '.') (c :: more) <;> rfl
  next =>
    split
    next hc =>
      rw [wordEnd_eq, lexeme_of_startsWord hc]
      change slice text _ _ >>= _ = _
      rw [slice_of_takeWhile continuesWord h]
      rfl
    next => rfl

/-- Where the lexer finds tokens, so does the one that cuts them out of the text, with the mark
behind them; where it finds a fault, the other one finds it too and gives the text with it. -/
theorem cutTokensFrom_eq (front : List Char) (skip : Nat) (h : text.toList = front ++ cs) :
    cutTokensFrom text skip (byteWidth front) cs =
      carrying text ((tokensFrom skip (byteWidth front) cs).map (entries text)) := by
  -- Along the characters, as the lexer goes.
  induction cs generalizing front skip with
  | nil => cases skip <;> rfl
  | cons c cs ih =>
    have hrest : ∀ skip, cutTokensFrom text skip (byteWidth front + c.utf8Size) cs =
        carrying text ((tokensFrom skip (byteWidth front + c.utf8Size) cs).map (entries text)) := by
      intro skip
      have hwidth : byteWidth (front ++ [c]) = byteWidth front + c.utf8Size := byteWidth_append _ _
      have hcs := ih (front ++ [c]) skip (by simpa using h)
      rwa [hwidth] at hcs
    cases skip with
    | succ skip => exact hrest skip
    | zero =>
      rw [cutTokensFrom, tokensFrom]
      split
      · exact hrest 0
      · rw [cutLexeme_eq h]
        cases lexeme (byteWidth front) c cs with
        | error => rfl
        | ok found =>
          change cutTokensFrom text found.2 _ _ >>= _ =
            carrying text ((tokensFrom found.2 _ _ >>= _).map _)
          rw [hrest found.2]
          cases tokensFrom found.2 (byteWidth front + c.utf8Size) cs <;> rfl

theorem cutTokens_eq (text : String) :
    cutTokens text = carrying text ((tokens text).map (entries text)) :=
  cutTokensFrom_eq [] 0 rfl

end Docbase.Language
