import Docbase.Proofs.Language.Slice

namespace Docbase.Language

/-- A token in one of its spellings, and the white space in front of it. -/
structure Piece where
  gap : List Char
  token : Token
  written : List Char
  isBlank_gap : gap.all Text.isBlank
  spells : Spelling token written

def Piece.chars (p : Piece) : List Char := p.gap ++ p.written

/-- Tokens written one after the other, with white space around them and between any two. -/
structure Layout where
  pieces : List Piece
  behind : List Char
  isBlank_behind : behind.all Text.isBlank
  separated : ∀ p ∈ pieces.tail, p.gap ≠ []

namespace Layout

def text (layout : Layout) : String :=
  String.ofList (layout.pieces.flatMap Piece.chars ++ layout.behind)

/-- The tokens, each with the size of the text that is written in front of it. -/
def placed (layout : Layout) : List Placed :=
  layout.pieces.mapIdx fun i p =>
    let before := String.ofList ((layout.pieces.take i).flatMap Piece.chars ++ p.gap)
    ⟨p.token, before.utf8ByteSize⟩

end Layout

variable {position : Nat} {rest : List Char}

theorem tokensFrom_of_blanks {gap : List Char} (h : gap.all Text.isBlank) (position : Nat)
    (rest : List Char) :
    tokensFrom 0 position (gap ++ rest) = tokensFrom 0 (position + byteWidth gap) rest := by
  induction gap generalizing position with
  | nil => rfl
  | cons c gap ih =>
    rw [List.all_cons, Bool.and_eq_true] at h
    obtain ⟨hc, hgap⟩ := h
    rw [List.cons_append, tokensFrom, if_pos hc, ih hgap, byteWidth_cons, Nat.add_assoc]

theorem tokensFrom_of_piece (p : Piece) (hstop : ∀ next ∈ rest.head?, Text.isBlank next) :
    tokensFrom 0 position (p.chars ++ rest) = (do
      let placed ← tokensFrom 0 (position + byteWidth p.chars) rest
      .ok (⟨p.token, position + byteWidth p.gap⟩ :: placed)) := by
  have hstops : ∀ next ∈ rest.head?, runsOn next p.written = false :=
    fun next hnext => runsOn_of_isBlank (hstop next hnext) _
  rw [Piece.chars, List.append_assoc, tokensFrom_of_blanks p.isBlank_gap,
    tokensFrom_of_spelling p.spells hstops, byteWidth_append, Nat.add_assoc]

theorem isBlank_of_head? {pieces : List Piece} (hgaps : ∀ p ∈ pieces, p.gap ≠ [])
    (hrest : rest.all Text.isBlank) :
    ∀ next ∈ (pieces.flatMap Piece.chars ++ rest).head?, Text.isBlank next := by
  intro next hnext
  cases pieces with
  | nil => exact List.all_eq_true.mp hrest next (List.mem_of_mem_head? hnext)
  | cons p pieces =>
    obtain ⟨c, gap, hgap⟩ := List.exists_cons_of_ne_nil (hgaps p List.mem_cons_self)
    have hc : next = c := by
      simpa [Piece.chars, hgap, eq_comm] using hnext
    rw [hc]
    exact List.all_eq_true.mp p.isBlank_gap c (hgap ▸ List.mem_cons_self)

theorem tokensFrom_of_pieces (pieces : List Piece) (hgaps : ∀ p ∈ pieces.tail, p.gap ≠ [])
    (hrest : rest.all Text.isBlank) :
    tokensFrom 0 position (pieces.flatMap Piece.chars ++ rest) =
      .ok (pieces.mapIdx fun i p =>
        ⟨p.token, position + byteWidth ((pieces.take i).flatMap Piece.chars ++ p.gap)⟩) := by
  -- Each piece is read as its token, behind what was written before.
  induction pieces generalizing position with
  | nil =>
    have hblanks := tokensFrom_of_blanks hrest position []
    rwa [List.append_nil] at hblanks
  | cons p pieces ih =>
    rw [List.tail_cons] at hgaps
    have htail : ∀ q ∈ pieces.tail, q.gap ≠ [] := fun q hq => hgaps q (List.mem_of_mem_tail hq)
    rw [List.flatMap_cons, List.append_assoc, tokensFrom_of_piece p (isBlank_of_head? hgaps hrest),
      ih htail, List.mapIdx_cons]
    simp only [List.take_zero, List.flatMap_nil, List.nil_append, List.take_succ_cons,
      List.flatMap_cons, byteWidth_append, Nat.add_assoc]
    rfl

theorem Layout.tokens_text (layout : Layout) : tokens layout.text = .ok layout.placed := by
  rw [tokens, text, String.toList_ofList,
    tokensFrom_of_pieces layout.pieces layout.separated layout.isBlank_behind]
  simp only [placed, ← byteWidth_toList, String.toList_ofList, Nat.zero_add]

theorem exists_layout {spelled : List (Token × List Char)}
    (h : ∀ s ∈ spelled, Spelling s.1 s.2) :
    ∃ layout : Layout, layout.pieces.map (fun p => (p.token, p.written)) = spelled := by
  have hpieces : ∃ pieces : List Piece, pieces.map (fun p => (p.token, p.written)) = spelled ∧
      ∀ p ∈ pieces, p.gap ≠ [] := by
    induction spelled with
    | nil => exact ⟨[], rfl, nofun⟩
    | cons s spelled ih =>
      obtain ⟨hs, hspelled⟩ := List.forall_mem_cons.mp h
      obtain ⟨pieces, hmap, hgaps⟩ := ih hspelled
      let piece : Piece := ⟨[' '], s.1, s.2, by decide, hs⟩
      refine ⟨piece :: pieces, by rw [List.map_cons, hmap], ?_⟩
      exact List.forall_mem_cons.mpr ⟨List.cons_ne_nil _ _, hgaps⟩
  obtain ⟨pieces, hmap, hgaps⟩ := hpieces
  exact ⟨⟨pieces, [], rfl, fun p hp => hgaps p (List.mem_of_mem_tail hp)⟩, hmap⟩

/-- A text in which tokens are laid out is read as these tokens and the mark of the end, each with
the size of the text in front of it. All spellings can be laid out, and each content of a string
has one between either quotes. -/
theorem lexer_undoes_layout :
    (∀ layout : Layout, tokens layout.text = .ok layout.placed ∧
      cutTokens layout.text = .ok (entries layout.text layout.placed)) ∧
    (∀ spelled : List (Token × List Char), (∀ s ∈ spelled, Spelling s.1 s.2) →
      ∃ layout : Layout, layout.pieces.map (fun p => (p.token, p.written)) = spelled) ∧
    ∀ quote content, quote = '"' ∨ quote = '\'' →
      Spelling (.string (String.ofList content)) (quote :: (escape quote content ++ [quote])) := by
  refine ⟨fun layout => ⟨layout.tokens_text, ?_⟩, fun _ => exists_layout, ?_⟩
  · rw [cutTokens_eq, layout.tokens_text]
    rfl
  · intro quote content hquote
    exact .string hquote (stringBody_escape hquote content)

/-- Characters of more than one byte, an escaped quote, the least integer, and signs that would be
one without the space between them. -/
def mixedLayout : Layout where
  pieces :=
    [⟨[], .word "größe", "größe".toList, rfl, .word (by decide +kernel)⟩,
      ⟨['\u00a0'], .greaterEqual, ['>', '='], by decide, .sign (by decide)⟩,
      ⟨[' '], .string (String.ofList "it's é".toList),
        '\'' :: (escape '\'' "it's é".toList ++ ['\'']), by decide,
        .string (.inr rfl) (stringBody_escape (.inr rfl) _)⟩,
      ⟨['\t', ' '], .int Int64.minValue, (toString Int64.minValue.toInt).toList, by decide, .int _⟩,
      ⟨['\n'], .bang, ['!'], by decide, .sign (by decide)⟩,
      ⟨[' '], .equal, ['='], by decide, .sign (by decide)⟩]
  behind := [' ']
  isBlank_behind := by decide
  separated := by decide

theorem lexer_undoes_layout_of_mixed_signs :
    (mixedLayout.text = "größe\u00a0>= 'it\\'s é'\t -9223372036854775808\n! = " ∧
      tokens mixedLayout.text = .ok [⟨.word "größe", 0⟩, ⟨.greaterEqual, 9⟩,
        ⟨.string "it's é", 12⟩, ⟨.int Int64.minValue, 24⟩, ⟨.bang, 45⟩, ⟨.equal, 47⟩]) ∧
    (∃ layout : Layout, layout.pieces.map (fun p => (p.token, p.written)) =
      [(.unequal, ['<', '>']), (.less, ['<']), (.greater, ['>'])]) ∧
    Spelling (.string (String.ofList ['"', '\\'])) ['"', '\\', '"', '\\', '\\', '"'] := by
  refine ⟨⟨by decide +kernel, ?_⟩, lexer_undoes_layout.2.1 _ ?_, ?_⟩
  · exact (lexer_undoes_layout.1 mixedLayout).1.trans (congrArg Except.ok (by decide +kernel))
  · intro s hs
    simp only [List.mem_cons, List.not_mem_nil, or_false] at hs
    obtain rfl | rfl | rfl := hs <;> exact .sign (by decide)
  · exact lexer_undoes_layout.2.2 '"' ['"', '\\'] (.inl rfl)

end Docbase.Language
