import Docbase.Language.OrderList
import Docbase.Proofs.Language.Formula
import Docbase.Proofs.Language.Position
import Docbase.Proofs.Language.Soundness

namespace Docbase.Language

/-- A sort key on a field that a text can name. -/
structure NamedKey where
  field : FieldName
  direction : Direction

def NamedKey.sortKey (k : NamedKey) : SortKey := ⟨Path.ofString k.field.text, k.direction⟩

def Token.Directs : Direction → Token → Prop
  | .asc, t => t.Names "asc" ∨ t.Names "ascending"
  | .desc, t => t.Names "desc" ∨ t.Names "descending"

inductive PhrasesKey : NamedKey → List Token → Prop where
  | bare {field : FieldName} : PhrasesKey ⟨field, .asc⟩ [.word field.text]
  | directed {field : FieldName} {direction : Direction} {t : Token} : t.Directs direction →
      PhrasesKey ⟨field, direction⟩ [.word field.text, t]

/-- `RendersKeys ks ts`: the tokens write the keys, with a comma between any two. -/
inductive RendersKeys : List NamedKey → List Token → Prop where
  | last {k : NamedKey} {ts : List Token} : PhrasesKey k ts → RendersKeys [k] ts
  | more {k : NamedKey} {ks : List NamedKey} {xs ys : List Token} : PhrasesKey k xs →
      RendersKeys ks ys → RendersKeys (k :: ks) (xs ++ .comma :: ys)

def OrderWrittenAs (ks : List NamedKey) (text : String) : Prop :=
  ∃ ts, RendersKeys ks ts ∧ Written ts text.toList

theorem exists_word_of_directs {direction : Direction} {t : Token} (h : t.Directs direction) :
    ∃ text, t = .word text := by
  cases direction with
  | asc | desc => obtain ⟨text, rfl, -⟩ | ⟨text, rfl, -⟩ := h <;> exact ⟨text, rfl⟩

theorem ne_nil_of_rendersKeys {order : List NamedKey} {ts : List Token}
    (h : RendersKeys order ts) : ts ≠ [] := by
  cases h with
  | last hk => cases hk <;> exact List.cons_ne_nil _ _
  | more => exact List.append_ne_nil_of_right_ne_nil _ (List.cons_ne_nil _ _)

theorem not_directs_asc {t : Token} (h : t.Directs .desc) : ¬ t.Directs .asc := by
  have hne : ∀ up ∈ ["asc", "ascending"], ∀ down ∈ ["desc", "descending"],
      up.toList ≠ down.toList := by decide
  obtain ⟨down, hdown, text, rfl, hname⟩ : ∃ down ∈ ["desc", "descending"], t.Names down :=
    h.elim (fun h => ⟨_, by decide, h⟩) fun h => ⟨_, by decide, h⟩
  intro hup
  obtain ⟨up, hmem, hup⟩ : ∃ up ∈ ["asc", "ascending"], (Token.word text).Names up :=
    hup.elim (fun h => ⟨_, by decide, h⟩) fun h => ⟨_, by decide, h⟩
  exact hne up hmem down hdown ((names_word.mp hup).symm.trans hname)

theorem direction?_eq_some_iff {word : String} {direction : Direction} :
    direction? word = some direction ↔ (Token.word word).Directs direction := by
  have hasc : (Text.sameIgnoringCase word "asc" || Text.sameIgnoringCase word "ascending") ↔
      (Token.word word).Directs .asc := by
    rw [Bool.or_eq_true, sameIgnoringCase_iff "asc" (by decide),
      sameIgnoringCase_iff "ascending" (by decide), Token.Directs]
  have hdesc : (Text.sameIgnoringCase word "desc" || Text.sameIgnoringCase word "descending") ↔
      (Token.word word).Directs .desc := by
    rw [Bool.or_eq_true, sameIgnoringCase_iff "desc" (by decide),
      sameIgnoringCase_iff "descending" (by decide), Token.Directs]
  rw [direction?]
  by_cases hup : (Token.word word).Directs .asc
  · rw [if_pos (hasc.mpr hup), Option.some.injEq]
    cases direction with
    | asc => exact iff_of_true rfl hup
    | desc => exact iff_of_false nofun fun hdown => not_directs_asc hdown hup
  · rw [if_neg (mt hasc.mp hup)]
    cases direction with
    | asc => exact iff_of_false (by split <;> nofun) hup
    | desc => rw [Option.ite_none_right_eq_some, hdesc, and_iff_left rfl]

section Reading

variable {finish : Nat}

def LexableWords (placed : List Placed) : Prop :=
  ∀ t ∈ placed, ∀ word, t.token = .word word → isWordText word.toList

theorem lexableWords_cons {t : Placed} {rest : List Placed} (h : LexableWords (t :: rest)) :
    LexableWords rest :=
  fun u hu => h u (List.mem_cons_of_mem _ hu)

theorem lexableWords_of_tokens {text : String} {placed : List Placed}
    (h : tokens text = .ok placed) : LexableWords placed := by
  intro t ht word hword
  obtain ⟨_, _, -, -, hlex⟩ := standsIn_of_tokensFrom h t ht
  exact (hlex word hword).1

theorem exists_fieldName {t : Placed} {rest : List Placed} {field : String}
    (hwords : LexableWords (t :: rest)) (h : fieldWord? t.token = some field) :
    ∃ name : FieldName, name.text = field ∧ t.token = .word name.text := by
  obtain ⟨htoken, hfree⟩ := fieldWord?_eq_some_iff.mp h
  exact ⟨⟨field, hwords t List.mem_cons_self field htoken, hfree⟩, rfl, htoken⟩

theorem fieldWord?_fieldName (name : FieldName) : fieldWord? (.word name.text) = some name.text :=
  fieldWord?_eq_some_iff.mpr ⟨rfl, name.isFree⟩

theorem exists_of_sortKeys {placed : List Placed} {keys : List SortKey}
    (hwords : LexableWords placed) (h : sortKeys finish placed = .ok keys) :
    ∃ order : List NamedKey, keys = order.map NamedKey.sortKey ∧
      RendersKeys order (placed.map Placed.token) := by
  -- Each round takes the tokens of one key and, if the list goes on, the comma behind it.
  fun_induction sortKeys finish placed generalizing keys with
  | case1 | case2 | case5 | case8 | case9 => cases h
  | case3 t field hfield =>
    obtain ⟨name, rfl, htoken⟩ := exists_fieldName hwords hfield
    obtain rfl := Except.ok.inj h
    refine ⟨[⟨name, .asc⟩], rfl, .last ?_⟩
    rw [List.map_singleton, htoken]
    exact .bare
  | case4 t field hfield position more ih =>
    obtain ⟨name, rfl, htoken⟩ := exists_fieldName hwords hfield
    obtain ⟨rest, hrest, h⟩ := exists_of_bind_eq_ok h
    obtain rfl := Except.ok.inj h
    obtain ⟨order, rfl, hrenders⟩ := ih (lexableWords_cons (lexableWords_cons hwords)) hrest
    refine ⟨⟨name, .asc⟩ :: order, rfl, ?_⟩
    rw [List.map_cons, List.map_cons, htoken]
    have hkey : PhrasesKey ⟨name, .asc⟩ [.word name.text] := .bare
    exact .more hkey hrenders
  | case6 t field hfield word position direction hdirection =>
    obtain ⟨name, rfl, htoken⟩ := exists_fieldName hwords hfield
    obtain rfl := Except.ok.inj h
    refine ⟨[⟨name, direction⟩], rfl, .last ?_⟩
    rw [List.map_cons, List.map_singleton, htoken]
    exact .directed (direction?_eq_some_iff.mp hdirection)
  | case7 t field hfield word position direction hdirection comma more ih =>
    obtain ⟨name, rfl, htoken⟩ := exists_fieldName hwords hfield
    obtain ⟨rest, hrest, h⟩ := exists_of_bind_eq_ok h
    obtain rfl := Except.ok.inj h
    obtain ⟨order, rfl, hrenders⟩ :=
      ih (lexableWords_cons (lexableWords_cons (lexableWords_cons hwords))) hrest
    refine ⟨⟨name, direction⟩ :: order, rfl, ?_⟩
    rw [List.map_cons, List.map_cons, List.map_cons, htoken]
    have hkey : PhrasesKey ⟨name, direction⟩ [.word name.text, .word word] :=
      .directed (direction?_eq_some_iff.mp hdirection)
    exact .more hkey hrenders

/-- What the reader comes to from the tokens of one key: it stops where the tokens end and goes on
behind a comma. -/
theorem sortKeys_of_phrasesKey {k : NamedKey} {placed : List Placed}
    (h : PhrasesKey k (placed.map Placed.token)) :
    sortKeys finish placed = .ok [k.sortKey] ∧
      ∀ position more keys, sortKeys finish more = .ok keys →
        sortKeys finish (placed ++ ⟨.comma, position⟩ :: more) = .ok (k.sortKey :: keys) := by
  generalize hts : placed.map Placed.token = ts at h
  cases h with
  | @bare field =>
    obtain ⟨⟨_, _⟩, _, rfl, rfl, hnil⟩ := List.map_eq_cons_iff.mp hts
    obtain rfl := List.map_eq_nil_iff.mp hnil
    refine ⟨?_, fun position more keys hmore => ?_⟩
    · simp only [sortKeys, fieldWord?_fieldName]
      rfl
    · rw [List.singleton_append]
      simp only [sortKeys, fieldWord?_fieldName, hmore]
      rfl
  | @directed field direction word hdirects =>
    obtain ⟨⟨_, _⟩, _, rfl, rfl, htail⟩ := List.map_eq_cons_iff.mp hts
    obtain ⟨⟨_, _⟩, _, rfl, rfl, hnil⟩ := List.map_eq_cons_iff.mp htail
    obtain rfl := List.map_eq_nil_iff.mp hnil
    obtain ⟨text, rfl⟩ := exists_word_of_directs hdirects
    have hdirection := direction?_eq_some_iff.mpr hdirects
    refine ⟨?_, fun position more keys hmore => ?_⟩
    · simp only [sortKeys, fieldWord?_fieldName, hdirection]
      rfl
    · rw [List.cons_append, List.singleton_append]
      simp only [sortKeys, fieldWord?_fieldName, hdirection, hmore]
      rfl

theorem sortKeys_of_rendersKeys {order : List NamedKey} {placed : List Placed}
    (h : RendersKeys order (placed.map Placed.token)) :
    sortKeys finish placed = .ok (order.map NamedKey.sortKey) := by
  generalize hts : placed.map Placed.token = ts at h
  induction h generalizing placed with
  | last hk =>
    subst hts
    exact (sortKeys_of_phrasesKey hk).1
  | more hk _ ih =>
    obtain ⟨key, _, rfl, rfl, htail⟩ := List.map_eq_append_iff.mp hts
    obtain ⟨⟨_, position⟩, rest, rfl, rfl, hrest⟩ := List.map_eq_cons_iff.mp htail
    exact (sortKeys_of_phrasesKey hk).2 _ _ _ (ih hrest)

end Reading

theorem parseOrder_of_tokens {text : String} {placed : List Placed} {order : List NamedKey}
    (hplaced : tokens text = .ok placed) (h : RendersKeys order (placed.map Placed.token)) :
    parseOrder text = .ok (order.map NamedKey.sortKey) := by
  have hne : placed.isEmpty = false := by
    cases placed with
    | nil => exact absurd rfl (ne_nil_of_rendersKeys h)
    | cons => rfl
  rw [parseOrder, hplaced]
  refine Eq.trans (if_neg ?_) (sortKeys_of_rendersKeys h)
  rw [hne]
  exact Bool.false_ne_true

theorem exists_of_parseOrder {text : String} {keys : List SortKey}
    (h : parseOrder text = .ok keys) : ∃ order placed, keys = order.map NamedKey.sortKey ∧
      tokens text = .ok placed ∧ RendersKeys order (placed.map Placed.token) := by
  obtain ⟨placed, hplaced, h⟩ := exists_of_bind_eq_ok h
  unfold orderOfTokens at h
  split at h
  · cases h
  · obtain ⟨order, hkeys, hrenders⟩ := exists_of_sortKeys (lexableWords_of_tokens hplaced) h
    exact ⟨order, placed, hkeys, hplaced, hrenders⟩

theorem exists_phrasesKey (k : NamedKey) : ∃ ts, PhrasesKey k ts ∧ Writable ts := by
  have hword : ∀ text : String, isWordText text.toList → ∃ cs, Spelling (.word text) cs :=
    fun _ h => ⟨_, .word h⟩
  obtain ⟨field, direction⟩ := k
  cases direction with
  | asc => exact ⟨_, .bare, by simpa [Writable] using hword _ field.isWord⟩
  | desc =>
    refine ⟨_, .directed (t := .word "desc") (.inl ⟨_, rfl, by decide⟩), ?_⟩
    simpa [Writable] using ⟨hword _ field.isWord, hword "desc" (by decide)⟩

theorem exists_rendersKeys {order : List NamedKey} (h : order ≠ []) :
    ∃ ts, RendersKeys order ts ∧ Writable ts := by
  induction order with
  | nil => exact absurd rfl h
  | cons k order ih =>
    obtain ⟨xs, hxs, hwx⟩ := exists_phrasesKey k
    cases order with
    | nil => exact ⟨xs, .last hxs, hwx⟩
    | cons =>
      obtain ⟨ys, hys, hwy⟩ := ih (List.cons_ne_nil _ _)
      refine ⟨_, .more hxs hys, ?_⟩
      simpa [Writable, or_imp, forall_and] using
        ⟨hwx, exists_spelling_sign (t := .comma) (by decide), hwy⟩

/-- Each text that writes a list of keys is read as that list, and there is one for each list that
is not empty. A text that is read as a list of keys consists of tokens that write it. -/
theorem parseOrder_exact :
    (∀ order : List NamedKey, order ≠ [] → (∃ text, OrderWrittenAs order text) ∧
      ∀ text, OrderWrittenAs order text → parseOrder text = .ok (order.map NamedKey.sortKey)) ∧
    ∀ text keys, parseOrder text = .ok keys ↔
      ∃ order placed, keys = order.map NamedKey.sortKey ∧ tokens text = .ok placed ∧
        RendersKeys order (placed.map Placed.token) := by
  refine ⟨fun order horder => ⟨?_, ?_⟩, fun text keys => ⟨exists_of_parseOrder, ?_⟩⟩
  · obtain ⟨ts, hts, hw⟩ := exists_rendersKeys horder
    obtain ⟨cs, hcs⟩ := exists_written hw
    exact ⟨String.ofList cs, ts, hts, by rwa [String.toList_ofList]⟩
  · rintro text ⟨ts, hts, hw⟩
    obtain ⟨placed, hplaced, rfl⟩ := tokens_of_written hw
    exact parseOrder_of_tokens hplaced hts
  · rintro ⟨order, placed, rfl, hplaced, hrenders⟩
    exact parseOrder_of_tokens hplaced hrenders

theorem parseOrder_of_directions_as_fields :
    let up : FieldName := ⟨"asc", by decide, isFieldName_iff.mpr (by decide)⟩
    let down : FieldName := ⟨"desc", by decide, isFieldName_iff.mpr (by decide)⟩
    let order : List NamedKey := [⟨up, .asc⟩, ⟨up, .desc⟩, ⟨down, .asc⟩]
    let text := "asc, asc\tDESC ,desc Ascending"
    order ≠ [] ∧ OrderWrittenAs order text ∧
      parseOrder text = .ok (order.map NamedKey.sortKey) := by
  intro up down order text
  have horder : order ≠ [] := List.cons_ne_nil _ _
  have hrenders : RendersKeys order
      ([.word "asc"] ++ .comma :: ([.word "asc", .word "DESC"] ++
        .comma :: [.word "desc", .word "Ascending"])) :=
    .more .bare (.more (.directed (.inl ⟨"DESC", rfl, by decide⟩))
      (.last (.directed (.inr ⟨"Ascending", rfl, by decide⟩))))
  have hwritten : Written
      ([.word "asc"] ++ .comma :: ([.word "asc", .word "DESC"] ++
        .comma :: [.word "desc", .word "Ascending"]))
      ("asc".toList ++ ([','] ++ ' ' :: ("asc".toList ++ '\t' :: ("DESC".toList ++ ' ' ::
        ([','] ++ ("desc".toList ++ ' ' :: ("Ascending".toList ++ []))))))) := by
    refine .token (.word (by decide)) (runsOn_head (by decide)) ?_
    refine .token (.sign (by decide)) (runsOn_head (by decide)) (.blank (by decide) ?_)
    refine .token (.word (by decide)) (runsOn_head (by decide)) (.blank (by decide) ?_)
    refine .token (.word (by decide)) (runsOn_head (by decide)) (.blank (by decide) ?_)
    refine .token (.sign (by decide)) (runsOn_head (by decide)) ?_
    refine .token (.word (by decide)) (runsOn_head (by decide)) (.blank (by decide) ?_)
    exact .token (.word (by decide)) nofun .nil
  have htext : OrderWrittenAs order text := ⟨_, hrenders, by simpa [text] using hwritten⟩
  exact ⟨horder, htext, (parseOrder_exact.1 order horder).2 text htext⟩

end Docbase.Language
