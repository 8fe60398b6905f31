import Docbase.Proofs.Language.FaultPosition
import Docbase.Proofs.Language.Slice

namespace Docbase.Language

structure Source where
  text : String
  entries : List Entry

/-- How far a reader is, and how many parentheses and negations are open there. Every index and
every difference that it takes is checked. -/
structure Cursor where
  place : Nat
  depth : Nat

abbrev Run (α : Type) := StateT Cursor (Except Stop) α

namespace Cursor

def minus (a b : Nat) : Run Nat := if b ≤ a then pure (a - b) else throw .outOfRange

variable (source : Source) {α β : Type}

def entryAt (i : Nat) : Run Entry :=
  match source.entries[i]? with
  | some entry => pure entry
  | none => throw .outOfRange

def current : Run Entry := do
  let last ← minus source.entries.length 1
  entryAt source (min (← get).place last)

def advance : Run Unit := do
  let last ← minus source.entries.length 1
  let cursor ← get
  set (if cursor.place < last then { cursor with place := cursor.place + 1 } else cursor)

def fail (position : Nat) (cause : Cause) : Run α :=
  throw (.failed (.parse source.text ⟨position, cause⟩))

def unexpected (what : Expectation) : Run α := do
  let entry ← current source
  fail source entry.position (.expected what entry.token?)

def descend : Run Unit := do
  let cursor ← get
  if maxNesting ≤ cursor.depth then fail source (← current source).position .nestedTooDeeply
  else set { cursor with depth := cursor.depth + 1 }

def ascend : Run Unit := do
  let cursor ← get
  set { cursor with depth := ← minus cursor.depth 1 }

def field (what : Expectation) : Run (String × Nat) := do
  let entry ← current source
  match entry.token?.bind fieldWord? with
  | none => unexpected source what
  | some name => do
    advance source
    pure (name, entry.position)

def literal : Run Value := do
  match (← current source).token?.bind Token.literal? with
  | none => unexpected source .literal
  | some v => do
    advance source
    pure v

def closingParen : Run Unit := do
  if (← current source).token? = some .rightParen then advance source
  else unexpected source .closingParen

/-- The rest of a method call, from the parenthesis behind its name on. -/
def methodCall (call : String) (position : Nat) : Run Filter :=
  match (Path.ofString call).splitLast? with
  | none => fail source position (.noMethod call)
  | some (path, name) =>
    match method? name with
    | none => fail source (position + byteWidth path.chars + 1) (.unsupportedMethod name)
    | some op => do
      advance source
      let value ← literal source
      closingParen source
      match op, value with
      | .eq, _ | _, .string _ => pure (.comparison path op value)
      | _, _ => fail source position (.stringRequired name)

def atom : Run Filter := do
  let (name, position) ← field source .fieldOrParen
  let next ← current source
  if next.token? = some .leftParen then methodCall source name position
  else
    match next.token?.bind Token.comparison? with
    | none => pure (.comparison (Path.ofString name) .eq (.bool true))
    | some op => do
      advance source
      pure (.comparison (Path.ofString name) op (← literal source))

def chainFrom (separates : Token → Bool) (combine : Filter → Filter → Filter) (item : Run Filter) :
    (rounds : Nat) → Filter → Run Filter
  | 0, _ => throw .endless
  | rounds + 1, f => do
    if (← current source).token?.any separates then
      advance source
      chainFrom separates combine item rounds (combine f (← item))
    else pure f

def chain (separates : Token → Bool) (combine : Filter → Filter → Filter) (item : Run Filter) :
    Run Filter := do
  chainFrom source separates combine item source.entries.length (← item)

def conjunction (item : Run Filter) : Run Filter := chain source Token.isAnd Filter.and item

def disjunction (item : Run Filter) : Run Filter :=
  chain source Token.isOr Filter.or (conjunction source item)

/-- What `AND` and `OR` join, with at most so many calls of itself. -/
def operand : (calls : Nat) → Run Filter
  | 0 => throw .endless
  | calls + 1 => do
    let token? := (← current source).token?
    if token?.any Token.isNot then
      descend source
      advance source
      let f ← operand calls
      ascend
      pure f.not
    else if token? = some .leftParen then
      descend source
      advance source
      let f ← disjunction source (operand calls)
      closingParen source
      ascend
      pure f
    else atom source

def filter : Run Filter := do
  if (← current source).token? = none then fail source 0 (.empty .filter)
  else
    let f ← disjunction source (operand source (maxNesting + 1))
    if (← current source).token? = none then pure f else unexpected source .connectiveOrEnd

/-- The direction behind a field; without a word for it the order ascends. -/
def direction : Run Direction := do
  match (← current source).token? with
  | some (.word word) =>
    match direction? word with
    | none => unexpected source .direction
    | some direction => do
      advance source
      pure direction
  | _ => pure .asc

def goesOn : Run Bool := do
  match (← current source).token? with
  | some .comma => do
    advance source
    pure true
  | none => pure false
  | some _ => unexpected source .commaOrEnd

def sortKeys : (rounds : Nat) → (keys : List SortKey) → Run (List SortKey)
  | 0, _ => throw .endless
  | rounds + 1, keys => do
    let (name, _) ← field source .field
    let keys := keys ++ [⟨Path.ofString name, ← direction source⟩]
    if ← goesOn source then sortKeys rounds keys else pure keys

def order : Run (List SortKey) := do
  if (← current source).token? = none then fail source 0 (.empty .order)
  else sortKeys source source.entries.length []

end Cursor

/-- Cuts the text and reads it from its first token on, with no level open. -/
def runOn {α : Type} (run : Source → Run α) (text : String) : Except Stop α := do
  let entries ← cutTokens text
  (run ⟨text, entries⟩ ⟨0, 0⟩).map Prod.fst

def checkedFilter (text : String) : Except Stop Filter := runOn Cursor.filter text

def checkedOrder (text : String) : Except Stop (List SortKey) := runOn Cursor.order text

section Steps

variable {source : Source} {place depth : Nat} {ts : List Placed} {t : Placed} {α β : Type}

/-- The entries from the place on are the tokens and the mark behind them. -/
def At (source : Source) (place : Nat) (ts : List Placed) : Prop :=
  source.entries.drop place = entries source.text ts

theorem run_bind {run : Run α} {cursor next : Cursor} {a : α} (h : run cursor = .ok (a, next))
    (k : α → Run β) : (run >>= k) cursor = k a next :=
  bind_of_eq_ok h _

theorem run_bind_error {run : Run α} {cursor : Cursor} {stop : Stop} (h : run cursor = .error stop)
    (k : α → Run β) : (run >>= k) cursor = .error stop := by
  change run cursor >>= _ = _
  rw [h]
  rfl

theorem minus_of_le {a b : Nat} (h : b ≤ a) (cursor : Cursor) :
    Cursor.minus a b cursor = .ok (a - b, cursor) := by
  rw [Cursor.minus, if_pos h]
  rfl

theorem At.length_eq (h : At source place ts) :
    source.entries.length = place + ts.length + 1 := by
  have hlen := congrArg List.length h
  simp only [List.length_drop, entries, List.length_append, List.length_singleton,
    List.length_map] at hlen
  omega

theorem At.lt_length (h : At source place ts) : place < source.entries.length := by
  rw [h.length_eq]
  omega

theorem At.tokens_lt (h : At source place ts) : ts.length < source.entries.length := by
  rw [h.length_eq]
  omega

theorem At.getElem? (h : At source place ts) :
    source.entries[place]? =
      some ⟨ts.head?.map Placed.token, nextPosition source.text.utf8ByteSize ts⟩ := by
  rw [← Nat.add_zero place, ← List.getElem?_drop, h]
  cases ts <;> rfl

theorem At.tail (h : At source place (t :: ts)) : At source (place + 1) ts := by
  rw [At, ← List.drop_drop, h]
  rfl

theorem At.lt_last (h : At source place (t :: ts)) : place < source.entries.length - 1 :=
  Nat.lt_sub_of_add_lt h.tail.lt_length

theorem current_of_at (h : At source place ts) (depth : Nat) :
    Cursor.current source ⟨place, depth⟩ =
      .ok (⟨ts.head?.map Placed.token, nextPosition source.text.utf8ByteSize ts⟩,
        ⟨place, depth⟩) := by
  have hlt := h.lt_length
  rw [Cursor.current, run_bind (minus_of_le (Nat.one_le_of_lt hlt) _)]
  change Cursor.entryAt source (min place (source.entries.length - 1)) ⟨place, depth⟩ = _
  rw [Nat.min_eq_left (Nat.le_sub_one_of_lt hlt), Cursor.entryAt, h.getElem?]
  rfl

theorem current_of_nil (h : At source place []) (depth : Nat) :
    Cursor.current source ⟨place, depth⟩ =
      .ok (⟨none, source.text.utf8ByteSize⟩, ⟨place, depth⟩) :=
  current_of_at h depth

theorem current_of_cons (h : At source place (t :: ts)) (depth : Nat) :
    Cursor.current source ⟨place, depth⟩ = .ok (⟨some t.token, t.position⟩, ⟨place, depth⟩) :=
  current_of_at h depth

theorem advance_of_at (h : At source place (t :: ts)) (depth : Nat) :
    Cursor.advance source ⟨place, depth⟩ = .ok ((), ⟨place + 1, depth⟩) := by
  rw [Cursor.advance, run_bind (minus_of_le (Nat.one_le_of_lt h.lt_length) _)]
  change Except.ok ((), if place < source.entries.length - 1 then _ else _) = _
  rw [if_pos h.lt_last]

theorem unexpected_of_at (h : At source place ts) (depth : Nat) (what : Expectation) :
    (Cursor.unexpected source what : Run α) ⟨place, depth⟩ =
      .error (.failed (.parse source.text
        ⟨nextPosition source.text.utf8ByteSize ts, .expected what (ts.head?.map Placed.token)⟩)) :=
  run_bind (current_of_at h depth) _

/-- What a run of the cursor comes to beside what a reader does: the same, in front of the same
tokens and with `depth` levels open, or the same fault with the text in it. -/
inductive Agrees (source : Source) (depth : Nat) :
    Except Stop (α × Cursor) → Except Fault (α × List Placed) → Prop where
  | ok {a : α} {place : Nat} {ts : List Placed} : At source place ts →
      Agrees source depth (.ok (a, ⟨place, depth⟩)) (.ok (a, ts))
  | error {fault : Fault} :
      Agrees source depth (.error (.failed (.parse source.text fault))) (.error fault)

theorem Agrees.bind {inner : Nat} {run : Run α} {cursor : Cursor}
    {read : Except Fault (α × List Placed)} {k : α → Run β}
    {f : α × List Placed → Except Fault (β × List Placed)}
    (h : Agrees source inner (run cursor) read)
    (hk : ∀ a place ts, read = .ok (a, ts) → At source place ts →
      Agrees source depth (k a ⟨place, inner⟩) (f (a, ts))) :
    Agrees source depth ((run >>= k) cursor) (read >>= f) := by
  change Agrees source depth (run cursor >>= fun result => k result.1 result.2) _
  generalize run cursor = outcome at h
  cases h with
  | ok hat => exact hk _ _ _ rfl hat
  | error => exact .error

theorem agrees_unexpected (h : At source place ts) (depth : Nat) (what : Expectation) :
    Agrees source depth ((Cursor.unexpected source what : Run α) ⟨place, depth⟩)
      (unexpected source.text.utf8ByteSize what ts) := by
  rw [unexpected_of_at h]
  exact .error

theorem agrees_literal (h : At source place ts) (depth : Nat) :
    Agrees source depth (Cursor.literal source ⟨place, depth⟩)
      (literal source.text.utf8ByteSize ts) := by
  cases ts with
  | nil =>
    rw [Cursor.literal, run_bind (current_of_nil h depth)]
    exact agrees_unexpected h depth _
  | cons t ts =>
    rw [Cursor.literal, run_bind (current_of_cons h depth), literal]
    dsimp only [Option.bind_some]
    cases t.token.literal? with
    | none => exact agrees_unexpected h depth _
    | some v =>
      dsimp only
      rw [run_bind (advance_of_at h depth)]
      exact .ok h.tail

theorem agrees_closingParen (h : At source place ts) (depth : Nat) :
    Agrees source depth (Cursor.closingParen source ⟨place, depth⟩)
      (closingParen source.text.utf8ByteSize ts) := by
  cases ts with
  | nil =>
    rw [Cursor.closingParen, run_bind (current_of_nil h depth)]
    exact agrees_unexpected h depth _
  | cons t ts =>
    obtain ⟨token, position⟩ := t
    rw [Cursor.closingParen, run_bind (current_of_cons h depth)]
    dsimp only
    by_cases hparen : token = .rightParen
    · subst hparen
      rw [if_pos rfl, advance_of_at h]
      exact .ok h.tail
    · rw [if_neg (mt Option.some.inj hparen), closingParen.eq_2 _ _ (by simpa using hparen)]
      exact agrees_unexpected h depth _

theorem field_of_some (h : At source place (t :: ts)) (depth : Nat) {what : Expectation}
    {name : String} (hname : fieldWord? t.token = some name) :
    Cursor.field source what ⟨place, depth⟩ = .ok ((name, t.position), ⟨place + 1, depth⟩) := by
  rw [Cursor.field, run_bind (current_of_cons h depth)]
  dsimp only [Option.bind_some]
  rw [hname]
  exact run_bind (advance_of_at h depth) _

theorem field_of_none (h : At source place ts) (depth : Nat) (what : Expectation)
    (hname : (ts.head?.map Placed.token).bind fieldWord? = none) :
    Cursor.field source what ⟨place, depth⟩ =
      .error (.failed (.parse source.text ⟨nextPosition source.text.utf8ByteSize ts,
        .expected what (ts.head?.map Placed.token)⟩)) := by
  rw [Cursor.field, run_bind (current_of_at h depth)]
  dsimp only
  rw [hname]
  exact unexpected_of_at h depth what

theorem agrees_methodCall {args : List Placed} (h : At source place (t :: args)) (depth : Nat)
    (call : String) (position : Nat) :
    Agrees source depth (Cursor.methodCall source call position ⟨place, depth⟩)
      (methodCall source.text.utf8ByteSize call position args) := by
  rw [Cursor.methodCall, methodCall]
  cases (Path.ofString call).splitLast? with
  | none => exact .error
  | some parts =>
    obtain ⟨path, name⟩ := parts
    dsimp only
    cases method? name with
    | none => exact .error
    | some op =>
      dsimp only
      rw [run_bind (advance_of_at h depth)]
      refine (agrees_literal h.tail depth).bind fun value place rest _ h => ?_
      refine (agrees_closingParen h depth).bind fun _ place rest _ h => ?_
      cases op with
      | eq => exact .ok h
      | _ =>
        cases value with
        | string => exact .ok h
        | _ => exact .error

theorem agrees_atom (h : At source place ts) (depth : Nat) :
    Agrees source depth (Cursor.atom source ⟨place, depth⟩) (atom source.text.utf8ByteSize ts) := by
  rw [Cursor.atom]
  cases hname : (ts.head?.map Placed.token).bind fieldWord? with
  | none =>
    rw [run_bind_error (field_of_none h depth _ hname)]
    cases ts with
    | nil => exact .error
    | cons t rest =>
      change fieldWord? t.token = none at hname
      rw [atom, hname]
      exact .error
  | some name =>
    cases ts with
    | nil => cases hname
    | cons t rest =>
      change fieldWord? t.token = some name at hname
      rw [run_bind (field_of_some h depth hname), atom, hname]
      dsimp only
      cases rest with
      | nil =>
        rw [run_bind (current_of_nil h.tail depth)]
        exact .ok h.tail
      | cons next more =>
        rw [run_bind (current_of_cons h.tail depth)]
        dsimp only [Option.bind_some]
        split
        next hparen =>
          rw [if_pos (Option.some.inj hparen)]
          exact agrees_methodCall h.tail depth _ _
        next hparen =>
          rw [if_neg (mt (congrArg some) hparen)]
          cases next.token.comparison? with
          | none => exact .ok h.tail
          | some op =>
            dsimp only
            rw [run_bind (advance_of_at h.tail depth)]
            exact (agrees_literal h.tail.tail depth).bind fun _ _ _ _ h => .ok h

/-- Wherever the reader starts, the run of the cursor agrees with it. -/
def Follows (source : Source) (depth : Nat) (run : Run Filter) (read : Reader Filter) : Prop :=
  ∀ place ts, At source place ts → Agrees source depth (run ⟨place, depth⟩) (read ts)

/-- The reader takes tokens off the front, whatever it makes of them. -/
abbrev TakesFront (read : Reader Filter) : Prop := Sound (fun _ _ => True) read

theorem TakesFront.length_le {read : Reader Filter} (h : TakesFront read) {f : Filter}
    {rest : List Placed} (hread : read ts = .ok (f, rest)) : rest.length ≤ ts.length := by
  obtain ⟨used, rfl, -⟩ := h _ _ _ hread
  simp

section Chain

variable {separates : Token → Bool} {combine : Filter → Filter → Filter} {run : Run Filter}
  {item : Reader Filter}

theorem takesFront_chain (h : TakesFront item) : TakesFront (chain separates combine item) :=
  sound_chain h (fun _ _ _ => trivial) fun _ _ _ _ _ _ _ _ => trivial

theorem agrees_chainFrom (hitem : Follows source depth run item) (hfront : TakesFront item)
    {calls rounds : Nat} {f : Filter} (h : At source place ts) (hcalls : ts.length < calls)
    (hrounds : ts.length ≤ rounds) :
    Agrees source depth
      (Cursor.chainFrom source separates combine run calls f ⟨place, depth⟩)
      (chainFrom separates combine item rounds f ts) := by
  -- On the rounds of the cursor, of which there is one more than tokens are left.
  induction calls generalizing rounds f place ts with
  | zero => exact absurd hcalls (Nat.not_lt_zero _)
  | succ calls ih =>
    cases ts with
    | nil =>
      rw [Cursor.chainFrom, run_bind (current_of_nil h depth)]
      cases rounds <;> exact .ok h
    | cons t ts =>
      obtain ⟨rounds, rfl⟩ := Nat.exists_eq_add_of_le' (Nat.le_of_add_left_le hrounds)
      rw [Cursor.chainFrom, run_bind (current_of_cons h depth), chainFrom]
      dsimp only [Option.any_some]
      split
      · rw [run_bind (advance_of_at h depth)]
        refine (hitem _ _ h.tail).bind fun g place rest hread hrest => ?_
        have hle := hfront.length_le hread
        exact ih hrest (Nat.lt_of_le_of_lt hle (Nat.lt_of_succ_lt_succ hcalls))
          (Nat.le_trans hle (Nat.le_of_succ_le_succ hrounds))
      · exact .ok h

theorem follows_chain (hitem : Follows source depth run item) (hfront : TakesFront item) :
    Follows source depth (Cursor.chain source separates combine run)
      (chain separates combine item) := by
  intro place ts h
  refine (hitem place ts h).bind fun f place rest _ hrest => ?_
  exact agrees_chainFrom hitem hfront hrest hrest.tokens_lt (Nat.le_refl _)

theorem follows_disjunction (hitem : Follows source depth run item) (hfront : TakesFront item) :
    Follows source depth (Cursor.disjunction source run) (disjunction item) :=
  follows_chain (follows_chain hitem hfront) (takesFront_chain hfront)

end Chain

theorem takesFront_operand (finish levels : Nat) : TakesFront (operand finish levels) := by
  intro ts f rest h
  obtain ⟨used, hused, -⟩ := sound_operand levels ts f rest h
  exact ⟨used, hused, trivial⟩

theorem descend_of_lt (place : Nat) (h : depth < maxNesting) :
    Cursor.descend source ⟨place, depth⟩ = .ok ((), ⟨place, depth + 1⟩) := by
  change (if maxNesting ≤ depth then _ else set (⟨place, depth + 1⟩ : Cursor) : Run Unit) _ = _
  rw [if_neg (Nat.not_le_of_lt h)]
  rfl

theorem descend_of_le (hat : At source place (t :: ts)) (h : maxNesting ≤ depth) :
    Cursor.descend source ⟨place, depth⟩ =
      .error (.failed (.parse source.text ⟨t.position, .nestedTooDeeply⟩)) := by
  change (if maxNesting ≤ depth then Cursor.current source >>= _ else _ : Run Unit) _ = _
  rw [if_pos h]
  exact run_bind (current_of_cons hat depth) _

theorem ascend_eq (place depth : Nat) :
    Cursor.ascend ⟨place, depth + 1⟩ = .ok ((), ⟨place, depth⟩) := by
  have hminus := minus_of_le (Nat.le_add_left 1 depth) ⟨place, depth + 1⟩
  exact run_bind hminus fun rest => set (⟨place, rest⟩ : Cursor)

theorem agrees_operand_of_opens_eq_false (h : At source place ts) (hopens : opensLevel ts = false)
    (calls levels : Nat) :
    Agrees source depth (Cursor.operand source (calls + 1) ⟨place, depth⟩)
      (operand source.text.utf8ByteSize levels ts) := by
  cases ts with
  | nil =>
    rw [Cursor.operand, run_bind (current_of_nil h depth)]
    cases levels <;> exact agrees_atom h depth
  | cons t rest =>
    have hnot : ¬ t.token.isNot := fun hnot => by simp [opensLevel, hnot] at hopens
    have hparen : t.token ≠ .leftParen := fun hparen => by simp [opensLevel, hparen] at hopens
    rw [Cursor.operand, run_bind (current_of_cons h depth)]
    dsimp only [Option.any_some]
    rw [if_neg hnot, if_neg (mt Option.some.inj hparen)]
    cases levels with
    | zero =>
      rw [operand, if_neg (Bool.not_eq_true _ ▸ hopens)]
      exact agrees_atom h depth
    | succ levels =>
      rw [operand, if_neg hnot, if_neg hparen]
      exact agrees_atom h depth

theorem follows_operand {levels : Nat} (hlevels : depth + levels = maxNesting) :
    Follows source depth (Cursor.operand source (levels + 1))
      (operand source.text.utf8ByteSize levels) := by
  -- What is open at the cursor and what may still be opened make up the greatest depth.
  induction levels generalizing depth with
  | zero =>
    obtain rfl : depth = maxNesting := hlevels
    intro place ts h
    cases hopens : opensLevel ts with
    | false => exact agrees_operand_of_opens_eq_false h hopens 0 0
    | true =>
      cases ts with
      | nil => cases hopens
      | cons t rest =>
        have hfull := descend_of_le h (Nat.le_refl _)
        rw [Cursor.operand, run_bind (current_of_cons h _), operand, if_pos hopens]
        dsimp only [Option.any_some]
        by_cases hnot : t.token.isNot
        · rw [if_pos hnot, run_bind_error hfull]
          exact .error
        · have hparen : t.token = .leftParen := by simpa [opensLevel, hnot] using hopens
          rw [if_neg hnot, if_pos (congrArg some hparen), run_bind_error hfull]
          exact .error
  | succ levels ih =>
    have hopen : depth < maxNesting := by omega
    have hinner : Follows source (depth + 1) (Cursor.operand source (levels + 1))
        (operand source.text.utf8ByteSize levels) := ih (by omega)
    intro place ts h
    cases hopens : opensLevel ts with
    | false => exact agrees_operand_of_opens_eq_false h hopens (levels + 1) (levels + 1)
    | true =>
      cases ts with
      | nil => cases hopens
      | cons t rest =>
        rw [Cursor.operand, run_bind (current_of_cons h depth), operand]
        dsimp only [Option.any_some]
        by_cases hnot : t.token.isNot
        · rw [if_pos hnot, if_pos hnot, run_bind (descend_of_lt place hopen),
            run_bind (advance_of_at h _)]
          refine (hinner _ _ h.tail).bind fun f place rest _ h => ?_
          rw [run_bind (ascend_eq place depth)]
          exact .ok h
        · have hparen : t.token = .leftParen := by simpa [opensLevel, hnot] using hopens
          rw [if_neg hnot, if_neg hnot, if_pos (congrArg some hparen), if_pos hparen,
            run_bind (descend_of_lt place hopen), run_bind (advance_of_at h _)]
          have hitem := follows_disjunction hinner (takesFront_operand _ levels)
          refine (hitem _ _ h.tail).bind fun f place rest _ h => ?_
          refine (agrees_closingParen h (depth + 1)).bind fun _ place rest _ h => ?_
          rw [run_bind (ascend_eq place depth)]
          exact .ok h

theorem Agrees.map_bind {run : Run α} {cursor : Cursor} {read : Except Fault (α × List Placed)}
    {k : α → Run β} {f : α × List Placed → Except Fault β}
    (h : Agrees source depth (run cursor) read)
    (hk : ∀ a place ts, At source place ts →
      (k a ⟨place, depth⟩).map Prod.fst = carrying source.text (f (a, ts))) :
    ((run >>= k) cursor).map Prod.fst = carrying source.text (read >>= f) := by
  change (run cursor >>= fun result => k result.1 result.2).map Prod.fst = _
  generalize run cursor = outcome at h
  cases h with
  | ok hat => exact hk _ _ _ hat
  | error => rfl

theorem map_unexpected (h : At source place ts) (depth : Nat) (what : Expectation) :
    ((Cursor.unexpected source what : Run α) ⟨place, depth⟩).map Prod.fst =
      carrying source.text (unexpected source.text.utf8ByteSize what ts) := by
  rw [unexpected_of_at h]
  rfl

theorem map_filter (h : At source 0 ts) :
    (Cursor.filter source ⟨0, 0⟩).map Prod.fst =
      carrying source.text (filterOfTokens source.text.utf8ByteSize ts) := by
  have hread := follows_disjunction (follows_operand (Nat.zero_add maxNesting))
    (takesFront_operand _ maxNesting) _ _ h
  rw [Cursor.filter]
  cases ts with
  | nil =>
    rw [run_bind (current_of_nil h 0)]
    rfl
  | cons t rest =>
    rw [run_bind (current_of_cons h 0), filterOfTokens, if_neg (Option.some_ne_none _),
      if_neg (by simp)]
    refine hread.map_bind fun f place ts h => ?_
    cases ts with
    | nil =>
      rw [run_bind (current_of_nil h 0)]
      rfl
    | cons t rest =>
      rw [run_bind (current_of_cons h 0), if_neg (Option.some_ne_none _)]
      exact map_unexpected h 0 _

theorem direction_of_word {word : String} {position : Nat}
    (h : At source place (⟨.word word, position⟩ :: ts)) (depth : Nat) {direction : Direction}
    (hword : direction? word = some direction) :
    Cursor.direction source ⟨place, depth⟩ = .ok (direction, ⟨place + 1, depth⟩) := by
  rw [Cursor.direction, run_bind (current_of_cons h depth)]
  dsimp only
  rw [hword]
  exact run_bind (advance_of_at h depth) _

theorem direction_of_none {word : String} {position : Nat}
    (h : At source place (⟨.word word, position⟩ :: ts)) (depth : Nat)
    (hword : direction? word = none) :
    Cursor.direction source ⟨place, depth⟩ =
      .error (.failed (.parse source.text
        ⟨position, .expected .direction (some (.word word))⟩)) := by
  rw [Cursor.direction, run_bind (current_of_cons h depth)]
  dsimp only
  rw [hword]
  exact unexpected_of_at h depth _

theorem direction_of_ne_word (h : At source place ts) (depth : Nat)
    (hword : ∀ word, ts.head?.map Placed.token ≠ some (.word word)) :
    Cursor.direction source ⟨place, depth⟩ = .ok (.asc, ⟨place, depth⟩) := by
  rw [Cursor.direction, run_bind (current_of_at h depth)]
  dsimp only
  cases htoken : ts.head?.map Placed.token with
  | none => rfl
  | some token =>
    cases token with
    | word word => exact absurd htoken (hword word)
    | _ => rfl

theorem goesOn_of_nil (h : At source place []) (depth : Nat) :
    Cursor.goesOn source ⟨place, depth⟩ = .ok (false, ⟨place, depth⟩) := by
  rw [Cursor.goesOn, run_bind (current_of_nil h depth)]
  rfl

theorem goesOn_of_comma {position : Nat} (h : At source place (⟨.comma, position⟩ :: ts))
    (depth : Nat) : Cursor.goesOn source ⟨place, depth⟩ = .ok (true, ⟨place + 1, depth⟩) := by
  rw [Cursor.goesOn, run_bind (current_of_cons h depth)]
  exact run_bind (advance_of_at h depth) _

theorem goesOn_of_other (h : At source place (t :: ts)) (depth : Nat) (hcomma : t.token ≠ .comma) :
    Cursor.goesOn source ⟨place, depth⟩ =
      .error (.failed (.parse source.text
        ⟨t.position, .expected .commaOrEnd (some t.token)⟩)) := by
  rw [Cursor.goesOn, run_bind (current_of_cons h depth)]
  obtain ⟨token, position⟩ := t
  cases token with
  | comma => exact absurd rfl hcomma
  | _ => exact unexpected_of_at h depth _

theorem carrying_append (text : String) (keys : List SortKey) (key : SortKey)
    (rest : Except Fault (List SortKey)) :
    carrying text (rest.map (keys ++ [key] ++ ·)) =
      carrying text ((do .ok (key :: (← rest))).map (keys ++ ·)) := by
  cases rest with
  | error => rfl
  | ok more => exact congrArg Except.ok (List.append_assoc keys [key] more)

theorem sortKeys_of_key (h : At source place (t :: ts)) {name : String} {direction : Direction}
    {next : Nat} (hname : fieldWord? t.token = some name)
    (hdirection : Cursor.direction source ⟨place + 1, depth⟩ = .ok (direction, ⟨next, depth⟩))
    (rounds : Nat) (keys : List SortKey) :
    Cursor.sortKeys source (rounds + 1) keys ⟨place, depth⟩ =
      (Cursor.goesOn source >>= fun more =>
        if more then Cursor.sortKeys source rounds (keys ++ [⟨Path.ofString name, direction⟩])
        else pure (keys ++ [⟨Path.ofString name, direction⟩])) ⟨next, depth⟩ := by
  rw [Cursor.sortKeys, run_bind (field_of_some h depth hname)]
  exact run_bind hdirection _

theorem map_sortKeys (h : At source place ts) {rounds : Nat} (hrounds : ts.length < rounds)
    (keys : List SortKey) :
    (Cursor.sortKeys source rounds keys ⟨place, depth⟩).map Prod.fst =
      carrying source.text ((sortKeys source.text.utf8ByteSize ts).map (keys ++ ·)) := by
  -- On the rounds, which are more than there are tokens.
  induction rounds generalizing place ts keys with
  | zero => exact absurd hrounds (Nat.not_lt_zero _)
  | succ rounds ih =>
    fun_cases sortKeys source.text.utf8ByteSize ts with
    | case1 =>
      rw [Cursor.sortKeys, run_bind_error (field_of_none h depth .field rfl)]
      rfl
    | case2 t rest hname =>
      rw [Cursor.sortKeys, run_bind_error (field_of_none h depth .field hname)]
      rfl
    | case3 t name hname =>
      rw [sortKeys_of_key h hname (direction_of_ne_word h.tail depth nofun),
        run_bind (goesOn_of_nil h.tail depth)]
      rfl
    | case4 t name hname position more =>
      rw [sortKeys_of_key h hname (direction_of_ne_word h.tail depth nofun),
        run_bind (goesOn_of_comma h.tail depth), if_pos rfl, ← carrying_append]
      simp only [List.length_cons] at hrounds
      exact ih h.tail.tail (by omega) _
    | case5 t name hname word position after hword =>
      rw [Cursor.sortKeys, run_bind (field_of_some h depth hname)]
      dsimp only
      rw [run_bind_error (direction_of_none h.tail depth hword)]
      rfl
    | case6 t name hname word position direction hword =>
      rw [sortKeys_of_key h hname (direction_of_word h.tail depth hword),
        run_bind (goesOn_of_nil h.tail.tail depth)]
      rfl
    | case7 t name hname word position direction hword comma more =>
      rw [sortKeys_of_key h hname (direction_of_word h.tail depth hword),
        run_bind (goesOn_of_comma h.tail.tail depth), if_pos rfl, ← carrying_append]
      simp only [List.length_cons] at hrounds
      exact ih h.tail.tail.tail (by omega) _
    | case8 t name hname word position direction hword other hnil hcomma =>
      cases other with
      | nil => exact absurd rfl hnil
      | cons u us =>
        have hu : u.token ≠ .comma := fun hu => hcomma u.position us (hu ▸ rfl)
        rw [sortKeys_of_key h hname (direction_of_word h.tail depth hword),
          run_bind_error (goesOn_of_other h.tail.tail depth hu)]
        rfl
    | case9 t name hname other hnil hcomma hword =>
      cases other with
      | nil => exact absurd rfl hnil
      | cons u us =>
        have hu : u.token ≠ .comma := fun hu => hcomma u.position us (hu ▸ rfl)
        have hne : ∀ word, some u.token ≠ some (.word word) := fun word hu =>
          hword word u.position us (Option.some.inj hu ▸ rfl)
        rw [sortKeys_of_key h hname (direction_of_ne_word h.tail depth hne),
          run_bind_error (goesOn_of_other h.tail depth hu)]
        rfl

theorem map_order (h : At source 0 ts) :
    (Cursor.order source ⟨0, 0⟩).map Prod.fst =
      carrying source.text (orderOfTokens source.text.utf8ByteSize ts) := by
  rw [Cursor.order]
  cases ts with
  | nil =>
    rw [run_bind (current_of_nil h 0)]
    rfl
  | cons t rest =>
    rw [run_bind (current_of_cons h 0), orderOfTokens, if_neg (Option.some_ne_none _),
      if_neg (by simp), map_sortKeys h h.tokens_lt]
    cases sortKeys source.text.utf8ByteSize (t :: rest) <;> rfl

end Steps

section Texts

variable {α : Type} (text : String)

theorem runOn_eq {run : Source → Run α} {read : Nat → List Placed → Except Fault α}
    (hrun : ∀ source ts, At source 0 ts →
      (run source ⟨0, 0⟩).map Prod.fst = carrying source.text (read source.text.utf8ByteSize ts)) :
    runOn run text = carrying text (do read text.utf8ByteSize (← tokens text)) := by
  rw [runOn, cutTokens_eq]
  cases tokens text with
  | error => rfl
  | ok placed => exact hrun ⟨text, entries text placed⟩ placed rfl

theorem checkedFilter_eq : checkedFilter text = carrying text (parseFilter text) :=
  runOn_eq text fun _ _ => map_filter

theorem checkedOrder_eq : checkedOrder text = carrying text (parseOrder text) :=
  runOn_eq text fun _ _ => map_order

/-- A result, or a fault that is told with the text and points to a boundary between two of its
characters or to one of its ends. -/
inductive PointsInto (text : String) : Except Stop α → Prop where
  | ok (a : α) : PointsInto text (.ok a)
  | failed {fault : Fault} : fault.position ≤ text.utf8ByteSize →
      (⟨fault.position⟩ : String.Pos.Raw).IsValid text →
      PointsInto text (.error (.failed (.parse text fault)))

theorem pointsInto_carrying {answer : Except Fault α}
    (h : ∀ fault, answer = .error fault → (⟨fault.position⟩ : String.Pos.Raw).IsValid text) :
    PointsInto text (carrying text answer) := by
  cases answer with
  | ok a => exact .ok a
  | error fault => exact .failed (h fault rfl).le_rawEndPos (h fault rfl)

/-- The readers that check every slice, index and difference come to the same as those that check
none, and so only ever stop at a fault of the text, which points into it. -/
theorem readers_point_into_text :
    (checkedFilter text = carrying text (parseFilter text) ∧
      PointsInto text (checkedFilter text)) ∧
    checkedOrder text = carrying text (parseOrder text) ∧ PointsInto text (checkedOrder text) := by
  have hfilter := checkedFilter_eq text
  have horder := checkedOrder_eq text
  refine ⟨⟨hfilter, ?_⟩, horder, ?_⟩
  · rw [hfilter]
    exact pointsInto_carrying text fun _ => isValid_of_parseFilter
  · rw [horder]
    exact pointsInto_carrying text fun _ => isValid_of_parseOrder

end Texts

end Docbase.Language
