import Docbase.Proofs.Except
import Docbase.Proofs.Language.Grammar

namespace Docbase.Language

section Tokens

variable {t : Token}

theorem literal_of_literal? {v : Value} (h : t.literal? = some v) : Literal t v := by
  cases t with
  | string s =>
    obtain rfl := Option.some.inj h
    exact .string s
  | int n =>
    simp only [Token.literal?] at h
    cases hshort : Number.int32? n.toInt with
    | none =>
      rw [hshort] at h
      obtain rfl := Option.some.inj h
      refine .int64 fun m hm => ?_
      rw [← hm, Int32.toInt_toInt64, Number.int32?_toInt] at hshort
      cases hshort
    | some short =>
      rw [hshort] at h
      obtain rfl := Option.some.inj h
      obtain ⟨hfits, hvalue⟩ := Option.ite_none_right_eq_some.mp hshort
      simp only [Bool.and_eq_true, decide_eq_true_eq] at hfits
      have hn : n = short.toInt64 := by
        refine Int64.toInt.inj ?_
        rw [Int32.toInt_toInt64, ← Option.some.inj hvalue,
          Int32.toInt_ofInt_of_le hfits.1 (Int.lt_add_one_of_le hfits.2)]
      rw [hn]
      exact .int32 short
  | float x =>
    obtain rfl := Option.some.inj h
    exact .double x
  | word text =>
    simp only [Token.literal?] at h
    split at h
    · next hword =>
      obtain rfl := Option.some.inj h
      exact .true ((isWord_iff "true" (by decide)).mp hword)
    · split at h
      · next hword =>
        obtain rfl := Option.some.inj h
        exact .false ((isWord_iff "false" (by decide)).mp hword)
      · obtain ⟨hword, hv⟩ := Option.ite_none_right_eq_some.mp h
        obtain rfl := Option.some.inj hv
        exact .null ((isWord_iff "null" (by decide)).mp hword)
  | _ => simp [Token.literal?, Token.isWord] at h

theorem method_of_method? {name : String} {op : Operator} {v : Value} (h : method? name = some op)
    (hv : op = .eq ∨ ∃ s, v = .string s) : Method name op v := by
  unfold method? at h
  split at h
  · next hname =>
    obtain rfl := Option.some.inj h
    exact .equals ((sameIgnoringCase_iff "equals" (by decide)).mp hname)
  · split at h
    · next hname =>
      obtain rfl := Option.some.inj h
      obtain ⟨s, rfl⟩ := hv.resolve_left (by decide)
      exact .contains ((sameIgnoringCase_iff "contains" (by decide)).mp hname)
    · split at h
      · next hname =>
        obtain rfl := Option.some.inj h
        obtain ⟨s, rfl⟩ := hv.resolve_left (by decide)
        exact .startsWith ((sameIgnoringCase_iff "startswith" (by decide)).mp hname)
      · obtain ⟨hname, hop⟩ := Option.ite_none_right_eq_some.mp h
        obtain rfl := Option.some.inj hop
        obtain ⟨s, rfl⟩ := hv.resolve_left (by decide)
        exact .endsWith ((sameIgnoringCase_iff "endswith" (by decide)).mp hname)

end Tokens

section Reading

variable {finish : Nat}

/-- A reader is sound for a grammar if the tokens that it takes derive what it comes to. -/
def Sound (derives : List Token → Filter → Prop) (read : Reader Filter) : Prop :=
  ∀ ts f rest, read ts = .ok (f, rest) →
    ∃ used, ts = used ++ rest ∧ derives (used.map Placed.token) f

theorem exists_of_literal {ts rest : List Placed} {v : Value}
    (h : literal finish ts = .ok (v, rest)) : ∃ t, ts = t :: rest ∧ Literal t.token v := by
  cases ts with
  | nil => cases h
  | cons t ts =>
    rw [literal] at h
    cases hv : t.token.literal? with
    | none =>
      rw [hv] at h
      cases h
    | some w =>
      rw [hv] at h
      obtain ⟨rfl, rfl⟩ := Prod.mk.inj (Except.ok.inj h)
      exact ⟨t, rfl, literal_of_literal? hv⟩

theorem exists_of_closingParen {ts rest : List Placed}
    (h : closingParen finish ts = .ok ((), rest)) :
    ∃ position, ts = ⟨.rightParen, position⟩ :: rest := by
  unfold closingParen at h
  split at h
  · next position _ =>
    obtain ⟨-, rfl⟩ := Prod.mk.inj (Except.ok.inj h)
    exact ⟨position, rfl⟩
  · cases h

theorem exists_of_methodCall {call : String} {position : Nat} {args rest : List Placed} {f : Filter}
    (h : methodCall finish call position args = .ok (f, rest)) :
    ∃ field name value close op v, call = field ++ "." ++ name ∧
      args = value :: ⟨.rightParen, close⟩ :: rest ∧ Method name op v ∧ Literal value.token v ∧
      f = .comparison (Path.ofString field) op v := by
  unfold methodCall at h
  cases hcall : (Path.ofString call).splitLast? with
  | none =>
    rw [hcall] at h
    cases h
  | some parts =>
    obtain ⟨path, name⟩ := parts
    obtain ⟨field, rfl, rfl⟩ := Path.exists_of_splitLast?_ofString hcall
    rw [hcall] at h
    dsimp only at h
    cases hmethod : method? name with
    | none =>
      rw [hmethod] at h
      cases h
    | some op =>
      rw [hmethod] at h
      obtain ⟨⟨v, ts⟩, hliteral, hclosing⟩ := exists_of_bind_eq_ok h
      obtain ⟨⟨⟨⟩, ts'⟩, hclose, hread⟩ := exists_of_bind_eq_ok hclosing
      obtain ⟨value, rfl, hvalue⟩ := exists_of_literal hliteral
      obtain ⟨close, rfl⟩ := exists_of_closingParen hclose
      refine ⟨field, name, value, close, op, v, rfl, ?_⟩
      dsimp only at hread
      split at hread
      · obtain ⟨rfl, rfl⟩ := Prod.mk.inj (Except.ok.inj hread)
        exact ⟨rfl, method_of_method? hmethod (.inl rfl), hvalue, rfl⟩
      · obtain ⟨rfl, rfl⟩ := Prod.mk.inj (Except.ok.inj hread)
        exact ⟨rfl, method_of_method? hmethod (.inr ⟨_, rfl⟩), hvalue, rfl⟩
      · cases hread

theorem sound_atom (levels : Nat) : Sound (Derives .operand levels) (atom finish) := by
  intro ts f rest h
  cases ts with
  | nil => cases h
  | cons t ts =>
    obtain ⟨token, position⟩ := t
    rw [atom] at h
    cases hword : fieldWord? token with
    | none =>
      rw [hword] at h
      cases h
    | some field =>
      rw [hword] at h
      obtain ⟨rfl, hfield⟩ := fieldWord?_eq_some_iff.mp hword
      cases ts with
      | nil =>
        obtain ⟨rfl, rfl⟩ := Prod.mk.inj (Except.ok.inj h)
        exact ⟨[_], rfl, .truth hfield⟩
      | cons next more =>
        dsimp only at h
        split at h
        · next hparen =>
          obtain ⟨field, name, value, close, op, v, rfl, rfl, hmethod, hvalue, rfl⟩ :=
            exists_of_methodCall h
          refine ⟨[_, next, value, _], rfl, ?_⟩
          simp only [List.map_cons, List.map_nil, hparen]
          exact .call hmethod hvalue
        · cases hcompares : next.token.comparison? with
          | none =>
            rw [hcompares] at h
            obtain ⟨rfl, rfl⟩ := Prod.mk.inj (Except.ok.inj h)
            exact ⟨[_], rfl, .truth hfield⟩
          | some op =>
            rw [hcompares] at h
            obtain ⟨⟨v, ts⟩, hliteral, hread⟩ := exists_of_bind_eq_ok h
            obtain ⟨rfl, rfl⟩ := Prod.mk.inj (Except.ok.inj hread)
            obtain ⟨value, rfl, hvalue⟩ := exists_of_literal hliteral
            exact ⟨[_, next, value], rfl,
              .comparison hfield (comparison?_eq_some_iff.mp hcompares) hvalue⟩

section Chain

variable {separates : Token → Bool} {combine : Filter → Filter → Filter} {item : Reader Filter}
  {derivesItem derivesChain : List Token → Filter → Prop}

theorem exists_of_chainFrom (hitem : Sound derivesItem item)
    (hstep : ∀ xs f t ys g, derivesChain xs f → separates t → derivesItem ys g →
      derivesChain (xs ++ t :: ys) (combine f g)) {rounds : Nat} {xs : List Token} {f g : Filter}
    {ts rest : List Placed} (hf : derivesChain xs f)
    (h : chainFrom separates combine item rounds f ts = .ok (g, rest)) :
    ∃ used, ts = used ++ rest ∧ derivesChain (xs ++ used.map Placed.token) g := by
  -- What has been read so far and the items of the rounds to come are one chain.
  induction rounds generalizing xs f ts with
  | zero =>
    rw [chainFrom] at h
    obtain ⟨rfl, rfl⟩ := Prod.mk.inj (Except.ok.inj h)
    exact ⟨[], rfl, by rwa [List.map_nil, List.append_nil]⟩
  | succ rounds ih =>
    cases ts with
    | nil =>
      obtain ⟨rfl, rfl⟩ := Prod.mk.inj (Except.ok.inj h)
      exact ⟨[], rfl, by rwa [List.map_nil, List.append_nil]⟩
    | cons t ts =>
      rw [chainFrom] at h
      split at h
      · next hseparates =>
        obtain ⟨⟨next, ts'⟩, hnext, hrounds⟩ := exists_of_bind_eq_ok h
        obtain ⟨ys, rfl, hys⟩ := hitem _ _ _ hnext
        obtain ⟨used, rfl, hused⟩ := ih (hstep _ _ _ _ _ hf hseparates hys) hrounds
        refine ⟨t :: (ys ++ used), by simp, ?_⟩
        simpa using hused
      · obtain ⟨rfl, rfl⟩ := Prod.mk.inj (Except.ok.inj h)
        exact ⟨[], rfl, by rwa [List.map_nil, List.append_nil]⟩

theorem sound_chain (hitem : Sound derivesItem item)
    (hfirst : ∀ ts f, derivesItem ts f → derivesChain ts f)
    (hstep : ∀ xs f t ys g, derivesChain xs f → separates t → derivesItem ys g →
      derivesChain (xs ++ t :: ys) (combine f g)) :
    Sound derivesChain (chain separates combine item) := by
  intro ts g rest h
  obtain ⟨⟨f, ts'⟩, hf, hrounds⟩ := exists_of_bind_eq_ok h
  obtain ⟨xs, rfl, hxs⟩ := hitem _ _ _ hf
  obtain ⟨used, rfl, hused⟩ := exists_of_chainFrom hitem hstep (hfirst _ _ hxs) hrounds
  exact ⟨xs ++ used, (List.append_assoc ..).symm, by rwa [List.map_append]⟩

end Chain

theorem sound_disjunction {levels : Nat} {item : Reader Filter}
    (hitem : Sound (Derives .operand levels) item) :
    Sound (Derives .disjunction levels) (disjunction item) := by
  have hconjunction : Sound (Derives .conjunction levels) (conjunction item) :=
    sound_chain hitem (fun _ _ => .operand) fun _ _ _ _ _ hf ht hg => .and hf (isAnd_iff.mp ht) hg
  exact sound_chain hconjunction (fun _ _ => .conjunction)
    fun _ _ _ _ _ hf ht hg => .or hf (isOr_iff.mp ht) hg

theorem sound_operand (levels : Nat) : Sound (Derives .operand levels) (operand finish levels) := by
  induction levels with
  | zero =>
    intro ts f rest h
    cases ts with
    | nil => cases h
    | cons t ts =>
      rw [operand] at h
      split at h
      · cases h
      · exact sound_atom 0 _ _ _ h
  | succ levels ih =>
    intro ts f rest h
    cases ts with
    | nil => cases h
    | cons t ts =>
      rw [operand] at h
      split at h
      · next hnot =>
        obtain ⟨⟨g, ts'⟩, hg, hread⟩ := exists_of_bind_eq_ok h
        obtain ⟨rfl, rfl⟩ := Prod.mk.inj (Except.ok.inj hread)
        obtain ⟨used, rfl, hused⟩ := ih _ _ _ hg
        exact ⟨t :: used, rfl, .negation (isNot_iff.mp hnot) hused⟩
      · split at h
        · next hparen =>
          obtain ⟨⟨g, ts'⟩, hg, hclosing⟩ := exists_of_bind_eq_ok h
          obtain ⟨⟨⟨⟩, ts''⟩, hclose, hread⟩ := exists_of_bind_eq_ok hclosing
          obtain ⟨rfl, rfl⟩ := Prod.mk.inj (Except.ok.inj hread)
          obtain ⟨close, rfl⟩ := exists_of_closingParen hclose
          obtain ⟨used, rfl, hused⟩ := sound_disjunction ih _ _ _ hg
          refine ⟨t :: (used ++ [⟨.rightParen, close⟩]), by simp, ?_⟩
          simp only [List.map_cons, List.map_append, List.map_nil, hparen]
          exact .parens hused
        · exact sound_atom (levels + 1) _ _ _ h

theorem filterOfTokens_eq_ok_iff {placed : List Placed} {f : Filter} :
    filterOfTokens finish placed = .ok f ↔
      Derives .disjunction maxNesting (placed.map Placed.token) f := by
  refine ⟨fun h => ?_, fun h => filterOfTokens_of_derives h rfl⟩
  unfold filterOfTokens at h
  split at h
  · cases h
  · obtain ⟨⟨g, rest⟩, hg, hread⟩ := exists_of_bind_eq_ok h
    dsimp only at hread
    split at hread
    · next hrest =>
      obtain rfl := Except.ok.inj hread
      obtain rfl := List.isEmpty_iff.mp hrest
      obtain ⟨used, rfl, hused⟩ := sound_disjunction (sound_operand maxNesting) _ _ _ hg
      rwa [List.append_nil]
    · cases hread

end Reading

/-- A text is read as a filter exactly if it comes apart into tokens that derive the filter. -/
theorem parseFilter_eq_ok_iff {text : String} {f : Filter} : parseFilter text = .ok f ↔
    ∃ placed, tokens text = .ok placed ∧
      Derives .disjunction maxNesting (placed.map Placed.token) f := by
  constructor
  · intro h
    obtain ⟨placed, hplaced, h⟩ := exists_of_bind_eq_ok h
    exact ⟨placed, hplaced, filterOfTokens_eq_ok_iff.mp h⟩
  · rintro ⟨placed, hplaced, h⟩
    rw [parseFilter, hplaced]
    exact filterOfTokens_eq_ok_iff.mpr h

end Docbase.Language
