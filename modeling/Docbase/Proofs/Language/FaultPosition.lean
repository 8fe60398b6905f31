import Docbase.Proofs.Language.OrderList

namespace Docbase.Language

variable {cs : List Char} {finish : Nat} {α β : Type}

theorem StandsIn.isBoundary {position : Nat} {t : Placed} (h : StandsIn position cs t) :
    IsBoundary position cs t.position := by
  obtain ⟨front, back, hcs, hp, -⟩ := h
  exact ⟨front, ⟨back, hcs.symm⟩, hp⟩

def AllStand (cs : List Char) (ts : List Placed) : Prop := ∀ t ∈ ts, StandsIn 0 cs t

theorem AllStand.head {t : Placed} {ts : List Placed} (h : AllStand cs (t :: ts)) :
    StandsIn 0 cs t :=
  h t List.mem_cons_self

theorem AllStand.tail {t : Placed} {ts : List Placed} (h : AllStand cs (t :: ts)) :
    AllStand cs ts :=
  fun u hu => h u (List.mem_cons_of_mem _ hu)

/-- What a reader of the text comes to: a fault on a boundary, or something and tokens that stand in
the text. -/
def Pointed (cs : List Char) : Except Fault (α × List Placed) → Prop
  | .error fault => IsBoundary 0 cs fault.position
  | .ok (_, rest) => AllStand cs rest

theorem Pointed.bind {x : Except Fault (α × List Placed)}
    {f : α × List Placed → Except Fault (β × List Placed)} (hx : Pointed cs x)
    (hf : ∀ a rest, AllStand cs rest → Pointed cs (f (a, rest))) : Pointed cs (x >>= f) := by
  cases x with
  | error => exact hx
  | ok result => exact hf result.1 result.2 hx

theorem isBoundary_nextPosition (hfinish : IsBoundary 0 cs finish) {ts : List Placed}
    (hts : AllStand cs ts) : IsBoundary 0 cs (nextPosition finish ts) := by
  cases ts with
  | nil => exact hfinish
  | cons t ts => exact hts.head.isBoundary

theorem pointed_literal (hfinish : IsBoundary 0 cs finish) {ts : List Placed}
    (hts : AllStand cs ts) : Pointed cs (literal finish ts) := by
  cases ts with
  | nil => exact hfinish
  | cons t ts =>
    rw [literal]
    cases t.token.literal? with
    | none => exact hts.head.isBoundary
    | some => exact hts.tail

theorem pointed_closingParen (hfinish : IsBoundary 0 cs finish) {ts : List Placed}
    (hts : AllStand cs ts) : Pointed cs (closingParen finish ts) := by
  unfold closingParen
  split
  · exact hts.tail
  · exact isBoundary_nextPosition hfinish hts

theorem isBoundary_of_dot {field name : String} {position : Nat}
    (h : StandsIn 0 cs ⟨.word (field ++ "." ++ name), position⟩) :
    IsBoundary 0 cs (position + byteWidth field.toList + 1) := by
  obtain ⟨front, back, rfl, rfl, hword⟩ := h
  obtain ⟨-, rest, rfl⟩ := hword _ rfl
  refine ⟨front ++ (field.toList ++ ['.']), ⟨name.toList ++ rest, ?_⟩, ?_⟩
  · simp [String.toList_append]
  · rw [byteWidth_append, byteWidth_append]
    rw [Nat.zero_add, Nat.zero_add, Nat.add_assoc]
    rfl

theorem pointed_methodCall (hfinish : IsBoundary 0 cs finish) {call : String} {position : Nat}
    {args : List Placed} (hcall : StandsIn 0 cs ⟨.word call, position⟩)
    (hargs : AllStand cs args) : Pointed cs (methodCall finish call position args) := by
  unfold methodCall
  cases hsplit : (Path.ofString call).splitLast? with
  | none => exact hcall.isBoundary
  | some parts =>
    obtain ⟨path, name⟩ := parts
    obtain ⟨field, rfl, rfl⟩ := Path.exists_of_splitLast?_ofString hsplit
    dsimp only
    cases method? name with
    | none =>
      dsimp only
      rw [Path.chars_ofString]
      exact isBoundary_of_dot hcall
    | some op =>
      refine (pointed_literal hfinish hargs).bind fun value rest hrest => ?_
      refine (pointed_closingParen hfinish hrest).bind fun _ rest hrest => ?_
      dsimp only
      split
      · exact hrest
      · exact hrest
      · exact hcall.isBoundary

theorem pointed_atom (hfinish : IsBoundary 0 cs finish) {ts : List Placed} (hts : AllStand cs ts) :
    Pointed cs (atom finish ts) := by
  cases ts with
  | nil => exact hfinish
  | cons t rest =>
    obtain ⟨token, position⟩ := t
    rw [atom]
    cases hfield : fieldWord? token with
    | none => exact hts.head.isBoundary
    | some field =>
      obtain ⟨rfl, -⟩ := fieldWord?_eq_some_iff.mp hfield
      cases rest with
      | nil => exact hts.tail
      | cons next more =>
        dsimp only
        split
        · exact pointed_methodCall hfinish hts.head hts.tail.tail
        · cases next.token.comparison? with
          | none => exact hts.tail
          | some op =>
            exact (pointed_literal hfinish hts.tail.tail).bind fun _ _ hrest => hrest

section Chain

variable {separates : Token → Bool} {combine : Filter → Filter → Filter} {item : Reader Filter}

theorem pointed_chainFrom (hitem : ∀ ts, AllStand cs ts → Pointed cs (item ts)) {rounds : Nat}
    {f : Filter} {ts : List Placed} (hts : AllStand cs ts) :
    Pointed cs (chainFrom separates combine item rounds f ts) := by
  induction rounds generalizing f ts with
  | zero => exact hts
  | succ rounds ih =>
    cases ts with
    | nil => exact hts
    | cons t ts =>
      rw [chainFrom]
      split
      · exact (hitem ts hts.tail).bind fun _ _ hrest => ih hrest
      · exact hts

theorem pointed_chain (hitem : ∀ ts, AllStand cs ts → Pointed cs (item ts)) {ts : List Placed}
    (hts : AllStand cs ts) : Pointed cs (chain separates combine item ts) :=
  (hitem ts hts).bind fun _ _ hrest => pointed_chainFrom hitem hrest

end Chain

theorem pointed_disjunction {item : Reader Filter}
    (hitem : ∀ ts, AllStand cs ts → Pointed cs (item ts)) {ts : List Placed}
    (hts : AllStand cs ts) : Pointed cs (disjunction item ts) :=
  pointed_chain (fun _ => pointed_chain hitem) hts

theorem pointed_operand (hfinish : IsBoundary 0 cs finish) (levels : Nat) {ts : List Placed}
    (hts : AllStand cs ts) : Pointed cs (operand finish levels ts) := by
  induction levels generalizing ts with
  | zero =>
    cases ts with
    | nil => exact pointed_atom hfinish hts
    | cons t ts =>
      rw [operand]
      split
      · exact hts.head.isBoundary
      · exact pointed_atom hfinish hts
  | succ levels ih =>
    cases ts with
    | nil => exact pointed_atom hfinish hts
    | cons t ts =>
      rw [operand]
      split
      · exact (ih hts.tail).bind fun _ _ hrest => hrest
      split
      · refine (pointed_disjunction (fun _ => ih) hts.tail).bind fun f rest hrest => ?_
        exact (pointed_closingParen hfinish hrest).bind fun _ _ hrest => hrest
      · exact pointed_atom hfinish hts

theorem isBoundary_of_filterOfTokens (hfinish : IsBoundary 0 cs finish) {ts : List Placed}
    (hts : AllStand cs ts) {fault : Fault} (h : filterOfTokens finish ts = .error fault) :
    IsBoundary 0 cs fault.position := by
  unfold filterOfTokens at h
  split at h
  · obtain rfl := Except.error.inj h
    exact isBoundary_start 0 cs
  · have hpointed := pointed_disjunction (fun _ => pointed_operand hfinish maxNesting) hts
    obtain h | ⟨⟨f, rest⟩, hread, h⟩ := exists_of_bind_eq_error h
    · rw [h] at hpointed
      exact hpointed
    · rw [hread] at hpointed
      dsimp only at h
      split at h
      · cases h
      · obtain rfl := Except.error.inj h
        exact isBoundary_nextPosition hfinish hpointed

theorem isBoundary_of_sortKeys (hfinish : IsBoundary 0 cs finish) {ts : List Placed}
    (hts : AllStand cs ts) {fault : Fault} (h : sortKeys finish ts = .error fault) :
    IsBoundary 0 cs fault.position := by
  fun_induction sortKeys finish ts with
  | case1 =>
    obtain rfl := Except.error.inj h
    exact hfinish
  | case2 =>
    obtain rfl := Except.error.inj h
    exact hts.head.isBoundary
  | case3 | case6 => cases h
  | case4 t field _ position more ih =>
    obtain h | ⟨_, -, h⟩ := exists_of_bind_eq_error h
    · exact ih hts.tail.tail h
    · cases h
  | case5 =>
    obtain rfl := Except.error.inj h
    exact hts.tail.head.isBoundary
  | case7 t field _ word position direction _ comma more ih =>
    obtain h | ⟨_, -, h⟩ := exists_of_bind_eq_error h
    · exact ih hts.tail.tail.tail h
    · cases h
  | case8 =>
    obtain rfl := Except.error.inj h
    exact isBoundary_nextPosition hfinish hts.tail.tail
  | case9 =>
    obtain rfl := Except.error.inj h
    exact isBoundary_nextPosition hfinish hts.tail

theorem isBoundary_finish (text : String) : IsBoundary 0 text.toList text.utf8ByteSize :=
  ⟨text.toList, List.prefix_rfl, by rw [Nat.zero_add, byteWidth_toList]⟩

theorem isValid_of_parseFilter {text : String} {fault : Fault}
    (h : parseFilter text = .error fault) : (⟨fault.position⟩ : String.Pos.Raw).IsValid text := by
  refine isBoundary_iff.mp ?_
  obtain h | ⟨ts, hts, h⟩ := exists_of_bind_eq_error h
  · exact isBoundary_of_tokensFrom h
  · exact isBoundary_of_filterOfTokens (isBoundary_finish text) (standsIn_of_tokensFrom hts) h

theorem isValid_of_parseOrder {text : String} {fault : Fault}
    (h : parseOrder text = .error fault) : (⟨fault.position⟩ : String.Pos.Raw).IsValid text := by
  refine isBoundary_iff.mp ?_
  obtain h | ⟨ts, hts, h⟩ := exists_of_bind_eq_error h
  · exact isBoundary_of_tokensFrom h
  · unfold orderOfTokens at h
    split at h
    · obtain rfl := Except.error.inj h
      exact isBoundary_start 0 _
    · exact isBoundary_of_sortKeys (isBoundary_finish text) (standsIn_of_tokensFrom hts) h

end Docbase.Language
