import Docbase.KeyEscape
import Docbase.Proofs.Document
import Docbase.Proofs.Text.Replace
import Docbase.Proofs.Value.Equality
import Mathlib.Data.List.Nodup

namespace Docbase

namespace KeyEscape

open Text

def Spelling.name (s : Spelling) : List Char := (s.spelled.drop 2).dropLast.dropLast

def spellOut (L : List Spelling) (cs : List Char) : List Char :=
  L.foldl (fun cs s => replaceAll [s.reserved] s.spelled cs) cs

def readBack (L : List Spelling) (cs : List Char) : List Char :=
  L.reverse.foldl (fun cs s => replaceAll s.spelled [s.reserved] cs) cs

/-- What ends with two underscores when these characters are spelled out. -/
def openings (L : List Spelling) : List (List Char) :=
  ['_', '_'] :: L.flatMap fun s => [[s.reserved], [s.reserved, '_']]

/-- What starts with two underscores when these characters are spelled out. -/
def closings (L : List Spelling) : List (List Char) :=
  ['_', '_'] :: L.flatMap fun s => [[s.reserved], ['_', s.reserved]]

/-- What holds a spelling by mistake, after the characters up to this one are spelled out. -/
def lookalikes (earlier : List Spelling) (s : Spelling) : List (List Char) :=
  (openings earlier).flatMap fun opening =>
    (closings (earlier ++ [s])).map fun closing => opening ++ s.name ++ closing

/-- What holds any of these spellings by mistake, each one after those before it. -/
def lookalikesFrom (earlier : List Spelling) : List Spelling → List (List Char)
  | [] => []
  | s :: rest => lookalikes earlier s ++ lookalikesFrom (earlier ++ [s]) rest

/-- The texts that no key may hold that is to be restored. -/
def ambiguities : List (List Char) := lookalikesFrom [] spellings

theorem spelled_eq : ∀ s ∈ spellings, s.spelled = ['_', '_'] ++ s.name ++ ['_', '_'] := by decide

theorem name_ne_nil : ∀ s ∈ spellings, s.name ≠ [] := by decide

theorem underscore_not_mem_name : ∀ s ∈ spellings, '_' ∉ s.name := by decide

theorem reserved_ne_underscore : ∀ s ∈ spellings, s.reserved ≠ '_' := by decide

theorem reserved_not_mem_spelled :
    ∀ s ∈ spellings, ∀ s' ∈ spellings, s.reserved ∉ s'.spelled := by decide

theorem eq_of_name_eq : ∀ s ∈ spellings, ∀ s' ∈ spellings, s.name = s'.name → s = s' := by decide

theorem eq_of_reserved_eq :
    ∀ s ∈ spellings, ∀ s' ∈ spellings, s.reserved = s'.reserved → s = s' := by decide

theorem eq_two_of_drop : ∀ s ∈ spellings, ∀ n < s.spelled.length,
    (s.spelled.take n).getLast? ∈ [none, some '_'] → (s.spelled.drop n).head? ≠ some '_' →
      n = 2 := by decide

variable {L E : List Spelling} {s : Spelling} {cs k w rest : List Char} {c : Char}

def token (L : List Spelling) (c : Char) : List Char :=
  match L.find? (·.reserved = c) with
  | some s => s.spelled
  | none => [c]

theorem token_of_not_reserved (h : ∀ s ∈ L, s.reserved ≠ c) : token L c = [c] := by
  have hnone : L.find? (·.reserved = c) = none := by simpa using h
  rw [token, hnone]

theorem token_cases (L : List Spelling) (c : Char) :
    (∃ s ∈ L, s.reserved = c ∧ token L c = s.spelled) ∨
      (∀ s ∈ L, s.reserved ≠ c) ∧ token L c = [c] := by
  cases h : L.find? (·.reserved = c) with
  | none =>
    have hplain : ∀ s ∈ L, s.reserved ≠ c := by simpa using h
    exact .inr ⟨hplain, token_of_not_reserved hplain⟩
  | some s =>
    have hc : s.reserved = c := by simpa using List.find?_some h
    exact .inl ⟨s, List.mem_of_find?_eq_some h, hc, by rw [token, h]⟩

theorem flatMap_token_of_not_reserved (h : ∀ c ∈ w, ∀ s ∈ L, s.reserved ≠ c) :
    w.flatMap (token L) = w := by
  induction w with
  | nil => rfl
  | cons c w ih =>
    rw [List.flatMap_cons, token_of_not_reserved (h c (by simp)), ih fun d hd => h d (by simp [hd])]
    rfl

theorem replaceAll_eq_flatMap (s : Spelling) (cs : List Char) :
    replaceAll [s.reserved] s.spelled cs = cs.flatMap (token [s]) := by
  induction cs with
  | nil => rfl
  | cons c cs ih =>
    by_cases hc : c = s.reserved
    · subst hc
      rw [replaceAll_cons_self, List.flatMap_cons, ih]
      simp [token]
    · rw [replaceAll_cons_of_ne hc, List.flatMap_cons, ih,
        token_of_not_reserved (by simpa using Ne.symm hc)]
      rfl

theorem spellOut_append_singleton : spellOut (L ++ [s]) cs =
    replaceAll [s.reserved] s.spelled (spellOut L cs) := by
  rw [spellOut, List.foldl_append]
  rfl

theorem spellOut_eq_flatMap (hL : L ⊆ spellings) (cs : List Char) :
    spellOut L cs = cs.flatMap (token L) := by
  -- No spelling holds a reserved character, so characters can be spelled out one by one.
  induction L generalizing cs with
  | nil => exact (flatMap_token_of_not_reserved (by simp)).symm
  | cons s L ih =>
    obtain ⟨hs, hL⟩ := List.cons_subset.mp hL
    rw [spellOut, List.foldl_cons, ← spellOut, ih hL, replaceAll_eq_flatMap, List.flatMap_assoc]
    congr 1
    funext c
    by_cases hc : s.reserved = c
    · have hspelled : s.spelled.flatMap (token L) = s.spelled :=
        flatMap_token_of_not_reserved fun d hd s' hs' => by
          rintro rfl
          exact reserved_not_mem_spelled s' (hL hs') s hs hd
      simpa [token, hc] using hspelled
    · rw [token_of_not_reserved (by simpa using hc)]
      simp [token, hc]

theorem starts_flatMap_iff {tok : Char → List Char} {reserved : List Char}
    (htok : ∀ c, (c ∈ reserved ∧ ['_', '_'] <+: tok c) ∨ (c ∉ reserved ∧ tok c = [c]))
    (h_ : '_' ∉ reserved) (cs : List Char) :
    ['_', '_'] <+: cs.flatMap tok ↔
      ∃ t ∈ ['_', '_'] :: reserved.flatMap fun c => [[c], ['_', c]], t <+: cs := by
  have hword : ∀ {c : Char}, c ∈ reserved → ∀ rest, ['_', '_'] <+: tok c ++ rest :=
    fun {c} hc rest => by
      obtain ⟨-, hstarts⟩ | ⟨hnot, -⟩ := htok c
      · exact hstarts.trans (List.prefix_append _ _)
      · exact absurd hc hnot
  have hplain : ∀ {c : Char}, c ∉ reserved → tok c = [c] := fun {c} hc =>
    ((htok c).resolve_left fun h => hc h.1).2
  constructor
  · intro hstarts
    cases cs with
    | nil => simp at hstarts
    | cons c cs =>
      by_cases hc : c ∈ reserved
      · exact ⟨[c], by simp [hc], by simp⟩
      · rw [List.flatMap_cons, hplain hc, List.singleton_append, List.cons_prefix_cons] at hstarts
        obtain ⟨rfl, hstarts⟩ := hstarts
        cases cs with
        | nil => simp at hstarts
        | cons d cs =>
          by_cases hd : d ∈ reserved
          · exact ⟨['_', d], by simp [hd], by simp⟩
          · rw [List.flatMap_cons, hplain hd] at hstarts
            exact ⟨['_', '_'], by simp, by simpa using hstarts⟩
  · rintro ⟨t, ht, rest, rfl⟩
    rw [List.mem_cons, List.mem_flatMap] at ht
    obtain rfl | ⟨c, hc, ht⟩ := ht
    · simp [hplain h_]
    · obtain rfl | rfl : t = [c] ∨ t = ['_', c] := by simpa using ht
      · simpa using hword hc _
      · obtain ⟨word, hword⟩ := hword hc (rest.flatMap tok)
        simp [hplain h_, ← hword]

theorem token_starts_or (hL : L ⊆ spellings) (c : Char) :
    (c ∈ L.map (·.reserved) ∧ ['_', '_'] <+: token L c) ∨
      (c ∉ L.map (·.reserved) ∧ token L c = [c]) := by
  obtain ⟨s, hs, hc, htoken⟩ | ⟨hplain, htoken⟩ := token_cases L c
  · refine .inl ⟨List.mem_map.mpr ⟨s, hs, hc⟩, ?_⟩
    rw [htoken, spelled_eq s (hL hs), List.append_assoc]
    exact List.prefix_append _ _
  · exact .inr ⟨by simpa using hplain, htoken⟩

theorem underscore_not_mem_reserved (hL : L ⊆ spellings) : '_' ∉ L.map (·.reserved) := by
  simpa using fun s hs => reserved_ne_underscore s (hL hs)

theorem starts_spellOut_iff (hL : L ⊆ spellings) :
    ['_', '_'] <+: spellOut L cs ↔ ∃ closing ∈ closings L, closing <+: cs := by
  rw [spellOut_eq_flatMap hL,
    starts_flatMap_iff (token_starts_or hL) (underscore_not_mem_reserved hL)]
  simp only [closings, List.flatMap_map]

theorem ends_spellOut_iff (hL : L ⊆ spellings) :
    ['_', '_'] <:+ spellOut L cs ↔ ∃ opening ∈ openings L, opening <:+ cs := by
  have htoken (c : Char) : (c ∈ L.map (·.reserved) ∧ ['_', '_'] <+: (token L c).reverse) ∨
      (c ∉ L.map (·.reserved) ∧ (token L c).reverse = [c]) := by
    obtain ⟨s, hs, hc, htoken⟩ | ⟨hplain, htoken⟩ := token_cases L c
    · refine .inl ⟨List.mem_map.mpr ⟨s, hs, hc⟩, ?_⟩
      rw [htoken, spelled_eq s (hL hs), List.reverse_append]
      exact List.prefix_append _ _
    · exact .inr ⟨by simpa using hplain, by rw [htoken]; rfl⟩
  have hopenings : openings L = (closings L).map List.reverse := by
    simp [openings, closings, List.map_flatMap]
  rw [← List.reverse_prefix, spellOut_eq_flatMap hL, List.reverse_flatMap]
  refine (starts_flatMap_iff htoken (underscore_not_mem_reserved hL) _).trans ?_
  rw [List.flatMap_map, hopenings]
  simp only [List.mem_map, exists_exists_and_eq_and, ← @List.reverse_suffix _ _ cs.reverse,
    List.reverse_reverse]
  rfl

theorem exists_of_spellOut_eq_append (hL : L ⊆ spellings) (h_ : '_' ∉ w) (rest : List Char)
    (h : spellOut L k = w ++ rest) : ∃ b, k = w ++ b ∧ spellOut L b = rest := by
  simp only [spellOut_eq_flatMap hL] at h ⊢
  induction w generalizing k with
  | nil => exact ⟨k, rfl, h⟩
  | cons c w ih =>
    cases k with
    | nil => simp at h
    | cons d k =>
      rw [List.flatMap_cons] at h
      obtain ⟨s, hs, -, htoken⟩ | ⟨-, htoken⟩ := token_cases L d
      · rw [htoken, spelled_eq s (hL hs)] at h
        obtain ⟨rfl, -⟩ := List.cons.inj h
        exact absurd (List.mem_cons_self ..) h_
      · rw [htoken, List.singleton_append, List.cons_append] at h
        obtain ⟨rfl, hrest⟩ := List.cons.inj h
        obtain ⟨b, rfl, hb⟩ := ih (fun hmem => h_ (by simp [hmem])) hrest
        exact ⟨b, rfl, hb⟩

theorem head?_ne_underscore (hs : s ∈ spellings) {tail after : List Char}
    (h : tail ++ rest = s.name ++ after) : tail.head? ≠ some '_' := by
  rintro htail
  obtain ⟨tail, rfl⟩ := List.head?_eq_some_iff.mp htail
  cases hname : s.name with
  | nil => exact name_ne_nil s hs hname
  | cons d name =>
    rw [hname, List.cons_append, List.cons_append] at h
    obtain ⟨rfl, -⟩ := List.cons.inj h
    exact underscore_not_mem_name s hs (by simp [hname])

theorem eq_of_name_append {s' : Spelling} (hs : s ∈ spellings) (hs' : s' ∈ spellings)
    {after : List Char} (hafter : after.head? ∈ [some '_', some s.reserved])
    (h : s'.name ++ '_' :: rest = s.name ++ after) : s' = s := by
  obtain ⟨more, hname, hmore⟩ | ⟨more, hname, hmore⟩ := List.append_eq_append_iff.mp h
  · cases more with
    | nil => exact eq_of_name_eq s' hs' s hs (by simpa using hname.symm)
    | cons d more =>
      obtain ⟨rfl, -⟩ := List.cons.inj hmore
      exact absurd (by simp [hname]) (underscore_not_mem_name s hs)
  · cases more with
    | nil => exact eq_of_name_eq s' hs' s hs (by simpa using hname)
    | cons d more =>
      have hd : d ∈ s'.name := by simp [hname]
      have hspelled : d ∈ s'.spelled := by simp [spelled_eq s' hs', hd]
      obtain rfl | rfl : d = '_' ∨ d = s.reserved := by simpa [hmore] using hafter
      · exact absurd hd (underscore_not_mem_name s' hs')
      · exact absurd hspelled (reserved_not_mem_spelled s hs s' hs')

/-- A word between underscores that stood there before, wherever it is found in what is spelled
out. Behind it is an underscore, or the character that is going to be spelled like this. -/
theorem exists_of_spellOut_eq_name (hE : E ⊆ spellings) (hs : s ∈ spellings) (hnew : s ∉ E)
    {before after : List Char} (hbefore : before.getLast? ∈ [none, some '_'])
    (hafter : after.head? ∈ [some '_', some s.reserved])
    (h : spellOut E k = before ++ (s.name ++ after)) :
    ∃ a b, k = a ++ (s.name ++ b) ∧ spellOut E a = before ∧ spellOut E b = after := by
  induction k generalizing before with
  | nil =>
    have hname : s.name = [] := by
      rw [spellOut_eq_flatMap hE, List.flatMap_nil] at h
      exact (List.append_eq_nil_iff.mp (List.append_eq_nil_iff.mp h.symm).2).1
    exact absurd hname (name_ne_nil s hs)
  | cons c k ih =>
    have hcons (a : List Char) : spellOut E (c :: a) = token E c ++ spellOut E a := by
      simp only [spellOut_eq_flatMap hE, List.flatMap_cons]
    by_cases hlength : (token E c).length ≤ before.length
    · -- the word comes behind this character
      rw [hcons] at h
      obtain ⟨before', rfl⟩ : token E c <+: before :=
        List.prefix_of_prefix_length_le ⟨_, rfl⟩ ⟨_, h.symm⟩ hlength
      rw [List.append_assoc, List.append_cancel_left_eq] at h
      have hbefore' : before'.getLast? ∈ [none, some '_'] := by
        cases before' with
        | nil => simp
        | cons d before' => simpa [List.getLast?_append] using hbefore
      obtain ⟨a, b, rfl, rfl, hb⟩ := ih hbefore' h
      exact ⟨c :: a, b, rfl, hcons a, hb⟩
    · obtain ⟨s', hs', -, htoken⟩ | ⟨-, htoken⟩ := token_cases E c
      · -- the word would be the one of another spelling
        rw [hcons, htoken] at h
        rw [htoken] at hlength
        obtain ⟨tail, htail⟩ : before <+: s'.spelled :=
          List.prefix_of_prefix_length_le ⟨_, h.symm⟩ ⟨_, rfl⟩ (by omega)
        have htake : s'.spelled.take before.length = before := by rw [← htail]; simp
        have hdrop : s'.spelled.drop before.length = tail := by rw [← htail]; simp
        rw [← htail, List.append_assoc, List.append_cancel_left_eq] at h
        have htwo : before.length = 2 := by
          refine eq_two_of_drop s' (hE hs') _ (by omega) (by rwa [htake]) ?_
          exact hdrop ▸ head?_ne_underscore hs h
        have htail' : tail = s'.name ++ ['_', '_'] := by
          rw [← hdrop, htwo, spelled_eq s' (hE hs'), List.append_assoc]
          rfl
        rw [htail', List.append_assoc] at h
        exact absurd (eq_of_name_append hs (hE hs') hafter h ▸ hs') hnew
      · rw [htoken, List.length_singleton] at hlength
        obtain rfl : before = [] := List.length_eq_zero_iff.mp (by omega)
        obtain ⟨b, hb, hafter⟩ := exists_of_spellOut_eq_append hE
          (underscore_not_mem_name s hs) after h
        exact ⟨[], b, hb, by simp [spellOut_eq_flatMap hE], hafter⟩

theorem spellOut_append (hL : L ⊆ spellings) (a b : List Char) :
    spellOut L (a ++ b) = spellOut L a ++ spellOut L b := by
  simp only [spellOut_eq_flatMap hL, List.flatMap_append]

theorem spellOut_name (hL : L ⊆ spellings) (hs : s ∈ spellings) : spellOut L s.name = s.name := by
  rw [spellOut_eq_flatMap hL]
  refine flatMap_token_of_not_reserved fun c hc s' hs' => ?_
  rintro rfl
  refine reserved_not_mem_spelled s' (hL hs') s hs ?_
  rw [spelled_eq s hs]
  simp [hc]

theorem spellOut_cons_of_ne (h : c ≠ s.reserved) :
    spellOut [s] (c :: cs) = c :: spellOut [s] cs := replaceAll_cons_of_ne h

theorem misreads_iff (hs : s ∈ spellings) : Misreads s.reserved s.spelled cs ↔
    ∃ before after, cs = before ++ (s.name ++ after) ∧ ['_', '_'] <:+ before ∧
      ['_', '_'] <+: spellOut [s] after := by
  have hL : [s] ⊆ spellings := by simpa using hs
  have hreserved := Ne.symm (reserved_ne_underscore s hs)
  have hspelled : s.spelled = '_' :: '_' :: (s.name ++ ['_', '_']) := spelled_eq s hs
  constructor
  · rintro ⟨a, rest, ⟨before, rfl⟩, ha, (hstarts : s.spelled <+: spellOut [s] (a :: rest))⟩
    rw [spellOut_cons_of_ne ha, hspelled, List.cons_prefix_cons] at hstarts
    obtain ⟨rfl, hstarts⟩ := hstarts
    cases rest with
    | nil => simp [spellOut, replaceAll, replaceFrom] at hstarts
    | cons c rest =>
      by_cases hc : c = s.reserved
      · -- the word does not start with an underscore
        subst hc
        have hself : spellOut [s] (s.reserved :: rest) = s.spelled ++ spellOut [s] rest :=
          replaceAll_cons_self
        obtain ⟨more, hmore⟩ := hstarts
        rw [hself, hspelled, List.cons_append, List.cons_append, List.cons_append, List.cons.injEq,
          List.append_assoc] at hmore
        exact absurd (List.head?_cons ..) (head?_ne_underscore hs hmore.2.symm)
      · rw [spellOut_cons_of_ne hc, List.cons_prefix_cons] at hstarts
        obtain ⟨rfl, more, hmore⟩ := hstarts
        rw [List.append_assoc] at hmore
        obtain ⟨after, rfl, hafter⟩ := exists_of_spellOut_eq_append hL
          (underscore_not_mem_name s hs) _ hmore.symm
        refine ⟨before ++ ['_', '_'], after, by simp, List.suffix_append _ _, ?_⟩
        rw [hafter]
        exact List.prefix_append _ _
  · rintro ⟨before, after, rfl, ⟨before, rfl⟩, more, hmore⟩
    refine ⟨'_', '_' :: (s.name ++ after), ⟨before, by simp⟩, hreserved, more, ?_⟩
    change s.spelled ++ more = spellOut [s] ('_' :: '_' :: (s.name ++ after))
    rw [spellOut_cons_of_ne hreserved, spellOut_cons_of_ne hreserved, spellOut_append hL,
      spellOut_name hL hs, ← hmore, hspelled]
    simp

theorem misreads_spellOut_iff (hE : E ⊆ spellings) (hs : s ∈ spellings) (hnew : s ∉ E) :
    Misreads s.reserved s.spelled (spellOut E k) ↔ ∃ t ∈ lookalikes E s, t <:+: k := by
  have hEs : E ++ [s] ⊆ spellings := by simpa [List.append_subset] using ⟨hE, hs⟩
  calc Misreads s.reserved s.spelled (spellOut E k)
    _ ↔ ∃ a b, k = a ++ (s.name ++ b) ∧ ['_', '_'] <:+ spellOut E a ∧
        ['_', '_'] <+: spellOut (E ++ [s]) b := by
      rw [misreads_iff hs]
      simp only [spellOut_append_singleton]
      constructor
      · rintro ⟨before, after, hk, hbefore, hafter⟩
        have hlast : before.getLast? ∈ [none, some '_'] := by
          obtain ⟨before, rfl⟩ := hbefore
          simp
        have hhead : after.head? ∈ [some '_', some s.reserved] := by
          cases after with
          | nil => simp [spellOut, replaceAll, replaceFrom] at hafter
          | cons c after =>
            by_cases hc : c = s.reserved
            · simp [hc]
            · have hstarts : ['_', '_'] <+: c :: spellOut [s] after := by
                rwa [← spellOut_cons_of_ne hc]
              simp [← (List.cons_prefix_cons.mp hstarts).1]
        obtain ⟨a, b, rfl, rfl, rfl⟩ := exists_of_spellOut_eq_name hE hs hnew hlast hhead hk
        exact ⟨a, b, rfl, hbefore, hafter⟩
      · rintro ⟨a, b, rfl, ha, hb⟩
        refine ⟨spellOut E a, spellOut E b, ?_, ha, hb⟩
        rw [spellOut_append hE, spellOut_append hE, spellOut_name hE hs]
    _ ↔ ∃ t ∈ lookalikes E s, t <:+: k := by
      simp only [starts_spellOut_iff hEs, ends_spellOut_iff hE, lookalikes, List.mem_flatMap,
        List.mem_map]
      constructor
      · rintro ⟨_, _, rfl, ⟨opening, hopening, a, rfl⟩, closing, hclosing, b, rfl⟩
        exact ⟨_, ⟨opening, hopening, closing, hclosing, rfl⟩, a, b, by simp⟩
      · rintro ⟨_, ⟨opening, hopening, closing, hclosing, rfl⟩, a, b, rfl⟩
        exact ⟨a ++ opening, closing ++ b, by simp, ⟨opening, hopening, a, rfl⟩, closing, hclosing,
          b, rfl⟩

theorem readBack_cons : readBack (s :: L) cs = replaceAll s.spelled [s.reserved] (readBack L cs) := by
  rw [readBack, List.reverse_cons, List.foldl_append]
  rfl

theorem reserved_not_mem_spellOut (hL : L ⊆ spellings) (hs : s ∈ L) :
    s.reserved ∉ spellOut L cs := by
  rw [spellOut_eq_flatMap hL]
  intro hmem
  obtain ⟨c, -, hc⟩ := List.mem_flatMap.mp hmem
  obtain ⟨s', hs', -, htoken⟩ | ⟨hplain, htoken⟩ := token_cases L c
  · exact reserved_not_mem_spelled s (hL hs) s' (hL hs') (htoken ▸ hc)
  · exact hplain s hs (by simpa [htoken] using hc)

theorem mem_readBack (h : c ∈ readBack L cs) : c ∈ L.map (·.reserved) ∨ c ∈ cs := by
  induction L with
  | nil => exact .inr h
  | cons s L ih =>
    rw [readBack_cons] at h
    obtain hc | hmem := mem_replaceFrom h
    · exact .inl (by simp_all)
    · exact (ih hmem).imp_left (List.mem_cons_of_mem _)

/-- What is read back is what there was before exactly if nothing looked like a spelling. A word
read back too early would be spelled out again to the same text, so no later step makes up for it. -/
theorem readBack_spellOut_iff (hL : E ++ L ⊆ spellings) (hnodup : (E ++ L).Nodup) :
    readBack L (spellOut L (spellOut E k)) = spellOut E k ↔
      ∀ t ∈ lookalikesFrom E L, ¬ t <:+: k := by
  induction L generalizing E with
  | nil => simp [readBack, spellOut, lookalikesFrom]
  | cons s L ih =>
    obtain ⟨hE, hs, hrest⟩ : E ⊆ spellings ∧ s ∈ spellings ∧ L ⊆ spellings := by
      simpa [List.append_subset] using hL
    obtain ⟨-, hsL, hEL⟩ := List.nodup_append.mp hnodup
    have hnew : s ∉ E := fun hmem => hEL s hmem s (by simp) rfl
    have hword : s.spelled ≠ [] := by simp [spelled_eq s hs]
    set u := readBack L (spellOut (s :: L) (spellOut E k)) with hu
    have hlater : u = spellOut (E ++ [s]) k ↔ ∀ t ∈ lookalikesFrom (E ++ [s]) L, ¬ t <:+: k := by
      rw [← ih (by simpa using hL) (by simpa using hnodup), spellOut_append_singleton]
      rfl
    have hthis : replaceAll s.spelled [s.reserved] (spellOut (E ++ [s]) k) = spellOut E k ↔
        ∀ t ∈ lookalikes E s, ¬ t <:+: k := by
      rw [spellOut_append_singleton, replaceAll_replaceAll_iff hword,
        misreads_spellOut_iff hE hs hnew]
      simp
    have hnot : s.reserved ∉ u := by
      intro hmem
      obtain hback | hmem := mem_readBack hmem
      · obtain ⟨s', hs', heq⟩ := List.mem_map.mp hback
        obtain rfl := eq_of_reserved_eq s' (hrest hs') s hs heq
        exact (List.nodup_cons.mp hsL).1 hs'
      · rw [spellOut, spellOut, ← List.foldl_append, ← spellOut] at hmem
        exact reserved_not_mem_spellOut hL (by simp) hmem
    rw [readBack_cons, ← hu, lookalikesFrom, List.forall_mem_append, ← hlater, ← hthis]
    constructor
    · intro heq
      have hback : u = spellOut (E ++ [s]) k := by
        rw [spellOut_append_singleton, ← heq, replaceAll_replaceAll_of_not_mem hword hnot]
      exact ⟨hback ▸ heq, hback⟩
    · rintro ⟨heq, hback⟩
      rw [hback, heq]

/-- A key is restored exactly if it holds nothing that looks like a spelling. -/
theorem restoreKey_sanitizeKey_iff {key : String} : restoreKey (sanitizeKey key) = key ↔
    ∀ t ∈ ambiguities, ¬ occursIn t key.toList := by
  have hspell : (sanitizeKey key).toList = spellOut spellings (spellOut [] key.toList) :=
    String.toList_ofList
  have hback : restoreKey (sanitizeKey key) = String.ofList
      (readBack spellings (spellOut spellings (spellOut [] key.toList))) := by
    rw [restoreKey, hspell]
    rfl
  have hkey : key = String.ofList (spellOut [] key.toList) := String.ofList_toList.symm
  simp only [occursIn_iff]
  rw [ambiguities, ← readBack_spellOut_iff (by simp) (by decide), hback]
  nth_rewrite 2 [hkey]
  exact String.ofList_inj

mutual

/-- The keys of all documents in the value. -/
def innerKeys : Value → List String
  | .document fields => fieldKeys fields
  | .array items => itemKeys items
  | _ => []

def fieldKeys : List (String × Value) → List String
  | [] => []
  | (key, v) :: rest => key :: (innerKeys v ++ fieldKeys rest)

def itemKeys : List Value → List String
  | [] => []
  | v :: rest => innerKeys v ++ itemKeys rest

end

variable {f g : String → String}

theorem mapFields_eq_map (fields : List (String × Value)) :
    mapFields f fields = fields.map fun (key, v) => (f key, mapKeys f v) := by
  induction fields with
  | nil => rfl
  | cons field fields ih => rw [mapFields, ih, List.map_cons]

theorem mapItems_eq_map (items : List Value) : mapItems f items = items.map (mapKeys f) := by
  induction items with
  | nil => rfl
  | cons v items ih => rw [mapItems, ih, List.map_cons]

theorem keys_mapFields (fields : List (String × Value)) :
    Document.keys (mapFields f fields) = (Document.keys fields).map f := by
  rw [mapFields_eq_map, Document.keys, Document.keys, List.map_map, List.map_map]
  rfl

theorem length_mapFields (fields : List (String × Value)) :
    (mapFields f fields).length = fields.length := by
  rw [mapFields_eq_map, List.length_map]

theorem ofList_mapFields_iff {fields : List (String × Value)} (hn : (Document.keys fields).Nodup) :
    Document.ofList (mapFields g (Document.ofList (mapFields f fields))) = fields ↔
      mapFields g (mapFields f fields) = fields := by
  constructor
  · intro h
    have hle (d : Document) : (Document.ofList d).length ≤ d.length := Document.length_ofList_le d
    have hg := hle (mapFields g (Document.ofList (mapFields f fields)))
    have hf := hle (mapFields f fields)
    rw [h, length_mapFields] at hg
    rw [length_mapFields] at hf
    have hinner := Document.ofList_of_nodup _ (Document.nodup_of_length_le (mapFields f fields)
      (by rwa [length_mapFields]))
    rw [hinner] at h
    have houter := Document.ofList_of_nodup _ (Document.nodup_of_length_le
      (mapFields g (mapFields f fields)) (by rw [h, length_mapFields, length_mapFields]))
    rwa [houter] at h
  · intro h
    have hkeys : ((Document.keys fields).map f).map g = Document.keys fields := by
      rw [← keys_mapFields, ← keys_mapFields, h]
    have hinner : (Document.keys (mapFields f fields)).Nodup := by
      rw [keys_mapFields]
      exact List.Nodup.of_map g (by rwa [hkeys])
    rw [Document.ofList_of_nodup _ hinner, h, Document.ofList_of_nodup _ hn]

mutual

/-- Changing the keys and changing them back gives the value again exactly if it does for every key
in it. -/
theorem mapKeys_mapKeys_iff (v : Value) (hv : v.hasDistinctKeys) :
    mapKeys g (mapKeys f v) = v ↔ ∀ key ∈ innerKeys v, g (f key) = key := by
  match v with
  | .document fields =>
    rw [Value.hasDistinctKeys] at hv
    rw [mapKeys, mapKeys, Value.document.injEq,
      ofList_mapFields_iff (Value.nodup_of_fieldsHaveDistinctKeys hv)]
    exact mapFields_mapFields_iff fields hv
  | .array items =>
    rw [mapKeys, mapKeys, Value.array.injEq]
    exact mapItems_mapItems_iff items hv
  | .null | .undefined | .minKey | .maxKey | .bool _ | .int32 _ | .int64 _ | .double _ | .string _
  | .symbol _ | .code _ | .scopedCode .. | .regex .. | .timestamp .. | .dateTime _ | .objectId _
  | .binary .. => simp [mapKeys, innerKeys]

theorem mapFields_mapFields_iff (fields : List (String × Value))
    (hfields : Value.fieldsHaveDistinctKeys fields) :
    mapFields g (mapFields f fields) = fields ↔ ∀ key ∈ fieldKeys fields, g (f key) = key := by
  match fields with
  | [] => simp [mapFields, fieldKeys]
  | (key, v) :: rest =>
    simp only [Value.fieldsHaveDistinctKeys, Bool.and_eq_true] at hfields
    rw [mapFields, mapFields, List.cons.injEq, Prod.mk.injEq, mapKeys_mapKeys_iff v hfields.1.2,
      mapFields_mapFields_iff rest hfields.2, fieldKeys, List.forall_mem_cons,
      List.forall_mem_append, and_assoc]

theorem mapItems_mapItems_iff (items : List Value) (hitems : Value.haveDistinctKeys items) :
    mapItems g (mapItems f items) = items ↔ ∀ key ∈ itemKeys items, g (f key) = key := by
  match items with
  | [] => simp [mapItems, itemKeys]
  | v :: rest =>
    simp only [Value.haveDistinctKeys, Bool.and_eq_true] at hitems
    rw [mapItems, mapItems, List.cons.injEq, mapKeys_mapKeys_iff v hitems.1,
      mapItems_mapItems_iff rest hitems.2, itemKeys, List.forall_mem_append]

end

/-- A document is restored exactly if none of its keys, at any depth, holds what looks like a
spelling. -/
theorem restore_sanitize_iff (d : Document) (hd : (Value.document d).hasDistinctKeys) :
    restore (sanitize d) = d ↔
      ∀ key ∈ innerKeys (.document d), ∀ t ∈ ambiguities, ¬ occursIn t key.toList := by
  have hmap := mapKeys_mapKeys_iff (f := sanitizeKey) (g := restoreKey) (.document d) hd
  rw [mapKeys, mapKeys, Value.document.injEq] at hmap
  simp only [← restoreKey_sanitizeKey_iff]
  exact hmap

theorem restore_sanitize_of_reserved :
    let d : Document := [("a.b", .array [.document [("$c", .string "x.y"), ("_.", .null)]]),
      ("__dollar", .document [("\x00", .bool true)])]
    (Value.document d).hasDistinctKeys ∧ restore (sanitize d) = d := by
  intro d
  have hd : (Value.document d).hasDistinctKeys := by decide
  exact ⟨hd, (restore_sanitize_iff d hd).mpr (by decide)⟩

/-- A key that is spelled like a reserved character comes back as that character. -/
theorem restore_sanitize_of_spelled : ∃ d : Document, (Value.document d).hasDistinctKeys ∧
    restore (sanitize d) ≠ d := by
  refine ⟨[("__dot__", .int32 1)], by decide, ?_⟩
  have hkeys : Document.keys (restore (sanitize [("__dot__", .int32 1)])) = ["."] := by decide
  intro h
  rw [h] at hkeys
  exact absurd hkeys (by decide)

end KeyEscape

end Docbase
