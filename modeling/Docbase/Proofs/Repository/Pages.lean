import Docbase.Proofs.Page
import Docbase.Proofs.Query
import Docbase.Proofs.Repository.Find

namespace Docbase

theorem flatten_pieces {α : Type} (l : List α) (n k : Nat) :
    ((List.range k).map fun i => (l.drop (i * n)).take n).flatten = l.take (k * n) := by
  induction k with
  | zero => simp
  | succ k ih =>
    rw [List.range_succ, List.map_append, List.flatten_append, ih, Nat.succ_mul, List.take_add]
    simp

/-- The page behind `m` others has documents on it, and its number and what is in front of it fit
into 64 bits. -/
structure PageFits (m : Nat) (size : UInt64) : Prop where
  size_pos : 0 < size
  number : m + 1 < UInt64.size
  offset : m * size.toNat < UInt64.size

namespace PageFits

variable {m : Nat} {size : UInt64}

theorem first (hsize : 0 < size) : PageFits 0 size := by
  refine ⟨hsize, by decide, ?_⟩
  rw [Nat.zero_mul]
  decide

theorem of_mul_lt {k : Nat} (hsize : 0 < size) (hm : m < k) (hk : k * size.toNat < UInt64.size) :
    PageFits m size := by
  have hpos : 0 < size.toNat := UInt64.lt_iff_toNat_lt.mp hsize
  have hle : k ≤ k * size.toNat := Nat.le_mul_of_pos_right k hpos
  have hmul : m * size.toNat ≤ k * size.toNat := Nat.mul_le_mul_right _ hm.le
  exact ⟨hsize, by omega, by omega⟩

theorem of_number {count : Nat} (hsize : 0 < size) (hcount : count < UInt64.size)
    (hnumber : m + 1 + 1 < UInt64.size) (hm : m = 0 ∨ m * size.toNat < count) : PageFits m size := by
  refine ⟨hsize, by omega, ?_⟩
  obtain rfl | hm := hm
  · exact (first hsize).offset
  · exact hm.trans hcount

theorem toNat_number (h : PageFits m size) : (UInt64.ofNat (m + 1)).toNat = m + 1 :=
  UInt64.toNat_ofNat_of_lt' h.number

theorem exists_ofPage (h : PageFits m size) :
    ∃ w, Window.ofPage (UInt64.ofNat (m + 1)) size = .ok w ∧ w.offset.toNat = m * size.toNat ∧
      w.limit = size := by
  have hne : UInt64.ofNat (m + 1) ≠ 0 := by
    intro hzero
    have htoNat := h.toNat_number
    rw [hzero] at htoNat
    exact Nat.succ_ne_zero m htoNat.symm
  unfold Window.ofPage
  rw [if_neg hne, dif_pos h.size_pos, h.toNat_number, Nat.add_sub_cancel]
  dsimp only
  rw [if_pos h.offset]
  exact ⟨_, rfl, UInt64.toNat_ofNat_of_lt' h.offset, rfl⟩

end PageFits

/-- Behind a page with documents there is a number for one more, unless each page has one document and
there are as many documents as there are numbers. -/
theorem number_behind_fits {m count : Nat} {size : UInt64} (hsize : 0 < size)
    (hcount : count < UInt64.size) (hlast : size = 1 → count + 1 < UInt64.size)
    (hm : m = 0 ∨ m * size.toNat < count) : m + 1 + 1 < UInt64.size := by
  obtain rfl | hm := hm
  · decide
  by_cases hone : size = 1
  · have hfits := hlast hone
    have htoNat : (1 : UInt64).toNat = 1 := rfl
    rw [hone, htoNat, Nat.mul_one] at hm
    omega
  · have hpos : 0 < size.toNat := UInt64.lt_iff_toNat_lt.mp hsize
    have hne : size.toNat ≠ 1 := fun h => hone (UInt64.toNat_inj.mp h)
    have htwo : m * 2 ≤ m * size.toNat := Nat.mul_le_mul_left m (by omega)
    have hlarge : 4 < UInt64.size := by decide
    omega

theorem Criteria.compile_withWindow (T : DocumentType) (c : Criteria) (w : Window) :
    (c.withWindow w).compile T =
      (c.compile T).map fun q => { q with skip := some w.offset, limit := some w.limit } := by
  unfold compile
  change c.filter.mapM T.resolveFilter >>= _ = _
  cases c.filter.mapM T.resolveFilter with
  | error e => rfl
  | ok filter =>
    change c.sort.mapM T.resolveSort >>= _ = _
    cases c.sort.mapM T.resolveSort <;> rfl

theorem Criteria.compile_withWindow_of_ok {T : DocumentType} {c : Criteria} {q : Query}
    (hq : c.compile T = .ok q) (w : Window) : (c.withWindow w).compile T =
      .ok { q with skip := some w.offset, limit := some w.limit } := by
  rw [compile_withWindow, hq]
  rfl

theorem Criteria.compile_withoutWindow (T : DocumentType) (c : Criteria) :
    c.withoutWindow.compile T = (c.compile T).map Query.unpaged := by
  unfold compile
  change c.filter.mapM T.resolveFilter >>= _ = _
  cases c.filter.mapM T.resolveFilter with
  | error e => rfl
  | ok filter =>
    change c.sort.mapM T.resolveSort >>= _ = _
    cases c.sort.mapM T.resolveSort <;> rfl

namespace Repository

variable (repo : Repository) (s : Store) (c : Criteria) (size : UInt64)

/-- `Walk number pages`: one comes by these pages from page `number` on, following the numbers of
the next pages up to a page that has none. -/
inductive Walk : (number : UInt64) → List (Page Document) → Prop where
  | last {number : UInt64} {p : Page Document} : repo.paginate s c number size = .ok (some p) →
      p.next = none → Walk number [p]
  | next {number following : UInt64} {p : Page Document} {ps : List (Page Document)} :
      repo.paginate s c number size = .ok (some p) → p.next = some following → Walk following ps →
      Walk number (p :: ps)

variable {repo s c size} {q : Query} {number : UInt64} {m : Nat}

theorem page_of_compile_error {e : Failure} (he : c.compile repo.type = .error e)
    (h : PageFits m size) : repo.page s c (UInt64.ofNat (m + 1)) size = .error e := by
  obtain ⟨w, hw, -, -⟩ := h.exists_ofPage
  have hcompile : (c.withWindow w).compile repo.type = .error e := by
    rw [Criteria.compile_withWindow, he]
    rfl
  unfold page Criteria.page
  rw [hw]
  exact find_of_compile_error hcompile s

theorem paginate_of_compile_error {e : Failure} (he : c.compile repo.type = .error e)
    (h : PageFits m size) : repo.paginate s c (UInt64.ofNat (m + 1)) size = .error e := by
  obtain ⟨w, hw, -, -⟩ := h.exists_ofPage
  unfold paginate Criteria.page
  rw [hw]
  change (c.withWindow w).compile repo.type >>= _ = _
  rw [Criteria.compile_withWindow, he]
  rfl

section Typed

variable {typed : Document → Document}

theorem decodeAll_eq_map {docs : List Document}
    (h : ∀ d ∈ docs, repo.type.decode d = .ok (typed d)) :
    repo.decodeAll docs = .ok (docs.map typed) := by
  rw [decodeAll, mapM_eq_ok_map h]
  rfl

/-- The typed documents that the query finds without its window. -/
def found (repo : Repository) (s : Store) (q : Query) (typed : Document → Document) :
    List Document :=
  (q.unpaged.run (s.documents repo.name)).map typed

variable (htyped : ∀ d ∈ s.documents repo.name, repo.type.decode d = .ok (typed d))
  (hq : c.compile repo.type = .ok q)
include htyped hq

omit hq in
theorem decode_of_mem_run {d : Document} (hd : d ∈ q.unpaged.run (s.documents repo.name)) :
    repo.type.decode d = .ok (typed d) := by
  rw [Query.run_unpaged, SortKey.mem_sort] at hd
  exact htyped d (List.mem_filter.mp hd).1

theorem find_withoutWindow : repo.find s c.withoutWindow = .ok (found repo s q typed) := by
  have hcompile : c.withoutWindow.compile repo.type = .ok q.unpaged := by
    rw [Criteria.compile_withoutWindow, hq]
    rfl
  rw [find_of_compile hcompile]
  exact decodeAll_eq_map fun d hd => decode_of_mem_run htyped hd

theorem find_withWindow (w : Window) : repo.find s (c.withWindow w) =
    .ok (((found repo s q typed).drop w.offset.toNat).take w.limit.toNat) := by
  have hcompile := Criteria.compile_withWindow_of_ok hq w
  have hrun : ({ q with skip := some w.offset, limit := some w.limit } : Query).run
        (s.documents repo.name) =
      ((q.unpaged.run (s.documents repo.name)).drop w.offset.toNat).take w.limit.toNat := rfl
  rw [find_of_compile hcompile, hrun, found, ← List.map_drop, ← List.map_take]
  exact decodeAll_eq_map fun d hd =>
    decode_of_mem_run htyped (List.mem_of_mem_drop (List.mem_of_mem_take hd))

theorem page_eq (h : PageFits m size) : repo.page s c (UInt64.ofNat (m + 1)) size =
    .ok (((found repo s q typed).drop (m * size.toNat)).take size.toNat) := by
  obtain ⟨w, hw, hoffset, hlimit⟩ := h.exists_ofPage
  unfold page Criteria.page
  rw [hw]
  change repo.find s (c.withWindow w) = _
  rw [find_withWindow htyped hq, hoffset, hlimit]

theorem paginate_eq (h : PageFits m size) : repo.paginate s c (UInt64.ofNat (m + 1)) size =
    .ok (Page.assemble (((found repo s q typed).drop (m * size.toNat)).take size.toNat)
      (UInt64.ofNat (found repo s q typed).length) (UInt64.ofNat (m + 1)) size) := by
  obtain ⟨w, hw, hoffset, hlimit⟩ := h.exists_ofPage
  have hcompile := Criteria.compile_withWindow_of_ok hq w
  have hcount : repo.collection.count s q.filter = (found repo s q typed).length := by
    rw [Collection.count_eq, found, List.length_map, Query.run_unpaged,
      (SortKey.sort_perm q.sort _).length_eq, ← Query.select_eq_filter]
    rfl
  unfold paginate Criteria.page
  rw [hw]
  change (c.withWindow w).compile repo.type >>= _ = _
  rw [hcompile]
  change repo.find s (c.withWindow w) >>= _ = _
  rw [find_withWindow htyped hq, hoffset, hlimit, ← hcount]
  rfl

theorem mapM_page_eq (hsize : 0 < size) {k : Nat} (hk : k * size.toNat < UInt64.size) :
    ((List.range k).mapM fun i => repo.page s c (UInt64.ofNat (i + 1)) size).map List.flatten =
      .ok ((found repo s q typed).take (k * size.toNat)) := by
  rw [← flatten_pieces, mapM_eq_ok_map fun i hi =>
    page_eq htyped hq (.of_mul_lt hsize (List.mem_range.mp hi) hk)]
  rfl

/-- The walk goes on from every page number that documents are left for. -/
theorem exists_walk (hsize : 0 < size) (hcount : (found repo s q typed).length < UInt64.size)
    (hlast : size = 1 → (found repo s q typed).length + 1 < UInt64.size)
    (m : Nat) (hm : m = 0 ∨ m * size.toNat < (found repo s q typed).length) :
    ∃ pages, Walk repo s c size (UInt64.ofNat (m + 1)) pages ∧
      pages.flatMap Page.items = (found repo s q typed).drop (m * size.toNat) ∧
      ∀ p ∈ pages, p.count.toNat = (found repo s q typed).length := by
  have htoNat : (UInt64.ofNat (found repo s q typed).length).toNat =
      (found repo s q typed).length := UInt64.toNat_ofNat_of_lt' hcount
  -- On how many documents are left, those of the page included.
  induction hleft : (found repo s q typed).length - m * size.toNat using Nat.strong_induction_on
    generalizing m with
  | _ left ih =>
    have hnext : (m + 1) * size.toNat = m * size.toNat + size.toNat := Nat.succ_mul m size.toNat
    have hnumber : m + 1 + 1 < UInt64.size := number_behind_fits hsize hcount hlast hm
    have hfits : PageFits m size := .of_number hsize hcount hnumber hm
    have hpage := paginate_eq htyped hq hfits
    have hbehind : (UInt64.ofNat (m + 1)).toNat + 1 < UInt64.size := by
      rwa [hfits.toNat_number]
    obtain ⟨p, hp, hexact⟩ := Page.exists_assemble hbehind
      (((found repo s q typed).drop (m * size.toNat)).take size.toNat)
      (UInt64.ofNat (found repo s q typed).length) size
    rw [hp] at hpage
    have hpcount : p.count.toNat = (found repo s q typed).length := by
      rw [hexact.count_eq, htoNat]
    by_cases hend : (found repo s q typed).length ≤ (m + 1) * size.toNat
    · refine ⟨[p], .last hpage (hexact.next_eq_none ?_), ?_, by simpa using hpcount⟩
      · rwa [htoNat, hfits.toNat_number]
      · rw [List.flatMap_singleton, hexact.items_eq]
        apply List.take_of_length_le
        rw [List.length_drop]
        omega
    · have hpos : 0 < size.toNat := UInt64.lt_iff_toNat_lt.mp hsize
      obtain ⟨pages, hwalk, hitems, hcounts⟩ := ih
        ((found repo s q typed).length - (m + 1) * size.toNat) (by omega) (m + 1)
        (.inr (by omega)) rfl
      refine ⟨p :: pages, .next hpage (hexact.next_eq_some ?_ ?_) hwalk, ?_, ?_⟩
      · rw [hfits.toNat_number, UInt64.toNat_ofNat_of_lt' hnumber]
      · rw [htoNat, hfits.toNat_number]
        omega
      · rw [List.flatMap_cons, hexact.items_eq, hitems, hnext, ← List.drop_drop]
        exact List.take_append_drop size.toNat _
      · simp only [List.mem_cons, forall_eq_or_imp]
        exact ⟨hpcount, hcounts⟩

end Typed

theorem Walk.unique {pages : List (Page Document)} (h : Walk repo s c size number pages) :
    ∀ {pages' : List (Page Document)}, Walk repo s c size number pages' → pages' = pages := by
  induction h with
  | last hp hnone =>
    rintro _ (⟨hp', -⟩ | ⟨hp', hsome, -⟩)
    · rw [Option.some.inj (Except.ok.inj (hp.symm.trans hp'))]
    · rw [← Option.some.inj (Except.ok.inj (hp.symm.trans hp')), hnone] at hsome
      cases hsome
  | next hp hsome _ ih =>
    rintro _ (⟨hp', hnone⟩ | ⟨hp', hsome', hwalk⟩)
    · rw [← Option.some.inj (Except.ok.inj (hp.symm.trans hp')), hsome] at hnone
      cases hnone
    · obtain rfl := Option.some.inj (Except.ok.inj (hp.symm.trans hp'))
      obtain rfl := Option.some.inj (hsome.symm.trans hsome')
      rw [ih hwalk]

/-- A page is a part of what the criteria find without their window. The first pages laid end to end
are one page of their common size, and the walk from page one comes by all documents of the result;
that there is a number behind that of the last page needs to be asked of pages of one document alone.
All of this fails alike if the criteria do not fit the type. -/
theorem pages_tile (repo : Repository) (s : Store) (c : Criteria) {size : UInt64}
    (hs : ∀ d ∈ s.documents repo.name, ∃ t, repo.type.decode d = .ok t)
    (hcount : (s.documents repo.name).length < UInt64.size) (hsize : 0 < size) :
    (∀ m, PageFits m size → repo.page s c (UInt64.ofNat (m + 1)) size =
      (repo.find s c.withoutWindow).map fun all => (all.drop (m * size.toNat)).take size.toNat) ∧
    (∀ k, 1 ≤ k → k * size.toNat < UInt64.size →
      ((List.range k).mapM fun i => repo.page s c (UInt64.ofNat (i + 1)) size).map List.flatten =
        repo.page s c 1 (UInt64.ofNat (k * size.toNat))) ∧
    ((size = 1 → (s.documents repo.name).length + 1 < UInt64.size) →
      (∃ e, repo.find s c.withoutWindow = .error e ∧ repo.paginate s c 1 size = .error e) ∨
      ∃ all pages, repo.find s c.withoutWindow = .ok all ∧
        (∀ walked, Walk repo s c size 1 walked ↔ walked = pages) ∧
        pages.flatMap Page.items = all ∧ ∀ p ∈ pages, p.count.toNat = all.length) := by
  have hone : (1 : UInt64) = UInt64.ofNat (0 + 1) := rfl
  have hwhole : ∀ k, 1 ≤ k → k * size.toNat < UInt64.size →
      (UInt64.ofNat (k * size.toNat)).toNat = k * size.toNat ∧
        PageFits 0 (UInt64.ofNat (k * size.toNat)) := by
    intro k hk hfits
    have htoNat : (UInt64.ofNat (k * size.toNat)).toNat = k * size.toNat :=
      UInt64.toNat_ofNat_of_lt' hfits
    refine ⟨htoNat, .first (UInt64.lt_iff_toNat_lt.mpr ?_)⟩
    rw [htoNat]
    exact Nat.mul_pos hk (UInt64.lt_iff_toNat_lt.mp hsize)
  cases hq : c.compile repo.type with
  | error e =>
    have hfind : repo.find s c.withoutWindow = .error e := by
      apply find_of_compile_error
      rw [Criteria.compile_withoutWindow, hq]
      rfl
    refine ⟨fun m hm => ?_, fun k hk hfits => ?_, fun _ => .inl ⟨e, hfind, ?_⟩⟩
    · rw [page_of_compile_error hq hm, hfind]
      rfl
    · rw [hone, page_of_compile_error hq (hwhole k hk hfits).2]
      obtain ⟨k, rfl⟩ := Nat.exists_eq_add_of_le' hk
      rw [List.range_succ_eq_map, List.mapM_cons, page_of_compile_error hq (.first hsize)]
      rfl
    · exact paginate_of_compile_error hq (.first hsize)
  | ok q =>
    choose! typed htyped using hs
    have hfind := find_withoutWindow htyped hq
    have hlength : (found repo s q typed).length ≤ (s.documents repo.name).length := by
      rw [found, List.length_map, Query.run_unpaged, (SortKey.sort_perm q.sort _).length_eq]
      exact List.length_filter_le _ _
    refine ⟨fun m hm => ?_, fun k hk hfits => ?_, fun hlast => .inr ?_⟩
    · rw [page_eq htyped hq hm, hfind]
      rfl
    · obtain ⟨htoNat, hfirst⟩ := hwhole k hk hfits
      rw [mapM_page_eq htyped hq hsize hfits, hone, page_eq htyped hq hfirst, htoNat, Nat.zero_mul,
        List.drop_zero]
    · obtain ⟨pages, hwalk, hitems, hcounts⟩ := exists_walk htyped hq hsize
        (hlength.trans_lt hcount) (fun h => by have := hlast h; omega) 0 (.inl rfl)
      refine ⟨_, pages, hfind, fun walked => ⟨hwalk.unique, ?_⟩, ?_, hcounts⟩
      · rintro rfl
        exact hwalk
      · rwa [Nat.zero_mul, List.drop_zero] at hitems

theorem pages_tile_of_three :
    let T : DocumentType :=
      ⟨"Count", none, "id", "modified_on", .int32, fun _ => [("id", .int32), ("n", .int32)]⟩
    let a : Document := [("_id", .int32 1), ("n", .int32 20)]
    let b : Document := [("_id", .int32 2), ("n", .int32 10)]
    let d : Document := [("_id", .int32 3), ("n", .int32 20)]
    let c : Criteria := { sort := [⟨⟨"n", []⟩, .asc⟩] }
    let s := Store.after {} (.insertMany (fun _ => ⟨0⟩) [a, b, d] "Count")
    let repo : Repository := ⟨T, ⟨"Count"⟩⟩
    (∀ d ∈ s.documents repo.name, ∃ t, T.decode d = .ok t) ∧
    ∃ all pages, repo.find s c = .ok all ∧ Walk repo s c 2 1 pages ∧
      pages.flatMap Page.items = all := by
  intro T a b d c s repo
  have hdocuments : s.documents repo.name = [a, b, d] := rfl
  have hdecode : ∀ d ∈ s.documents repo.name, ∃ t, T.decode d = .ok t := by
    rw [hdocuments]
    intro e he
    simp only [List.mem_cons, List.not_mem_nil, or_false] at he
    obtain rfl | rfl | rfl := he <;> exact ⟨_, rfl⟩
  refine ⟨hdecode, ?_⟩
  obtain ⟨-, -, hwalks⟩ :=
    @pages_tile repo s c 2 hdecode (by rw [hdocuments]; decide) (by decide)
  obtain ⟨e, he, -⟩ | ⟨all, pages, hall, hwalk, hitems, -⟩ := hwalks nofun
  · have hcompile : c.compile T = .ok { sort := c.sort } := by
      subst T c
      rfl
    choose! typed htyped using hdecode
    rw [find_withoutWindow htyped hcompile] at he
    cases he
  · exact ⟨all, pages, hall, (hwalk pages).mpr rfl, hitems⟩

end Repository

end Docbase
