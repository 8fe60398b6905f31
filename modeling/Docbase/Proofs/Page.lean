import Docbase.Page
import Docbase.Proofs.Number.Width

namespace Docbase

theorem Window.fits_of_ofPage {number size : UInt64} {w : Window} (h : ofPage number size = .ok w) :
    0 < size ∧ (number.toNat - 1) * size.toNat < UInt64.size := by
  rw [ofPage] at h
  split at h
  next => cases h
  next =>
    split at h
    next hsize =>
      dsimp only at h
      split at h
      next hoffset => exact ⟨hsize, hoffset⟩
      next => cases h
    next => cases h

namespace Page

variable {α : Type} {items : List α} {count number size : UInt64}

theorem toNat_lastPosition :
    (lastPosition number size).toNat = min (number.toNat * size.toNat) (UInt64.size - 1) := by
  have hfits : min (number.toNat * size.toNat) (UInt64.size - 1) < UInt64.size :=
    Nat.lt_of_le_of_lt (Nat.min_le_right _ _) (by decide)
  rw [lastPosition, UInt64.toNat_ofNat_of_lt' hfits]

theorem lastPosition_lt_iff :
    lastPosition number size < count ↔ number.toNat * size.toNat < count.toNat := by
  have hcount : count.toNat < UInt64.size := count.toNat_lt
  rw [UInt64.lt_iff_toNat_lt, toNat_lastPosition]
  omega

/-- The page as it is assembled, its numbers computed exactly. -/
structure IsPage (items : List α) (count number size : UInt64) (p : Page α) : Prop where
  items_eq : p.items = items
  count_eq : p.count = count
  next : p.next.map UInt64.toNat =
    if number.toNat * size.toNat < count.toNat then some (number.toNat + 1) else none
  previous : p.previous.map UInt64.toNat =
    if 1 < number.toNat then some (number.toNat - 1) else none

namespace IsPage

variable {p : Page α} (h : IsPage items count number size p)
include h

theorem next_eq_none (hlast : count.toNat ≤ number.toNat * size.toNat) : p.next = none := by
  have hnext := h.next
  rw [if_neg (Nat.not_lt.mpr hlast)] at hnext
  exact Option.map_eq_none_iff.mp hnext

theorem next_eq_some {following : UInt64} (hfollowing : following.toNat = number.toNat + 1)
    (hmore : number.toNat * size.toNat < count.toNat) : p.next = some following := by
  have hnext := h.next
  rw [if_pos hmore] at hnext
  obtain ⟨n, hn, htoNat⟩ := Option.map_eq_some_iff.mp hnext
  rw [hn, UInt64.toNat_inj.mp (htoNat.trans hfollowing.symm)]

end IsPage

theorem exists_before? (number : UInt64) : ∃ previous, before? number = some previous ∧
    previous.map UInt64.toNat = if 1 < number.toNat then some (number.toNat - 1) else none := by
  have hlt : 1 < number ↔ 1 < number.toNat := UInt64.lt_iff_toNat_lt
  simp only [before?, hlt]
  split
  next hlt =>
    have hfits : number.toNat - 1 < UInt64.size :=
      Nat.lt_of_le_of_lt (Nat.sub_le _ _) number.toNat_lt
    have hsub : Number.uint64? (number.toNat - 1) = some (UInt64.ofNat (number.toNat - 1)) := by
      rw [Number.uint64?_eq_some_iff, UInt64.toNat_ofNat_of_lt' hfits]
      omega
    refine ⟨some (UInt64.ofNat (number.toNat - 1)), by rw [hsub]; rfl, ?_⟩
    rw [Option.map_some, UInt64.toNat_ofNat_of_lt' hfits]
  next => exact ⟨none, rfl, rfl⟩

theorem exists_assemble (h : number.toNat + 1 < UInt64.size) (items : List α) (count size : UInt64) :
    ∃ p, assemble items count number size = some p ∧ IsPage items count number size p := by
  have hfollowing : Number.uint64? (number.toNat + 1) = some (UInt64.ofNat (number.toNat + 1)) := by
    rw [Number.uint64?_eq_some_iff, UInt64.toNat_ofNat_of_lt' h]
    rfl
  obtain ⟨previous, hprevious, hexact⟩ := exists_before? number
  refine ⟨_, by rw [assemble, hfollowing, hprevious]; rfl, rfl, rfl, ?_, hexact⟩
  simp only [lastPosition_lt_iff]
  split
  next => rw [Option.map_some, UInt64.toNat_ofNat_of_lt' h]
  next => rfl

theorem assemble_eq_none_iff :
    assemble items count number size = none ↔ number.toNat + 1 = UInt64.size := by
  have hlt : number.toNat < UInt64.size := number.toNat_lt
  constructor
  · refine fun hnone => Nat.le_antisymm hlt (Nat.not_lt.mp fun hfits => ?_)
    obtain ⟨p, hp, -⟩ := exists_assemble hfits items count size
    cases hnone.symm.trans hp
  · intro hgreatest
    have hfollowing : Number.uint64? (number.toNat + 1) = none :=
      Number.uint64?_natCast_eq_none (Nat.le_of_eq hgreatest.symm)
    simp only [assemble, hfollowing]
    rfl

theorem size_eq_one_of_ofPage {w : Window} (h : Window.ofPage number size = .ok w)
    (hnumber : number.toNat + 1 = UInt64.size) : size = 1 := by
  obtain ⟨hsize, hoffset⟩ := Window.fits_of_ofPage h
  have hpos : 0 < size.toNat := UInt64.lt_iff_toNat_lt.mp hsize
  have hgreatest : number.toNat = UInt64.size - 1 := by omega
  rw [hgreatest, UInt64.size] at hoffset
  have hone : (1 : UInt64).toNat = 1 := rfl
  exact UInt64.toNat_inj.mp (by omega)

/-- A page that is accepted is assembled without leaving 64 bits exactly if its number is not the
greatest one; that is accepted for pages of one document. The numbers of the pages beside it are
exact. -/
theorem stays_in_range_iff {w : Window} (h : Window.ofPage number size = .ok w) (items : List α)
    (count : UInt64) :
    (assemble items count number size = none ↔ number.toNat + 1 = UInt64.size) ∧
    (number.toNat + 1 = UInt64.size → size = 1) ∧
    ∀ p, assemble items count number size = some p →
      p.items = items ∧ p.count = count ∧
      p.next.map UInt64.toNat =
        (if number.toNat * size.toNat < count.toNat then some (number.toNat + 1) else none) ∧
      p.previous.map UInt64.toNat =
        (if 1 < number.toNat then some (number.toNat - 1) else none) := by
  refine ⟨assemble_eq_none_iff, size_eq_one_of_ofPage h, fun p hp => ?_⟩
  have hlt : number.toNat < UInt64.size := number.toNat_lt
  have hne : number.toNat + 1 ≠ UInt64.size := fun hgreatest =>
    nomatch hp.symm.trans (assemble_eq_none_iff.mpr hgreatest)
  have hfits : number.toNat + 1 < UInt64.size := by omega
  obtain ⟨p', hp', hpage⟩ := exists_assemble hfits items count size
  obtain rfl := Option.some.inj (hp.symm.trans hp')
  exact ⟨hpage.items_eq, hpage.count_eq, hpage.next, hpage.previous⟩

theorem stays_in_range_of_last : ∃ w p, Window.ofPage 18446744073709551614 1 = .ok w ∧
    assemble ["x"] 18446744073709551615 18446744073709551614 1 = some p ∧
    p.next = some 18446744073709551615 ∧ p.previous = some 18446744073709551613 := by
  have h : Window.ofPage 18446744073709551614 1 = .ok ⟨18446744073709551613, 1, by decide⟩ := rfl
  obtain ⟨hnone, -, hexact⟩ := stays_in_range_iff h ["x"] 18446744073709551615
  obtain ⟨p, hp⟩ := Option.ne_none_iff_exists'.mp (mt hnone.mp (by decide))
  obtain ⟨-, -, hnext, hprevious⟩ := hexact p hp
  refine ⟨_, p, h, hp, ?_, ?_⟩
  · rw [if_pos (by decide)] at hnext
    obtain ⟨n, hn, htoNat⟩ := Option.map_eq_some_iff.mp hnext
    have hlast : n = 18446744073709551615 := UInt64.toNat_inj.mp htoNat
    rw [hn, hlast]
  · rw [if_pos (by decide)] at hprevious
    obtain ⟨n, hn, htoNat⟩ := Option.map_eq_some_iff.mp hprevious
    have hbefore : n = 18446744073709551613 := UInt64.toNat_inj.mp htoNat
    rw [hn, hbefore]

/-- Behind the page of the greatest number there is none, but its number is computed. -/
theorem leaves_range_at_greatest_number : ∃ (number size : UInt64) (w : Window),
    Window.ofPage number size = .ok w ∧ assemble ([] : List Document) 0 number size = none :=
  ⟨18446744073709551615, 1, ⟨18446744073709551614, 1, by decide⟩, rfl,
    assemble_eq_none_iff.mpr (by decide)⟩

end Page

end Docbase
