import Docbase.Key
import Docbase.Proofs.Except
import Docbase.Proofs.Value.Identity
import Docbase.Value.Order

namespace Docbase

namespace Uuid

theorem foldl_digits (width n : Nat) :
    ((List.range width).map fun i => UInt8.ofNat (n / Nat.pow 256 (width - 1 - i))).foldl
      (fun m b => 256 * m + b.toNat) 0 = n % Nat.pow 256 width := by
  induction width generalizing n with
  | zero => simp [Nat.pow_eq, Nat.mod_one]
  | succ width ih =>
    have hfront : ((List.range width).map fun i =>
        UInt8.ofNat (n / Nat.pow 256 (width + 1 - 1 - i))) =
          (List.range width).map fun i => UInt8.ofNat (n / 256 / Nat.pow 256 (width - 1 - i)) := by
      refine List.map_congr_left fun i hi => ?_
      have hlt : i < width := List.mem_range.mp hi
      have hexponent : width + 1 - 1 - i = (width - 1 - i) + 1 := by omega
      rw [hexponent, Nat.pow_eq, Nat.pow_succ', ← Nat.div_div_eq_div_mul, Nat.pow_eq]
    have hlast : n / Nat.pow 256 (width + 1 - 1 - width) = n := by simp [Nat.pow_eq]
    have hvalue : 256 * (n / 256 % Nat.pow 256 width) + n % 256 = n % Nat.pow 256 (width + 1) := by
      rw [Nat.pow_eq, Nat.pow_eq, Nat.pow_succ', Nat.mod_mul, Nat.add_comm]
    rw [List.range_succ, List.map_append, List.foldl_append, hfront, ih, List.map_singleton, hlast]
    simpa using hvalue

theorem ofBytes?_bytes (u : Uuid) : ofBytes? u.bytes = some u := by
  have hlength : u.bytes.length = 16 := by simp [bytes]
  have hlt : u.number.toNat < Nat.pow 256 16 := Nat.lt_of_lt_of_eq u.number.isLt (by decide)
  have hvalue : u.bytes.foldl (fun n b => 256 * n + b.toNat) 0 = u.number.toNat :=
    (foldl_digits 16 u.number.toNat).trans (Nat.mod_eq_of_lt hlt)
  rw [ofBytes?, if_pos hlength, hvalue, BitVec.ofNat_toNat, BitVec.setWidth_eq]

section Hyphenated

variable {a b c d e : List Char} (ha : a.length = 8) (hb : b.length = 4) (hc : c.length = 4)
  (hd : d.length = 4) (he : e.length = 12)
include ha hb hc hd he

theorem unhyphenate?_append : unhyphenate? (a ++ '-' :: b ++ '-' :: c ++ '-' :: d ++ '-' :: e) =
    some (a ++ b ++ c ++ d ++ e) := by
  simp [unhyphenate?, List.drop_append, List.getElem?_append, ha, hb, hc, hd, he,
    List.drop_eq_nil_of_le]

theorem digits?_append : digits? (a ++ '-' :: b ++ '-' :: c ++ '-' :: d ++ '-' :: e) =
    some (a ++ b ++ c ++ d ++ e) := by
  -- The ninth character tells the hyphenated spelling from the one behind `urn:uuid:`.
  have hlength : (a ++ '-' :: b ++ '-' :: c ++ '-' :: d ++ '-' :: e).length = 36 := by
    simp [ha, hb, hc, hd, he]
  have hfront : (a ++ '-' :: b ++ '-' :: c ++ '-' :: d ++ '-' :: e).take 9 = a ++ ['-'] := by
    simp [List.take_append, List.take_of_length_le, ha]
  have hurn : Text.sameIgnoringCase (String.ofList (a ++ ['-'])) "urn:uuid:" = false := by
    rw [Text.sameIgnoringCase, beq_eq_false_iff_ne, String.toList_ofList, List.map_append]
    intro h
    have hlast := congrArg List.getLast? h
    rw [List.map_singleton, List.getLast?_concat] at hlast
    exact absurd hlast (by decide)
  rw [digits?, hlength, hfront, hurn, unhyphenate?_append ha hb hc hd he]
  rfl

end Hyphenated

theorem ofText?_text (u : Uuid) : ofText? u.text = some u := by
  have hlt : u.number.toNat < Nat.pow 16 32 := Nat.lt_of_lt_of_eq u.number.isLt (by decide)
  have hlength := Text.length_hexOfNat 32 u.number.toNat
  have hdigits : digits? u.text.toList = some (Text.hexOfNat 32 u.number.toNat) := by
    rw [text, String.toList_ofList]
    generalize Text.hexOfNat 32 u.number.toNat = cs at hlength
    have hjoin : ∀ n, (cs.drop n).take 4 ++ cs.drop (n + 4) = cs.drop n := fun n => by
      rw [← List.drop_drop, List.take_append_drop]
    rw [digits?_append (by simp [hlength]) (by simp [hlength]) (by simp [hlength])
      (by simp [hlength]) (by simp [hlength])]
    simp only [List.append_assoc, hjoin, List.take_append_drop]
  rw [ofText?, hdigits]
  simp [Text.natOfHex?_hexOfNat hlt]

end Uuid

theorem KeyKind.kind_of_ofValue {kind : KeyKind} {v : Value} {key : Key}
    (h : kind.ofValue v = .ok key) : key.kind = kind := by
  unfold ofValue at h
  split at h
  case h_5 | h_6 =>
    obtain ⟨u, -, rfl⟩ := exists_of_map_eq_ok h
    rfl
  case h_4 | h_10 =>
    split at h
    · cases h
      rfl
    · cases h
  case h_11 => cases h
  all_goals
    cases h
    rfl

theorem KeyKind.ofValue_array (kind : KeyKind) (items : List Value) (key : Key) :
    kind.ofValue (.array items) ≠ .ok key := by
  have huuid : Uuid.ofValue? (.array items) = none := by
    simp only [Uuid.ofValue?, Value.read?]
    cases Value.readItems? items <;> rfl
  cases kind <;> simp [ofValue, uuidOf, huuid, Except.map]

namespace Key

/-- The key that is read back: of a text that spells an object identifier, the digits in lower
case. -/
def normal : Key → Key
  | text s =>
    match ObjectId.ofText? s with
    | some id => text id.hex
    | none => text s
  | key => key

/-- Whether the key is no text that spells an object identifier with capital letters. -/
def IsSettled : Key → Prop
  | text s => (ObjectId.ofText? s).isSome → ∀ c ∈ s.toList, c.isUpper = false
  | _ => True

theorem stored_normal (key : Key) : key.normal.stored = key.stored := by
  cases key with
  | text s => cases hs : ObjectId.ofText? s <;> simp [normal, stored, hs, ObjectId.ofText?_hex]
  | objectId | uuid | textUuid | int64 | int32 => rfl

theorem normal_eq_iff (key : Key) : key.normal = key ↔ key.IsSettled := by
  cases key with
  | text s =>
    cases hs : ObjectId.ofText? s with
    | none => simp [normal, IsSettled, hs]
    | some id => simpa [normal, IsSettled, hs] using ObjectId.hex_eq_iff hs
  | objectId | uuid | textUuid | int64 | int32 => exact iff_of_true rfl trivial

theorem ofValue_stored (key : Key) : key.kind.ofValue key.stored = .ok key.normal := by
  cases key with
  | text s => cases hs : ObjectId.ofText? s <;> simp [kind, stored, normal, hs, KeyKind.ofValue]
  | uuid u =>
    have hread : Uuid.ofValue? (uuid u).stored = some u := by
      simp [Uuid.ofValue?, stored, Uuid.ofBytes?_bytes]
    simp [kind, normal, KeyKind.ofValue, KeyKind.uuidOf, hread, Except.map]
  | textUuid u =>
    have hread : Uuid.ofValue? (textUuid u).stored = some u := by
      simp [Uuid.ofValue?, stored, Uuid.ofBytes?_bytes]
    simp [kind, normal, KeyKind.ofValue, KeyKind.uuidOf, hread, Except.map]
  | objectId | int64 | int32 => rfl

def identity : Key → Identity
  | text s =>
    match ObjectId.ofText? s with
    | some id => .objectId id
    | none => .text s
  | objectId id => .objectId id
  | uuid u | textUuid u => .uuid u.bytes
  | int64 n => .integer n.toInt
  | int32 n => .integer n.toInt

theorem isIdentity_stored (key : Key) : key.stored.IsIdentity key.identity := by
  cases key with
  | text s =>
    cases hs : ObjectId.ofText? s with
    | none => simpa [stored, identity, hs] using .text s
    | some id => simpa [stored, identity, hs] using .objectId id
  | objectId id => exact .objectId id
  | uuid u | textUuid u => exact .uuid u.bytes
  | int64 n => exact .int64 n
  | int32 n => exact .int32 n

theorem ofValue_field (key : Key) : key.kind.ofValue key.field = .ok key := by
  cases key with
  | uuid u =>
    have hread : Uuid.ofValue? (uuid u).field = some u := by
      simp [Uuid.ofValue?, field, Uuid.ofBytes?_bytes]
    simp [kind, KeyKind.ofValue, KeyKind.uuidOf, hread, Except.map]
  | textUuid u =>
    have hread : Uuid.ofValue? (textUuid u).field = some u := by
      simp [Uuid.ofValue?, field, Uuid.ofText?_text]
    simp [kind, KeyKind.ofValue, KeyKind.uuidOf, hread, Except.map]
  | text | objectId | int64 | int32 => rfl

theorem field_ne_null (key : Key) : key.field ≠ .null := by
  cases key <;> exact nofun

theorem valueClass_stored (key : Key) :
    key.stored.valueClass ≠ .array ∧ key.stored.valueClass ≠ .null := by
  cases key with
  | text s => cases hs : ObjectId.ofText? s <;> simp [stored, hs, Value.valueClass]
  | objectId | uuid | textUuid | int64 | int32 => exact ⟨nofun, nofun⟩

end Key

end Docbase
