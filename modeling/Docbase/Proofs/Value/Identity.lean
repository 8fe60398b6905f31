import Docbase.Proofs.Text.Hex
import Docbase.Value.Tagged

namespace Docbase

/-- An identity without the width of its integer. -/
inductive Identity where
  | objectId (id : ObjectId)
  | text (s : String)
  | integer (n : Int)
  | uuid (bytes : List UInt8)

/-- `IsIdentity v i`: the value stores the identity. -/
inductive Value.IsIdentity : Value → Identity → Prop where
  | objectId (id : ObjectId) : IsIdentity (.objectId id) (.objectId id)
  | text (s : String) : IsIdentity (.string s) (.text s)
  | int32 (n : Int32) : IsIdentity (.int32 n) (.integer n.toInt)
  | int64 (n : Int64) : IsIdentity (.int64 n) (.integer n.toInt)
  | uuid (bytes : List UInt8) : IsIdentity (.binary uuidSubtype bytes) (.uuid bytes)

theorem ObjectId.ofText?_hex (id : ObjectId) : ObjectId.ofText? id.hex = some id := by
  have hlt : id.number.toNat < Nat.pow 16 24 := Nat.lt_of_lt_of_eq id.number.isLt (by decide)
  rw [ofText?, hex, String.toList_ofList, Text.natOfHex?_hexOfNat hlt, Option.map_some,
    BitVec.ofNat_toNat, BitVec.setWidth_eq]

theorem ObjectId.hex_eq_iff {s : String} {id : ObjectId} (h : ofText? s = some id) :
    id.hex = s ↔ ∀ c ∈ s.toList, c.isUpper = false := by
  obtain ⟨n, hn, rfl⟩ := Option.map_eq_some_iff.mp h
  obtain ⟨hlt, hdigits⟩ := Text.hexOfNat_eq_iff hn
  have hvalue : (BitVec.ofNat 96 n).toNat = n := Nat.mod_eq_of_lt (Nat.lt_of_lt_of_eq hlt (by decide))
  rw [hex, hvalue, ← hdigits, ← String.toList_inj, String.toList_ofList]

theorem ObjectId.toNat_number_inj {x y : ObjectId} :
    x.number.toNat = y.number.toNat ↔ x = y := by
  rw [BitVec.toNat_inj]
  constructor
  · intro h
    cases x
    cases y
    exact congrArg _ h
  · intro h
    rw [h]

end Docbase
