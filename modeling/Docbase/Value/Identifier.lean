import Docbase.Text.Hex
import Docbase.Text.Search

namespace Docbase

/-- An identifier of twelve bytes, ordered as a number. -/
structure ObjectId where
  number : BitVec 96
  deriving DecidableEq, Repr

namespace ObjectId

def hex (id : ObjectId) : String := String.ofList (Text.hexOfNat 24 id.number.toNat)

def ofText? (s : String) : Option ObjectId :=
  (Text.natOfHex? 24 s.toList).map fun n => ⟨BitVec.ofNat 96 n⟩

def ofBytes? (bytes : List UInt8) : Option ObjectId :=
  if bytes.length = 12 then
    some ⟨BitVec.ofNat 96 (bytes.foldl (fun n b => 256 * n + b.toNat) 0)⟩
  else none

end ObjectId

/-- A universally unique identifier of sixteen bytes. -/
structure Uuid where
  number : BitVec 128
  deriving DecidableEq, Repr

namespace Uuid

/-- Drops the hyphens after 8, 12, 16 and 20 digits, where all four have to be. -/
def unhyphenate? (cs : List Char) : Option (List Char) :=
  if cs.length = 36 && [8, 13, 18, 23].all (fun i => cs[i]? = some '-') then
    some (cs.take 8 ++ (cs.drop 9).take 4 ++ (cs.drop 14).take 4 ++ (cs.drop 19).take 4 ++
      cs.drop 24)
  else none

/-- The digits of one of the four spellings: plain, hyphenated, hyphenated in braces, and
hyphenated behind `urn:uuid:` in letters of any case. -/
def digits? (cs : List Char) : Option (List Char) :=
  if cs.length = 32 then some cs
  else if cs.length = 38 && cs.head? = some '\x7b' && cs.getLast? = some '\x7d' then
    unhyphenate? (cs.drop 1).dropLast
  else if Text.sameIgnoringCase (String.ofList (cs.take 9)) "urn:uuid:" then
    unhyphenate? (cs.drop 9)
  else unhyphenate? cs

def ofText? (s : String) : Option Uuid := do
  let n ← Text.natOfHex? 32 (← digits? s.toList)
  some ⟨BitVec.ofNat 128 n⟩

def ofBytes? (bytes : List UInt8) : Option Uuid :=
  if bytes.length = 16 then
    some ⟨BitVec.ofNat 128 (bytes.foldl (fun n b => 256 * n + b.toNat) 0)⟩
  else none

def bytes (u : Uuid) : List UInt8 :=
  (List.range 16).map fun i => UInt8.ofNat (u.number.toNat / Nat.pow 256 (15 - i))

def text (u : Uuid) : String :=
  let cs := Text.hexOfNat 32 u.number.toNat
  String.ofList (cs.take 8 ++ '-' :: (cs.drop 8).take 4 ++ '-' :: (cs.drop 12).take 4 ++
    '-' :: (cs.drop 16).take 4 ++ '-' :: cs.drop 20)

end Uuid

end Docbase
