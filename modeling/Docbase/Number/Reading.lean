import Docbase.Number.Double
import Docbase.Number.Width

namespace Docbase.Number

def natOfDigits? (cs : List Char) : Option Nat :=
  if cs ≠ [] && cs.all Char.isDigit then
    some (cs.foldl (fun n c => 10 * n + (c.toNat - '0'.toNat)) 0)
  else none

def int64OfText? : List Char → Option Int64
  | '-' :: cs => do int64? (-(← natOfDigits? cs))
  | cs => do int64? (← natOfDigits? cs)

/-- Digits with a point somewhere among them, rounded to the nearest double. One side of the point
may be empty, not both. -/
def doubleOfText? (cs : List Char) : Option Double :=
  let (negative, body) := match cs with
    | '-' :: rest => (true, rest)
    | rest => (false, rest)
  let whole := body.takeWhile (· ≠ '.')
  let fraction := (body.dropWhile (· ≠ '.')).drop 1
  do
    let n ← natOfDigits? (whole ++ fraction)
    some (Double.ofRatio negative n (Nat.pow 10 fraction.length))

def splitSign : List Char → Bool × List Char
  | '-' :: cs => (true, cs)
  | '+' :: cs => (false, cs)
  | cs => (false, cs)

def signed? (cs : List Char) : Option Int :=
  let (negative, digits) := splitSign cs
  (natOfDigits? digits).map fun n => if negative then -n else n

/-- The double nearest to `n * 10 ^ exponent`. Exponents that are far out of the range of doubles
are not carried out. -/
def doubleOfDecimal (negative : Bool) (n : Nat) (exponent : Int) : Double :=
  let leading := exponent + (Nat.toDigits 10 n).length
  if n = 0 || leading < -400 then Double.ofParts negative 0
  else if 400 < leading then Double.ofParts negative Double.infinityBits
  else Double.ofRatio negative (n * Nat.pow 10 exponent.toNat) (Nat.pow 10 (-exponent).toNat)

/-- A decimal with an optional sign, point and power of ten, or one of the words for the numbers
that have no digits. -/
def floating? (cs : List Char) : Option Double :=
  let (negative, body) := splitSign cs
  let body := body.map Char.toLower
  if body = "nan".toList then some Double.nan
  else if body = "inf".toList || body = "infinity".toList then
    some (Double.ofParts negative Double.infinityBits)
  else
    let decimal := body.takeWhile (· ≠ 'e')
    let whole := decimal.takeWhile (· ≠ '.')
    let fraction := (decimal.dropWhile (· ≠ '.')).drop 1
    do
      let n ← natOfDigits? (whole ++ fraction)
      let power ← if body.contains 'e' then signed? ((body.dropWhile (· ≠ 'e')).drop 1) else some 0
      some (doubleOfDecimal negative n (power - fraction.length))

/-- A position in an array: digits, possibly after a plus sign, that fits into 64 bits. -/
def index? (s : String) : Option Nat := do
  let n ← natOfDigits? (match s.toList with | '+' :: cs => cs | cs => cs)
  if n < UInt64.size then some n else none

end Docbase.Number
