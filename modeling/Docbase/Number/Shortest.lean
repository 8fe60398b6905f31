import Docbase.Number.Double

namespace Docbase.Double

structure Decimal where
  digits : Nat
  exponent : Int
  deriving DecidableEq, Repr

/-- Whether `num / den` units lie in the interval of reals that round to `x`: half a gap on each
side, where the gap below a power of two is only half as wide. The ends belong to it when the
significand is even. -/
def absorbs (x : Double) (num den : Nat) : Bool :=
  let gap := Nat.pow 2 x.scale
  let below := if x.fractionBits = 0 then gap else 2 * gap
  let low := (4 * x.magnitude - below) * den
  let high := (4 * x.magnitude + 2 * gap) * den
  if x.significand % 2 = 0 then low ≤ 4 * num && 4 * num ≤ high
  else low < 4 * num && 4 * num < high

/-- The neighbour of `x` on the grid of multiples of `10 ^ exponent` that reads back as `x`, if one
does. Of two the nearer is taken, and the larger when both are equally near. -/
def onGrid? (x : Double) (exponent : Int) : Option Nat :=
  let step := unitsPerOne * Nat.pow 10 exponent.toNat
  let parts := Nat.pow 10 (-exponent).toNat
  let q := x.magnitude * parts / step
  let lowerFits := q ≠ 0 && x.absorbs (q * step) parts
  let upperFits := x.absorbs ((q + 1) * step) parts
  if lowerFits && (!upperFits || 2 * (x.magnitude * parts - q * step) < step) then some q
  else if upperFits then some (q + 1)
  else none

def searchGrids (x : Double) : Nat → Int → Decimal
  | 0, exponent => ⟨0, exponent⟩
  | fuel + 1, exponent =>
    match x.onGrid? exponent with
    | some digits => ⟨digits, exponent⟩
    | none => searchGrids x fuel (exponent - 1)

/-- The decimal with the fewest digits that reads back as the size of `x`, which is finite and not
zero. No double needs a grid finer than `10 ^ (-324)`. -/
def shortest (x : Double) : Decimal :=
  let whole := x.magnitude / unitsPerOne
  let start := if whole = 0 then 0 else (Nat.toDigits 10 whole).length
  x.searchGrids (start + 325) start

def placePoint (digits : List Char) (places : Nat) : List Char :=
  let padded := List.replicate (places + 1 - digits.length) '0' ++ digits
  padded.take (padded.length - places) ++ '.' :: padded.drop (padded.length - places)

/-- A decimal written out in full; `point` asks for a fraction even where there is none. -/
def Decimal.positional (point : Bool) (d : Decimal) : List Char :=
  let digits := Nat.toDigits 10 d.digits
  if 0 ≤ d.exponent then
    let whole := if d.digits = 0 then ['0'] else digits ++ List.replicate d.exponent.toNat '0'
    if point then whole ++ ['.', '0'] else whole
  else placePoint digits (-d.exponent).toNat

def Decimal.scientific (d : Decimal) : List Char :=
  let digits := Nat.toDigits 10 d.digits
  let fraction := if digits.length ≤ 1 then [] else '.' :: digits.drop 1
  let power := d.exponent + (digits.length - 1 : Nat)
  digits.take 1 ++ fraction ++ 'e' :: (toString power).toList

private def spell (x : Double) (finite : List Char) : String :=
  if x.isNaN then "NaN"
  else
    let sign := if x.isNegative then "-" else ""
    if x.isInfinite then sign ++ "inf" else sign ++ String.ofList finite

/-- The text of a double inside a value: always positional, without a trailing `.0`. -/
def display (x : Double) : String :=
  x.spell (if x.magnitude = 0 then ['0'] else x.shortest.positional false)

/-- The text of a double as a literal: at least one decimal, and a power of ten from `1e16` up and
below `1e-4`. -/
def literal (x : Double) : String :=
  x.spell <|
    if x.magnitude = 0 then ['0', '.', '0']
    else
      let d := x.shortest
      let leading := d.exponent + ((Nat.toDigits 10 d.digits).length - 1 : Nat)
      if 16 ≤ leading || leading < -4 then d.scientific else d.positional true

end Docbase.Double
