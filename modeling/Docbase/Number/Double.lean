namespace Docbase

/-- A double-precision number as a bit pattern. Every finite one is a whole number of units of `2 ^
(-1074)`, so numbers are compared, added and rounded exactly on integers. -/
structure Double where
  bits : UInt64
  deriving DecidableEq, Inhabited, Repr

namespace Double

def signBit : Nat := Nat.pow 2 63

def exponentUnit : Nat := Nat.pow 2 52

def isNegative (x : Double) : Bool := signBit ≤ x.bits.toNat

def exponentBits (x : Double) : Nat := x.bits.toNat / exponentUnit % 2048

def fractionBits (x : Double) : Nat := x.bits.toNat % exponentUnit

def isNaN (x : Double) : Bool := x.exponentBits = 2047 && x.fractionBits ≠ 0

def isInfinite (x : Double) : Bool := x.exponentBits = 2047 && x.fractionBits = 0

def significand (x : Double) : Nat :=
  if x.exponentBits = 0 then x.fractionBits else exponentUnit + x.fractionBits

def scale (x : Double) : Nat := x.exponentBits - 1

/-- The size of the number in units of `2 ^ (-1074)`. An infinity counts as the power of two after
the largest finite double, which orders it correctly against every finite number. -/
def magnitude (x : Double) : Nat := x.significand * Nat.pow 2 x.scale

def units (x : Double) : Int := if x.isNegative then -x.magnitude else x.magnitude

def unitsPerOne : Nat := Nat.pow 2 1074

def compare? (x y : Double) : Option Ordering :=
  if x.isNaN || y.isNaN then none else some (compare x.units y.units)

/-- Numeric order of an integer against a double: the whole part decides, and then the sign of the
fraction that was cut off. -/
def compareInt? (n : Int) (x : Double) : Option Ordering :=
  if x.isNaN then none
  else some ((compare n (x.units.tdiv unitsPerOne)).then (compare 0 (x.units.tmod unitsPerOne)))

def numEq (x y : Double) : Bool := x.compare? y = some .eq

def nan : Double := ⟨0x7ff8000000000000⟩

def infinityBits : Nat := 2047 * exponentUnit

def ofParts (negative : Bool) (rest : Nat) : Double :=
  ⟨UInt64.ofNat (if negative then signBit + rest else rest)⟩

/-- `num / den` as the nearest whole number, a half going to the even neighbour. -/
def roundHalfEven (num den : Nat) : Nat :=
  let q := num / den
  let r := num % den
  if 2 * r < den then q else if den < 2 * r then q + 1 else q + q % 2

/-- The double nearest to `num / den` units. Enough low bits are dropped to leave 53; a carry out
of the significand raises the exponent by itself, and what is too large becomes infinite. -/
def ofUnits (negative : Bool) (num den : Nat) : Double :=
  let drop := (num / den).log2 - 52
  let m := roundHalfEven num (den * Nat.pow 2 drop)
  ofParts negative (min (drop * exponentUnit + m) infinityBits)

def ofRatio (negative : Bool) (num den : Nat) : Double :=
  ofUnits negative (num * unitsPerOne) den

def ofInt (n : Int) : Double := ofRatio (n < 0) n.natAbs 1

/-- The sum, rounded to nearest. A zero is negative only when both terms are negative. -/
def add (x y : Double) : Double :=
  if x.isNaN || y.isNaN then nan
  else if x.isInfinite then
    if y.isInfinite && x.isNegative != y.isNegative then nan else x
  else if y.isInfinite then y
  else
    let sum := x.units + y.units
    if sum = 0 then ofParts (x.isNegative && y.isNegative) 0
    else ofUnits (sum < 0) sum.natAbs 1

end Double

end Docbase
