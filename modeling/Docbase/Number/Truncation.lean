import Docbase.Number.Double

namespace Docbase.Double

def neg (x : Double) : Double := ofParts (!x.isNegative) (x.bits.toNat % signBit)

def sub (x y : Double) : Double := x.add y.neg

def trunc (x : Double) : Double :=
  if x.isNaN || x.isInfinite then x
  else ofUnits x.isNegative (x.magnitude / unitsPerOne * unitsPerOne) 1

/-- The whole part as an integer of 64 bits. A double outside the range of these becomes the nearer
end of the range, a NaN becomes zero. -/
def toInt64 (x : Double) : Int64 :=
  if x.isNaN then 0 else Int64.ofIntClamp (x.units.tdiv unitsPerOne)

/-- The double `2 ^ 63`, above all integers of 64 bits. Its negation is the least of them. -/
def int64Bound : Double := ⟨0x43e0000000000000⟩

/-- Numeric order of an integer against a double. The range is asymmetric: the lower end belongs
to the integers, the upper end does not. -/
def compareInt64? (n : Int64) (x : Double) : Option Ordering :=
  if x.isNaN then none
  else if (x.compare? int64Bound).any Ordering.isGE then some .lt
  else if x.compare? int64Bound.neg = some .lt then some .gt
  else
    let whole := x.trunc
    let fraction := x.sub whole
    some ((compare n.toInt whole.toInt64.toInt).then
      (((ofParts false 0).compare? fraction).getD .eq))

end Docbase.Double
