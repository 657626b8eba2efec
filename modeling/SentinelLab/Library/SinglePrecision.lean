import Mathlib

/-! Comparison of IEEE 754 single-precision numbers on their bit patterns. -/

namespace SentinelLab.Library.SinglePrecision

abbrev Binary32 := BitVec 32

def magnitude (bits : Binary32) : Nat := bits.toNat % 2 ^ 31

def isNan (bits : Binary32) : Bool := 0x7F800000 < magnitude bits

/-- The position on the number line. Both zeros are at 0; what is not a number has no place. -/
def rank (bits : Binary32) : Int := if bits.msb then -(magnitude bits : Int) else magnitude bits

/-- The operator `>=`: false as soon as one side is not a number. -/
def ge (first second : Binary32) : Bool := !isNan first && !isNan second && decide (rank second ≤ rank first)

def isInf (bits : Binary32) : Bool := magnitude bits = 0x7F800000

def absolute (bits : Binary32) : ℚ :=
  let exponent : Nat := magnitude bits / 2 ^ 23
  let fraction : Nat := magnitude bits % 2 ^ 23
  if exponent = 0 then fraction / 2 ^ 149 else (2 ^ 23 + fraction) * 2 ^ ((exponent : Int) - 150)

end SentinelLab.Library.SinglePrecision
