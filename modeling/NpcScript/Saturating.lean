/-!
# Numbers kept within a word

Life, money and the like stop at the ends of the signed 32-bit range instead of wrapping, and so do
distances.
-/

namespace NpcScript

/-- The number within the signed 32-bit range that is nearest to `n`. -/
def saturate (n : Int) : Int32 :=
  if n < Int32.minValue.toInt then Int32.minValue
  else if Int32.maxValue.toInt < n then Int32.maxValue
  else Int32.ofInt n

/-- The number within the unsigned 32-bit range that is nearest to `n`. -/
def saturateUnsigned (n : Nat) : UInt32 :=
  if n < UInt32.size then n.toUInt32 else 0xFFFFFFFF

/-- The greatest number whose square is at most `n`. -/
def floorSqrt (n : Nat) : Nat :=
  if n = 0 then 0
  else
    let root := 2 * floorSqrt (n / 4)
    if (root + 1) * (root + 1) ≤ n then root + 1 else root

end NpcScript
