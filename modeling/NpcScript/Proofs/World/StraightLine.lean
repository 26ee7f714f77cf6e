import Mathlib.Analysis.Real.Sqrt
import NpcScript.Proofs.World.Distance

/-! # The straight line in machine words

The distance that scripts read is computed in unsigned 64-bit words, by sums and
products that stop at the greatest one. The gap between two coordinates takes 32
bits, so its square is a word and never stops (`NpcScript.World.Words.toNat_square`).
The sum of two squares may stop, but its root is then beyond the greatest signed
number, where the distance stops anyway. So the words come to the same distance as
unbounded numbers (`NpcScript.World.Words.distance_eq`), which is the length of the
straight line, rounded down, or the greatest signed number if that is less
(`NpcScript.World.distance_exact`).
-/

namespace NpcScript.World

namespace Words

/-- The greatest word. -/
def greatest : UInt64 := 0xFFFFFFFFFFFFFFFF

/-- The word that is nearest to a number. -/
def nearest (n : Nat) : UInt64 :=
  if n < UInt64.size then n.toUInt64 else greatest

/-- The sum of two words, or the greatest word if it overflows. -/
def add (m n : UInt64) : UInt64 := nearest (m.toNat + n.toNat)

/-- The product of two words, or the greatest word if it overflows. -/
def mul (m n : UInt64) : UInt64 := nearest (m.toNat * n.toNat)

/-- How far apart two coordinates are. Their difference is taken between signed 64-bit words. -/
def apart (p q : Int32) : UInt64 :=
  (p.toInt64 - q.toInt64).toInt.natAbs.toUInt64

/-- The square of how far apart two coordinates are. -/
def square (p q : Int32) : UInt64 :=
  mul (apart p q) (apart p q)

/-- The greatest word whose square is at most the given one. -/
def root (n : UInt64) : UInt64 := (floorSqrt n.toNat).toUInt64

/-- The distance between two places along a straight line. -/
def distance (a b : Int32 × Int32) : Int32 :=
  (min (root (add (square a.1 b.1) (square a.2 b.2))) 0x7FFFFFFF).toUInt32.toInt32

private theorem toNat_nearest (n : Nat) : (nearest n).toNat = min n greatest.toNat := by
  have largest : greatest.toNat = UInt64.size - 1 := rfl
  unfold nearest
  split
  case isTrue fits =>
    rw [UInt64.toNat_ofNat_of_lt' fits]
    omega
  case isFalse overflows => omega

variable (p q : Int32) (a b : Int32 × Int32)

private theorem gap_lt : gap p q < 2 ^ 32 := by
  have lower := Int32.le_toInt p
  have upper := Int32.toInt_lt p
  have lower' := Int32.le_toInt q
  have upper' := Int32.toInt_lt q
  unfold gap
  omega

/-- The difference of two 32-bit numbers does not overflow in 64 bits. -/
theorem toInt_difference : (p.toInt64 - q.toInt64).toInt = p.toInt - q.toInt := by
  have small := gap_lt p q
  unfold gap at small
  rw [Int64.toInt_sub, Int32.toInt_toInt64, Int32.toInt_toInt64]
  exact Int.bmod_eq_of_le (by omega) (by omega)

private theorem toNat_apart : (apart p q).toNat = gap p q := by
  have fits : gap p q < UInt64.size := (gap_lt p q).trans (by decide)
  rw [apart, toInt_difference]
  exact UInt64.toNat_ofNat_of_lt' fits

/-- **Squares are exact.** No square of a gap between coordinates is beyond the greatest word. -/
theorem toNat_square : (square p q).toNat = gap p q * gap p q := by
  have most : gap p q ≤ 2 ^ 32 - 1 := Nat.le_sub_one_of_lt (gap_lt p q)
  have fits : gap p q * gap p q ≤ greatest.toNat :=
    (Nat.mul_le_mul most most).trans (by decide)
  rw [square, mul, toNat_nearest, toNat_apart, Nat.min_eq_left fits]

private theorem toNat_add_square :
    (add (square a.1 b.1) (square a.2 b.2)).toNat = min (squaredLength a b) greatest.toNat := by
  rw [add, toNat_nearest, toNat_square, toNat_square, squaredLength]

/-- From one corner of the plane to the other one the sum stops. -/
example : add (square Int32.minValue Int32.maxValue) (square Int32.minValue Int32.maxValue) =
    greatest := by decide

private theorem toNat_root (n : UInt64) : (root n).toNat = floorSqrt n.toNat := by
  have fits : floorSqrt n.toNat < UInt64.size := by
    rw [floorSqrt_eq_sqrt]
    exact (Nat.sqrt_le_self _).trans_lt n.toNat_lt
  exact UInt64.toNat_ofNat_of_lt' fits

/-- A word that stops at the greatest signed number is that number in 32 bits. -/
theorem toInt_min (n : UInt64) :
    (min n 0x7FFFFFFF).toUInt32.toInt32.toInt = (min n.toNat farthest : Nat) := by
  have stopped : (min n 0x7FFFFFFF).toUInt32.toNat = min n.toNat farthest := by
    rw [UInt64.toNat_toUInt32, UInt64.toNat_min]
    exact Nat.mod_eq_of_lt ((Nat.min_le_right _ _).trans_lt (by decide))
  have positive : 2 * (min n 0x7FFFFFFF).toUInt32.toNat < 2 ^ 32 := by
    rw [stopped, farthest]
    omega
  rw [← stopped]
  exact BitVec.toInt_eq_toNat_of_lt positive

/-- **The words come to the distance.** -/
theorem distance_eq : distance a b = World.distance a b := by
  have stops : min (squaredLength a b) greatest.toNat =
      min (squaredLength a b) 0xFFFFFFFFFFFFFFFF := rfl
  apply Int32.toInt.inj
  rw [distance, toInt_min, toNat_root, toNat_add_square, stops]
  exact (toInt_saturate _).symm

end Words

/-- The sum of the squares need not stop. -/
theorem distance_eq_saturate (a b : Int32 × Int32) :
    distance a b = saturate (floorSqrt (squaredLength a b)) := by
  apply Int32.toInt.inj
  rw [toInt_distance, toInt_saturate, floorSqrt_eq_sqrt]

private theorem gap_mul_self (p q : Int32) :
    ((gap p q * gap p q : Nat) : ℤ) = (p.toInt - q.toInt) ^ 2 := by
  rw [gap, Int.natAbs_mul_self, sq]

/-- **Distances are exact.** The distance is the root of the sum of the squares, over unbounded
integers and rounded down, or the greatest signed number if that is less. The computation in words
comes to the same distance, and so does one whose sum does not stop; its squares are exact. -/
theorem distance_exact (a b : Int32 × Int32) :
    (distance a b).toInt =
        min ⌊√(((a.1.toInt - b.1.toInt) ^ 2 + (a.2.toInt - b.2.toInt) ^ 2 : ℤ) : ℝ)⌋ (2 ^ 31 - 1) ∧
      Words.distance a b = distance a b ∧
      distance a b = saturate (floorSqrt (squaredLength a b)) ∧
      ((Words.square a.1 b.1).toNat : ℤ) = (a.1.toInt - b.1.toInt) ^ 2 ∧
      ((Words.square a.2 b.2).toNat : ℤ) = (a.2.toInt - b.2.toInt) ^ 2 := by
  have length : (squaredLength a b : ℤ) =
      (a.1.toInt - b.1.toInt) ^ 2 + (a.2.toInt - b.2.toInt) ^ 2 := by
    rw [squaredLength, Nat.cast_add, gap_mul_self, gap_mul_self]
  refine ⟨?_, Words.distance_eq a b, distance_eq_saturate a b, ?_, ?_⟩
  · rw [toInt_distance, ← length, Int.cast_natCast, Real.floor_real_sqrt_eq_nat_sqrt, Nat.cast_min]
    rfl
  · rw [Words.toNat_square, gap_mul_self]
  · rw [Words.toNat_square, gap_mul_self]

end NpcScript.World
