import Mathlib.Data.Nat.Sqrt
import Mathlib.Tactic.Linarith
import NpcScript.World.Search

/-! # Two distances

Entities are looked for by their distance along the axes, and scripts read the
distance along a straight line. Both stop at the greatest signed number
(`NpcScript.World.toInt_gridDistance`, `NpcScript.World.toInt_distance`). The
straight line is never longer than the way along the axes, it is as long as that
where only one axis is used, and it is never shorter than that divided by the
square root of two.
-/

namespace NpcScript

/-- The greatest signed number, at which distances stop. -/
def farthest : Nat := 2 ^ 31 - 1

/-- A distance that is too far for its number is the farthest one. -/
theorem toInt_saturate (n : Nat) : (saturate n).toInt = (min n farthest : Nat) := by
  have lower : Int32.minValue.toInt = -2147483648 := rfl
  have upper : Int32.maxValue.toInt = 2147483647 := rfl
  unfold saturate farthest
  rw [lower, upper, if_neg (by omega)]
  split
  · rw [upper]
    omega
  · rw [Int32.toInt_ofInt_of_le (by omega) (by omega)]
    omega

/-- The root is one of the two numbers that are found from the root of a quarter. -/
theorem floorSqrt_eq_sqrt (n : Nat) : floorSqrt n = Nat.sqrt n := by
  fun_induction floorSqrt n with
  | case1 => rfl
  | case2 n positive root large ih =>
      have below := Nat.lt_succ_sqrt (n / 4)
      rw [← ih] at below
      refine Nat.eq_sqrt.mpr ⟨large, ?_⟩
      have next : root + 1 + 1 = 2 * (floorSqrt (n / 4) + 1) := by omega
      rw [Nat.succ_eq_add_one] at below
      have quarter : n < 4 * ((floorSqrt (n / 4) + 1) * (floorSqrt (n / 4) + 1)) := by omega
      rw [next]
      linarith
  | case3 n positive root small ih =>
      have above := Nat.sqrt_le (n / 4)
      rw [← ih] at above
      refine Nat.eq_sqrt.mpr ⟨?_, Nat.not_le.mp small⟩
      have quarter : 4 * (floorSqrt (n / 4) * floorSqrt (n / 4)) ≤ n := by omega
      have double : root = 2 * floorSqrt (n / 4) := rfl
      rw [double]
      linarith

namespace World

/-- How far apart two coordinates are. -/
def gap (p q : Int32) : Nat := (p.toInt - q.toInt).natAbs

/-- The square of the straight line between two places. -/
def squaredLength (a b : Int32 × Int32) : Nat :=
  gap a.1 b.1 * gap a.1 b.1 + gap a.2 b.2 * gap a.2 b.2

/-- A sum of squares that has no 64-bit form has a root beyond the greatest signed number. -/
theorem toInt_distance (a b : Int32 × Int32) :
    (distance a b).toInt = (min (Nat.sqrt (squaredLength a b)) farthest : Nat) := by
  have capped : min (Nat.sqrt (min (squaredLength a b) 0xFFFFFFFFFFFFFFFF)) farthest =
      min (Nat.sqrt (squaredLength a b)) farthest := by
    rcases Nat.le_total (squaredLength a b) 0xFFFFFFFFFFFFFFFF with small | large
    · rw [Nat.min_eq_left small]
    · have root : farthest ≤ Nat.sqrt 0xFFFFFFFFFFFFFFFF := Nat.le_sqrt.mpr (by decide)
      rw [Nat.min_eq_right large, Nat.min_eq_right root,
        Nat.min_eq_right (root.trans (Nat.sqrt_le_sqrt large))]
  rw [← capped, ← floorSqrt_eq_sqrt]
  exact toInt_saturate _

/-- The place of an entity. -/
def place (e : Entity) : Int32 × Int32 := (e.x, e.y)

/-- The way along the axes from one entity to another one. -/
def gridLength (a b : Entity) : Nat := gap a.x b.x + gap a.y b.y

/-- The way along the axes, or the greatest signed number if it is longer than that. -/
def reach (a b : Entity) : Nat := min (gridLength a b) farthest

/-- The distance on the grid is the reach from one entity to the other. -/
theorem toInt_gridDistance (a b : Entity) : (gridDistance a b).toInt = reach a b :=
  toInt_saturate _

/-- Two entities are in line with an axis. -/
def Aligned (a b : Entity) : Prop := a.x = b.x ∨ a.y = b.y

variable {a b : Entity}

private theorem sqrt_squaredLength_le :
    Nat.sqrt (squaredLength (place a) (place b)) ≤ gridLength a b := by
  refine Nat.lt_succ_iff.mp (Nat.sqrt_lt.mpr ?_)
  simp only [squaredLength, gridLength, place]
  nlinarith

private theorem sqrt_squaredLength_of_aligned (aligned : Aligned a b) :
    Nat.sqrt (squaredLength (place a) (place b)) = gridLength a b := by
  have still (p : Int32) : gap p p = 0 := by rw [gap, sub_self, Int.natAbs_zero]
  simp only [squaredLength, gridLength, place]
  rcases aligned with same | same
  · rw [same, still, Nat.mul_zero, Nat.zero_add, Nat.zero_add, Nat.sqrt_eq]
  · rw [same, still, Nat.mul_zero, Nat.add_zero, Nat.add_zero, Nat.sqrt_eq]

private theorem gridLength_sq_le : gridLength a b ^ 2 ≤ 2 * squaredLength (place a) (place b) := by
  simp only [squaredLength, gridLength, place]
  rw [← sq, ← sq]
  exact add_sq_le

/-- The straight line is never the longer one. -/
theorem distance_le_gridDistance : distance (place a) (place b) ≤ gridDistance a b := by
  rw [Int32.le_iff_toInt_le, toInt_distance, toInt_gridDistance]
  exact_mod_cast min_le_min_right _ sqrt_squaredLength_le

/-- In line with an axis the two distances are the same. -/
theorem distance_of_aligned (aligned : Aligned a b) :
    distance (place a) (place b) = gridDistance a b := by
  apply Int32.toInt.inj
  rw [toInt_distance, toInt_gridDistance, sqrt_squaredLength_of_aligned aligned]
  rfl

/-- The way along the axes is less than the square root of two times as long, up to rounding. -/
theorem gridDistance_sq_lt : (gridDistance a b).toInt ^ 2 <
    2 * ((distance (place a) (place b)).toInt + 1) ^ 2 := by
  have square := gridLength_sq_le (a := a) (b := b)
  have below := Nat.lt_succ_sqrt (squaredLength (place a) (place b))
  rw [toInt_gridDistance, toInt_distance]
  generalize Nat.sqrt (squaredLength (place a) (place b)) = root at *
  rw [Nat.succ_eq_add_one, ← sq] at below
  unfold reach
  norm_cast
  rcases Nat.le_total root farthest with near | far
  · rw [Nat.min_eq_left near]
    calc min (gridLength a b) farthest ^ 2
        ≤ gridLength a b ^ 2 := Nat.pow_le_pow_left (Nat.min_le_left _ _) 2
      _ ≤ 2 * squaredLength (place a) (place b) := square
      _ < 2 * (root + 1) ^ 2 := by omega
  · rw [Nat.min_eq_right far]
    calc min (gridLength a b) farthest ^ 2
        ≤ farthest ^ 2 := Nat.pow_le_pow_left (Nat.min_le_right _ _) 2
      _ < 2 * (farthest + 1) ^ 2 := by decide

/-- No distance is negative. -/
theorem distance_nonneg (p q : Int32 × Int32) : 0 ≤ (distance p q).toInt := by
  rw [toInt_distance]
  exact Int.natCast_nonneg _

/-- An entity that is no farther along the axes than another one is not much farther along a
straight line, and no farther at all if that one is in line with an axis. -/
theorem distance_of_gridDistance_le {c : Entity} (le : gridDistance a b ≤ gridDistance a c) :
    (Aligned a c → distance (place a) (place b) ≤ distance (place a) (place c)) ∧
      (distance (place a) (place b)).toInt ^ 2 <
        2 * ((distance (place a) (place c)).toInt + 1) ^ 2 := by
  have straight := Int32.le_trans (distance_le_gridDistance (a := a) (b := b)) le
  constructor
  · intro aligned
    rwa [distance_of_aligned aligned]
  · have square := gridDistance_sq_lt (a := a) (b := c)
    have least := distance_nonneg (place a) (place b)
    calc (distance (place a) (place b)).toInt ^ 2
        ≤ (gridDistance a c).toInt ^ 2 :=
          pow_le_pow_left₀ least (Int32.le_iff_toInt_le.mp straight) 2
      _ < 2 * ((distance (place a) (place c)).toInt + 1) ^ 2 := square

end World
end NpcScript
