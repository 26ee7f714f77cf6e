import Mathlib.Data.FinEnum
import Mathlib.Logic.Function.Iterate
import NpcScript.Proofs.World.Replay

/-! # The seeds of random numbers

A seed is followed by the seed that three shifts make of it, each folded in by
exclusive or. A shift keeps exclusive or, and repeated often enough it drops every bit
(`NpcScript.Shift`). If two words become the same when a shift is folded into them,
then the shift leaves the bits alone in which they differ, so there are none
(`NpcScript.Shift.injective_fold`). Hence the step from a seed to the next one is
injective, and on words it is a bijection. Of all that may be asked of a world only a
random number takes that step (`NpcScript.World.seed_apply`). So no calls lead from
another seed to zero, where all random numbers would be zero, or from two seeds to
one (`NpcScript.World.seeds_apart`).
-/

namespace NpcScript

open Function

/-- A map of words that keeps exclusive or, and that drops every bit if it is repeated as often as
there are bits. -/
structure Shift {w : Nat} (f : BitVec w → BitVec w) : Prop where
  xor : ∀ x y, f (x ^^^ y) = f x ^^^ f y
  drops : ∀ x, f^[w] x = 0#w

namespace Shift

variable {w k : Nat} {f : BitVec w → BitVec w}

/-- The word with its image under a map folded in. -/
def fold (f : BitVec w → BitVec w) (x : BitVec w) : BitVec w := x ^^^ f x

/-- Steps whose lengths add up, one behind the other, are one step. -/
theorem iterate_of_add {s : BitVec w → Nat → BitVec w} (zero : ∀ x, s x 0 = x)
    (add : ∀ x m n, s x (m + n) = s (s x m) n) (n : Nat) (x : BitVec w) :
    (s · k)^[n] x = s x (n * k) := by
  induction n with
  | zero => rw [iterate_zero_apply, Nat.zero_mul, zero]
  | succ n ih => rw [iterate_succ_apply', ih, Nat.succ_mul, add]

private theorem left (positive : 0 < k) : Shift (w := w) (· <<< k) where
  xor x y := BitVec.shiftLeft_xor_distrib x y k
  drops x := by
    rw [iterate_of_add BitVec.shiftLeft_zero BitVec.shiftLeft_add]
    exact BitVec.shiftLeft_eq_zero (Nat.le_mul_of_pos_right w positive)

private theorem right (positive : 0 < k) : Shift (w := w) (· >>> k) where
  xor x y := BitVec.ushiftRight_xor_distrib x y k
  drops x := by
    rw [iterate_of_add BitVec.ushiftRight_zero BitVec.shiftRight_add]
    exact BitVec.ushiftRight_eq_zero (Nat.le_mul_of_pos_right w positive)

/-- A shift that changes nothing has nothing to change: it may be repeated until all is dropped. -/
theorem eq_zero_of_fixed (shift : Shift f) {x : BitVec w} (fixed : f x = x) : x = 0#w := by
  rw [← shift.drops x, iterate_fixed fixed]

/-- **Folding in.** No two words become the same when a shift is folded into them. -/
theorem injective_fold (shift : Shift f) : Injective (fold f) := by
  intro x y same
  have cancels : fold f x ^^^ fold f y = 0#w := BitVec.xor_eq_zero_iff.mpr same
  -- The bits in which the two words differ are a word that the shift leaves alone.
  have fixed : f (x ^^^ y) = x ^^^ y := by
    rw [← BitVec.xor_eq_zero_iff, ← cancels, shift.xor, fold, fold]
    ac_rfl
  exact BitVec.xor_eq_zero_iff.mp (shift.eq_zero_of_fixed fixed)

end Shift

namespace World

private theorem toBitVec_nextSeed (seed : UInt32) :
    (nextSeed seed).toBitVec =
      Shift.fold (· <<< 5) (Shift.fold (· >>> 17) (Shift.fold (· <<< 13) seed.toBitVec)) :=
  rfl

private theorem injective_nextSeed : Injective nextSeed := by
  have first : Shift (w := 32) (· <<< 13) := .left (by decide)
  have second : Shift (w := 32) (· >>> 17) := .right (by decide)
  have third : Shift (w := 32) (· <<< 5) := .left (by decide)
  intro seed seed' same
  have bits := congrArg UInt32.toBitVec same
  rw [toBitVec_nextSeed, toBitVec_nextSeed] at bits
  apply UInt32.toBitVec_inj.mp
  exact first.injective_fold (second.injective_fold (third.injective_fold bits))

private theorem nextSeed_eq_zero_iff (seed : UInt32) : nextSeed seed = 0 ↔ seed = 0 :=
  injective_nextSeed.eq_iff' rfl

/-! ## The calls of a world -/

/-- Whether a call draws a random number. -/
def Call.isDraw : Call → Bool
  | .random => true
  | _ => false

/-- How many random numbers a sequence of calls draws. -/
def draws (calls : List Call) : Nat := calls.countP Call.isDraw

variable {world : World}

private theorem seed_change (h : Handle) (f : Entity → Entity) (event : WorldEvent) :
    ((world.change h f event).getD world).seed = world.seed := by
  unfold change
  cases world.entity? h <;> rfl

/-- **One call.** Only drawing a random number changes the seed. -/
theorem seed_apply (world : World) (call : Call) :
    (world.apply call).seed = if call.isDraw then nextSeed world.seed else world.seed := by
  cases call with
  | clock | contains | random | findNearest | attributeOf | hasTag | teamMembers | post |
      sendMessage | playSound => rfl
  | applyDamage | heal | kill | teleport | setMovement | give | joinTeam => exact seed_change ..
  | remove | spawnParticle | doAction =>
      simp only [apply, remove, spawnParticle, doAction]
      split <;> rfl
  | spawn spawner x y turn =>
      simp only [apply, spawn]
      cases world.entity? spawner <;> rfl

/-- **A sequence of calls.** The seed steps on once for each random number. -/
theorem seed_after (world : World) (calls : List Call) :
    (world.after calls).seed = nextSeed^[draws calls] world.seed := by
  induction calls generalizing world with
  | nil => rfl
  | cons call calls ih =>
      change ((world.apply call).after calls).seed = _
      rw [ih, seed_apply, draws, draws, List.countP_cons]
      cases call.isDraw with
      | true => rw [if_pos rfl, if_pos rfl, iterate_succ_apply]
      | false => rw [if_neg Bool.false_ne_true, if_neg Bool.false_ne_true, Nat.add_zero]

/-- A random number is what the last sixteen bits of the next seed say. -/
theorem toInt_random (world : World) :
    world.random.toInt = ((nextSeed world.seed).toNat % 2 ^ 16 : Nat) := by
  have bits : (nextSeed world.seed &&& 0xFFFF).toNat = (nextSeed world.seed).toNat % 2 ^ 16 := by
    rw [UInt32.toNat_and]
    exact Nat.and_two_pow_sub_one_eq_mod _ 16
  have positive : 2 * (nextSeed world.seed &&& 0xFFFF).toNat < 2 ^ 32 := by omega
  rw [← bits]
  exact BitVec.toInt_eq_toNat_of_lt positive

/-- **Seeds stay apart.** The step from a seed to the next one is a bijection that comes to zero
from zero alone. Whatever is asked of a world, its seed becomes zero only if it has been zero
before, and two worlds of which equally many random numbers have been drawn have the same seed only
if they had the same one before. All random numbers have sixteen bits. -/
theorem seeds_apart :
    Bijective nextSeed ∧ (∀ seed, nextSeed seed = 0 ↔ seed = 0) ∧
      (∀ (world : World) (calls : List Call), (world.after calls).seed = 0 ↔ world.seed = 0) ∧
      (∀ (world other : World) (calls calls' : List Call), draws calls' = draws calls →
        ((other.after calls').seed = (world.after calls).seed ↔ other.seed = world.seed)) ∧
      ∀ world : World, 0 ≤ world.random.toInt ∧ world.random.toInt ≤ 0xFFFF := by
  have injective (n : Nat) : Injective nextSeed^[n] := injective_nextSeed.iterate n
  refine ⟨Finite.injective_iff_bijective.mp injective_nextSeed, nextSeed_eq_zero_iff,
    fun world calls => ?_, fun world other calls calls' equal => ?_, fun world => ?_⟩
  · rw [seed_after]
    exact (injective _).eq_iff' (iterate_fixed rfl _)
  · rw [seed_after, seed_after, equal]
    exact (injective _).eq_iff
  · rw [toInt_random]
    omega

/-- A run that draws one random number among other things, and one that does nothing else. -/
theorem seeds_apart_busy :
    draws [.random] = draws busyRun ∧
      (soloWorld.after busyRun).seed ≠ 0 ∧
      ((withSeed 1).after [.random]).seed ≠ (soloWorld.after busyRun).seed := by
  obtain ⟨_, _, awake, apart, _⟩ := seeds_apart
  have equal : draws [.random] = draws busyRun := rfl
  exact ⟨equal, fun zero => absurd ((awake _ _).mp zero) (by decide),
    fun same => absurd ((apart soloWorld (withSeed 1) busyRun [.random] equal).mp same) (by decide)⟩

end World
end NpcScript
