import Mathlib
import NpcScript.Alert

/-! # Sets of alerts

A set of alerts holds a kind when the bit of the kind is set. Unions and
differences of sets hold what unions and differences should hold
(`NpcScript.Alerts.has_union`, `NpcScript.Alerts.has_diff`).
-/

namespace NpcScript

namespace AlertKind

private theorem bit_lt (kind : AlertKind) : kind.bit < 32 := by
  cases kind <;> decide

private theorem bit_inj {a b : AlertKind} (same : a.bit = b.bit) : a = b := by
  have kindOf (kind : AlertKind) : all[kind.bit]? = some kind := by cases kind <;> rfl
  have entry := kindOf a
  rw [same, kindOf b] at entry
  exact (Option.some.inj entry).symm

end AlertKind

namespace Alerts

variable (a b : Alerts) (k kind : AlertKind)

private theorem toNat_single : (single k).bits.toNat = 2 ^ k.bit := by
  cases k <;> rfl

private theorem has_eq_testBit : a.has k = a.bits.toNat.testBit k.bit := by
  have value : (a.bits &&& (single k).bits).toNat =
      (a.bits.toNat.testBit k.bit).toNat * 2 ^ k.bit := by
    rw [UInt32.toNat_and, toNat_single, Nat.and_two_pow]
  unfold has
  cases set : a.bits.toNat.testBit k.bit with
  | false =>
      rw [set, Bool.toNat_false, Nat.zero_mul] at value
      rw [UInt32.toNat.inj (value.trans UInt32.toNat_zero.symm)]
      rfl
  | true =>
      rw [set, Bool.toNat_true, Nat.one_mul] at value
      apply bne_iff_ne.mpr
      intro none
      rw [none] at value
      exact absurd value.symm (Nat.pos_iff_ne_zero.mp (Nat.two_pow_pos k.bit))

/-- The empty set holds no kind. -/
theorem has_empty : empty.has k = false := by
  cases k <;> rfl

/-- A union holds what one of its sets holds. -/
theorem has_union : (a.union b).has k = (a.has k || b.has k) := by
  rw [has_eq_testBit, has_eq_testBit, has_eq_testBit, union, UInt32.toNat_or, Nat.testBit_or]

/-- A difference holds what the first set holds and the second one does not. -/
theorem has_diff : (a.diff b).has k = (a.has k && !b.has k) := by
  have complement : (~~~b.bits).toNat = 2 ^ 32 - (b.bits.toNat + 1) := by
    rw [UInt32.toNat_not, Nat.add_comm, Nat.sub_add_eq]
    rfl
  rw [has_eq_testBit, has_eq_testBit, has_eq_testBit, diff, UInt32.toNat_and, Nat.testBit_and,
    complement, Nat.testBit_two_pow_sub_succ b.bits.toNat_lt, decide_eq_true k.bit_lt,
    Bool.true_and]

private theorem has_single : (single kind).has k = decide (k = kind) := by
  rw [has_eq_testBit, toNat_single, Nat.testBit_two_pow]
  exact decide_eq_decide.mpr ⟨fun same => (AlertKind.bit_inj same).symm, fun same => same ▸ rfl⟩

/-- A kind that is raised is held from then on, besides what was held before. -/
theorem has_raise : (a.raise kind).has k = (a.has k || decide (k = kind)) := by
  rw [raise, has_union, has_single]

/-- A kind that is lowered is no longer held, and no other kind is lost. -/
theorem has_lower : (a.lower kind).has k = (a.has k && !decide (k = kind)) := by
  rw [lower, has_diff, has_single]

end Alerts
end NpcScript
