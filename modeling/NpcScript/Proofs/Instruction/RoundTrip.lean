import Mathlib
import NpcScript.Instruction

/-! # Instruction words read back

An instruction whose fields fit the layout is read back from its word unchanged
(`NpcScript.Instruction.decode_encode`). A word is a sum of its fields, each in
a place of its own, so each field is read by a division and a remainder.
-/

namespace NpcScript

/-! ## Words as sums of fields -/

namespace Word

/-- Joining a word whose low bits are clear with a number that fits into them adds the two. -/
theorem toNat_or {high low : UInt32} (k : Nat) (clear : high.toNat % 2 ^ k = 0)
    (fits : low.toNat < 2 ^ k) : (high ||| low).toNat = high.toNat + low.toNat := by
  obtain ⟨factor, split⟩ := Nat.dvd_of_mod_eq_zero clear
  rw [UInt32.toNat_or, split, Nat.two_pow_add_eq_or_of_lt fits]

/-- A mask of low bits keeps a remainder. -/
theorem toNat_and_mask {word mask : UInt32} (k : Nat) (low : mask.toNat = 2 ^ k - 1) :
    (word &&& mask).toNat = word.toNat % 2 ^ k := by
  rw [UInt32.toNat_and, low, Nat.and_two_pow_sub_one_eq_mod]

/-- A shift to the right divides. -/
theorem toNat_shiftRight {word shift : UInt32} (small : shift.toNat < 32) :
    (word >>> shift).toNat = word.toNat / 2 ^ shift.toNat := by
  rw [UInt32.toNat_shiftRight, Nat.mod_eq_of_lt small, Nat.shiftRight_eq_div_pow]

/-- A shift to the left multiplies, as long as nothing is lost. -/
theorem toNat_shiftLeft {word shift : UInt32} (small : shift.toNat < 32)
    (fits : word.toNat * 2 ^ shift.toNat < 2 ^ 32) :
    (word <<< shift).toNat = word.toNat * 2 ^ shift.toNat := by
  rw [UInt32.toNat_shiftLeft, Nat.mod_eq_of_lt small, Nat.shiftLeft_eq, Nat.mod_eq_of_lt fits]

/-- The highest bit of a word is its sign. -/
theorem toInt_eq_ite (number : Int32) : number.toInt =
    if 2 * number.toUInt32.toNat < 2 ^ 32 then (number.toUInt32.toNat : Int)
    else (number.toUInt32.toNat : Int) - 2 ^ 32 :=
  BitVec.toInt_eq_toNat_cond number.toBitVec

end Word

namespace Instruction

open Word

/-- The fields of the instruction fit the layout of a word. -/
def Fits : Instruction → Prop
  | call builtin label => builtin ≤ maxBuiltin ∧ ∀ l ∈ label, l ≤ maxCallLabel
  | jump label => label ≤ maxJumpLabel
  | assign _ _ => True
  | term _ (.var _) => True
  | term _ (.constant value) => minConstant ≤ value ∧ value ≤ maxConstant

/-! ## Calls -/

private theorem toNat_labelField {label : Option UInt32} (fits : ∀ l ∈ label, l ≤ maxCallLabel) :
    (labelField label).toNat = (label.map (·.toNat + 1)).getD 0 ∧
      (labelField label).toNat < 2 ^ 16 := by
  cases label with
  | none => decide
  | some l =>
      have bound : l.toNat ≤ 0xFFFE := by
        simpa [UInt32.le_iff_toNat_le, maxCallLabel] using fits l rfl
      have value : (labelField (some l)).toNat = l.toNat + 1 := by
        rw [labelField, toNat_and_mask 16 rfl, UInt32.toNat_add]
        simp
        omega
      rw [value]
      exact ⟨rfl, by omega⟩

/-- The label field of a call gives the label back. -/
theorem decodeLabel_labelField {label : Option UInt32} (fits : ∀ l ∈ label, l ≤ maxCallLabel) :
    decodeLabel (labelField label) = label := by
  obtain ⟨value, -⟩ := toNat_labelField fits
  cases label with
  | none => rfl
  | some l =>
      simp only [Option.map_some, Option.getD_some] at value
      have positive : labelField (some l) ≠ 0 := by
        intro zero
        rw [zero] at value
        simp at value
      have least : (1 : UInt32) ≤ labelField (some l) := by
        rw [UInt32.le_iff_toNat_le, value]
        simp
      have back : labelField (some l) - 1 = l := by
        apply UInt32.toNat.inj
        rw [UInt32.toNat_sub_of_le _ _ least, value]
        simp
      rw [decodeLabel, if_neg positive, back]

/-- The number of the word of a call, field by field. -/
theorem toNat_encode_call {builtin : UInt16} {label : Option UInt32}
    (fits : (call builtin label).Fits) :
    (call builtin label).encode.toNat =
      1 * 2 ^ 28 + (labelField label).toNat * 2 ^ 12 + builtin.toNat := by
  obtain ⟨builtinFits, labelFits⟩ := fits
  obtain ⟨-, small⟩ := toNat_labelField labelFits
  have bound : builtin.toNat ≤ 0xFFF := by
    simpa [UInt16.le_iff_toNat_le, maxBuiltin] using builtinFits
  have low : (builtin &&& maxBuiltin).toUInt32.toNat = builtin.toNat := by
    have mask : maxBuiltin.toNat = 2 ^ 12 - 1 := rfl
    rw [UInt16.toNat_toUInt32, UInt16.toNat_and, mask, Nat.and_two_pow_sub_one_eq_mod]
    omega
  have middle : (labelField label <<< 12).toNat = (labelField label).toNat * 2 ^ 12 := by
    rw [toNat_shiftLeft (by decide)]
    · rfl
    · simp
      omega
  have high : ((0x10000000 : UInt32) ||| (labelField label <<< 12)).toNat =
      1 * 2 ^ 28 + (labelField label).toNat * 2 ^ 12 := by
    rw [toNat_or 28 rfl (by rw [middle]; omega), middle]
    rfl
  rw [encode, toNat_or 12 (by rw [high]; omega) (by rw [low]; omega), high, low]

private theorem decode_encode_call {builtin : UInt16} {label : Option UInt32}
    (fits : (call builtin label).Fits) :
    decode (call builtin label).encode = .ok (call builtin label) := by
  have value := toNat_encode_call fits
  obtain ⟨builtinFits, labelFits⟩ := fits
  have bound : builtin.toNat ≤ 0xFFF := by
    simpa [UInt16.le_iff_toNat_le, maxBuiltin] using builtinFits
  obtain ⟨-, small⟩ := toNat_labelField labelFits
  generalize (call builtin label).encode = word at value
  have tag : word >>> 28 = 1 := by
    apply UInt32.toNat.inj
    rw [toNat_shiftRight (by decide), value]
    simp
    omega
  have index : (word &&& 0xFFF).toUInt16 = builtin := by
    apply UInt16.toNat.inj
    rw [UInt32.toNat_toUInt16, toNat_and_mask 12 rfl, value]
    omega
  have field : (word >>> 12) &&& 0xFFFF = labelField label := by
    apply UInt32.toNat.inj
    rw [toNat_and_mask 16 rfl, toNat_shiftRight (by decide), value]
    simp
    omega
  simp only [decode, tag, index, field, decodeLabel_labelField labelFits, ↓reduceIte]

/-! ## Jumps and assignments -/

/-- The number of the word of a jump, field by field. -/
theorem toNat_encode_jump {label : UInt32} (fits : (jump label).Fits) :
    (jump label).encode.toNat = 2 * 2 ^ 28 + label.toNat := by
  have bound : label.toNat ≤ 0x0FFFFFFF := by
    simpa [Fits, UInt32.le_iff_toNat_le, maxJumpLabel] using fits
  have low : (label &&& maxJumpLabel).toNat = label.toNat := by
    rw [toNat_and_mask 28 rfl]
    omega
  rw [encode, toNat_or 28 rfl (by omega), low]
  rfl

private theorem decode_encode_jump {label : UInt32} (fits : (jump label).Fits) :
    decode (jump label).encode = .ok (jump label) := by
  have value := toNat_encode_jump fits
  have bound : label.toNat ≤ 0x0FFFFFFF := by
    simpa [Fits, UInt32.le_iff_toNat_le, maxJumpLabel] using fits
  generalize (jump label).encode = word at value
  have tag : word >>> 28 = 2 := by
    apply UInt32.toNat.inj
    rw [toNat_shiftRight (by decide), value]
    simp
    omega
  have target : word &&& maxJumpLabel = label := by
    apply UInt32.toNat.inj
    rw [toNat_and_mask 28 rfl, value]
    omega
  simp [decode, tag, target]

/-- The number of the word of an assignment, field by field. -/
theorem toNat_encode_assign (slot terms : UInt8) :
    (assign slot terms).encode.toNat = 3 * 2 ^ 28 + terms.toNat * 2 ^ 8 + slot.toNat := by
  have slotBound := slot.toNat_lt
  have termsBound := terms.toNat_lt
  have middle : (terms.toUInt32 <<< 8).toNat = terms.toNat * 2 ^ 8 := by
    rw [toNat_shiftLeft (by decide)]
    · simp
    · simp
      omega
  have high : ((0x30000000 : UInt32) ||| (terms.toUInt32 <<< 8)).toNat =
      3 * 2 ^ 28 + terms.toNat * 2 ^ 8 := by
    rw [toNat_or 28 rfl (by rw [middle]; omega), middle]
    rfl
  rw [encode, toNat_or 8 (by rw [high]; omega) (by simpa using slotBound), high]
  simp

/-- The word of an assignment is read back. -/
theorem decode_encode_assign (slot terms : UInt8) :
    decode (assign slot terms).encode = .ok (assign slot terms) := by
  have slotBound := slot.toNat_lt
  have termsBound := terms.toNat_lt
  have value := toNat_encode_assign slot terms
  generalize (assign slot terms).encode = word at value
  have tag : word >>> 28 = 3 := by
    apply UInt32.toNat.inj
    rw [toNat_shiftRight (by decide), value]
    simp
    omega
  have target : (word &&& 0xFF).toUInt8 = slot := by
    apply UInt8.toNat.inj
    rw [UInt32.toNat_toUInt8, toNat_and_mask 8 rfl, value]
    omega
  have count : ((word >>> 8) &&& 0xFF).toUInt8 = terms := by
    apply UInt8.toNat.inj
    rw [UInt32.toNat_toUInt8, toNat_and_mask 8 rfl, toNat_shiftRight (by decide), value]
    simp
    omega
  simp [decode, tag, target, count]

/-! ## Terms -/

private theorem toNat_code_lt (operator : Operator) : operator.code.toNat < 8 := by
  cases operator <;> decide

private theorem ofCode_code (operator : Operator) :
    Operator.ofCode? operator.code = some operator := by
  cases operator <;> decide

/-- A term with the given tag holds its operator and, in the low 24 bits, its operand. -/
theorem toNat_encode_term (tag low : UInt32) (operator : Operator) (place : tag.toNat ≤ 5)
    (fits : low.toNat < 2 ^ 24) :
    ((tag <<< 28) ||| (operator.code <<< 24) ||| low).toNat =
      tag.toNat * 2 ^ 28 + operator.code.toNat * 2 ^ 24 + low.toNat := by
  have code := toNat_code_lt operator
  have middle : (operator.code <<< 24).toNat = operator.code.toNat * 2 ^ 24 := by
    rw [toNat_shiftLeft (by decide)]
    · rfl
    · simp
      omega
  have top : (tag <<< 28).toNat = tag.toNat * 2 ^ 28 := by
    rw [toNat_shiftLeft (by decide)]
    · rfl
    · simp
      omega
  have high : ((tag <<< 28) ||| (operator.code <<< 24)).toNat =
      tag.toNat * 2 ^ 28 + operator.code.toNat * 2 ^ 24 := by
    rw [toNat_or 28 (by rw [top]; omega) (by rw [middle]; omega), top, middle]
  rw [toNat_or 24 (by rw [high]; omega) fits, high]

private theorem decodeOperator_of_toNat {word : UInt32} {tag low : Nat} (operator : Operator)
    (value : word.toNat = tag * 2 ^ 28 + operator.code.toNat * 2 ^ 24 + low)
    (fits : low < 2 ^ 24) : decodeOperator word = .ok operator := by
  have code := toNat_code_lt operator
  have field : (word >>> 24) &&& 0xF = operator.code := by
    apply UInt32.toNat.inj
    rw [toNat_and_mask 4 rfl, toNat_shiftRight (by decide), value]
    simp
    omega
  simp only [decodeOperator, field, ofCode_code]

/-- The number of the word of a term with a variable, field by field. -/
theorem toNat_encode_term_var (operator : Operator) (slot : UInt8) :
    (term operator (.var slot)).encode.toNat =
      4 * 2 ^ 28 + operator.code.toNat * 2 ^ 24 + slot.toNat := by
  have bound := slot.toNat_lt
  have sum := toNat_encode_term 4 slot.toUInt32 operator (by decide)
    (by simp; omega)
  simpa [encode] using sum

/-- The word of a term with a variable is read back. -/
theorem decode_encode_term_var (operator : Operator) (slot : UInt8) :
    decode (term operator (.var slot)).encode = .ok (term operator (.var slot)) := by
  have bound := slot.toNat_lt
  have code := toNat_code_lt operator
  have value := toNat_encode_term_var operator slot
  generalize (term operator (.var slot)).encode = word at value
  have tag : word >>> 28 = 4 := by
    apply UInt32.toNat.inj
    rw [toNat_shiftRight (by decide), value]
    simp
    omega
  have target : (word &&& 0xFF).toUInt8 = slot := by
    apply UInt8.toNat.inj
    rw [UInt32.toNat_toUInt8, toNat_and_mask 8 rfl, value]
    omega
  simp [decode, tag, target, decodeOperator_of_toNat operator value (by omega), Except.map]

/-- The highest of the low 24 bits of a word is the sign of its constant. -/
theorem toInt_decodeConstant (word : UInt32) : (decodeConstant word).toInt =
    if word.toNat % 2 ^ 24 < 2 ^ 23 then (word.toNat % 2 ^ 24 : Int)
    else (word.toNat % 2 ^ 24 : Int) - 2 ^ 24 := by
  have shifted : (word <<< 8).toNat = word.toNat % 2 ^ 24 * 2 ^ 8 := by
    rw [UInt32.toNat_shiftLeft]
    simp [Nat.shiftLeft_eq]
    omega
  have signed := toInt_eq_ite (word <<< 8).toInt32
  rw [UInt32.toUInt32_toInt32, shifted] at signed
  have arithmetic : (decodeConstant word).toInt = (word <<< 8).toInt32.toInt >>> (8 : Nat) :=
    BitVec.toInt_sshiftRight
  rw [arithmetic, Int.shiftRight_eq_div_pow]
  split at signed <;> split <;> omega

/-- A signed number in the low 24 bits of a word is read back from there. -/
theorem decodeConstant_of_toNat {word : UInt32} {number : Int32}
    (value : word.toNat % 2 ^ 24 = number.toUInt32.toNat % 2 ^ 24)
    (least : minConstant ≤ number) (most : number ≤ maxConstant) :
    decodeConstant word = number := by
  have lower : -0x800000 ≤ number.toInt := Int32.le_iff_toInt_le.mp least
  have upper : number.toInt ≤ 0x7FFFFF := Int32.le_iff_toInt_le.mp most
  have signed := toInt_eq_ite number
  apply Int32.toInt.inj
  rw [toInt_decodeConstant]
  split at signed <;> split <;> omega

/-- The number of the word of a term with a constant, field by field. -/
theorem toNat_encode_term_constant (operator : Operator) (number : Int32) :
    (term operator (.constant number)).encode.toNat =
      5 * 2 ^ 28 + operator.code.toNat * 2 ^ 24 + number.toUInt32.toNat % 2 ^ 24 := by
  have low : (number.toUInt32 &&& 0x00FFFFFF).toNat = number.toUInt32.toNat % 2 ^ 24 :=
    toNat_and_mask 24 (by decide)
  have sum := toNat_encode_term 5 (number.toUInt32 &&& 0x00FFFFFF) operator
    (by decide) (by rw [low]; omega)
  rw [low] at sum
  exact sum

private theorem decode_encode_term_constant {operator : Operator} {number : Int32}
    (fits : (term operator (.constant number)).Fits) :
    decode (term operator (.constant number)).encode = .ok (term operator (.constant number)) := by
  have code := toNat_code_lt operator
  have value := toNat_encode_term_constant operator number
  generalize (term operator (.constant number)).encode = word at value
  have tag : word >>> 28 = 5 := by
    apply UInt32.toNat.inj
    rw [toNat_shiftRight (by decide), value]
    simp
    omega
  have reading : decodeOperator word = .ok operator :=
    decodeOperator_of_toNat operator value (Nat.mod_lt _ (by decide))
  have low : word.toNat % 2 ^ 24 = number.toUInt32.toNat % 2 ^ 24 := by
    rw [value]
    generalize operator.code.toNat = code, number.toUInt32.toNat = bits
    omega
  have constant : decodeConstant word = number := decodeConstant_of_toNat low fits.1 fits.2
  simp [decode, tag, constant, reading, Except.map]

/-! ## All instructions -/

/-- An instruction whose fields fit is read back from its word. -/
theorem decode_encode {instruction : Instruction} (fits : instruction.Fits) :
    decode instruction.encode = .ok instruction := by
  match instruction, fits with
  | call _ _, fits => exact decode_encode_call fits
  | jump _, fits => exact decode_encode_jump fits
  | assign slot terms, _ => exact decode_encode_assign slot terms
  | term operator (.var slot), _ => exact decode_encode_term_var operator slot
  | term _ (.constant _), fits => exact decode_encode_term_constant fits

end Instruction
end NpcScript
