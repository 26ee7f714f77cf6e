import NpcScript.Proofs.Instruction.RoundTrip

/-! # What instruction words keep

A word keeps an instruction if and only if the fields of the instruction fit the
layout, and what is read from a word always fits
(`NpcScript.Instruction.fits_of_decode`). So reading, writing and reading again
changes nothing. Writing gives the same word again unless a bit was set that the
layout leaves unused, because a word is the sum of what is written for its
instruction and of its unused bits (`NpcScript.Instruction.toNat_of_decode`).
-/

namespace NpcScript

/-- A field of a number is zero if its bits are. -/
theorem Word.field_eq_zero_iff (n low width : Nat) :
    n / 2 ^ low % 2 ^ width = 0 ↔ ∀ bit, low ≤ bit → bit < low + width → n.testBit bit = false := by
  constructor
  · intro zero bit least most
    have field : (n / 2 ^ low % 2 ^ width).testBit (bit - low) = n.testBit bit := by
      rw [Nat.testBit_mod_two_pow, Nat.testBit_div_two_pow, Nat.sub_add_cancel least]
      simp
      omega
    rw [← field, zero, Nat.zero_testBit]
  · intro clear
    apply Nat.eq_of_testBit_eq
    intro bit
    rw [Nat.testBit_mod_two_pow, Nat.testBit_div_two_pow, Nat.zero_testBit]
    by_cases inside : bit < width
    · rw [clear (bit + low) (Nat.le_add_left _ _) (by omega), Bool.and_false]
    · rw [decide_eq_false inside, Bool.false_and]

namespace Instruction

open Word

variable {word : UInt32} {instruction : Instruction}

/-! ## What is read from a word -/

private theorem code_of_ofCode {code : UInt32} {operator : Operator}
    (known : Operator.ofCode? code = some operator) : operator.code = code := by
  have inside : code.toNat < 8 := (List.getElem?_eq_some_iff.mp known).1
  rw [Operator.ofCode?] at known
  apply UInt32.toNat.inj
  interval_cases code.toNat <;> cases known <;> rfl

private theorem decodeOperator_eq_ok {operator : Operator}
    (read : decodeOperator word = .ok operator) :
    operator.code.toNat = word.toNat / 2 ^ 24 % 2 ^ 4 := by
  unfold decodeOperator at read
  dsimp only at read
  split at read
  case h_1 other known =>
    cases read
    rw [code_of_ofCode known, toNat_and_mask 4 rfl, toNat_shiftRight (by decide)]
    rfl
  case h_2 => cases read

/-- The tag of a word tells which fields are read. -/
theorem decode_cases (decoded : decode word = .ok instruction) :
    (word.toNat / 2 ^ 28 = 1 ∧ instruction =
      call (word &&& 0xFFF).toUInt16 (decodeLabel ((word >>> 12) &&& 0xFFFF))) ∨
    (word.toNat / 2 ^ 28 = 2 ∧ instruction = jump (word &&& maxJumpLabel)) ∨
    (word.toNat / 2 ^ 28 = 3 ∧ instruction =
      assign (word &&& 0xFF).toUInt8 ((word >>> 8) &&& 0xFF).toUInt8) ∨
    ∃ operator : Operator, operator.code.toNat = word.toNat / 2 ^ 24 % 2 ^ 4 ∧
      (word.toNat / 2 ^ 28 = 4 ∧
          instruction = term operator (.var (word &&& 0xFF).toUInt8) ∨
        word.toNat / 2 ^ 28 = 5 ∧
          instruction = term operator (.constant (decodeConstant word))) := by
  have tagged {tag : UInt32} (same : word >>> 28 = tag) : word.toNat / 2 ^ 28 = tag.toNat := by
    rw [← same, toNat_shiftRight (by decide)]
    rfl
  unfold decode at decoded
  dsimp only at decoded
  split at decoded
  case isTrue tag =>
    cases decoded
    exact .inl ⟨tagged tag, rfl⟩
  split at decoded
  case isTrue tag =>
    cases decoded
    exact .inr (.inl ⟨tagged tag, rfl⟩)
  split at decoded
  case isTrue tag =>
    cases decoded
    exact .inr (.inr (.inl ⟨tagged tag, rfl⟩))
  have read {operand : Operand} (success : (decodeOperator word).map (term · operand) =
      .ok instruction) : ∃ operator : Operator, operator.code.toNat = word.toNat / 2 ^ 24 % 2 ^ 4 ∧
        instruction = term operator operand := by
    cases known : decodeOperator word with
    | error cause => simp [known, Except.map] at success
    | ok operator =>
        simp only [known, Except.map, Except.ok.injEq] at success
        exact ⟨operator, decodeOperator_eq_ok known, success.symm⟩
  split at decoded
  case isTrue tag =>
    obtain ⟨operator, code, same⟩ := read decoded
    exact .inr (.inr (.inr ⟨operator, code, .inl ⟨tagged tag, same⟩⟩))
  split at decoded
  case isTrue tag =>
    obtain ⟨operator, code, same⟩ := read decoded
    exact .inr (.inr (.inr ⟨operator, code, .inr ⟨tagged tag, same⟩⟩))
  cases decoded

private theorem toNat_labelField_decodeLabel {field : UInt32} (small : field.toNat < 2 ^ 16) :
    (labelField (decodeLabel field)).toNat = field.toNat ∧
      ∀ label ∈ decodeLabel field, label ≤ maxCallLabel := by
  unfold decodeLabel
  split
  case isTrue zero =>
    subst zero
    exact ⟨rfl, by simp⟩
  case isFalse positive =>
    have least : 1 ≤ field.toNat := by
      apply Nat.one_le_iff_ne_zero.mpr
      intro zero
      exact positive (UInt32.toNat.inj zero)
    have below : (field - 1).toNat = field.toNat - 1 :=
      UInt32.toNat_sub_of_le _ _ (UInt32.le_iff_toNat_le.mpr least)
    constructor
    · rw [labelField, toNat_and_mask 16 rfl, UInt32.toNat_add, below]
      simp
      omega
    · rintro _ ⟨⟩
      rw [UInt32.le_iff_toNat_le, below]
      simp [maxCallLabel]
      omega

/-- What is read from a word fits the layout. -/
theorem fits_of_decode (decoded : decode word = .ok instruction) : instruction.Fits := by
  obtain ⟨-, rfl⟩ | ⟨-, rfl⟩ | ⟨-, rfl⟩ | ⟨operator, -, ⟨-, rfl⟩ | ⟨-, rfl⟩⟩ := decode_cases decoded
  · constructor
    · rw [UInt16.le_iff_toNat_le, UInt32.toNat_toUInt16, toNat_and_mask 12 rfl]
      simp [maxBuiltin]
      omega
    · exact (toNat_labelField_decodeLabel (by rw [toNat_and_mask 16 rfl]; omega)).2
  · rw [Fits, UInt32.le_iff_toNat_le, toNat_and_mask 28 rfl]
    simp [maxJumpLabel]
    omega
  · trivial
  · trivial
  · have value := toInt_decodeConstant word
    rw [Fits, Int32.le_iff_toInt_le, Int32.le_iff_toInt_le, value]
    simp [minConstant, maxConstant]
    split <;> omega

/-! ## What is left of a word -/

/-- The bits of a word that the layout of its instruction leaves unused. -/
def spare : Instruction → Finset Nat
  | assign _ _ => Finset.Icc 16 27
  | term _ (.var _) => Finset.Icc 8 23
  | call _ _ | jump _ | term _ (.constant _) => ∅

/-- A word is the sum of what is written for its instruction and of the field of its unused
bits. -/
theorem toNat_of_decode (decoded : decode word = .ok instruction) : ∃ low width,
    (∀ bit, bit ∈ instruction.spare ↔ low ≤ bit ∧ bit < low + width) ∧
    word.toNat = instruction.encode.toNat + word.toNat / 2 ^ low % 2 ^ width * 2 ^ low := by
  have fits := fits_of_decode decoded
  obtain ⟨tag, rfl⟩ | ⟨tag, rfl⟩ | ⟨tag, rfl⟩ | ⟨operator, code, ⟨tag, rfl⟩ | ⟨tag, rfl⟩⟩ :=
    decode_cases decoded
  · refine ⟨0, 0, by simp [spare], ?_⟩
    have field : ((word >>> 12) &&& 0xFFFF).toNat = word.toNat / 2 ^ 12 % 2 ^ 16 := by
      rw [toNat_and_mask 16 rfl, toNat_shiftRight (by decide)]
      rfl
    have index : (word &&& 0xFFF).toUInt16.toNat = word.toNat % 2 ^ 12 := by
      rw [UInt32.toNat_toUInt16, toNat_and_mask 12 rfl]
      omega
    rw [toNat_encode_call fits, (toNat_labelField_decodeLabel (by rw [field]; omega)).1, field,
      index]
    omega
  · refine ⟨0, 0, by simp [spare], ?_⟩
    rw [toNat_encode_jump fits, toNat_and_mask 28 rfl]
    omega
  · refine ⟨16, 12, by simp [spare]; omega, ?_⟩
    rw [toNat_encode_assign, UInt32.toNat_toUInt8, UInt32.toNat_toUInt8, toNat_and_mask 8 rfl,
      toNat_and_mask 8 rfl, toNat_shiftRight (by decide)]
    simp
    omega
  · refine ⟨8, 16, by simp [spare]; omega, ?_⟩
    rw [toNat_encode_term_var, UInt32.toNat_toUInt8, toNat_and_mask 8 rfl, code]
    omega
  · refine ⟨0, 0, by simp [spare], ?_⟩
    have low : (decodeConstant word).toUInt32.toNat % 2 ^ 24 = word.toNat % 2 ^ 24 := by
      have value := toInt_decodeConstant word
      have signed := toInt_eq_ite (decodeConstant word)
      split at signed <;> split at value <;> omega
    rw [toNat_encode_term_constant, low, code]
    omega

/-- Writing what was read gives the word back if its unused bits are clear. -/
theorem encode_eq_iff (decoded : decode word = .ok instruction) :
    instruction.encode = word ↔ ∀ bit ∈ instruction.spare, word.toNat.testBit bit = false := by
  obtain ⟨low, width, spare, value⟩ := toNat_of_decode decoded
  have clear : (∀ bit ∈ instruction.spare, word.toNat.testBit bit = false) ↔
      word.toNat / 2 ^ low % 2 ^ width = 0 := by
    rw [field_eq_zero_iff]
    simp only [spare, and_imp]
  rw [clear, ← UInt32.toNat_inj]
  constructor
  · intro same
    rw [same] at value
    exact (Nat.mul_eq_zero.mp (Nat.left_eq_add.mp value)).resolve_right (by positivity)
  · intro zero
    rw [zero, Nat.zero_mul, Nat.add_zero] at value
    exact value.symm

/-- **What words keep.** An instruction is read back from its word if and only if its fields fit the
layout. What is read from any word is read back after it is written, and what is written is the
same word if and only if its unused bits are clear. -/
theorem words_keep :
    (∀ instruction : Instruction,
      decode instruction.encode = .ok instruction ↔ instruction.Fits) ∧
    ∀ (word : UInt32) (instruction : Instruction), decode word = .ok instruction →
      decode instruction.encode = .ok instruction ∧
      (instruction.encode = word ↔
        ∀ bit ∈ instruction.spare, word.toNat.testBit bit = false) := by
  refine ⟨fun instruction => ⟨fits_of_decode, decode_encode⟩, ?_⟩
  intro word instruction decoded
  exact ⟨decode_encode (fits_of_decode decoded), encode_eq_iff decoded⟩

/-- An assignment of two terms with one of the unused bits set. -/
theorem words_keep_assign :
    decode 0x30010201 = .ok (assign 1 2) ∧
      decode (assign 1 2).encode = .ok (assign 1 2) ∧ (assign 1 2).encode ≠ 0x30010201 := by
  have decoded : decode 0x30010201 = .ok (assign 1 2) := by decide
  obtain ⟨again, same⟩ := words_keep.2 _ _ decoded
  refine ⟨decoded, again, fun equal => ?_⟩
  exact absurd (same.mp equal 16 (by decide)) (by decide)

end Instruction
end NpcScript
