import Mathlib.Algebra.Order.Floor.Semifield
import Mathlib.Data.Rat.Floor
import NpcScript.Token.Lexer

/-! # Numerals are exact

The reader of numerals cuts whole parts off at the first number without a signed
32-bit form, and looks at no more than nine digits of a fraction. Neither loses
anything: a number that was cut off has no numeral anyway, and a 256th has at
most eight decimal digits, so the digits behind the ninth never carry into it
(`NpcScript.Lexer.fractionValue_eq`). Hence a numeral carries the number that its
digits denote, in whole 256ths where it has a point
(`NpcScript.Lexer.wholeKind_carries`, `NpcScript.Lexer.fixedKind_carries`).
-/

namespace NpcScript

/-- A kind carries a number: it is the number of a numeral, or too large for one. -/
def TokenKind.Carries (kind : TokenKind) (n : Nat) : Prop :=
  if n ≤ 2147483647 then ∃ value : Int32, kind = .number value ∧ value.toInt = n
  else kind = .unknown .numberOverflow

namespace Lexer

/-- The number that decimal digits denote. -/
def decimal (digits : List Char) : Nat :=
  Nat.ofDigitChars 10 digits 0

/-- The number that decimal digits with a point between them denote. -/
def pointed (digits fraction : List Char) : ℚ :=
  decimal digits + decimal fraction / 10 ^ fraction.length

variable {digits fraction : List Char} {c : Char}

/-- A digit is less than ten. -/
theorem digit_lt (digit : c.isDigit) : c.toNat - '0'.toNat < 10 := by
  have bounds := Char.isDigit_iff_toNat.mp digit
  have nine : '9'.toNat = '0'.toNat + 9 := rfl
  omega

private theorem decimal_append (front back : List Char) :
    decimal (front ++ back) = 10 ^ back.length * decimal front + decimal back := by
  rw [decimal, Nat.ofDigitChars_append, Nat.ofDigitChars_eq_ofDigitChars_zero]
  rfl

private theorem decimal_cons (c : Char) (digits : List Char) :
    decimal (c :: digits) = 10 ^ digits.length * (c.toNat - '0'.toNat) + decimal digits := by
  rw [← List.singleton_append, decimal_append]
  congr 2
  simp [decimal, Nat.ofDigitChars_cons]

private theorem decimal_lt (inside : ∀ c ∈ digits, c.isDigit) :
    decimal digits < 10 ^ digits.length := by
  induction digits with
  | nil => simp [decimal]
  | cons c digits ih =>
      have first := digit_lt (inside c List.mem_cons_self)
      have others := ih fun d member => inside d (List.mem_cons_of_mem c member)
      rw [decimal_cons, List.length_cons, Nat.pow_succ]
      calc 10 ^ digits.length * (c.toNat - '0'.toNat) + decimal digits
          < 10 ^ digits.length * (c.toNat - '0'.toNat) + 10 ^ digits.length := by omega
        _ = 10 ^ digits.length * (c.toNat - '0'.toNat + 1) := by ring
        _ ≤ 10 ^ digits.length * 10 := Nat.mul_le_mul_left _ first

/-- Digits are cut off at the end as they are cut off on the way. -/
theorem digitsValue_eq (digits : List Char) :
    digitsValue digits = min (decimal digits) 0x80000000 := by
  have cut (digits : List Char) (n : Nat) :
      digits.foldl (fun n d => min (10 * n + (d.toNat - '0'.toNat)) 0x80000000)
          (min n 0x80000000) =
        min (Nat.ofDigitChars 10 digits n) 0x80000000 := by
    induction digits generalizing n with
    | nil => rfl
    | cons d digits ih =>
        -- A number at the limit is at the limit again with a digit behind it.
        have step : min (10 * min n 0x80000000 + (d.toNat - '0'.toNat)) 0x80000000 =
            min (10 * n + (d.toNat - '0'.toNat)) 0x80000000 := by omega
        rw [List.foldl_cons, step, ih, Nat.ofDigitChars_cons]
  exact cut digits 0

/-! ## Fractions -/

/-- A billion is a multiple of 256, so less than 256 more does not fill another one. -/
theorem div_billion {part : Nat} (n : Nat) (small : part < 256) :
    (n * 256 + part) / 10 ^ 9 = n * 256 / 10 ^ 9 := by
  have billion : 10 ^ 9 = 256 * 3906250 := rfl
  have whole : (n * 256 + part) / 256 = n := by omega
  rw [billion, ← Nat.div_div_eq_div_mul, ← Nat.div_div_eq_div_mul, whole,
    Nat.mul_div_cancel _ (by decide)]

/-- Digits behind the ninth do not carry into a 256th. -/
theorem div_ninth {n rest : Nat} (k : Nat) (less : rest < 10 ^ k) :
    (10 ^ k * n + rest) * 256 / 10 ^ (k + 9) = n * 256 / 10 ^ 9 := by
  have carried : rest * 256 / 10 ^ k < 256 :=
    Nat.div_lt_of_lt_mul (Nat.mul_lt_mul_of_pos_right less (by decide))
  calc (10 ^ k * n + rest) * 256 / 10 ^ (k + 9)
      = (10 ^ k * (n * 256) + rest * 256) / 10 ^ k / 10 ^ 9 := by
        rw [Nat.pow_add, ← Nat.div_div_eq_div_mul]
        congr 2
        ring
    _ = (n * 256 + rest * 256 / 10 ^ k) / 10 ^ 9 := by rw [Nat.mul_add_div (by positivity)]
    _ = n * 256 / 10 ^ 9 := div_billion n carried

/-- Nine digits behind a point make less than one. -/
theorem decimal_take_lt (inside : ∀ c ∈ fraction, c.isDigit) :
    decimal (fraction.take 9) < 10 ^ (fraction.take 9).length :=
  decimal_lt fun c member => inside c (List.mem_of_mem_take member)

/-- Nine digits are not cut off. -/
theorem fractionValue_eq_take (inside : ∀ c ∈ fraction, c.isDigit) :
    fractionValue fraction =
      decimal (fraction.take 9) * 256 / 10 ^ (fraction.take 9).length := by
  have places : 10 ^ (fraction.take 9).length ≤ 10 ^ 9 :=
    Nat.pow_le_pow_right (by decide) (List.length_take_le 9 fraction)
  have less := decimal_take_lt inside
  have exact : digitsValue (fraction.take 9) = decimal (fraction.take 9) := by
    rw [digitsValue_eq]
    omega
  rw [← exact]
  rfl

/-- A fraction has the 256ths that all its digits denote. -/
theorem fractionValue_eq (inside : ∀ c ∈ fraction, c.isDigit) :
    fractionValue fraction = decimal fraction * 256 / 10 ^ fraction.length := by
  rw [fractionValue_eq_take inside]
  rcases Nat.lt_or_ge 9 fraction.length with long | short
  · have insideBack : ∀ c ∈ fraction.drop 9, c.isDigit := fun c member =>
      inside c (List.mem_of_mem_drop member)
    have split : decimal fraction =
        10 ^ (fraction.drop 9).length * decimal (fraction.take 9) + decimal (fraction.drop 9) := by
      rw [← decimal_append, List.take_append_drop]
    have front : (fraction.take 9).length = 9 := by
      rw [List.length_take]
      omega
    have length : fraction.length = (fraction.drop 9).length + 9 := by
      rw [List.length_drop]
      omega
    rw [split, front, length, div_ninth _ (decimal_lt insideBack)]
  · rw [List.take_of_length_le short]

/-- A fraction is less than a whole. -/
theorem fractionValue_lt (inside : ∀ c ∈ fraction, c.isDigit) : fractionValue fraction < 256 := by
  rw [fractionValue_eq inside]
  exact Nat.div_lt_of_lt_mul (Nat.mul_lt_mul_of_pos_right (decimal_lt inside) (by decide))

/-- The whole 256ths of a number with a point. -/
theorem floor_pointed (inside : ∀ c ∈ fraction, c.isDigit) :
    ⌊256 * pointed digits fraction⌋₊ = 256 * decimal digits + fractionValue fraction := by
  have parts : 256 * pointed digits fraction =
      ((256 * decimal digits * 10 ^ fraction.length + decimal fraction * 256 : ℕ) : ℚ) /
        ((10 ^ fraction.length : ℕ) : ℚ) := by
    have power : ((10 : ℚ) ^ fraction.length) ≠ 0 := by positivity
    unfold pointed
    push_cast
    field_simp
  rw [parts, Nat.floor_div_eq_div, Nat.add_comm, Nat.add_mul_div_right _ _ (by positivity),
    fractionValue_eq inside, Nat.add_comm]

/-! ## The numbers that numerals carry -/

private theorem carries_ofNat {n : Nat} (fits : n ≤ 2147483647) :
    (TokenKind.number (Int32.ofNat n)).Carries n := by
  rw [TokenKind.Carries, if_pos fits]
  exact ⟨_, rfl, Int32.toInt_ofNat_of_lt (by omega)⟩

private theorem carries_overflow {n : Nat} (large : 2147483647 < n) :
    (TokenKind.unknown .numberOverflow).Carries n := by
  rw [TokenKind.Carries, if_neg (Nat.not_le.mpr large)]

/-- A numeral without a point carries the number of its digits. -/
theorem wholeKind_carries (digits : List Char) : (wholeKind digits).Carries (decimal digits) := by
  have value := digitsValue_eq digits
  unfold wholeKind
  dsimp only
  split
  case isTrue small =>
    have exact : digitsValue digits = decimal digits := by omega
    rw [exact]
    exact carries_ofNat (by omega)
  case isFalse large => exact carries_overflow (by omega)

/-- A numeral with a point carries the whole 256ths of its number. -/
theorem fixedKind_carries (digits : List Char) (inside : ∀ c ∈ fraction, c.isDigit) :
    (fixedKind digits fraction).Carries ⌊256 * pointed digits fraction⌋₊ := by
  have value := digitsValue_eq digits
  have part := fractionValue_lt inside
  rw [floor_pointed inside]
  unfold fixedKind
  dsimp only
  split
  case isTrue small =>
    have exact : digitsValue digits = decimal digits := by omega
    rw [exact]
    exact carries_ofNat (by omega)
  case isFalse large => exact carries_overflow (by omega)

end Lexer
end NpcScript
