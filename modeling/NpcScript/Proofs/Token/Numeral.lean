import NpcScript.Proofs.Token.Decimal
import NpcScript.Proofs.Token.Scan

/-! # Numerals in machine words

A numeral may have any number of digits, but the reader gets by with signed 64-bit
words: here are its computations with operations that fail where a result has no
such word. They never fail, and come to the same kinds
(`NpcScript.Lexer.Words.wholeKind?_eq`, `NpcScript.Lexer.Words.fixedKind?_eq`). With
the numbers that these kinds carry, this says what a text of digits is read as
(`NpcScript.Lexer.tokens_digits`).
-/

namespace NpcScript.Lexer

namespace Words

/-- The word of an integer, if it has one. -/
def word? (n : Int) : Option Int64 :=
  if (Int64.ofInt n).toInt = n then some (Int64.ofInt n) else none

/-- The sum of two words, unless it overflows. -/
def add? (a b : Int64) : Option Int64 :=
  word? (a.toInt + b.toInt)

/-- The product of two words, unless it overflows. -/
def mul? (a b : Int64) : Option Int64 :=
  word? (a.toInt * b.toInt)

/-- The quotient of two words, unless it overflows or there is none. -/
def div? (a b : Int64) : Option Int64 :=
  if b = 0 then none else word? (a.toInt.tdiv b.toInt)

/-- The word of a digit. -/
def digit (c : Char) : Int64 :=
  Int64.ofNat (c.toNat - '0'.toNat)

/-- Adds a digit to a whole part. One without a signed 32-bit form is cut off. -/
def addWhole? (whole : Int64) (c : Char) : Option Int64 := do
  let next ← add? (← mul? whole 10) (digit c)
  return if 0x7FFFFFFF < next then 0x80000000 else next

/-- A whole part. -/
def whole? (digits : List Char) : Option Int64 :=
  digits.foldlM addWhole? 0

/-- Adds a digit to the numerator of a fraction, and a place to its denominator, until there are
nine places. -/
def addPlace? (fraction : Int64 × Int64) (c : Char) : Option (Int64 × Int64) :=
  if fraction.2 < 1000000000 then do
    return (← add? (← mul? fraction.1 10) (digit c), ← mul? fraction.2 10)
  else
    return fraction

/-- The numerator and the denominator of a fraction. -/
def fraction? (digits : List Char) : Option (Int64 × Int64) :=
  digits.foldlM addPlace? (0, 1)

/-- The kind of a numeral without a point. -/
def wholeKind? (digits : List Char) : Option TokenKind := do
  let whole ← whole? digits
  return if 0x7FFFFFFF < whole then .unknown .numberOverflow else .number whole.toInt32

/-- The kind of a numeral with a point. -/
def fixedKind? (digits fraction : List Char) : Option TokenKind := do
  let whole ← whole? digits
  let (numerator, denominator) ← fraction? fraction
  if 0x7FFFFF < whole then
    return .unknown .numberOverflow
  else
    let part ← div? (← mul? numerator 256) denominator
    return .number ((whole <<< 8) ||| part).toInt32

variable {digits fraction : List Char}

/-! ## Words of natural numbers -/

section Naturals

variable {m n : Nat}

private theorem word?_natCast (fits : n < 2 ^ 63) : word? n = some (Int64.ofNat n) := by
  have same : Int64.ofInt n = Int64.ofNat n := rfl
  rw [word?, same, if_pos (Int64.toInt_ofNat_of_lt fits)]

private theorem add?_ofNat (fits : m + n < 2 ^ 63) :
    add? (Int64.ofNat m) (Int64.ofNat n) = some (Int64.ofNat (m + n)) := by
  rw [add?, Int64.toInt_ofNat_of_lt (by omega), Int64.toInt_ofNat_of_lt (by omega),
    ← word?_natCast fits, Int.natCast_add]

private theorem mul?_ofNat (fitsLeft : m < 2 ^ 63) (fitsRight : n < 2 ^ 63)
    (fits : m * n < 2 ^ 63) :
    mul? (Int64.ofNat m) (Int64.ofNat n) = some (Int64.ofNat (m * n)) := by
  rw [mul?, Int64.toInt_ofNat_of_lt fitsLeft, Int64.toInt_ofNat_of_lt fitsRight,
    ← word?_natCast fits, Int.natCast_mul]

private theorem mul?_ten (fits : m * 10 < 2 ^ 63) :
    mul? (Int64.ofNat m) 10 = some (Int64.ofNat (m * 10)) :=
  mul?_ofNat (n := 10) (by omega) (by decide) fits

private theorem div?_ofNat (fitsLeft : m < 2 ^ 63) (fitsRight : n < 2 ^ 63) (positive : 0 < n) :
    div? (Int64.ofNat m) (Int64.ofNat n) = some (Int64.ofNat (m / n)) := by
  have nonzero : Int64.ofNat n ≠ 0 := by
    intro zero
    have value := Int64.toInt_ofNat_of_lt fitsRight
    rw [zero] at value
    have : (0 : Int64).toInt = 0 := rfl
    omega
  have fits : m / n < 2 ^ 63 := Nat.lt_of_le_of_lt (Nat.div_le_self m n) fitsLeft
  rw [div?, if_neg nonzero, Int64.toInt_ofNat_of_lt fitsLeft, Int64.toInt_ofNat_of_lt fitsRight,
    ← word?_natCast fits]
  rfl

/-- Eight bits behind a number are added to its multiple. -/
theorem shiftLeft_or_ofNat (small : m < 2 ^ 32) (part : n < 256) :
    (Int64.ofNat m <<< 8) ||| Int64.ofNat n = Int64.ofNat (256 * m + n) := by
  have eight : (8 : Int64).toBitVec.smod 64 = 8#64 := by decide
  have bits : 8 % 2 ^ 64 = 8 := rfl
  have shifted : m <<< 8 = 256 * m := by rw [Nat.shiftLeft_eq, Nat.mul_comm]
  have joined : 256 * m ||| n = 256 * m + n := by
    rw [← shifted]
    exact (Nat.shiftLeft_add_eq_or_of_lt part m).symm
  rw [← Int64.toBitVec_inj, Int64.toBitVec_or, Int64.toBitVec_shiftLeft, eight,
    Int64.toBitVec_ofNat', Int64.toBitVec_ofNat', Int64.toBitVec_ofNat']
  apply BitVec.eq_of_toNat_eq
  rw [BitVec.toNat_or, BitVec.shiftLeft_eq', BitVec.toNat_shiftLeft, BitVec.toNat_ofNat,
    BitVec.toNat_ofNat, BitVec.toNat_ofNat, BitVec.toNat_ofNat, bits,
    Nat.mod_eq_of_lt (a := m) (by omega), Nat.mod_eq_of_lt (a := n) (by omega), shifted,
    Nat.mod_eq_of_lt (by omega), joined, Nat.mod_eq_of_lt (by omega)]

end Naturals

/-! ## Whole parts -/

private theorem addWhole?_ofNat {n : Nat} {c : Char} (cut : n ≤ 0x80000000) (isDigit : c.isDigit) :
    addWhole? (Int64.ofNat n) c =
      some (Int64.ofNat (min (10 * n + (c.toNat - '0'.toNat)) 0x80000000)) := by
  have less := digit_lt isDigit
  have product : mul? (Int64.ofNat n) 10 = some (Int64.ofNat (n * 10)) := mul?_ten (by omega)
  have sum : add? (Int64.ofNat (n * 10)) (digit c) =
      some (Int64.ofNat (n * 10 + (c.toNat - '0'.toNat))) :=
    add?_ofNat (by omega)
  have large : 0x7FFFFFFF < Int64.ofNat (n * 10 + (c.toNat - '0'.toNat)) ↔
      0x7FFFFFFF < n * 10 + (c.toNat - '0'.toNat) :=
    Int64.ofNat_lt_iff_lt (by decide) (by omega)
  simp only [addWhole?, product, sum, large, Option.bind_eq_bind, Option.bind_some,
    Option.pure_def]
  split
  case isTrue cutOff =>
    rw [Nat.min_eq_right (by omega)]
    rfl
  case isFalse exact =>
    rw [Nat.min_eq_left (by omega), Nat.mul_comm]

/-- Digits of a whole part are added as long as there are any. -/
theorem foldlM_addWhole? {n : Nat} (inside : ∀ c ∈ digits, c.isDigit) (cut : n ≤ 0x80000000) :
    digits.foldlM addWhole? (Int64.ofNat n) =
      some (Int64.ofNat
        (digits.foldl (fun n d => min (10 * n + (d.toNat - '0'.toNat)) 0x80000000) n)) := by
  induction digits generalizing n with
  | nil => rfl
  | cons c digits ih =>
      rw [List.foldlM_cons, addWhole?_ofNat cut (inside c List.mem_cons_self), List.foldl_cons]
      exact ih (fun d member => inside d (List.mem_cons_of_mem c member)) (Nat.min_le_right _ _)

private theorem whole?_eq (inside : ∀ c ∈ digits, c.isDigit) :
    whole? digits = some (Int64.ofNat (digitsValue digits)) :=
  foldlM_addWhole? (n := 0) inside (by decide)

private theorem digitsValue_le (digits : List Char) : digitsValue digits ≤ 0x80000000 := by
  rw [digitsValue_eq]
  exact Nat.min_le_right _ _

/-- **A numeral without a point is read in machine words.** -/
theorem wholeKind?_eq (inside : ∀ c ∈ digits, c.isDigit) :
    wholeKind? digits = some (wholeKind digits) := by
  have cut := digitsValue_le digits
  have large : 0x7FFFFFFF < Int64.ofNat (digitsValue digits) ↔
      0x7FFFFFFF < digitsValue digits :=
    Int64.ofNat_lt_iff_lt (by decide) (by omega)
  simp only [wholeKind?, whole?_eq inside, large, Int64.toInt32_ofNat', Option.bind_eq_bind,
    Option.bind_some, Option.pure_def, wholeKind]
  split
  case isTrue overflows => rw [if_neg (by omega)]
  case isFalse fits => rw [if_pos (by omega)]

/-! ## Fractions -/

section Fractions

variable {n places : Nat} {c : Char}

private theorem addPlace?_ofNat (fewer : places < 9) (less : n < 10 ^ places)
    (isDigit : c.isDigit) :
    addPlace? (Int64.ofNat n, Int64.ofNat (10 ^ places)) c =
      some (Int64.ofNat (10 * n + (c.toNat - '0'.toNat)), Int64.ofNat (10 ^ (places + 1))) := by
  have digitLess := digit_lt isDigit
  have bound : 10 ^ places ≤ 10 ^ 8 := Nat.pow_le_pow_right (by decide) (by omega)
  have product : mul? (Int64.ofNat n) 10 = some (Int64.ofNat (n * 10)) := mul?_ten (by omega)
  have sum : add? (Int64.ofNat (n * 10)) (digit c) =
      some (Int64.ofNat (n * 10 + (c.toNat - '0'.toNat))) :=
    add?_ofNat (by omega)
  have place : mul? (Int64.ofNat (10 ^ places)) 10 = some (Int64.ofNat (10 ^ places * 10)) :=
    mul?_ten (by omega)
  have small : Int64.ofNat (10 ^ places) < 1000000000 :=
    (Int64.ofNat_lt_iff_lt (b := 1000000000) (by omega) (by decide)).mpr (by omega)
  simp only [addPlace?, if_pos small, product, sum, place, Option.bind_eq_bind, Option.bind_some,
    Option.pure_def]
  rw [Nat.mul_comm n, Nat.pow_succ]

private theorem addPlace?_full (numerator : Int64) (c : Char) :
    addPlace? (numerator, Int64.ofNat (10 ^ 9)) c = some (numerator, Int64.ofNat (10 ^ 9)) := by
  have full : ¬Int64.ofNat (10 ^ 9) < 1000000000 := by decide
  simp only [addPlace?, if_neg full, Option.pure_def]

/-- Digits of a fraction are added up to the ninth place. -/
theorem foldlM_addPlace? (inside : ∀ c ∈ fraction, c.isDigit) (most : places ≤ 9)
    (less : n < 10 ^ places) :
    fraction.foldlM addPlace? (Int64.ofNat n, Int64.ofNat (10 ^ places)) =
      some (Int64.ofNat (Nat.ofDigitChars 10 (fraction.take (9 - places)) n),
        Int64.ofNat (10 ^ (places + (fraction.take (9 - places)).length))) := by
  induction fraction generalizing n places with
  | nil => simp
  | cons c fraction ih =>
      have others : ∀ d ∈ fraction, d.isDigit := fun d member =>
        inside d (List.mem_cons_of_mem c member)
      rcases Nat.lt_or_eq_of_le most with fewer | rfl
      · have first := inside c List.mem_cons_self
        have lessNext : 10 * n + (c.toNat - '0'.toNat) < 10 ^ (places + 1) := by
          have digitLess := digit_lt first
          rw [Nat.pow_succ]
          omega
        have mostNext : places + 1 ≤ 9 := fewer
        have left : 9 - places = 9 - (places + 1) + 1 := by omega
        rw [List.foldlM_cons, addPlace?_ofNat fewer less first, Option.bind_eq_bind,
          Option.bind_some, ih others mostNext lessNext, left, List.take_succ_cons,
          Nat.ofDigitChars_cons, List.length_cons, Nat.add_right_comm, Nat.add_assoc]
      · rw [List.foldlM_cons, addPlace?_full, Option.bind_eq_bind, Option.bind_some,
          ih others most less, Nat.sub_self, List.take_zero, List.take_zero]

private theorem fraction?_eq (inside : ∀ c ∈ fraction, c.isDigit) :
    fraction? fraction =
      some (Int64.ofNat (decimal (fraction.take 9)),
        Int64.ofNat (10 ^ (fraction.take 9).length)) := by
  have all : fraction.foldlM addPlace? (Int64.ofNat 0, Int64.ofNat (10 ^ 0)) = _ :=
    foldlM_addPlace? inside (by decide) (by decide)
  rw [Nat.zero_add] at all
  exact all

end Fractions

/-- **A numeral with a point is read in machine words.** -/
theorem fixedKind?_eq (inside : ∀ c ∈ digits, c.isDigit)
    (insideFraction : ∀ c ∈ fraction, c.isDigit) :
    fixedKind? digits fraction = some (fixedKind digits fraction) := by
  have cut := digitsValue_le digits
  have large : 0x7FFFFF < Int64.ofNat (digitsValue digits) ↔ 0x7FFFFF < digitsValue digits :=
    Int64.ofNat_lt_iff_lt (by decide) (by omega)
  have places : 10 ^ (fraction.take 9).length ≤ 10 ^ 9 :=
    Nat.pow_le_pow_right (by decide) (List.length_take_le 9 fraction)
  have less := decimal_take_lt insideFraction
  have product : mul? (Int64.ofNat (decimal (fraction.take 9))) 256 =
      some (Int64.ofNat (decimal (fraction.take 9) * 256)) :=
    mul?_ofNat (n := 256) (by omega) (by decide) (by omega)
  have quotient : div? (Int64.ofNat (decimal (fraction.take 9) * 256))
      (Int64.ofNat (10 ^ (fraction.take 9).length)) =
        some (Int64.ofNat (fractionValue fraction)) := by
    rw [div?_ofNat (by omega) (by omega) (by omega), fractionValue_eq_take insideFraction]
  simp only [fixedKind?, whole?_eq inside, fraction?_eq insideFraction, large, product, quotient,
    Option.bind_eq_bind, Option.bind_some, Option.pure_def, fixedKind]
  split
  case isTrue overflows => rw [if_neg (by omega)]
  case isFalse fits =>
    rw [if_pos (by omega), shiftLeft_or_ofNat (by omega) (fractionValue_lt insideFraction),
      Int64.toInt32_ofNat']

end Words

/-! ## Texts of digits -/

section Digits

variable {symbols : SymbolTable} {first c : Char} {rest : List Char}

private theorem read_of_isDigit (digit : c.isDigit) (rest : List Char) :
    read symbols c rest = readNumber c rest := by
  have noSign {d : Char} (other : d.isDigit = false) : c ≠ d := ne_of_class digit other
  rw [read, if_neg (noSign rfl), if_neg (noSign rfl), if_neg (noSign rfl), if_pos digit]

/-- A text that one numeral takes up has one token. -/
theorem tokens_numeral {kind : TokenKind} (digit : first.isDigit) (oneLine : '\n' ∉ rest)
    (reads : readNumber first rest = ⟨kind, rest.length⟩) :
    tokens symbols (String.ofList (first :: rest)) =
      [⟨kind, ⟨1, 1⟩, 0, String.ofList (first :: rest)⟩] := by
  have visible : isBlank first = false :=
    Bool.eq_false_iff.mpr fun blank => by
      rw [isDigit_of_stops (.inl blank)] at digit
      cases digit
  have begins : Begins first rest := ⟨visible, fun comment => ne_of_class digit rfl comment.1⟩
  have read : read symbols first rest = ⟨kind, rest.length⟩ := by
    rw [read_of_isDigit digit, reads]
  have takes : Takes (Lexer.read symbols first) rest [] := by
    obtain ⟨taken, behind, rfl, takes⟩ := exists_takes_read symbols visible rest
    have extra : (taken ++ behind).length = taken.length := by rw [← takes.extra, read]
    rw [List.length_append] at extra
    obtain rfl : behind = [] := List.length_eq_zero_iff.mp (by omega)
    simpa using takes
  have inside : '\n' ∉ first :: rest := by
    rw [List.mem_cons, not_or]
    exact ⟨(ne_of_class digit rfl).symm, oneLine⟩
  rw [tokens_lexeme begins takes inside, read]

private theorem newline_notMem_digits {digits : List Char} (inside : ∀ c ∈ digits, c.isDigit) :
    '\n' ∉ digits :=
  fun newline => absurd (inside '\n' newline) (by decide)

variable {digits fraction : List Char}

private theorem tokens_whole (inside : ∀ c ∈ first :: digits, c.isDigit) :
    tokens symbols (String.ofList (first :: digits)) =
      [⟨wholeKind (first :: digits), ⟨1, 1⟩, 0, String.ofList (first :: digits)⟩] := by
  obtain ⟨digit, inside⟩ := List.forall_mem_cons.mp inside
  have reads : readNumber first (digits ++ []) = _ := readNumber_whole inside rfl rfl
  rw [List.append_nil] at reads
  exact tokens_numeral digit (newline_notMem_digits inside) reads

private theorem tokens_fixed (inside : ∀ c ∈ first :: digits, c.isDigit)
    (insideFraction : ∀ c ∈ fraction, c.isDigit) (nonempty : fraction ≠ []) :
    tokens symbols (String.ofList (first :: (digits ++ '.' :: fraction))) =
      [⟨fixedKind (first :: digits) fraction, ⟨1, 1⟩, 0,
        String.ofList (first :: (digits ++ '.' :: fraction))⟩] := by
  obtain ⟨digit, inside⟩ := List.forall_mem_cons.mp inside
  have reads : readNumber first (digits ++ '.' :: (fraction ++ [])) = _ :=
    readNumber_fixed inside insideFraction nonempty rfl
  have length : digits.length + 1 + fraction.length = (digits ++ '.' :: fraction).length := by
    rw [List.length_append, List.length_cons]
    omega
  have oneLine : '\n' ∉ digits ++ '.' :: fraction := by
    simp [newline_notMem_digits inside, newline_notMem_digits insideFraction]
  rw [List.append_nil, length] at reads
  exact tokens_numeral digit oneLine reads

end Digits

/-- **Numerals are exact.** Digits are one numeral with the number that they denote, and digits with
a point between them one with its whole 256ths, unless the number has no signed 32-bit form. In
signed 64-bit words the kind of the numeral is computed without an overflow. -/
theorem tokens_digits (symbols : SymbolTable) {whole fraction : String} (wholeNonempty : whole ≠ "")
    (wholeInside : ∀ c ∈ whole.toList, c.isDigit) (fractionNonempty : fraction ≠ "")
    (fractionInside : ∀ c ∈ fraction.toList, c.isDigit) :
    (∃ kind, tokens symbols whole = [⟨kind, ⟨1, 1⟩, 0, whole⟩] ∧
        kind.Carries (decimal whole.toList) ∧ Words.wholeKind? whole.toList = some kind) ∧
      ∃ kind, tokens symbols (whole ++ "." ++ fraction) =
          [⟨kind, ⟨1, 1⟩, 0, whole ++ "." ++ fraction⟩] ∧
        kind.Carries ⌊256 * pointed whole.toList fraction.toList⌋₊ ∧
          Words.fixedKind? whole.toList fraction.toList = some kind := by
  obtain ⟨first, digits, spelled⟩ := List.exists_cons_of_ne_nil
    (fun empty => wholeNonempty (String.toList_eq_nil_iff.mp empty) : whole.toList ≠ [])
  have nonempty : fraction.toList ≠ [] := fun empty =>
    fractionNonempty (String.toList_eq_nil_iff.mp empty)
  have inside : ∀ c ∈ first :: digits, c.isDigit := spelled ▸ wholeInside
  constructor
  · refine ⟨wholeKind whole.toList, ?_, wholeKind_carries _, Words.wholeKind?_eq wholeInside⟩
    have text : whole = String.ofList (first :: digits) := by rw [← spelled, String.ofList_toList]
    rw [spelled, text]
    exact tokens_whole inside
  · refine ⟨fixedKind whole.toList fraction.toList, ?_, fixedKind_carries _ fractionInside,
      Words.fixedKind?_eq wholeInside fractionInside⟩
    have text : whole ++ "." ++ fraction =
        String.ofList (first :: (digits ++ '.' :: fraction.toList)) := by
      rw [← String.toList_inj, String.toList_ofList]
      simp [spelled]
    rw [spelled, text]
    exact tokens_fixed inside fractionInside nonempty

/-- Twelve digits just below 255 256ths make only 254 of them, behind the largest whole part that a
numeral with a point may have. -/
theorem tokens_digits_limit :
    ("8388607" ≠ "" ∧ (∀ c ∈ "8388607".toList, c.isDigit) ∧ "996093749999" ≠ "" ∧
        ∀ c ∈ "996093749999".toList, c.isDigit) ∧
      ∃ value : Int32, tokens .standard ("8388607" ++ "." ++ "996093749999") =
          [⟨.number value, ⟨1, 1⟩, 0, "8388607" ++ "." ++ "996093749999"⟩] ∧
        value.toInt = 2147483646 := by
  have given : "8388607" ≠ "" ∧ (∀ c ∈ "8388607".toList, c.isDigit) ∧ "996093749999" ≠ "" ∧
      ∀ c ∈ "996093749999".toList, c.isDigit := by simp
  obtain ⟨wholeNonempty, wholeInside, fractionNonempty, fractionInside⟩ := given
  obtain ⟨kind, read, carries, _⟩ := (tokens_digits .standard wholeNonempty wholeInside
    fractionNonempty fractionInside).2
  have number : ⌊256 * pointed "8388607".toList "996093749999".toList⌋₊ = 2147483646 := by
    rw [floor_pointed fractionInside]
    decide
  rw [number, TokenKind.Carries, if_pos (by decide)] at carries
  obtain ⟨value, rfl, exact⟩ := carries
  exact ⟨⟨wholeNonempty, wholeInside, fractionNonempty, fractionInside⟩, value, read, exact⟩

end NpcScript.Lexer
