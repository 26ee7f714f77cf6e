import Mathlib.Tactic.Ring
import NpcScript.Script.Bytes

/-! # Writers and their readers

A writer and a reader make a codec if the reader takes what was written from the
front of any bytes, and never takes fewer bytes than it takes to write what it
read. Numbers, texts and lists of words have codecs; a reader may accept longer
spellings than the writer uses, but no shorter ones.
-/

namespace NpcScript.Bytes

variable {α β : Type}

/-- What is written is read back, whatever stands behind it, and nothing that is read is shorter
than what is written. -/
structure Codec (fits : α → Prop) (put : α → List UInt8) (get : Reader α) : Prop where
  get_put : ∀ a, fits a → ∀ rest, get (put a ++ rest) = .ok (a, rest)
  put_le : ∀ bytes a rest, get bytes = .ok (a, rest) →
    fits a ∧ (put a).length + rest.length ≤ bytes.length

/-! ## Bytes -/

/-- A byte is written as it is. -/
theorem codec_byte : Codec (fun _ => True) (fun byte => [byte]) getByte where
  get_put := fun _ _ _ => rfl
  put_le := by
    rintro (_ | ⟨byte, bytes⟩) a rest read
    · cases read
    · cases read
      exact ⟨trivial, by simp [Nat.add_comm]⟩

/-- Bytes of a known number are written as they are. -/
theorem codec_bytes (count : Nat) :
    Codec (fun bytes => bytes.length = count) (fun bytes => bytes) (getBytes count) where
  get_put := by
    rintro bytes rfl rest
    simp [getBytes]
  put_le := by
    intro bytes a rest read
    unfold getBytes at read
    split at read
    · cases read
    · cases read
      simp only [List.length_take, List.length_drop]
      omega

/-! ## Numbers -/

private theorem putNumber_of_lt {n : Nat} (small : n < 128) : putNumber n = [n.toUInt8] := by
  rw [putNumber, if_pos small]

private theorem putNumber_of_le {n : Nat} (large : 128 ≤ n) :
    putNumber n = (n % 128 + 128).toUInt8 :: putNumber (n / 128) := by
  rw [putNumber, if_neg (Nat.not_lt.mpr large)]

/-- A digit in front makes a number at most one byte longer. -/
theorem length_putNumber_digit {digit : Nat} (small : digit < 128) (n : Nat) :
    (putNumber (digit + 128 * n)).length ≤ (putNumber n).length + 1 := by
  rcases Nat.eq_zero_or_pos n with rfl | positive
  · rw [putNumber_of_lt (by omega)]
    simp
  · rw [putNumber_of_le (by omega), List.length_cons]
    have back : (digit + 128 * n) / 128 = n := by omega
    rw [back]

/-- The digits of a number, at the place where they stand. -/
theorem digits_value (n place : Nat) :
    n % 128 * Nat.pow 2 place + n / 128 * Nat.pow 2 (place + 7) = n * Nat.pow 2 place := by
  have digits := Nat.mod_add_div n 128
  have shift : Nat.pow 2 (place + 7) = 128 * Nat.pow 2 place := by
    simp only [Nat.pow_eq, Nat.pow_add]
    ring
  calc n % 128 * Nat.pow 2 place + n / 128 * Nat.pow 2 (place + 7)
      = (n % 128 + 128 * (n / 128)) * Nat.pow 2 place := by rw [shift]; ring
    _ = n * Nat.pow 2 place := by rw [digits]

private theorem getDigits_last {bits left place sum n : Nat} (rest : List UInt8) (small : n < 128)
    (fits : sum + n * Nat.pow 2 place < Nat.pow 2 bits) :
    getDigits bits (left + 1) place sum (putNumber n ++ rest) =
      .ok (sum + n * Nat.pow 2 place, rest) := by
  have same : n.toUInt8.toNat = n := UInt8.toNat_ofNat_of_lt' (Nat.lt_trans small (by decide))
  rw [putNumber_of_lt small, List.singleton_append, getDigits, same, Nat.mod_eq_of_lt small,
    if_neg (Nat.not_le.mpr small), if_pos fits]

/-- The digits that were written are read back if there is room for them. -/
theorem getDigits_putNumber {bits left place sum n : Nat} (rest : List UInt8)
    (fits : sum + n * Nat.pow 2 place < Nat.pow 2 bits) (short : n < Nat.pow 128 (left + 1)) :
    getDigits bits (left + 1) place sum (putNumber n ++ rest) =
      .ok (sum + n * Nat.pow 2 place, rest) := by
  induction left generalizing n place sum with
  | zero => exact getDigits_last rest short fits
  | succ left ih =>
      rcases Nat.lt_or_ge n 128 with small | large
      · exact getDigits_last rest small fits
      · -- the digit that is written says that another one follows
        have digit : n % 128 + 128 < UInt8.size :=
          Nat.add_lt_add_right (Nat.mod_lt n (by decide)) 128
        have same : (n % 128 + 128).toUInt8.toNat = n % 128 + 128 := UInt8.toNat_ofNat_of_lt' digit
        have shorter : n / 128 < Nat.pow 128 (left + 1) := by
          rw [Nat.div_lt_iff_lt_mul (by decide)]
          exact short
        have total : sum + n % 128 * Nat.pow 2 place + n / 128 * Nat.pow 2 (place + 7) =
            sum + n * Nat.pow 2 place := by
          rw [Nat.add_assoc, digits_value]
        rw [putNumber_of_le large, List.cons_append, getDigits, same,
          if_pos (Nat.le_add_left _ _), Nat.add_mod_right, Nat.mod_mod,
          ih (by rw [total]; exact fits) shorter, total]

/-- Digits that were read are no fewer than those of the number that they make. -/
theorem putNumber_le_of_getDigits {bits left place sum n : Nat} {bytes rest : List UInt8}
    (read : getDigits bits left place sum bytes = .ok (n, rest)) :
    n < Nat.pow 2 bits ∧ ∃ m, n = sum + m * Nat.pow 2 place ∧
      (putNumber m).length + rest.length ≤ bytes.length := by
  fun_induction getDigits bits left place sum bytes with
  | case1 => cases read
  | case2 => cases read
  | case3 left place before byte bytes sum continued ih =>
      obtain ⟨fits, m, value, length⟩ := ih read
      -- the digit may be a zero with nothing but zeros behind it, which is not written
      have digit := Nat.mod_lt byte.toNat (y := 128) (by decide)
      refine ⟨fits, byte.toNat % 128 + 128 * m, ?_, ?_⟩
      · have digits := digits_value (byte.toNat % 128 + 128 * m) place
        have low : (byte.toNat % 128 + 128 * m) % 128 = byte.toNat % 128 := by omega
        have high : (byte.toNat % 128 + 128 * m) / 128 = m := by omega
        rw [low, high] at digits
        rw [value, ← digits, Nat.add_assoc]
      · have longer := length_putNumber_digit digit m
        rw [List.length_cons]
        omega
  | case4 left place before byte bytes sum last fits =>
      obtain ⟨value, rfl⟩ := Prod.mk.inj (Except.ok.inj read)
      refine ⟨by rw [← value]; exact fits, byte.toNat % 128, value.symm, ?_⟩
      rw [putNumber_of_lt (Nat.mod_lt _ (by decide)), List.length_singleton, List.length_cons,
        Nat.add_comm]
  | case5 => cases read

/-- Numbers of a given size have a codec. -/
theorem codec_number (bits : Nat) (positive : 0 < bits) :
    Codec (· < Nat.pow 2 bits) putNumber (getNumber bits) where
  get_put := by
    intro n fits rest
    obtain ⟨left, room⟩ : ∃ left, (bits + 6) / 7 = left + 1 :=
      Nat.exists_eq_add_one_of_ne_zero (by omega)
    have short : n < Nat.pow 128 (left + 1) := by
      refine Nat.lt_of_lt_of_le fits ?_
      have power : Nat.pow 128 (left + 1) = Nat.pow 2 (7 * (left + 1)) := by
        simp only [Nat.pow_eq, Nat.pow_mul]
      rw [power]
      exact Nat.pow_le_pow_right (by decide) (by omega)
    have single : 0 + n * Nat.pow 2 0 = n := by simp
    have digits : getDigits bits (left + 1) 0 0 (putNumber n ++ rest) =
        .ok (0 + n * Nat.pow 2 0, rest) :=
      getDigits_putNumber rest (by rw [single]; exact fits) short
    rw [single] at digits
    rw [getNumber, room, digits]
  put_le := by
    intro bytes n rest read
    obtain ⟨fits, m, value, length⟩ := putNumber_le_of_getDigits read
    obtain rfl : n = m := by simpa using value
    exact ⟨fits, length⟩

/-! ## Texts and lists of words -/

/-- Texts whose length is a machine word have a codec. -/
theorem codec_text :
    Codec (fun s : String => s.toUTF8.size < Nat.pow 2 lengthBits) putText getText where
  get_put := by
    intro s fits rest
    have length := (codec_number lengthBits (by decide)).get_put s.toUTF8.size fits
    have content := (codec_bytes s.toUTF8.size).get_put s.toUTF8.data.toList rfl rest
    have text : String.fromUTF8? s.toUTF8 = some s := by
      unfold String.fromUTF8?
      rw [String.toUTF8_eq_toByteArray, dif_pos s.isValidUTF8]
      rfl
    have spelled : putText s = putNumber s.toUTF8.size ++ s.toUTF8.data.toList := rfl
    rw [getText, spelled, List.append_assoc, length]
    simp only [content, Array.toArray_toList, text]
  put_le := by
    intro bytes s rest read
    unfold getText at read
    split at read
    · cases read
    · rename_i count behind readLength
      obtain ⟨fits, shorter⟩ := (codec_number lengthBits (by decide)).put_le _ _ _ readLength
      split at read
      · cases read
      · rename_i content after readContent
        obtain ⟨length, shorter'⟩ := (codec_bytes count).put_le _ _ _ readContent
        split at read
        · rename_i text valid
          cases read
          have same : s.toUTF8.data.toList = content := by
            unfold String.fromUTF8? at valid
            split at valid
            · cases valid
              rfl
            · cases valid
          have size : s.toUTF8.size = count := by
            rw [← length, ← same]
            rfl
          refine ⟨by rw [size]; exact fits, ?_⟩
          unfold putText
          dsimp only
          rw [same, List.length_append, length]
          omega
        · cases read

/-- Words that were written are read back behind those that are there. -/
theorem getWordsOnto_put (words : List UInt32) (onto : Array UInt32) (rest : List UInt8) :
    getWordsOnto words.length onto ((words.flatMap fun word => putNumber word.toNat) ++ rest) =
      .ok (onto ++ words.toArray, rest) := by
  induction words generalizing onto with
  | nil => simp [getWordsOnto]
  | cons word words ih =>
      have first := (codec_number 32 (by decide)).get_put word.toNat word.toNat_lt
      rw [List.length_cons, getWordsOnto, List.flatMap_cons, List.append_assoc, first]
      simp only [Nat.toUInt32, UInt32.ofNat_toNat]
      rw [ih]
      simp

private theorem put_le_of_getWordsOnto {count : Nat} {onto words : Array UInt32}
    {bytes rest : List UInt8} (read : getWordsOnto count onto bytes = .ok (words, rest)) :
    ∃ new : List UInt32, words = onto ++ new.toArray ∧ new.length = count ∧
      (new.flatMap fun word => putNumber word.toNat).length + rest.length ≤ bytes.length := by
  induction count generalizing onto bytes with
  | zero =>
      cases read
      exact ⟨[], by simp, rfl, by simp⟩
  | succ count ih =>
      unfold getWordsOnto at read
      split at read
      · cases read
      · rename_i word behind readWord
        obtain ⟨fits, shorter⟩ := (codec_number 32 (by decide)).put_le _ _ _ readWord
        obtain ⟨new, rfl, length, shorter'⟩ := ih read
        have same : word.toUInt32.toNat = word := UInt32.toNat_ofNat_of_lt' fits
        refine ⟨word.toUInt32 :: new, by simp, by rw [List.length_cons, length], ?_⟩
        rw [List.flatMap_cons, List.length_append, same]
        omega

/-- Lists of words whose length is a machine word have a codec. -/
theorem codec_words :
    Codec (fun words : Array UInt32 => words.size < Nat.pow 2 lengthBits) putWords getWords where
  get_put := by
    intro words fits rest
    have length := (codec_number lengthBits (by decide)).get_put words.size fits
    have content := getWordsOnto_put words.toList #[] rest
    rw [getWords, putWords, List.append_assoc, length]
    simpa using content
  put_le := by
    intro bytes words rest read
    unfold getWords at read
    split at read
    · cases read
    · rename_i count behind readLength
      obtain ⟨fits, shorter⟩ := (codec_number lengthBits (by decide)).put_le _ _ _ readLength
      obtain ⟨new, rfl, length, shorter'⟩ := put_le_of_getWordsOnto read
      have size : (#[] ++ new.toArray).size = count := by simpa using length
      refine ⟨by rw [size]; exact fits, ?_⟩
      rw [putWords, size, List.length_append]
      simp only [Array.empty_append]
      omega

end NpcScript.Bytes
