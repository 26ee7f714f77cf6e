import Mathlib.Data.List.TakeWhile
import NpcScript.Token.Lexer

/-! # Lines with one name on them

Behind the blanks that indent it, a name makes one token, which carries the
meaning of the name (`NpcScript.Lexer.lineTokens_name`).
-/

namespace NpcScript.Lexer

variable {symbols : SymbolTable} {blanks name : List Char} {c : Char} {line indent column : Nat}

/-- What indents a line is a blank. -/
theorem isBlank_of_isIndent (indents : isIndent c) : isBlank c := by
  simp only [isIndent, isBlank, Bool.or_eq_true] at indents ⊢
  exact indents.imp_left .inl

private theorem isDigit_eq_false_of_isAlpha (alpha : c.isAlpha) : c.isDigit = false := by
  rw [Bool.eq_false_iff]
  intro digit
  have small : c.val ≤ '9'.val := of_decide_eq_true (Bool.and_eq_true_iff.mp digit).2
  have large : 'A'.val ≤ c.val := by
    rcases Bool.or_eq_true_iff.mp alpha with upper | lower
    · exact (of_decide_eq_true upper).1
    · have fromSmallA : 'a'.val ≤ c.val := of_decide_eq_true (Bool.and_eq_true_iff.mp lower).1
      exact UInt32.le_trans (by decide) fromSmallA
  exact absurd (UInt32.le_trans large small) (by decide)

/-- Characters that a class tells apart are not the same. -/
theorem ne_of_class {p : Char → Bool} {d : Char} (inside : p c) (outside : p d = false) :
    c ≠ d := by
  rintro rfl
  rw [inside] at outside
  cases outside

private theorem read_of_isAlpha (alpha : c.isAlpha) (rest : List Char) :
    read symbols c rest = readWord symbols c rest := by
  have noSign {d : Char} (other : d.isAlpha = false) : c ≠ d := ne_of_class alpha other
  rw [read, if_neg (noSign rfl), if_neg (noSign rfl), if_neg (noSign rfl),
    isDigit_eq_false_of_isAlpha alpha, if_neg (by simp), if_pos (by simp [alpha])]

/-- Blanks only move the column. -/
theorem scan_blanks (blank : ∀ c ∈ blanks, isBlank c) (text : List Char) (done : List Token) :
    scan symbols line indent column (blanks ++ text) done =
      scan symbols line indent (column + blanks.length) text done := by
  induction blanks generalizing column with
  | nil => rfl
  | cons c blanks ih =>
      rw [List.cons_append, scan, if_pos (blank c (by simp)),
        ih fun d member => blank d (by simp [member]), List.length_cons, Nat.add_right_comm,
        Nat.add_assoc]

private theorem scan_name (alpha : c.isAlpha) (wordChars : ∀ d ∈ name, isWordChar d) :
    scan symbols line indent column (c :: name) [] =
      [⟨wordKind symbols (String.ofList (c :: name)), ⟨line, column⟩, indent,
        String.ofList (c :: name)⟩] := by
  have visible : isBlank c = false := by simp [isBlank, ne_of_class alpha]
  have noComment : (c = '/' && name.head? = some '/') = false := by simp [ne_of_class alpha]
  have whole : name.takeWhile isWordChar = name := List.takeWhile_eq_self_iff.mpr wordChars
  rw [scan, visible, if_neg (by simp), noComment, if_neg (by simp), read_of_isAlpha alpha]
  simp [readWord, whole, scan]

/-- **A line with one name on it** has one token. -/
theorem lineTokens_name (indents : ∀ c ∈ blanks, isIndent c) (alpha : c.isAlpha)
    (wordChars : ∀ d ∈ name, isWordChar d) :
    lineTokens symbols line (blanks ++ c :: name) =
      [⟨wordKind symbols (String.ofList (c :: name)), ⟨line, blanks.length + 1⟩,
        indentOf (blanks ++ c :: name), String.ofList (c :: name)⟩] := by
  have blank : ∀ c ∈ blanks, isBlank c := fun c member => isBlank_of_isIndent (indents c member)
  rw [lineTokens, scan_blanks blank, scan_name alpha wordChars, Nat.add_comm 1]

end NpcScript.Lexer
