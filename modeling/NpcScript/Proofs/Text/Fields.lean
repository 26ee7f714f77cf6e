import Mathlib
import NpcScript.Text

/-! # Fields and lines of a text

A field is free of blanks and newlines, so it ends where the first of them
stands, and a line ends at the first newline. A text that is set in fields and
lines can thus be taken apart in one way only: if two such texts are the same,
then so are what they begin with and what comes behind that. Every lemma here
says so for one kind of part (`NpcScript.Text.append_inj`).
-/

namespace NpcScript.Text

variable {c : Char} {s t a b r r' : String} {n width : Nat}

/-- A text without blanks and newlines. -/
def Solid (s : String) : Prop := ∀ c ∈ s.toList, c ≠ ' ' ∧ c ≠ '\n'

instance : DecidablePred Solid := fun s =>
  decidable_of_iff (s.toList.all fun c => c != ' ' && c != '\n') (by simp [Solid])

/-- A text without newlines. -/
def OneLine (s : String) : Prop := '\n' ∉ s.toList

instance : DecidablePred OneLine := fun s => inferInstanceAs (Decidable ('\n' ∉ s.toList))

/-- The text begins with the character, unless it is empty. -/
def Opens (c : Char) (s : String) : Prop := ∀ d ∈ s.toList.head?, d = c

/-- A solid text has no blank. -/
theorem Solid.notMem_blank (solid : Solid s) : ' ' ∉ s.toList :=
  fun member => (solid _ member).1 rfl

/-- A solid text is on one line. -/
theorem Solid.oneLine (solid : Solid s) : OneLine s :=
  fun member => (solid _ member).2 rfl

@[simp] theorem oneLine_append : OneLine (s ++ t) ↔ OneLine s ∧ OneLine t := by
  simp [OneLine, not_or]

/-- Solid texts make a solid text. -/
theorem Solid.append (left : Solid s) (right : Solid t) : Solid (s ++ t) := by
  intro c member
  rw [String.toList_append, List.mem_append] at member
  exact member.elim (left c) (right c)

/-- The empty text may begin with anything. -/
theorem opens_empty : Opens c "" := by simp [Opens]

/-- What a text begins with does not depend on its end. -/
theorem opens_append (begins : s.toList.head? = some c) : Opens c (s ++ t) := by
  simp [Opens, begins]

/-- Lists that end at an element can be told apart from what comes behind. -/
theorem append_inj_list {a b r r' : List Char} (inA : c ∉ a) (inB : c ∉ b)
    (next : ∀ d ∈ r.head?, d = c) (next' : ∀ d ∈ r'.head?, d = c) (same : a ++ r = b ++ r') :
    a = b ∧ r = r' := by
  induction a generalizing b with
  | nil =>
      cases b with
      | nil => exact ⟨rfl, same⟩
      | cons d b =>
          rw [List.nil_append, List.cons_append] at same
          obtain rfl : d = c := next d (by simp [same])
          exact absurd List.mem_cons_self inB
  | cons d a ih =>
      cases b with
      | nil =>
          rw [List.nil_append, List.cons_append] at same
          obtain rfl : d = c := next' d (by simp [← same])
          exact absurd List.mem_cons_self inA
      | cons e b =>
          rw [List.cons_append, List.cons_append, List.cons.injEq] at same
          obtain ⟨first, rest⟩ := ih (fun member => inA (List.mem_cons_of_mem _ member))
            (fun member => inB (List.mem_cons_of_mem _ member)) same.2
          exact ⟨by rw [same.1, first], rest⟩

/-- **Parts that end at a character can be told apart from what comes behind.** -/
theorem append_inj (inA : c ∉ a.toList) (inB : c ∉ b.toList) (next : Opens c r)
    (next' : Opens c r') (same : a ++ r = b ++ r') : a = b ∧ r = r' := by
  rw [← String.toList_inj, String.toList_append, String.toList_append] at same
  obtain ⟨front, back⟩ := append_inj_list inA inB next next' same
  exact ⟨String.toList_inj.mp front, String.toList_inj.mp back⟩

/-- Fields end at a blank. -/
theorem Solid.append_inj (solidA : Solid a) (solidB : Solid b) (next : Opens ' ' r)
    (next' : Opens ' ' r') (same : a ++ r = b ++ r') : a = b ∧ r = r' :=
  Text.append_inj solidA.notMem_blank solidB.notMem_blank next next' same

/-- Lines end at a newline. -/
theorem OneLine.append_inj (lineA : OneLine a) (lineB : OneLine b)
    (same : a ++ ("\n" ++ r) = b ++ ("\n" ++ r')) : a = b ∧ r = r' := by
  obtain ⟨front, back⟩ :=
    Text.append_inj lineA lineB (opens_append rfl) (opens_append rfl) same
  exact ⟨front, (String.append_right_inj _).mp back⟩

/-- A field is not taken for a blank. -/
theorem Solid.append_ne (solid : Solid a) (some : a ≠ "") (opens : r'.toList.head? = .some ' ') :
    a ++ r ≠ r' := by
  rintro rfl
  cases chars : a.toList with
  | nil => exact some (String.toList_inj.mp chars)
  | cons c cs =>
      rw [String.toList_append, chars] at opens
      exact (solid c (by simp [chars])).1 (Option.some.inj opens)

/-! ## Numerals -/

private theorem ne_of_isDigit (digit : c.isDigit) : c ≠ ' ' ∧ c ≠ '\n' := by
  constructor <;> rintro rfl <;> cases digit

private theorem isDigit_of_mem_toString (member : c ∈ (toString n).toList) : c.isDigit :=
  Nat.isDigit_of_mem_toDigits (by decide) (by decide) (Nat.toList_repr ▸ member)

/-- The numeral of a signed number has digits and a minus sign. -/
theorem mem_toString_int32 {value : Int32} (member : c ∈ (toString value).toList) :
    c.isDigit ∨ c = '-' := by
  rw [show toString value = value.toInt.repr from rfl] at member
  cases sign : value.toInt with
  | ofNat n =>
      rw [sign] at member
      exact .inl (isDigit_of_mem_toString member)
  | negSucc n =>
      rw [sign, Int.repr, String.toList_append, List.mem_append] at member
      refine member.symm.imp isDigit_of_mem_toString fun minus => ?_
      simpa using minus

/-- The numeral of a number is solid. -/
theorem solid_toString (n : Nat) : Solid (toString n) :=
  fun _ member => ne_of_isDigit (isDigit_of_mem_toString member)

/-- The numeral of a signed number is solid. -/
theorem solid_toString_int32 (value : Int32) : Solid (toString value) := by
  intro c member
  rcases mem_toString_int32 member with digit | rfl
  · exact ne_of_isDigit digit
  · decide

/-- Numbers are told apart by their numerals. -/
theorem toString_append_inj {m n : Nat} (next : Opens ' ' r) (next' : Opens ' ' r')
    (same : toString m ++ r = toString n ++ r') : m = n ∧ r = r' := by
  obtain ⟨numeral, rest⟩ := (solid_toString m).append_inj (solid_toString n) next next' same
  exact ⟨Nat.repr_injective numeral, rest⟩

/-- Signed numbers are told apart by their numerals. -/
theorem toString_int32_injective : Function.Injective (toString : Int32 → String) :=
  fun _ _ same => Int32.toInt_inj.mp (Int.repr_injective same)

/-! ## Columns -/

private theorem toList_pushn (s : String) (c : Char) (n : Nat) :
    (s.pushn c n).toList = s.toList ++ List.replicate n c := by
  rw [String.pushn_eq_repeat_push]
  induction n with
  | zero => simp [Nat.repeat]
  | succ n ih => rw [Nat.repeat, String.toList_push, ih, List.append_assoc, List.replicate_succ']

/-- A padded text is the text with blanks behind it. -/
theorem padRight_eq (width : Nat) (s : String) :
    padRight width s = s ++ "".pushn ' ' (width - s.length) := by
  simp [← String.toList_inj, padRight, toList_pushn]

/-- Padding adds no newline. -/
theorem OneLine.padRight (line : OneLine s) : OneLine (padRight width s) := by
  simpa [OneLine, Text.padRight, toList_pushn] using line

/-- Padding does not hide what is padded. -/
theorem padRight_append_inj (solidA : Solid a) (solidB : Solid b) (next : Opens ' ' r)
    (next' : Opens ' ' r') (same : padRight width a ++ r = padRight width b ++ r') :
    a = b ∧ r = r' := by
  have opens {n : Nat} {r : String} (next : Opens ' ' r) : Opens ' ' ("".pushn ' ' n ++ r) := by
    cases n with
    | zero => simpa [Opens, toList_pushn] using next
    | succ n => simp [Opens, toList_pushn, List.replicate_succ]
  rw [padRight_eq, padRight_eq, String.append_assoc, String.append_assoc] at same
  obtain ⟨rfl, blanks⟩ := solidA.append_inj solidB (opens next) (opens next') same
  exact ⟨rfl, (String.append_right_inj _).mp blanks⟩

/-- A number that is padded with zeros is solid. -/
theorem solid_decimal (width n : Nat) : Solid (decimal width n) := by
  refine Solid.append (fun c member => ?_) (solid_toString n)
  rw [toList_pushn, String.toList_empty, List.nil_append] at member
  rw [List.eq_of_mem_replicate member]
  decide

/-- A number has a digit however narrow its column is. -/
theorem decimal_ne_empty (width n : Nat) : decimal width n ≠ "" :=
  fun empty => Nat.repr_ne_empty (String.append_eq_empty_iff.mp empty).2

end NpcScript.Text
