import NpcScript.Proofs.Listing.Instructions
import NpcScript.Proofs.Listing.Marks
import NpcScript.Proofs.Script.Verify

/-! # What a listing tells about its script

The head of a listing, the lines of each word and the line of the end can be
told apart from what comes behind them, line by line. So scripts that pass
verification and are listed alike have the same name, instructions, labels,
number of operations and known flags (`NpcScript.Script.Listing.agree_of_render_eq`).
What they may differ in is what a listing cannot show: the bits of a word that
hold no field and the flags without a name.
-/

namespace NpcScript.Script.Listing

open Text

variable {s t : Script} {r r' : String} {offset : Nat}

/-! ## The head -/

/-- The names of the flags with a name, each if it is there. -/
def flagText (noopFallback missingEnd : Bool) : String :=
  " | ".intercalate
    ((if noopFallback then ["NOOP_FALLBACK"] else []) ++ if missingEnd then ["MISSING_END"] else [])

private theorem flagNames_eq (flags : Flags) :
    flagNames flags = flagText (flags.contains .noopFallback) (flags.contains .missingEnd) := by
  cases noop : flags.contains .noopFallback <;> cases missing : flags.contains .missingEnd <;>
    simp [flagNames, Flags.named, noop, missing, flagText]

private theorem oneLine_flagNames (flags : Flags) : OneLine (flagNames flags) := by
  have line : ∀ p q : Bool, OneLine (flagText p q) := by decide
  rw [flagNames_eq]
  exact line _ _

/-- The flags with a name are known from the names. -/
theorem contains_eq_of_flagNames {a b : Flags} (same : flagNames a = flagNames b) :
    ∀ entry ∈ Flags.named, a.contains entry.1 = b.contains entry.1 := by
  have distinct : ∀ p q p' q' : Bool, flagText p q = flagText p' q' → p = p' ∧ q = q' := by
    decide
  rw [flagNames_eq, flagNames_eq] at same
  simpa [Flags.named] using distinct _ _ _ _ same

/-- The line of the flags. -/
def flagsLine (flags : Flags) : String :=
  if flags = .empty then "" else " flags: " ++ flagNames flags ++ "\n"

private theorem solid_rule : Solid rule := by decide +kernel

private theorem rule_append_ne (flags : String) : rule ++ r ≠ " flags: " ++ flags :=
  solid_rule.append_ne (by decide +kernel) (by simp)

/-- The named flags are known from the line of the flags, and so is whether there is one. -/
theorem flagsLine_append_inj {a b : Flags}
    (same : flagsLine a ++ (rule ++ r) = flagsLine b ++ (rule ++ r')) :
    (∀ entry ∈ Flags.named, a.contains entry.1 = b.contains entry.1) ∧ r = r' := by
  have line (flags : Flags) (some : flags ≠ .empty) (r : String) :
      flagsLine flags ++ r = " flags: " ++ (flagNames flags ++ ("\n" ++ r)) := by
    rw [flagsLine, if_neg some, String.append_assoc, String.append_assoc]
  have none (r : String) : flagsLine .empty ++ r = r := String.empty_append
  by_cases emptyA : a = .empty
  · subst emptyA
    rw [none] at same
    by_cases emptyB : b = .empty
    · subst emptyB
      rw [none, String.append_right_inj] at same
      exact ⟨fun _ _ => rfl, same⟩
    · rw [line b emptyB] at same
      exact absurd same (rule_append_ne _)
  · rw [line a emptyA] at same
    by_cases emptyB : b = .empty
    · subst emptyB
      rw [none] at same
      exact absurd same.symm (rule_append_ne _)
    · rw [line b emptyB, String.append_right_inj] at same
      obtain ⟨names, same⟩ := (oneLine_flagNames a).append_inj (oneLine_flagNames b) same
      exact ⟨contains_eq_of_flagNames names, (String.append_right_inj _).mp same⟩

/-- What the head of a listing tells. -/
structure SameHead (s t : Script) : Prop where
  name : s.name = t.name
  words : s.words.size = t.words.size
  labels : s.labels.size = t.labels.size
  builtinsUsed : s.builtinsUsed = t.builtinsUsed
  flags : ∀ entry ∈ Flags.named, s.flags.contains entry.1 = t.flags.contains entry.1

private theorem head_append_inj (plain : OneLine s.name) (plain' : OneLine t.name)
    (same : head s ++ r = head t ++ r') : SameHead s t ∧ r = r' := by
  have lines (script : Script) (r : String) :
      head script ++ r = rule ++ ("\n " ++ (script.name ++ ("\n " ++ (toString script.words.size ++
        (" words, " ++ (toString script.labels.size ++ (" labels, " ++
        (toString script.builtinsUsed.toNat ++ (" built-ins\n" ++
        (flagsLine script.flags ++ (rule ++ ("\n" ++ r)))))))))))) := by
    simp only [head, flagsLine, String.append_assoc]
  rw [lines, lines, String.append_right_inj, String.append_right_inj] at same
  obtain ⟨name, same⟩ :=
    Text.append_inj plain plain' (opens_append rfl) (opens_append rfl) same
  rw [String.append_right_inj] at same
  obtain ⟨words, same⟩ := toString_append_inj (opens_append rfl) (opens_append rfl) same
  rw [String.append_right_inj] at same
  obtain ⟨labels, same⟩ := toString_append_inj (opens_append rfl) (opens_append rfl) same
  rw [String.append_right_inj] at same
  obtain ⟨builtinsUsed, same⟩ := toString_append_inj (opens_append rfl) (opens_append rfl) same
  rw [String.append_right_inj] at same
  obtain ⟨flags, same⟩ := flagsLine_append_inj same
  exact ⟨⟨name, words, labels, UInt16.toNat_inj.mp builtinsUsed, flags⟩,
    (String.append_right_inj _).mp same⟩

/-! ## The words -/

private theorem wordLines_nil (s : Script) (offset : Nat) (w : UInt32) (r : String) :
    wordLines s [] offset w ++ r =
      Text.decimal 4 offset ++ (" " ++ ("  " ++ (Listing.word s w ++ ("\n" ++ r)))) := by
  simp only [wordLines, List.isEmpty_nil, ↓reduceIte, String.append_assoc, String.empty_append]

private theorem wordLines_cons (s : Script) (n : Nat) (row : List Nat) (offset : Nat) (w : UInt32)
    (r : String) :
    wordLines s (n :: row) offset w ++ r =
      "      ┌────────────────────────────── " ++ (labels (n :: row) ++ ("\n" ++
        (Text.decimal 4 offset ++ (" " ++ ("► " ++ (Listing.word s w ++ ("\n" ++ r))))))) := by
  simp only [wordLines, List.isEmpty_cons, Bool.false_eq_true, ↓reduceIte, String.append_assoc]

/-- The line of an instruction. -/
theorem word_append_inj {w w' : UInt32} {i i' : Instruction}
    (decoded : Instruction.decode w = .ok i) (decoded' : Instruction.decode w' = .ok i')
    (known : i.Known) (known' : i'.Known)
    (same : Listing.word s w ++ ("\n" ++ r) = Listing.word t w' ++ ("\n" ++ r')) :
    i = i' ∧ r = r' := by
  rw [Listing.word, Listing.word, decoded, decoded'] at same
  obtain ⟨shown, rest⟩ :=
    (oneLine_instruction s known).append_inj (oneLine_instruction t known') same
  exact ⟨instruction_inj known known' shown, rest⟩

/-- The lines of a word tell its labels and its instruction. -/
theorem wordLines_append_inj {w w' : UInt32} {i i' : Instruction} {row row' : List Nat}
    (decoded : Instruction.decode w = .ok i) (decoded' : Instruction.decode w' = .ok i')
    (known : i.Known) (known' : i'.Known)
    (same : wordLines s row offset w ++ r = wordLines t row' offset w' ++ r') :
    row = row' ∧ i = i' ∧ r = r' := by
  -- a line of labels begins with a blank, and that of a word with its offset
  have noRow (rest text : String) :
      Text.decimal 4 offset ++ rest ≠ "      ┌────────────────────────────── " ++ text :=
    (solid_decimal 4 offset).append_ne (decimal_ne_empty 4 offset) (by simp)
  cases row with
  | nil =>
      rw [wordLines_nil] at same
      cases row' with
      | nil =>
          rw [wordLines_nil] at same
          simp only [String.append_right_inj] at same
          exact ⟨rfl, word_append_inj decoded decoded' known known' same⟩
      | cons n' row' =>
          rw [wordLines_cons] at same
          exact absurd same (noRow _ _)
  | cons n row =>
      rw [wordLines_cons] at same
      cases row' with
      | nil =>
          rw [wordLines_nil] at same
          exact absurd same.symm (noRow _ _)
      | cons n' row' =>
          rw [wordLines_cons, String.append_right_inj] at same
          obtain ⟨rows, same⟩ := (oneLine_labels _).append_inj (oneLine_labels _) same
          simp only [String.append_right_inj] at same
          exact ⟨labels_inj (by simp) (by simp) rows,
            word_append_inj decoded decoded' known known' same⟩

/-- The lines of some words of a script, which begin at an offset. -/
def wordsLines (script : Script) (offset : Nat) (words : List UInt32) : String :=
  String.join ((words.zipIdx offset).map fun (word, offset) =>
    wordLines script (marksAt script offset) offset word)

private theorem wordsLines_cons (script : Script) (offset : Nat) (word : UInt32)
    (words : List UInt32) :
    wordsLines script offset (word :: words) =
      wordLines script (marksAt script offset) offset word ++
        wordsLines script (offset + 1) words := by
  simp [wordsLines]

/-- The lines of the words tell their labels and instructions, word by word. -/
theorem wordsLines_append_inj {words words' : List UInt32} {offset : Nat}
    (known : ∀ w ∈ words, ∃ i, Instruction.decode w = .ok i ∧ i.Known)
    (known' : ∀ w ∈ words', ∃ i, Instruction.decode w = .ok i ∧ i.Known)
    (length : words.length = words'.length)
    (same : wordsLines s offset words ++ r = wordsLines t offset words' ++ r') :
    words.map Instruction.decode = words'.map Instruction.decode ∧
      (∀ place, offset ≤ place → place < offset + words.length →
        marksAt s place = marksAt t place) ∧ r = r' := by
  induction words generalizing words' offset with
  | nil =>
      obtain rfl : words' = [] := List.eq_nil_of_length_eq_zero length.symm
      refine ⟨rfl, ?_, by simpa [wordsLines] using same⟩
      intro place above below
      exact absurd below (Nat.not_lt.mpr above)
  | cons w words ih =>
      cases words' with
      | nil => cases length
      | cons w' words' =>
          obtain ⟨i, decoded, named⟩ := known w (by simp)
          obtain ⟨i', decoded', named'⟩ := known' w' (by simp)
          rw [wordsLines_cons, wordsLines_cons, String.append_assoc, String.append_assoc] at same
          obtain ⟨row, rfl, same⟩ := wordLines_append_inj decoded decoded' named named' same
          obtain ⟨decodes, rows, rest⟩ := ih (fun w member => known w (by simp [member]))
            (fun w member => known' w (by simp [member])) (Nat.succ.inj length) same
          refine ⟨by simp [decoded, decoded', decodes], ?_, rest⟩
          intro place above below
          rcases Nat.eq_or_lt_of_le above with rfl | above
          · exact row
          · exact rows place above (by simpa [Nat.add_right_comm, Nat.add_assoc] using below)

/-- The line of the end tells the labels of the end. -/
theorem endLine_injective : Function.Injective endLine := by
  intro row row' same
  have line (n : Nat) (row : List Nat) : endLine (n :: row) =
      "      └────────────────────────────── " ++ (labels (n :: row) ++ " (end)\n") := by
    simp only [endLine, List.isEmpty_cons, Bool.false_eq_true, ↓reduceIte, String.append_assoc]
  cases row with
  | nil =>
      cases row' with
      | nil => rfl
      | cons n' row' => simp [endLine, ← String.toList_inj] at same
  | cons n row =>
      cases row' with
      | nil => simp [endLine, ← String.toList_inj] at same
      | cons n' row' =>
          rw [line, line, String.append_right_inj, String.append_left_inj] at same
          exact labels_inj (by simp) (by simp) same

/-! ## The whole listing -/

private theorem render_eq (script : Script) :
    render script = head script ++
      (wordsLines script 0 script.words.toList ++ endLine (marksAt script script.words.size)) :=
  String.append_assoc

/-- **A listing is faithful.** Two scripts that pass verification and are listed alike have the same
name, instructions, labels, number of operations and known flags. -/
theorem agree_of_render_eq (verified : s.verify = .ok ()) (verified' : t.verify = .ok ())
    (plain : '\n' ∉ s.name.toList) (plain' : '\n' ∉ t.name.toList) (same : render s = render t) :
    s.name = t.name ∧
      s.words.toList.map Instruction.decode = t.words.toList.map Instruction.decode ∧
      s.labels = t.labels ∧ s.builtinsUsed = t.builtinsUsed ∧
      ∀ entry ∈ Flags.named, s.flags.contains entry.1 = t.flags.contains entry.1 := by
  have wellFormed := wellFormed_of_verify verified
  have wellFormed' := wellFormed_of_verify verified'
  rw [render_eq, render_eq] at same
  obtain ⟨head, same⟩ := head_append_inj plain plain' same
  obtain ⟨decodes, rows, same⟩ := wordsLines_append_inj
    (fun _ => wellFormed.decode_of_mem) (fun _ => wellFormed'.decode_of_mem) head.words same
  have last := endLine_injective same
  have labels : s.labels = t.labels := by
    refine labels_eq_of_marks wellFormed wellFormed' head.words fun offset inside => ?_
    rcases Nat.eq_or_lt_of_le inside with rfl | inside
    · rw [last, head.words]
    · exact rows offset (Nat.zero_le _) (by simpa using inside)
  exact ⟨head.name, decodes, labels, head.builtinsUsed, head.flags⟩

/-- Two scripts that only differ in bits that a listing does not show: those of a word that hold no
field, and a flag without a name. -/
def strayLoop (spare : UInt32) (flags : UInt8) : Script :=
  { loopScript with
    words := #[0x10001010, (0x30000201 : UInt32) ||| spare <<< 16,
      (0x40000001 : UInt32) ||| spare <<< 8, 0x5100000A, 0x20000001]
    flags := ⟨flags⟩ }

/-- Both scripts are accepted and listed alike, and their instructions agree. -/
theorem agree_of_render_eq_loop :
    (strayLoop 0xABC 4).verify = .ok () ∧ (strayLoop 0x123 8).verify = .ok () ∧
      render (strayLoop 0xABC 4) = render (strayLoop 0x123 8) ∧
      strayLoop 0xABC 4 ≠ strayLoop 0x123 8 ∧
      (strayLoop 0xABC 4).words.toList.map Instruction.decode =
        (strayLoop 0x123 8).words.toList.map Instruction.decode :=
  have verified : (strayLoop 0xABC 4).verify = .ok () := by decide +kernel
  have verified' : (strayLoop 0x123 8).verify = .ok () := by decide +kernel
  have same : render (strayLoop 0xABC 4) = render (strayLoop 0x123 8) := by decide +kernel
  ⟨verified, verified', same, by decide +kernel,
    (agree_of_render_eq verified verified' (by decide) (by decide) same).2.1⟩

end NpcScript.Script.Listing
