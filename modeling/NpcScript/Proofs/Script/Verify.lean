import NpcScript.Proofs.Script.Groups
import NpcScript.Script.Verify

/-! # What verification decides

The check of the words reads them group by group, and marks the places where
groups begin. So a script passes verification if and only if it is well-formed
(`NpcScript.Script.verify_eq_ok_iff`), and a script that passes is sound
(`NpcScript.Script.sound_of_verify`).
-/

namespace NpcScript.Script

variable {script : Script} {starts marks : Array Bool} {labels offset : Nat}
variable {pending : PendingTerms} {groups : List (List UInt32)} {words : List UInt32}

/-! ## One word -/

private theorem checkLabel_eq_ok_iff {label : UInt32} :
    checkLabel labels offset label = .ok () ↔ label.toNat < labels := by
  unfold checkLabel
  split <;> simp_all

/-- A term is due and stands there. -/
theorem isTerm_iff {word : UInt32} (pending : PendingTerms) (offset : Nat) :
    IsTerm word ↔ ∃ instruction, Instruction.decode word = .ok instruction ∧
      checkTerm pending offset instruction = .ok () := by
  constructor
  · rintro ⟨op, operand, decoded, known⟩
    refine ⟨_, decoded, ?_⟩
    cases operand with
    | constant value => rfl
    | var slot =>
        obtain ⟨v, known⟩ := known
        simp [checkTerm, known]
  · rintro ⟨instruction, decoded, ok⟩
    unfold checkTerm at ok
    split at ok
    · rename_i op slot
      split at ok
      · cases ok
      · rename_i v known
        exact ⟨op, .var slot, decoded, v, known⟩
    · exact ⟨_, _, decoded, trivial⟩
    · cases ok

/-- A group begins with an instruction that is in order and is followed by its terms. -/
theorem group_cons_iff {word : UInt32} {operands : List UInt32} (offset : Nat) :
    Group labels (word :: operands) ↔
      (∃ instruction, Instruction.decode word = .ok instruction ∧
        checkInstruction labels offset instruction = .ok operands.length) ∧
      ∀ word ∈ operands, IsTerm word := by
  constructor
  · rintro (⟨decoded, ⟨b, known⟩, defined⟩ | ⟨decoded, defined⟩ |
      ⟨decoded, ⟨v, known, writable⟩, length, present⟩)
    · refine ⟨⟨_, decoded, ?_⟩, by simp⟩
      rename_i label
      cases label with
      | none => simp [checkInstruction, known]
      | some label =>
          simp [checkInstruction, known, checkLabel_eq_ok_iff.mpr (defined label rfl), Except.map]
    · refine ⟨⟨_, decoded, ?_⟩, by simp⟩
      simp [checkInstruction, checkLabel_eq_ok_iff.mpr defined, Except.map]
    · refine ⟨⟨_, decoded, ?_⟩, present⟩
      simp [checkInstruction, known, writable, length]
  · rintro ⟨⟨instruction, decoded, ok⟩, present⟩
    have alone (length : 0 = operands.length) : operands = [] :=
      List.eq_nil_of_length_eq_zero length.symm
    cases instruction with
    | call index label =>
        simp only [checkInstruction] at ok
        split at ok
        · cases ok
        · rename_i b known
          cases label with
          | none =>
              rw [alone (Except.ok.inj ok)]
              exact .call decoded ⟨b, known⟩ (by simp)
          | some label =>
              cases checked : checkLabel labels offset label with
              | error error => simp [checked, Except.map] at ok
              | ok done =>
                  simp only [checked, Except.map] at ok
                  rw [alone (Except.ok.inj ok)]
                  refine .call decoded ⟨b, known⟩ ?_
                  rintro _ ⟨⟩
                  exact checkLabel_eq_ok_iff.mp checked
    | jump label =>
        simp only [checkInstruction] at ok
        cases checked : checkLabel labels offset label with
        | error error => simp [checked, Except.map] at ok
        | ok done =>
            simp only [checked, Except.map] at ok
            rw [alone (Except.ok.inj ok)]
            exact .jump decoded (checkLabel_eq_ok_iff.mp checked)
    | assign slot terms =>
        simp only [checkInstruction] at ok
        split at ok
        · cases ok
        · rename_i v known
          split at ok
          · rename_i writable
            exact .assign decoded ⟨v, known, writable⟩ (Except.ok.inj ok).symm present
          · cases ok
    | term op operand => cases ok

/-! ## All words -/

/-- For each word of the groups, and for the end, whether a group begins there. -/
def heads : List (List UInt32) → List Bool
  | [] => [true]
  | group :: groups => true :: (List.replicate (group.length - 1) false ++ heads groups)

/-- A mark stands where a group begins, and at the end. -/
theorem heads_getElem?_iff (nonempty : ∀ group ∈ groups, group ≠ []) (place : Nat) :
    (heads groups)[place]? = some true ↔
      ∃ front back, groups = front ++ back ∧ place = front.flatten.length := by
  induction groups generalizing place with
  | nil => cases place <;> simp [heads]
  | cons group groups ih =>
      have wide : 0 < group.length := List.length_pos_iff.mpr (nonempty group (by simp))
      replace ih := ih fun group member => nonempty group (by simp [member])
      constructor
      · intro marked
        cases place with
        | zero => exact ⟨[], group :: groups, rfl, rfl⟩
        | succ place =>
            rw [heads, List.getElem?_cons_succ] at marked
            rcases Nat.lt_or_ge place (group.length - 1) with inside | behind
            · rw [List.getElem?_append_left (by simpa using inside),
                List.getElem?_replicate_of_lt inside] at marked
              cases marked
            · rw [List.getElem?_append_right (by simpa using behind),
                List.length_replicate] at marked
              obtain ⟨front, back, split, place⟩ := (ih _).mp marked
              exact ⟨group :: front, back, by rw [split]; rfl,
                by rw [List.flatten_cons, List.length_append]; omega⟩
      · rintro ⟨front, back, split, rfl⟩
        cases front with
        | nil => rfl
        | cons first front =>
            rw [List.cons_append, List.cons.injEq] at split
            obtain ⟨rfl, split⟩ := split
            obtain ⟨width, same⟩ := Nat.exists_eq_succ_of_ne_zero (Nat.ne_of_gt wide)
            rw [heads, List.flatten_cons, List.length_append, same, Nat.succ_add,
              List.getElem?_cons_succ, Nat.succ_sub_one,
              List.getElem?_append_right (by simp), List.length_replicate, Nat.add_sub_cancel_left]
            exact (ih _).mpr ⟨front, back, split, rfl⟩

private theorem push_append_toArray (mark : Bool) (rest : List Bool) :
    starts.push mark ++ rest.toArray = starts ++ (mark :: rest).toArray :=
  Array.toList_inj.mp (by simp)

/-- Terms that are due are passed over, without a mark. -/
theorem checkWords_terms (labels offset : Nat) (starts : Array Bool) {pending : PendingTerms}
    {operands : List UInt32} (due : pending.missing = operands.length)
    (present : ∀ word ∈ operands, IsTerm word) (rest : List UInt32) :
    ∃ after : PendingTerms, after.missing = 0 ∧
      checkWords labels offset pending (operands ++ rest) starts =
        checkWords labels (offset + operands.length) after rest
          (starts ++ (List.replicate operands.length false).toArray) := by
  induction operands generalizing offset pending starts with
  | nil => exact ⟨pending, due, by simp⟩
  | cons word operands ih =>
      obtain ⟨instruction, decoded, checked⟩ :=
        (isTerm_iff pending offset).mp (present word (by simp))
      have due' : pending.missing - 1 = operands.length := by rw [due, List.length_cons]; rfl
      obtain ⟨after, done, same⟩ := @ih (offset + 1) (starts.push false)
        { pending with missing := pending.missing - 1 } due'
        fun word member => present word (by simp [member])
      have missing : pending.missing ≠ 0 := by rw [due]; simp
      refine ⟨after, done, ?_⟩
      rw [List.cons_append, checkWords, decoded]
      simp only [missing, if_false, checked]
      rw [same, push_append_toArray, List.length_cons, Nat.add_assoc, Nat.add_comm 1,
        List.replicate_succ]

/-- Words that are groups pass, and are marked where the groups begin. -/
theorem checkWords_groups (fit : ∀ group ∈ groups, Group labels group)
    (none : pending.missing = 0) :
    checkWords labels offset pending groups.flatten starts =
      .ok (starts ++ (heads groups).toArray) := by
  induction groups generalizing offset pending starts with
  | nil => simp [checkWords, none, heads]
  | cons group groups ih =>
      cases group with
      | nil => exact absurd rfl (fit [] (by simp)).ne_nil
      | cons word operands =>
          obtain ⟨⟨instruction, decoded, checked⟩, present⟩ :=
            (group_cons_iff offset).mp (fit (word :: operands) (by simp))
          let pending : PendingTerms := ⟨offset, operands.length, operands.length⟩
          have due : pending.missing = operands.length := rfl
          obtain ⟨after, done, same⟩ :=
            checkWords_terms labels (offset + 1) (starts.push true) due present groups.flatten
          rw [List.flatten_cons, List.cons_append, checkWords, decoded]
          simp only [none, if_true, checked]
          rw [same, ih (fun group member => fit group (by simp [member])) done, Array.append_assoc,
            List.append_toArray (List.replicate _ false), push_append_toArray]
          rfl

/-- Words that pass are the terms that were due and groups, and are marked where the groups
begin. -/
theorem groups_of_checkWords (ok : checkWords labels offset pending words starts = .ok marks) :
    ∃ operands groups, words = operands ++ groups.flatten ∧ operands.length = pending.missing ∧
      (∀ word ∈ operands, IsTerm word) ∧ (∀ group ∈ groups, Group labels group) ∧
      marks = starts ++ (List.replicate operands.length false ++ heads groups).toArray := by
  induction words generalizing offset pending starts with
  | nil =>
      unfold checkWords at ok
      split at ok
      · rename_i none
        cases ok
        exact ⟨[], [], rfl, none.symm, by simp, by simp, Array.push_eq_append⟩
      · cases ok
  | cons word words ih =>
      unfold checkWords at ok
      cases decoded : Instruction.decode word with
      | error cause => simp [decoded] at ok
      | ok instruction =>
          simp only [decoded] at ok
          split at ok
          · -- no term is due: the word begins a group, and what is due behind it is its terms
            rename_i none
            cases checked : checkInstruction labels offset instruction with
            | error error => simp [checked] at ok
            | ok terms =>
                simp only [checked] at ok
                obtain ⟨operands, groups, rfl, rfl, present, fit, rfl⟩ := ih ok
                have group : Group labels (word :: operands) :=
                  (group_cons_iff offset).mpr ⟨⟨instruction, decoded, checked⟩, present⟩
                exact ⟨[], (word :: operands) :: groups, rfl, none.symm, by simp,
                  List.forall_mem_cons.mpr ⟨group, fit⟩, push_append_toArray _ _⟩
          · -- a term is due: the word is one, and the groups are those behind it
            rename_i due
            cases checked : checkTerm pending offset instruction with
            | error error => simp [checked] at ok
            | ok done =>
                simp only [checked] at ok
                obtain ⟨operands, groups, rfl, length, present, fit, rfl⟩ := ih ok
                have term : IsTerm word :=
                  (isTerm_iff pending offset).mpr ⟨instruction, decoded, checked⟩
                refine ⟨word :: operands, groups, rfl, ?_, List.forall_mem_cons.mpr ⟨term, present⟩,
                  fit, push_append_toArray _ _⟩
                rw [List.length_cons, length]
                exact Nat.sub_add_cancel (Nat.pos_of_ne_zero due)

/-! ## Whole scripts -/

private theorem findLabel?_eq_none_iff (script : Script) (faulty : UInt32 → Bool) :
    script.findLabel? faulty = none ↔ ∀ target ∈ script.labels, faulty target = false := by
  unfold findLabel?
  rw [List.find?_eq_none]
  constructor
  · intro none target member
    obtain ⟨label, inside, rfl⟩ := Array.mem_iff_getElem.mp member
    have here : (script.labels[label], label) ∈ script.labels.toList.zipIdx := by
      rw [List.mem_zipIdx_iff_getElem?, Array.getElem?_toList, Array.getElem?_eq_getElem inside]
    simpa using none _ here
  · rintro fine ⟨target, label⟩ member
    have here : target ∈ script.labels.toList :=
      List.mem_of_getElem? (List.mem_zipIdx_iff_getElem?.mp member)
    simp [fine target (Array.mem_toList_iff.mp here)]

/-- What the three passes of verification check. -/
theorem verify_eq_ok_iff_passes :
    script.verify = .ok () ↔
      (∀ target ∈ script.labels, target ≤ script.words.size.toUInt32) ∧
      ∃ marks, checkWords script.labels.size 0 ⟨0, 0, 0⟩ script.words.toList #[] = .ok marks ∧
        ∀ target ∈ script.labels, marks[target.toNat]? = some true := by
  have inRange := script.findLabel?_eq_none_iff fun target => script.words.size.toUInt32 < target
  have marked (marks : Array Bool) :=
    script.findLabel?_eq_none_iff fun target => !marks.getD target.toNat false
  simp only [decide_eq_false_iff_not, UInt32.not_lt] at inRange
  have getD (marks : Array Bool) (place : Nat) :
      (!marks.getD place false) = false ↔ marks[place]? = some true := by
    rw [Array.getD_eq_getD_getElem?]
    cases marks[place]? with
    | none => simp
    | some mark => simp
  simp only [getD] at marked
  rw [← inRange]
  unfold verify
  constructor
  · intro ok
    split at ok
    · cases ok
    · rename_i none
      split at ok
      · cases ok
      · rename_i marks checked
        split at ok
        · cases ok
        · rename_i fine
          exact ⟨none, marks, checked, (marked marks).mp fine⟩
  · rintro ⟨none, marks, checked, fine⟩
    simp only [none, checked, (marked marks).mpr fine]

/-- A script that passes verification is well-formed. -/
theorem wellFormed_of_verify (accepted : script.verify = .ok ()) : script.WellFormed := by
  obtain ⟨-, marks, checked, marked⟩ := verify_eq_ok_iff_passes.mp accepted
  obtain ⟨operands, groups, words, length, -, fit, rfl⟩ := groups_of_checkWords checked
  obtain rfl : operands = [] := List.eq_nil_of_length_eq_zero length
  refine ⟨groups, fit, words, ?_⟩
  intro target member
  have mark : (heads groups)[target.toNat]? = some true := by simpa using marked target member
  obtain ⟨front, back, split, here⟩ :=
    (heads_getElem?_iff (fun group member => (fit group member).ne_nil) _).mp mark
  cases back with
  | nil =>
      left
      rw [here, ← Array.length_toList, words, split]
      simp
  | cons group back => exact .inr ⟨front, group, back, split, here⟩

/-- A well-formed script whose end can be named by a label passes verification. -/
theorem verify_of_wellFormed (small : script.words.size < UInt32.size)
    (wellFormed : script.WellFormed) : script.verify = .ok () := by
  obtain ⟨groups, fit, words, labels⟩ := wellFormed
  have size : script.words.size = groups.flatten.length := by
    rw [← Array.length_toList, words]
  have starts : ∀ target ∈ script.labels,
      ∃ front back, groups = front ++ back ∧ target.toNat = front.flatten.length := by
    intro target member
    rcases labels target member with atEnd | ⟨front, group, back, split, here⟩
    · exact ⟨groups, [], (List.append_nil groups).symm, atEnd.trans size⟩
    · exact ⟨front, group :: back, split, here⟩
  refine verify_eq_ok_iff_passes.mpr ⟨?_, (heads groups).toArray, ?_, ?_⟩
  · intro target member
    obtain ⟨front, back, split, here⟩ := starts target member
    rw [UInt32.le_iff_toNat_le, UInt32.toNat_ofNat_of_lt' small, here, size, split,
      List.flatten_append, List.length_append]
    exact Nat.le_add_right _ _
  · rw [words, checkWords_groups fit rfl]
    simp
  · intro target member
    simpa using (heads_getElem?_iff (fun group member => (fit group member).ne_nil) _).mpr
      (starts target member)

/-- **A script that passes verification is sound.** -/
theorem sound_of_verify (accepted : script.verify = .ok ()) : script.Sound :=
  sound_of_wellFormed (wellFormed_of_verify accepted)

/-- **Verification accepts exactly the well-formed scripts**, among those whose offsets are
words. -/
theorem verify_eq_ok_iff (small : script.words.size < UInt32.size) :
    script.verify = .ok () ↔ script.WellFormed :=
  ⟨wellFormed_of_verify, verify_of_wellFormed small⟩

/-- A call over an assignment of two terms, a jump back, and a label at the end. -/
def loopScript : Script :=
  ⟨"loop", #[0x10001010, 0x30000201, 0x40000001, 0x5100000A, 0x20000001], #[5, 1], 1, .empty⟩

/-- The script is accepted, and well-formed therefore. -/
theorem verify_eq_ok_iff_loop :
    loopScript.words.size < UInt32.size ∧
      (loopScript.verify = .ok () ↔ loopScript.WellFormed) ∧ loopScript.WellFormed :=
  have small : loopScript.words.size < UInt32.size := by decide
  ⟨small, verify_eq_ok_iff small, (verify_eq_ok_iff small).mp rfl⟩

end NpcScript.Script
