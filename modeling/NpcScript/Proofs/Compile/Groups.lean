import NpcScript.Proofs.Block.Assigned
import NpcScript.Proofs.Compile.Layout
import NpcScript.Proofs.Script.Groups

/-! # Code falls into groups

Code is generated group by group: a call, a jump, or an assignment with its
terms. A label is marked between two groups, and one that is still to be marked
names the first word. So the code of a block whose assignments fit their words
stays in groups (`NpcScript.Code.Grouped.append`), and the words of all terms of
the block are among it (`NpcScript.Code.mem_words_of_assigned`).
-/

namespace NpcScript.Code

/-- The words are groups of a script with so many labels, and each label names the place in front
of a group or the end. -/
def Grouped (labels : Nat) (code : Code) : Prop :=
  ∃ groups : List (List UInt32), (∀ group ∈ groups, Script.Group labels group) ∧
    code.words.toList = groups.flatten ∧
    ∀ target ∈ code.labels,
      ∃ front back, groups = front ++ back ∧ target.toNat = front.flatten.length

namespace Grouped

variable {labels : Nat} {code : Code} {instruction : Instruction}

/-- Code without words is grouped. -/
theorem empty (labels : Nat) : Code.empty.Grouped labels :=
  ⟨[], by simp, rfl, by simp [Code.empty]⟩

/-- A group behind the code moves no other one. -/
theorem extend (grouped : code.Grouped labels) {group : List UInt32}
    (fit : Script.Group labels group) :
    Grouped labels { code with words := code.words ++ group.toArray } := by
  obtain ⟨groups, fits, words, places⟩ := grouped
  refine ⟨groups ++ [group], ?_, by simp [words], ?_⟩
  · simpa [or_imp, forall_and] using ⟨fits, fit⟩
  · intro target member
    obtain ⟨front, back, split, place⟩ := places target member
    exact ⟨front, back ++ [group], by rw [split, List.append_assoc], place⟩

private theorem push (grouped : code.Grouped labels)
    (fit : Script.Group labels [instruction.encode]) :
    (code.push instruction).Grouped labels := by
  rw [Code.push, Array.push_eq_append]
  exact grouped.extend fit

private theorem reserve (grouped : code.Grouped labels) : code.reserve.Grouped labels := by
  obtain ⟨groups, fits, words, places⟩ := grouped
  refine ⟨groups, fits, words, ?_⟩
  intro target member
  rcases Array.mem_push.mp member with earlier | rfl
  · exact places target earlier
  · exact ⟨[], groups, rfl, rfl⟩

private theorem mark (grouped : code.Grouped labels) (small : code.words.size < UInt32.size)
    (label : Nat) : (code.mark label).Grouped labels := by
  obtain ⟨groups, fits, words, places⟩ := grouped
  refine ⟨groups, fits, words, ?_⟩
  intro target member
  rcases Array.mem_or_eq_of_mem_setIfInBounds member with earlier | rfl
  · exact places target earlier
  · refine ⟨groups, [], (List.append_nil groups).symm, ?_⟩
    rw [UInt32.toNat_ofNat_of_lt' small, ← Array.length_toList, words]

private theorem call (grouped : code.Grouped labels) (b : Builtin) :
    (code.push (.call b.index none)).Grouped labels :=
  grouped.push (.call (Instruction.decode_encode ⟨b.index_le, by simp⟩) ⟨b, b.ofIndex?_index⟩
    (by simp))

private theorem openCall (grouped : code.Grouped labels) (few : labels ≤ Outline.maxLabels)
    (room : code.labels.size < labels) (b : Builtin) : (code.openCall b).Grouped labels := by
  have fits := fits_call b (Nat.lt_of_lt_of_le room few)
  refine grouped.reserve.push (.call (Instruction.decode_encode fits) ⟨b, b.ofIndex?_index⟩ ?_)
  rintro _ ⟨⟩
  exact Nat.lt_of_le_of_lt (Nat.mod_le _ _) room

private theorem leave (grouped : code.Grouped labels) (few : labels ≤ Outline.maxLabels)
    (room : code.labels.size < labels) : code.leave.Grouped labels := by
  have fits := fits_jump (Nat.lt_of_lt_of_le room few)
  exact grouped.reserve.push (.jump (Instruction.decode_encode fits)
    (Nat.lt_of_le_of_lt (Nat.mod_le _ _) room))

private theorem assign (grouped : code.Grouped labels) {target : Variable} {terms : List Term}
    (writable : target.isWritable) (short : terms.length ≤ Statement.maxTerms)
    (fits : ∀ term ∈ terms, term.Fits) : (code.assign target terms).Grouped labels := by
  have count : terms.length.toUInt8.toNat = terms.length :=
    UInt8.toNat_ofNat_of_lt' (Nat.lt_succ_of_le short)
  have isTerm : ∀ word ∈ terms.map fun term =>
      (Instruction.term term.operator term.operand).encode, IsTerm word := by
    intro word member
    obtain ⟨term, given, rfl⟩ := List.mem_map.mp member
    exact ⟨_, _, Instruction.decode_encode (fits term given).word, (fits term given).operand_known⟩
  have group : Script.Group labels
      ((Instruction.assign target.slot terms.length.toUInt8).encode :: terms.map fun term =>
        (Instruction.term term.operator term.operand).encode) :=
    .assign (Instruction.decode_encode_assign _ _) ⟨target, target.ofSlot?_slot, writable⟩
      (by rw [List.length_map, count]) isTerm
  rw [Code.assign, foldl_push_terms]
  simpa [Code.push] using grouped.extend group

/-- **The code of a block** stays in groups. -/
theorem append {block : Block} (grouped : code.Grouped labels) (few : labels ≤ Outline.maxLabels)
    (fits : block.Fits) (room : code.labels.size + block.labels ≤ labels)
    (small : (code.append block).words.size < UInt32.size) :
    (code.append block).Grouped labels := by
  -- the labels of the parts add up to those there is room for, and no part is longer than the whole
  induction block generalizing code with
  | done => exact grouped
  | assign target terms rest ih =>
      obtain ⟨writable, short, termsFit, restFits⟩ := fits
      have size : (code.assign target terms).labels.size = code.labels.size :=
        (grown_assign code target terms).size
      exact ih (grouped.assign writable short termsFit) restFits (by rw [size]; exact room) small
  | call b rest ih => exact ih (grouped.call b) fits room small
  | guarded b body rest ihBody ihRest =>
      obtain ⟨bodyFits, restFits⟩ := fits
      simp only [Block.labels] at room
      rw [append_guarded] at small ⊢
      have sizeOpen := (Grown.openCall code b).size
      have sizeBody := (grown_append (code.openCall b) body).size
      have smallBody := Nat.lt_of_le_of_lt (grown_append _ rest).words_size_le small
      have below := ihBody (grouped.openCall few (by omega) b) bodyFits (by omega) smallBody
      exact ihRest (below.mark smallBody _) restFits (by rw [size_mark]; omega) small
  | branch b body alternative rest ihBody ihElse ihRest =>
      obtain ⟨bodyFits, elseFits, restFits⟩ := fits
      simp only [Block.labels] at room
      rw [append_branch] at small ⊢
      have sizeOpen := (Grown.openCall code b).size
      have sizeBody := (grown_append (code.openCall b) body).size
      generalize owned : (code.openCall b).append body = ownedCode at *
      have sizeLeave := (Grown.leave ownedCode).size
      have sizeElse := (grown_append (ownedCode.leave.mark code.nextLabel) alternative).size
      rw [size_mark] at sizeElse
      have smallElse := Nat.lt_of_le_of_lt (grown_append _ rest).words_size_le small
      have smallLeave := Nat.lt_of_le_of_lt (grown_append _ alternative).words_size_le smallElse
      have smallBody := Nat.lt_of_le_of_lt (Grown.leave ownedCode).words_size_le smallLeave
      have below := ihBody (grouped.openCall few (by omega) b) bodyFits (by omega)
        (by rw [owned]; exact smallBody)
      rw [owned] at below
      have left := (below.leave few (by omega)).mark smallLeave code.nextLabel
      have belowElse := ihElse left elseFits (by rw [size_mark]; omega) smallElse
      exact ihRest (belowElse.mark smallElse _) restFits (by rw [size_mark]; omega) small

/-- A script in groups is well-formed. -/
theorem wellFormed {script : Script}
    (grouped : Grouped script.labels.size ⟨script.words, script.labels⟩) :
    script.WellFormed := by
  obtain ⟨groups, fit, words, places⟩ := grouped
  refine ⟨groups, fit, words, ?_⟩
  intro target member
  obtain ⟨front, back, split, place⟩ := places target member
  cases back with
  | nil =>
      rw [List.append_nil] at split
      exact .inl (by rw [place, ← split, ← words, Array.length_toList])
  | cons group back => exact .inr ⟨front, group, back, split, place⟩

end Grouped

/-! ## The words of terms -/

private theorem Grown.mem_words {before after : Code} {more : Nat} {word : UInt32}
    (grown : Grown before after more) (member : word ∈ before.words) : word ∈ after.words := by
  obtain ⟨rest, words⟩ := grown.words
  rw [words]
  exact Array.mem_append_left rest member

/-- The code of a block holds all its terms. -/
theorem mem_words_of_assigned {block : Block} {term : Term} (given : term ∈ block.assigned)
    (code : Code) :
    (Instruction.term term.operator term.operand).encode ∈ (code.append block).words := by
  induction block generalizing code with
  | done => cases given
  | assign target terms rest ih =>
      rcases List.mem_append.mp given with here | behind
      · have member : (Instruction.term term.operator term.operand).encode ∈
            (code.assign target terms).words := by
          rw [Code.assign, foldl_push_terms]
          refine Array.mem_append_right _ (List.mem_toArray.mpr ?_)
          exact List.mem_map_of_mem here
        exact (grown_append _ rest).mem_words member
      · exact ih behind _
  | call b rest ih => exact ih given _
  | guarded b body rest ihBody ihRest =>
      rw [append_guarded]
      rcases List.mem_append.mp given with inside | behind
      · exact (grown_append _ rest).mem_words (ihBody inside _)
      · exact ihRest behind _
  | branch b body alternative rest ihBody ihElse ihRest =>
      rw [append_branch]
      rcases List.mem_append.mp given with inside | later
      · have member := (Grown.leave _).mem_words (ihBody inside (code.openCall b))
        exact (grown_append _ rest).mem_words ((grown_append _ alternative).mem_words member)
      · rcases List.mem_append.mp later with other | behind
        · exact (grown_append _ rest).mem_words (ihElse other _)
        · exact ihRest behind _

end NpcScript.Code
