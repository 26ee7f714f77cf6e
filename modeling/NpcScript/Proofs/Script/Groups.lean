import Mathlib.Data.List.Induction
import NpcScript.Proofs.Script.Boundary

/-! # Well-formed scripts

The words of a well-formed script are groups one behind the other: a call, a
jump, or an assignment with its terms. Its labels name beginnings of groups, or
the end of the script. Instructions begin where groups do, so a well-formed
script is sound (`NpcScript.Script.sound_of_wellFormed`).
-/

namespace NpcScript

/-- A word that holds a term which can be read. -/
def IsTerm (word : UInt32) : Prop :=
  ∃ op operand, Instruction.decode word = .ok (.term op operand) ∧ operand.Known

namespace Script

/-- The words of an instruction with its terms, fit for a script with so many labels. -/
inductive Group (labels : Nat) : List UInt32 → Prop where
  | call {word : UInt32} {index : UInt16} {label : Option UInt32}
      (decoded : Instruction.decode word = .ok (.call index label))
      (known : ∃ b, Builtin.ofIndex? index = some b) (defined : ∀ l ∈ label, l.toNat < labels) :
      Group labels [word]
  | jump {word label : UInt32} (decoded : Instruction.decode word = .ok (.jump label))
      (defined : label.toNat < labels) : Group labels [word]
  | assign {word : UInt32} {slot terms : UInt8} {operands : List UInt32}
      (decoded : Instruction.decode word = .ok (.assign slot terms))
      (writable : ∃ v, Variable.ofSlot? slot = some v ∧ v.isWritable)
      (length : operands.length = terms.toNat) (present : ∀ word ∈ operands, IsTerm word) :
      Group labels (word :: operands)

/-- The words are a sequence of groups, and every label names the first word of a group or the end
of the script. -/
def WellFormed (script : Script) : Prop :=
  ∃ groups : List (List UInt32),
    (∀ group ∈ groups, Group script.labels.size group) ∧
    script.words.toList = groups.flatten ∧
    ∀ target ∈ script.labels, target.toNat = script.words.size ∨
      ∃ front group back, groups = front ++ group :: back ∧ target.toNat = front.flatten.length

variable {script : Script} {groups : List (List UInt32)} {group front rest : List UInt32}

/-- A group has words. -/
theorem Group.ne_nil {labels : Nat} (fit : Group labels group) : group ≠ [] := by
  cases fit <;> simp

private theorem labelOffset?_of_lt {label : UInt32} (defined : label.toNat < script.labels.size) :
    ∃ target, script.labelOffset? label = some target :=
  ⟨_, by rw [labelOffset?, Array.getElem?_eq_getElem defined]; rfl⟩

/-- The words of a stretch are found behind those in front of it. -/
theorem words_getElem? (words : script.words.toList = front ++ (group ++ rest)) {i : Nat}
    (inside : i < group.length) : script.words[front.length + i]? = group[i]? := by
  rw [← Array.getElem?_toList, words, List.getElem?_append_right (Nat.le_add_right _ _),
    Nat.add_sub_cancel_left, List.getElem?_append_left inside]

/-- A fit instruction begins where a group does, and it is as wide as the group. -/
theorem Group.head (fit : Group script.labels.size group)
    (words : script.words.toList = front ++ (group ++ rest)) :
    ∃ instruction, script.Has front.length instruction ∧ script.Fit front.length instruction ∧
      instruction.width = group.length := by
  have fetched (word : UInt32) (first : group[0]? = some word) :
      script.words[front.length]? = some word := by
    have inside : 0 < group.length := List.length_pos_iff.mpr fit.ne_nil
    rw [← first, ← words_getElem? words inside, Nat.add_zero]
  cases fit with
  | call decoded known defined =>
      exact ⟨_, ⟨_, fetched _ rfl, decoded⟩,
        ⟨known, fun label named => labelOffset?_of_lt (defined label named)⟩, rfl⟩
  | jump decoded defined =>
      exact ⟨_, ⟨_, fetched _ rfl, decoded⟩, labelOffset?_of_lt defined, rfl⟩
  | @assign word slot terms operands decoded writable length present =>
      refine ⟨_, ⟨_, fetched _ rfl, decoded⟩, ⟨writable, ?_⟩, ?_⟩
      · intro i inside
        rw [← length] at inside
        obtain ⟨op, operand, term, known⟩ := present _ (List.getElem_mem inside)
        refine ⟨op, operand, ⟨_, ?_, term⟩, known⟩
        rw [Nat.add_assoc, words_getElem? words (by rw [List.length_cons]; omega), Nat.add_comm,
          List.getElem?_cons_succ, List.getElem?_eq_getElem inside]
      · rw [Instruction.width, List.length_cons, length, Nat.add_comm]

/-- A term in a group can be read. -/
theorem Group.known {labels : Nat} {word : UInt32} {op : Operator} {operand : Operand}
    (fit : Group labels group) (member : word ∈ group)
    (decoded : Instruction.decode word = .ok (.term op operand)) : operand.Known := by
  cases fit with
  | call head | jump head =>
      cases List.mem_singleton.mp member
      cases head.symm.trans decoded
  | assign head writable length present =>
      rcases List.mem_cons.mp member with rfl | behind
      · cases head.symm.trans decoded
      · obtain ⟨_, _, same, known⟩ := present word behind
        cases same.symm.trans decoded
        exact known

/-- A term among the words of a well-formed script can be read. -/
theorem WellFormed.known {word : UInt32} {op : Operator} {operand : Operand}
    (wellFormed : script.WellFormed) (member : word ∈ script.words)
    (decoded : Instruction.decode word = .ok (.term op operand)) : operand.Known := by
  obtain ⟨groups, fit, words, -⟩ := wellFormed
  rw [← Array.mem_toList_iff, words] at member
  obtain ⟨group, groupMember, member⟩ := List.mem_flatten.mp member
  exact (fit group groupMember).known member decoded

/-! ## Where groups begin -/

variable {offset : Nat}

/-- Instructions begin where groups do. -/
theorem boundary_of_groups (fit : ∀ group ∈ groups, Group script.labels.size group)
    (words : script.words.toList = groups.flatten) {front back : List (List UInt32)}
    (split : groups = front ++ back) : script.Boundary front.flatten.length := by
  induction front using List.reverseRecOn generalizing back with
  | nil => exact .first
  | append_singleton front group ih =>
      rw [List.append_assoc, List.singleton_append] at split
      have here := ih split
      rw [split, List.flatten_append, List.flatten_cons] at words
      obtain ⟨instruction, head, _, width⟩ := (fit group (by simp [split])).head words
      have next := here.next head
      rw [width] at next
      simpa using next

/-- Nowhere else does an instruction begin. -/
theorem groups_of_boundary (fit : ∀ group ∈ groups, Group script.labels.size group)
    (words : script.words.toList = groups.flatten) (boundary : script.Boundary offset) :
    ∃ front back, groups = front ++ back ∧ offset = front.flatten.length := by
  induction boundary with
  | first => exact ⟨[], groups, rfl, rfl⟩
  | next here head ih =>
      obtain ⟨front, back, split, rfl⟩ := ih
      cases back with
      | nil =>
          have inside := head.lt
          rw [← Array.length_toList, words, split, List.append_nil] at inside
          exact absurd inside (Nat.lt_irrefl _)
      | cons group back =>
          refine ⟨front ++ [group], back, by simp [split], ?_⟩
          rw [split, List.flatten_append, List.flatten_cons] at words
          obtain ⟨same, here, _, width⟩ := (fit group (by simp [split])).head words
          rw [head.unique here, width]
          simp

/-- **A well-formed script is sound.** -/
theorem sound_of_wellFormed (wellFormed : script.WellFormed) : script.Sound := by
  obtain ⟨groups, fit, words, labels⟩ := wellFormed
  refine ⟨?_, ?_⟩
  · intro offset boundary
    obtain ⟨front, back, split, rfl⟩ := groups_of_boundary fit words boundary
    cases back with
    | nil =>
        left
        rw [← Array.length_toList, words, split, List.append_nil]
    | cons group back =>
        right
        rw [split, List.flatten_append, List.flatten_cons] at words
        obtain ⟨instruction, head, fits, _⟩ := (fit group (by simp [split])).head words
        exact ⟨instruction, head, fits⟩
  · intro label target names
    obtain ⟨entry, known, rfl⟩ := Option.map_eq_some_iff.mp names
    rcases labels entry (Array.mem_of_getElem? known) with atEnd | ⟨front, group, back, split, here⟩
    · rw [atEnd, ← Array.length_toList, words]
      exact boundary_of_groups fit words (List.append_nil groups).symm
    · rw [here]
      exact boundary_of_groups fit words split

end Script
end NpcScript
