import NpcScript.Proofs.Compile.Layout

/-! # The words of a block, in closed form

Appending a block to code reserves labels and marks them later. What comes of it
can be said at once: the instructions of the block, its labels numbered on from
those there are (`NpcScript.Block.instructions`), and the offsets that they name
(`NpcScript.Block.targets`). This is what is appended to the words and to the
labels of the code (`NpcScript.Code.append_eq`).
-/

namespace NpcScript

/-- The instructions of an assignment: one for the target and one for each term. -/
def Instruction.assignment (target : Variable) (terms : List Term) : List Instruction :=
  .assign target.slot terms.length.toUInt8 ::
    terms.map fun term => .term term.operator term.operand

@[simp]
theorem Instruction.length_assignment (target : Variable) (terms : List Term) :
    (assignment target terms).length = terms.length + 1 := by
  simp [assignment]

namespace Block

/-- How many words a block takes up. -/
def size : Block → Nat
  | .done => 0
  | .assign _ terms rest => terms.length + 1 + rest.size
  | .call _ rest => 1 + rest.size
  | .guarded _ body rest => 1 + body.size + rest.size
  | .branch _ body alternative rest => 1 + body.size + 1 + alternative.size + rest.size

/-- The instructions of a block whose labels are numbered from a number on. -/
def instructions : Block → Nat → List Instruction
  | .done, _ => []
  | .assign target terms rest, label =>
      Instruction.assignment target terms ++ rest.instructions label
  | .call b rest, label => .call b.index none :: rest.instructions label
  | .guarded b body rest, label =>
      .call b.index (some label.toUInt32) :: (body.instructions (label + 1) ++
        rest.instructions (label + 1 + body.labels))
  | .branch b body alternative rest, label =>
      let past := label + 1 + body.labels
      .call b.index (some label.toUInt32) :: (body.instructions (label + 1) ++
        .jump past.toUInt32 :: (alternative.instructions (past + 1) ++
          rest.instructions (past + 1 + alternative.labels)))

/-- The offsets that the labels of a block name if it begins at an offset. -/
def targets : Block → Nat → List Nat
  | .done, _ => []
  | .assign _ terms rest, start => rest.targets (start + (terms.length + 1))
  | .call _ rest, start => rest.targets (start + 1)
  | .guarded _ body rest, start =>
      let stop := start + 1 + body.size
      stop :: (body.targets (start + 1) ++ rest.targets stop)
  | .branch _ body alternative rest, start =>
      let other := start + 1 + body.size + 1
      let stop := other + alternative.size
      other :: (body.targets (start + 1) ++
        stop :: (alternative.targets other ++ rest.targets stop))

/-- A block has as many instructions as its size tells. -/
theorem length_instructions (block : Block) (label : Nat) :
    (block.instructions label).length = block.size := by
  induction block generalizing label with
  | done => rfl
  | assign target terms rest ih => simp [instructions, size, ih]
  | call b rest ih => simp [instructions, size, ih, Nat.add_comm]
  | guarded b body rest ihBody ihRest =>
      simp only [instructions, size, List.length_cons, List.length_append, ihBody, ihRest]
      omega
  | branch b body alternative rest ihBody ihElse ihRest =>
      simp only [instructions, size, List.length_cons, List.length_append, ihBody, ihElse, ihRest]
      omega

/-- A block has a target for each of its labels. -/
theorem length_targets (block : Block) (start : Nat) :
    (block.targets start).length = block.labels := by
  induction block generalizing start with
  | done => rfl
  | assign target terms rest ih | call b rest ih => exact ih _
  | guarded b body rest ihBody ihRest =>
      simp only [targets, labels, List.length_cons, List.length_append, ihBody, ihRest]
  | branch b body alternative rest ihBody ihElse ihRest =>
      simp only [targets, labels, List.length_cons, List.length_append, ihBody, ihElse, ihRest]
      omega

end Block

namespace Code

open Block

variable (code : Code)

/-- The code with further instructions and labels. -/
def extend (instructions : List Instruction) (targets : List Nat) : Code where
  words := code.words ++ (instructions.map Instruction.encode).toArray
  labels := code.labels ++ (targets.map Nat.toUInt32).toArray

private theorem size_words_extend (instructions : List Instruction) (targets : List Nat) :
    (code.extend instructions targets).words.size = code.words.size + instructions.length := by
  simp [extend]

private theorem nextLabel_extend (instructions : List Instruction) (targets : List Nat) :
    (code.extend instructions targets).nextLabel = code.nextLabel + targets.length := by
  simp [extend, nextLabel]

private theorem extend_extend (first second : List Instruction) (targets others : List Nat) :
    (code.extend first targets).extend second others =
      code.extend (first ++ second) (targets ++ others) := by
  simp [extend]

private theorem push_eq (instruction : Instruction) :
    code.push instruction = code.extend [instruction] [] := by
  simp [push, extend]

/-- An assignment adds its instructions and no label. -/
theorem assign_eq (target : Variable) (terms : List Term) :
    code.assign target terms = code.extend (Instruction.assignment target terms) [] := by
  rw [assign, foldl_push_terms]
  simp [push, extend, Instruction.assignment, Function.comp_def]

private theorem openCall_eq (b : Builtin) :
    code.openCall b = code.extend [.call b.index (some code.nextLabel.toUInt32)] [0] := by
  simp [openCall, reserve, push, extend]

private theorem leave_eq : code.leave = code.extend [.jump code.nextLabel.toUInt32] [0] := by
  simp [leave, reserve, push, extend]

/-- Marking a label that was reserved behind those of the code. -/
theorem mark_extend (instructions : List Instruction) (front : List Nat) (old : Nat)
    (back : List Nat) {label : Nat} (place : label = code.nextLabel + front.length) :
    (code.extend instructions (front ++ old :: back)).mark label =
      code.extend instructions (front ++ (code.words.size + instructions.length) :: back) := by
  subst place
  simp [mark, extend, nextLabel]

private theorem mark_extend_first (instructions : List Instruction) (old : Nat) (back : List Nat) :
    (code.extend instructions (old :: back)).mark code.nextLabel =
      code.extend instructions ((code.words.size + instructions.length) :: back) :=
  mark_extend code instructions [] old back rfl

/-- A call with its block behind the code. -/
theorem append_openCall (b : Builtin) (body : Block)
    (below : (code.openCall b).append body = (code.openCall b).extend
      (body.instructions (code.openCall b).nextLabel) (body.targets (code.openCall b).words.size)) :
    (code.openCall b).append body =
      code.extend (.call b.index (some code.nextLabel.toUInt32) ::
        body.instructions (code.nextLabel + 1)) (0 :: body.targets (code.words.size + 1)) := by
  rw [below, openCall_eq, extend_extend, nextLabel_extend, size_words_extend]
  rfl

/-- An `Else` with its block behind a block that was opened behind the code. -/
theorem append_leave (alternative : Block) (instructions : List Instruction) (targets : List Nat)
    (below : ∀ code : Code, code.append alternative = code.extend
      (alternative.instructions code.nextLabel) (alternative.targets code.words.size)) :
    let past := code.nextLabel + 1 + targets.length
    let other := code.words.size + instructions.length + 1
    ((code.extend instructions (0 :: targets)).leave.mark code.nextLabel).append alternative =
      code.extend
        (instructions ++ Instruction.jump past.toUInt32 :: alternative.instructions (past + 1))
        (other :: targets ++ 0 :: alternative.targets other) := by
  intro past other
  have label : (code.extend instructions (0 :: targets)).nextLabel = past := by
    rw [nextLabel_extend, List.length_cons, Nat.add_comm targets.length, ← Nat.add_assoc]
  have next : (code.extend (instructions ++ [.jump past.toUInt32])
      (other :: (targets ++ [0]))).nextLabel = past + 1 := by
    rw [nextLabel_extend, List.length_cons, List.length_append, List.length_singleton]
    omega
  have words :
      code.words.size + (instructions ++ [Instruction.jump past.toUInt32]).length = other := by
    rw [List.length_append, List.length_singleton, ← Nat.add_assoc]
  rw [leave_eq, label, extend_extend, List.cons_append, mark_extend_first, words, below, next,
    size_words_extend, words, extend_extend]
  simp

/-- **What appending a block comes to.** -/
theorem append_eq (block : Block) :
    code.append block =
      code.extend (block.instructions code.nextLabel) (block.targets code.words.size) := by
  induction block generalizing code with
  | done => simp [append, extend, instructions, targets]
  | assign target terms rest ih =>
      rw [append, ih, assign_eq, extend_extend, nextLabel_extend, size_words_extend,
        Instruction.length_assignment]
      rfl
  | call b rest ih =>
      rw [append, ih, push_eq, extend_extend, nextLabel_extend, size_words_extend]
      rfl
  | guarded b body rest ihBody ihRest =>
      rw [append_guarded, append_openCall code b body (ihBody _), mark_extend_first, ihRest,
        extend_extend, nextLabel_extend, size_words_extend]
      simp [instructions, targets, length_instructions, length_targets, Nat.add_assoc,
        Nat.add_comm 1]
  | branch b body alternative rest ihBody ihElse ihRest =>
      have below := append_openCall code b body (ihBody _)
      have past : ((code.openCall b).append body).nextLabel = code.nextLabel + 1 + body.labels := by
        rw [below, nextLabel_extend, List.length_cons, length_targets, Nat.add_comm body.labels,
          ← Nat.add_assoc]
      have place : code.nextLabel + 1 + body.labels =
          code.nextLabel + (body.targets (code.words.size + 1)).length + 1 := by
        rw [length_targets, Nat.add_right_comm]
      have label : code.nextLabel + (body.labels + (alternative.labels + 1) + 1) =
          code.nextLabel + 1 + body.labels + 1 + alternative.labels := by omega
      have other : code.words.size + (body.size + 1) + 1 = code.words.size + 1 + body.size + 1 := by
        omega
      have stop : code.words.size + (body.size + (alternative.size + 1) + 1) =
          code.words.size + 1 + body.size + 1 + alternative.size := by omega
      rw [append_branch, past, below, append_leave code alternative _ _ ihElse,
        mark_extend code _ _ _ _ place, ihRest, extend_extend, nextLabel_extend, size_words_extend]
      simp only [instructions, targets, length_targets, length_instructions, List.length_cons,
        List.length_append, List.cons_append, List.append_assoc, label, other, stop]

end Code

namespace Script

variable (name : String) (clauses : List Clause)

/-- The words of a script are the instructions of its block. -/
theorem words_ofClauses : (ofClauses name clauses).words.toList =
    ((Block.ofClauses clauses).instructions 0).map Instruction.encode := by
  simp [ofClauses, Code.append_eq, Code.extend, Code.empty, Code.nextLabel]

/-- The labels of a script are the targets of its block. -/
theorem labels_ofClauses : (ofClauses name clauses).labels.toList =
    ((Block.ofClauses clauses).targets 0).map Nat.toUInt32 := by
  simp [ofClauses, Code.append_eq, Code.extend, Code.empty]

end Script
end NpcScript
