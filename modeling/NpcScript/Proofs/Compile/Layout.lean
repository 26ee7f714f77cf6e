import Mathlib.Data.List.Basic
import NpcScript.Compile
import NpcScript.Proofs.Block.Execution
import NpcScript.Proofs.Block.Labels
import NpcScript.Proofs.Script.Boundary

/-! # Where blocks are laid out

A script lays a block out between two offsets when the words there hold the
instructions of the block and the labels that they go to name the right places.
The layout of a block is unaffected by what is laid out behind it and by marking
labels that were reserved before it, so appending a block to code lays it out at
the end of the code (`NpcScript.Code.laysOut_append`).
-/

namespace NpcScript

/-- The index of a built-in fits the field for it. -/
theorem Builtin.index_le (b : Builtin) : b.index ≤ Instruction.maxBuiltin := by
  cases b <;> decide

/-- A term that fits has a known operand. -/
theorem Term.Fits.operand_known {term : Term} (fits : term.Fits) : term.operand.Known := by
  cases operand : term.operand with
  | constant value => trivial
  | var slot => exact fits.known slot operand

namespace Script

variable (script : Script)

/-- The words from an offset on hold terms. -/
def HasTerms (offset : Nat) (terms : List Term) : Prop :=
  ∀ i (inside : i < terms.length),
    script.Has (offset + i) (.term terms[i].operator terms[i].operand)

/-- A block is laid out from one offset up to another. -/
inductive LaysOut : Block → (start stop : Nat) → Prop where
  | done (start : Nat) : LaysOut .done start start
  | assign {target : Variable} {terms : List Term} {rest : Block} {start stop : Nat}
      (writable : target.isWritable) (few : terms.length ≤ Statement.maxTerms)
      (fits : ∀ term ∈ terms, term.Fits)
      (head : script.Has start (.assign target.slot terms.length.toUInt8))
      (tail : script.HasTerms (start + 1) terms)
      (behind : LaysOut rest (start + 1 + terms.length) stop) :
      LaysOut (.assign target terms rest) start stop
  | call {b : Builtin} {rest : Block} {start stop : Nat}
      (head : script.Has start (.call b.index none)) (behind : LaysOut rest (start + 1) stop) :
      LaysOut (.call b rest) start stop
  | guarded {b : Builtin} {body rest : Block} {label : UInt32} {start next stop : Nat}
      (head : script.Has start (.call b.index (some label)))
      (below : LaysOut body (start + 1) next) (marked : script.labelOffset? label = some next)
      (behind : LaysOut rest next stop) :
      LaysOut (.guarded b body rest) start stop
  | branch {b : Builtin} {body alternative rest : Block} {label past : UInt32}
      {start jump next stop : Nat}
      (head : script.Has start (.call b.index (some label)))
      (below : LaysOut body (start + 1) jump) (leaving : script.Has jump (.jump past))
      (marked : script.labelOffset? label = some (jump + 1))
      (belowElse : LaysOut alternative (jump + 1) next)
      (markedPast : script.labelOffset? past = some next)
      (behind : LaysOut rest next stop) :
      LaysOut (.branch b body alternative rest) start stop

end Script

namespace Code

/-- Appends a call that owns a block. -/
def openCall (code : Code) (b : Builtin) : Code :=
  code.reserve.push (.call b.index (some code.nextLabel.toUInt32))

/-- Appends the jump of an `Else`. -/
def leave (code : Code) : Code :=
  code.reserve.push (.jump code.nextLabel.toUInt32)

@[simp]
theorem words_openCall (code : Code) (b : Builtin) :
    (code.openCall b).words.size = code.words.size + 1 := Array.size_push _

@[simp]
theorem words_leave (code : Code) : code.leave.words.size = code.words.size + 1 :=
  Array.size_push _

@[simp]
theorem words_mark (code : Code) (label : Nat) : (code.mark label).words = code.words := rfl

@[simp]
theorem size_mark (code : Code) (label : Nat) :
    (code.mark label).labels.size = code.labels.size := Array.size_setIfInBounds

/-- A guarded call is laid out in front of its block, behind which its label is marked. -/
theorem append_guarded (code : Code) (b : Builtin) (body rest : Block) :
    code.append (.guarded b body rest) =
      (((code.openCall b).append body).mark code.nextLabel).append rest := rfl

/-- A call with an `Else` is laid out in front of its block, a jump and the block of the `Else`,
each of which ends with a mark. -/
theorem append_branch (code : Code) (b : Builtin) (body alternative rest : Block) :
    code.append (.branch b body alternative rest) =
      (((((code.openCall b).append body).leave.mark code.nextLabel).append alternative).mark
        ((code.openCall b).append body).nextLabel).append rest := rfl

/-! ## Labels fit their words -/

private theorem label_le {label : Nat} (few : label < Outline.maxLabels) :
    label.toUInt32 ≤ Instruction.maxCallLabel := by
  rw [UInt32.le_iff_toNat_le, UInt32.toNat_ofNat_of_lt' (Nat.lt_trans few (by decide))]
  exact Nat.le_of_lt_succ few

/-- A label below the limit fits the word of a call. -/
theorem fits_call (b : Builtin) {label : Nat} (few : label < Outline.maxLabels) :
    (Instruction.call b.index (some label.toUInt32)).Fits := by
  refine ⟨b.index_le, ?_⟩
  intro l same
  cases same
  exact label_le few

/-- A label below the limit fits the word of a jump. -/
theorem fits_jump {label : Nat} (few : label < Outline.maxLabels) :
    (Instruction.jump label.toUInt32).Fits :=
  UInt32.le_trans (label_le few) (by decide)

/-! ## Code grows -/

/-- Code that grew out of other code and has more labels. Of the labels that were there before,
none was marked. -/
structure Grown (before after : Code) (more : Nat) : Prop where
  words : ∃ rest, after.words = before.words ++ rest
  size : after.labels.size = before.labels.size + more
  labels : ∀ i, i < before.labels.size → after.labels[i]? = before.labels[i]?

namespace Grown

variable {first second third : Code} {m n : Nat}

/-- Code has grown out of itself. -/
theorem refl (code : Code) : Grown code code 0 :=
  ⟨⟨#[], by simp⟩, rfl, fun _ _ => rfl⟩

/-- Code that grows twice has the labels of both times. -/
theorem trans (left : Grown first second m) (right : Grown second third n) :
    Grown first third (m + n) := by
  obtain ⟨middle, leftWords⟩ := left.words
  obtain ⟨rest, rightWords⟩ := right.words
  refine ⟨⟨middle ++ rest, ?_⟩, ?_, ?_⟩
  · rw [rightWords, leftWords, Array.append_assoc]
  · rw [right.size, left.size, Nat.add_assoc]
  · intro i inside
    rw [right.labels i (by rw [left.size]; omega), left.labels i inside]

private theorem extend (code : Code) (more : Array UInt32) :
    Grown code { code with words := code.words ++ more } 0 :=
  ⟨⟨more, rfl⟩, rfl, fun _ _ => rfl⟩

private theorem push (code : Code) (instruction : Instruction) :
    Grown code (code.push instruction) 0 :=
  ⟨⟨#[instruction.encode], by simp [Code.push]⟩, rfl, fun _ _ => rfl⟩

private theorem reserve (code : Code) : Grown code code.reserve 1 := by
  refine ⟨⟨#[], by simp [Code.reserve]⟩, by simp [Code.reserve], ?_⟩
  intro i inside
  rw [Code.reserve, Array.getElem?_push_lt inside, Array.getElem?_eq_getElem inside]

/-- A call that owns a block takes a label. -/
theorem openCall (code : Code) (b : Builtin) : Grown code (code.openCall b) 1 :=
  (Grown.reserve code).trans (Grown.push code.reserve _)

/-- The jump over the block of an `Else` takes a label. -/
theorem leave (code : Code) : Grown code code.leave 1 :=
  (Grown.reserve code).trans (Grown.push code.reserve _)

private theorem size_le (grown : Grown first second m) :
    first.labels.size ≤ second.labels.size := by
  rw [grown.size]
  exact Nat.le_add_right _ _

/-- Code that grows does not lose words. -/
theorem words_size_le (grown : Grown first second m) :
    first.words.size ≤ second.words.size := by
  obtain ⟨rest, words⟩ := grown.words
  rw [words, Array.size_append]
  exact Nat.le_add_right _ _

/-- Only a label that was reserved later may be marked. -/
theorem mark (grown : Grown first second m) {label : Nat} (later : first.labels.size ≤ label) :
    Grown first (second.mark label) m := by
  refine ⟨grown.words, ?_, ?_⟩
  · rw [Code.mark, Array.size_setIfInBounds, grown.size]
  · intro i inside
    rw [Code.mark, Array.getElem?_setIfInBounds_ne (by omega), grown.labels i inside]

end Grown

/-- Terms are pushed one word after the other. -/
theorem foldl_push_terms (terms : List Term) (code : Code) :
    (terms.foldl (fun code term => code.push (.term term.operator term.operand)) code) =
      { code with
        words := code.words ++ (terms.map fun term =>
          (Instruction.term term.operator term.operand).encode).toArray } := by
  induction terms generalizing code with
  | nil => simp
  | cons term terms ih =>
      rw [List.foldl_cons, ih]
      simp [push]

/-- An assignment takes no label. -/
theorem grown_assign (code : Code) (target : Variable) (terms : List Term) :
    Grown code (code.assign target terms) 0 := by
  unfold assign
  rw [foldl_push_terms]
  exact (Grown.push code _).trans (Grown.extend _ _)

/-- A block is appended behind the code, with labels of its own. -/
theorem grown_append (code : Code) (block : Block) :
    Grown code (code.append block) block.labels := by
  induction block generalizing code with
  | done => exact Grown.refl code
  | assign target terms rest ih =>
      have whole := (grown_assign code target terms).trans (ih _)
      rw [Nat.zero_add] at whole
      exact whole
  | call b rest ih =>
      have whole := (Grown.push code (.call b.index none)).trans (ih _)
      rw [Nat.zero_add] at whole
      exact whole
  | guarded b body rest ihBody ihRest =>
      have below := ((Grown.openCall code b).trans (ihBody _)).mark (Nat.le_refl _)
      have count : 1 + body.labels + rest.labels = (Block.guarded b body rest).labels := by
        simp only [Block.labels]
        omega
      rw [append_guarded, ← count]
      exact below.trans (ihRest _)
  | branch b body alternative rest ihBody ihElse ihRest =>
      have below := (Grown.openCall code b).trans (ihBody _)
      have leaving := (below.trans (Grown.leave _)).mark (Nat.le_refl _)
      have belowElse := (leaving.trans (ihElse _)).mark below.size_le
      have count : 1 + body.labels + 1 + alternative.labels + rest.labels =
          (Block.branch b body alternative rest).labels := by
        simp only [Block.labels]
        omega
      rw [append_branch, ← count]
      exact belowElse.trans (ihRest _)

/-! ## Laying out -/

/-- A script that contains the code. Those of its labels that are settled are the labels of the
code; the others are still to be marked. -/
structure Within (code : Code) (script : Script) (settled : Nat → Prop) : Prop where
  words : ∃ rest, script.words = code.words ++ rest
  labels : ∀ i, i < code.labels.size → settled i → script.labels[i]? = code.labels[i]?

namespace Within

variable {code before : Code} {script : Script} {settled fewer : Nat → Prop} {label more : Nat}

/-- What the code grew out of is within the script too. -/
theorem of_grown (within : Within code script settled) (grown : Grown before code more) :
    Within before script settled := by
  obtain ⟨middle, beforeWords⟩ := grown.words
  obtain ⟨rest, afterWords⟩ := within.words
  refine ⟨⟨middle ++ rest, ?_⟩, ?_⟩
  · rw [afterWords, beforeWords, Array.append_assoc]
  · intro i inside known
    rw [within.labels i (Nat.lt_of_lt_of_le inside grown.size_le) known, grown.labels i inside]

private theorem mono (within : Within code script settled)
    (narrower : ∀ i, i < code.labels.size → fewer i → settled i) : Within code script fewer :=
  ⟨within.words, fun i inside known => within.labels i inside (narrower i inside known)⟩

/-- Before a label is marked, it is not settled. -/
theorem of_mark (within : Within (code.mark label) script settled) :
    Within code script fun i => settled i ∧ i ≠ label := by
  refine ⟨within.words, ?_⟩
  intro i inside known
  rw [within.labels i (by rw [mark, Array.size_setIfInBounds]; exact inside) known.1, mark,
    Array.getElem?_setIfInBounds_ne known.2.symm]

private theorem words_size_le (within : Within code script settled) :
    code.words.size ≤ script.words.size := by
  obtain ⟨rest, words⟩ := within.words
  rw [words, Array.size_append]
  exact Nat.le_add_right _ _

/-- The instruction that was pushed last is in the script. -/
theorem has_push {instruction : Instruction} (fits : instruction.Fits)
    (within : Within (code.push instruction) script settled) :
    script.Has code.words.size instruction := by
  obtain ⟨rest, words⟩ := within.words
  refine ⟨instruction.encode, ?_, Instruction.decode_encode fits⟩
  rw [words, push, Array.getElem?_append_left (by simp), Array.getElem?_push_size]

/-- A label that was marked names the end of the code. -/
theorem labelOffset_mark (small : script.words.size < UInt32.size)
    (within : Within (code.mark label) script settled) (known : settled label)
    (reserved : label < code.labels.size) (few : code.labels.size ≤ Outline.maxLabels) :
    script.labelOffset? label.toUInt32 = some code.words.size := by
  have size : code.words.size ≤ script.words.size := within.words_size_le
  have place : label.toUInt32.toNat = label :=
    UInt32.toNat_ofNat_of_lt' (Nat.lt_trans (Nat.lt_of_lt_of_le reserved few) (by decide))
  have target : code.words.size.toUInt32.toNat = code.words.size :=
    UInt32.toNat_ofNat_of_lt' (Nat.lt_of_le_of_lt size small)
  have entry := within.labels label (by rw [mark, Array.size_setIfInBounds]; exact reserved) known
  rw [mark, Array.getElem?_setIfInBounds_self_of_lt reserved] at entry
  rw [Script.labelOffset?, place, entry, Option.map_some, target]

private theorem has_openCall {b : Builtin} (few : code.labels.size < Outline.maxLabels)
    (within : Within (code.openCall b) script settled) :
    script.Has code.words.size (.call b.index (some code.nextLabel.toUInt32)) := by
  have pushed : Within (code.reserve.push _) script settled := within
  have head := pushed.has_push (fits_call b few)
  exact head

private theorem has_leave (few : code.labels.size < Outline.maxLabels)
    (within : Within code.leave script settled) :
    script.Has code.words.size (.jump code.nextLabel.toUInt32) := by
  have pushed : Within (code.reserve.push _) script settled := within
  have head := pushed.has_push (fits_jump few)
  exact head

private theorem hasTerms_assign {target : Variable} {terms : List Term}
    (fits : ∀ term ∈ terms, term.Fits)
    (within : Within (code.assign target terms) script settled) :
    script.Has code.words.size (.assign target.slot terms.length.toUInt8) ∧
      script.HasTerms (code.words.size + 1) terms ∧
      (code.assign target terms).words.size = code.words.size + 1 + terms.length := by
  unfold assign at within ⊢
  rw [foldl_push_terms] at within ⊢
  refine ⟨?_, ?_, by simp [push]; omega⟩
  · have front : Within (code.push (.assign target.slot terms.length.toUInt8)) script settled :=
      within.of_grown (Grown.extend _ _)
    exact front.has_push trivial
  · intro i inside
    obtain ⟨rest, words⟩ := within.words
    refine ⟨_, ?_, Instruction.decode_encode (fits _ (List.getElem_mem inside)).word⟩
    rw [words, Array.getElem?_append_left (by simp [push]; omega),
      Array.getElem?_append_right (by simp [push])]
    simp [push, inside]

end Within

/-- **Appending a block lays it out** between the end of the code and the new end. -/
theorem laysOut_append {script : Script} (small : script.words.size < UInt32.size) (block : Block)
    (code : Code) (fits : block.Fits)
    (few : code.labels.size + block.labels ≤ Outline.maxLabels)
    (within : Within (code.append block) script (code.labels.size ≤ ·)) :
    script.LaysOut block code.words.size (code.append block).words.size := by
  induction block generalizing code with
  | done => exact .done _
  | assign target terms rest ih =>
      obtain ⟨writable, short, termsFit, restFits⟩ := fits
      have size : (code.assign target terms).labels.size = code.labels.size :=
        (grown_assign code target terms).size
      obtain ⟨head, tail, stop⟩ := (within.of_grown
        (grown_append (code.assign target terms) rest)).hasTerms_assign termsFit
      have behind := ih (code.assign target terms) restFits (by rw [size]; exact few)
        (by rw [size]; exact within)
      rw [stop] at behind
      exact .assign writable short termsFit head tail behind
  | call b rest ih =>
      have fitsCall : (Instruction.call b.index none).Fits := ⟨b.index_le, by simp⟩
      have head := (within.of_grown (grown_append (code.push (.call b.index none)) rest)).has_push
        fitsCall
      have behind := ih (code.push (.call b.index none)) fits few within
      rw [push, Array.size_push] at behind
      exact .call head behind
  | guarded b body rest ihBody ihRest =>
      obtain ⟨bodyFits, restFits⟩ := fits
      simp only [Block.labels] at few
      rw [append_guarded] at within ⊢
      have sizeOpen := (Grown.openCall code b).size
      have sizeBody := (grown_append (code.openCall b) body).size
      have withinMark := within.of_grown (grown_append _ rest)
      have marked := withinMark.labelOffset_mark small (Nat.le_refl _)
        (by rw [nextLabel]; omega) (by omega)
      have withinBody := withinMark.of_mark
      have head := (withinBody.of_grown (grown_append _ body)).has_openCall (by omega)
      have below := ihBody (code.openCall b) bodyFits (by omega)
        (withinBody.mono fun i _ later => by rw [nextLabel]; omega)
      have behind := ihRest _ restFits (by rw [size_mark]; omega)
        (within.mono fun i _ later => by rw [size_mark] at later; omega)
      rw [words_openCall] at below
      exact .guarded head below marked behind
  | branch b body alternative rest ihBody ihElse ihRest =>
      obtain ⟨bodyFits, elseFits, restFits⟩ := fits
      simp only [Block.labels] at few
      rw [append_branch] at within ⊢
      have sizeOpen := (Grown.openCall code b).size
      have sizeBody := (grown_append (code.openCall b) body).size
      generalize owned : (code.openCall b).append body = ownedCode at *
      have sizeLeave := (Grown.leave ownedCode).size
      have sizeMark := size_mark ownedCode.leave code.nextLabel
      have sizeElse := (grown_append (ownedCode.leave.mark code.nextLabel) alternative).size
      have withinMark := within.of_grown (grown_append _ rest)
      have markedPast := withinMark.labelOffset_mark small (by rw [nextLabel]; omega)
        (by rw [nextLabel]; omega) (by omega)
      have withinElse := withinMark.of_mark
      have withinLeave := withinElse.of_grown (grown_append _ alternative)
      have marked := withinLeave.labelOffset_mark small
        (by simp only [nextLabel]; omega) (by rw [nextLabel]; omega) (by omega)
      have leaving := withinLeave.of_mark.has_leave (by omega)
      have withinBody := withinLeave.of_mark.of_grown (Grown.leave ownedCode)
      have head := (withinBody.of_grown (owned ▸ grown_append _ body)).has_openCall (by omega)
      have below := ihBody (code.openCall b) bodyFits (by omega)
        (by rw [owned]; exact withinBody.mono fun i _ later => by simp only [nextLabel]; omega)
      have belowElse := ihElse (ownedCode.leave.mark code.nextLabel) elseFits (by omega)
        (withinElse.mono fun i _ later => by rw [nextLabel]; omega)
      have behind := ihRest _ restFits (by rw [size_mark]; omega)
        (within.mono fun i _ later => by rw [size_mark] at later; omega)
      rw [owned, words_openCall] at below
      rw [words_leave] at marked
      rw [words_mark, words_leave] at belowElse
      exact .branch head below leaving marked belowElse markedPast behind

end Code
end NpcScript
