import Mathlib.Data.Set.Card
import NpcScript.Proofs.Compile.Assignment

/-! # Which operations a script calls

A script tells how many different operations it calls. For a compiled script
these are the ones whose calls are among its words
(`NpcScript.Script.calls_ofClauses_iff`, `NpcScript.Script.builtinsUsed_ofClauses`):
every line of an accepted script has words of its own, and the word of a call is
read back as that call.
-/

namespace NpcScript

private theorem Builtin.mem_all (b : Builtin) : b ∈ all := by
  cases b <;> decide

private theorem Builtin.index_injective : Function.Injective index := by
  intro a b same
  have found := ofIndex?_index a
  rw [same, ofIndex?_index b] at found
  exact (Option.some.inj found).symm

namespace Block

variable {b : Builtin} {block : Block}

/-- The instructions of a line call the operation that the line calls. -/
theorem call_mem_iff {entry : Entry} {instructions : List Instruction}
    (written : entry.Written instructions) :
    (∃ label, .call b.index label ∈ instructions) ↔ entry.statement = .call b := by
  cases written with
  | assign target terms => simp [Instruction.assignment]
  | otherwise => simp
  | call other owns label => simp [Builtin.index_injective.eq_iff, eq_comm]

/-- The instructions of a block call the operations that the lines of the block call. -/
theorem call_mem_instructions_iff (block : Block) (first : Nat) :
    (∃ label, .call b.index label ∈ block.instructions first) ↔
      .call b ∈ block.entries.map (·.statement) := by
  obtain ⟨groups, flat, written⟩ := instructions_written block first
  rw [flat]
  clear flat
  generalize block.entries = entries at written ⊢
  induction written with
  | nil => simp
  | cons here _ ih =>
      simp only [List.flatten_cons, List.mem_append, exists_or, List.map_cons, List.mem_cons,
        call_mem_iff here, ih, eq_comm]

private theorem fits_assignment {target : Variable} {terms : List Term}
    (fits : ∀ term ∈ terms, term.Fits) :
    ∀ instruction ∈ Instruction.assignment target terms, instruction.Fits := by
  refine List.forall_mem_cons.mpr ⟨trivial, ?_⟩
  intro instruction member
  obtain ⟨term, given, rfl⟩ := List.mem_map.mp member
  exact (fits term given).word

/-- The instructions of a block fit their words as long as calls can hold the labels. -/
theorem fits_instructions {first : Nat} (fits : block.Fits)
    (few : first + block.labels ≤ Outline.maxLabels) :
    ∀ instruction ∈ block.instructions first, instruction.Fits := by
  induction block generalizing first with
  | done => simp [instructions]
  | assign target terms rest ih =>
      obtain ⟨_, _, termsFit, restFits⟩ := fits
      exact List.forall_mem_append.mpr ⟨fits_assignment termsFit, ih restFits few⟩
  | call b rest ih =>
      have head : (Instruction.call b.index none).Fits := ⟨b.index_le, by simp⟩
      exact List.forall_mem_cons.mpr ⟨head, ih fits few⟩
  | guarded b body rest ihBody ihRest =>
      obtain ⟨bodyFits, restFits⟩ := fits
      simp only [labels] at few
      exact List.forall_mem_cons.mpr ⟨Code.fits_call b (by omega), List.forall_mem_append.mpr
        ⟨ihBody bodyFits (by omega), ihRest restFits (by omega)⟩⟩
  | branch b body alternative rest ihBody ihElse ihRest =>
      obtain ⟨bodyFits, elseFits, restFits⟩ := fits
      simp only [labels] at few
      let past := first + 1 + body.labels
      have inElse : ∀ instruction ∈ alternative.instructions (past + 1), instruction.Fits :=
        ihElse elseFits (by omega)
      have inRest : ∀ instruction ∈ rest.instructions (past + 1 + alternative.labels),
          instruction.Fits := ihRest restFits (by omega)
      have leaving : (Instruction.jump past.toUInt32).Fits := Code.fits_jump (by omega)
      have behind := List.forall_mem_cons.mpr
        ⟨leaving, List.forall_mem_append.mpr ⟨inElse, inRest⟩⟩
      exact List.forall_mem_cons.mpr ⟨Code.fits_call b (by omega),
        List.forall_mem_append.mpr ⟨ihBody bodyFits (by omega), behind⟩⟩

end Block

namespace Script

variable {name : String} {lines : List Line} {b : Builtin}

/-- A word of the script calls an operation. -/
def Calls (script : Script) (b : Builtin) : Prop :=
  ∃ offset label, script.Has offset (.call b.index label)

/-- The instructions of an accepted script are read back from its words. -/
theorem fits_ofClauses (known : ∀ line ∈ lines, ∀ token ∈ line.tokens, token.Known)
    (accepts : Outline.empty.Accepts lines) :
    ∀ instruction ∈ (Block.ofClauses (lines.filterMap Clause.ofLine?)).instructions 0,
      instruction.Fits :=
  Block.fits_instructions (Block.ofClauses_becomes known accepts).fits
    (by rw [Nat.zero_add]; exact Block.ofClauses_labels accepts)

/-- The words of an accepted script are read back as its instructions. -/
theorem decode_ofClauses (known : ∀ line ∈ lines, ∀ token ∈ line.tokens, token.Known)
    (accepts : Outline.empty.Accepts lines) :
    (ofClauses name (lines.filterMap Clause.ofLine?)).words.toList.map Instruction.decode =
      ((Block.ofClauses (lines.filterMap Clause.ofLine?)).instructions 0).map .ok := by
  rw [words_ofClauses, List.map_map]
  exact List.map_congr_left fun instruction member =>
    Instruction.decode_encode (fits_ofClauses known accepts instruction member)

private theorem has_iff {script : Script} {offset : Nat} {instruction : Instruction} :
    script.Has offset instruction ↔
      (script.words.toList.map Instruction.decode)[offset]? = some (.ok instruction) := by
  rw [List.getElem?_map, Array.getElem?_toList, Option.map_eq_some_iff]
  rfl

/-- An accepted script calls the operations that its lines call. -/
theorem calls_ofClauses_iff (known : ∀ line ∈ lines, ∀ token ∈ line.tokens, token.Known)
    (accepts : Outline.empty.Accepts lines) :
    (ofClauses name (lines.filterMap Clause.ofLine?)).Calls b ↔
      .call b ∈ (lines.filterMap Clause.ofLine?).map (·.statement) := by
  rw [← Clause.map_statement_entries, ← Block.entries_ofClauses accepts,
    ← Block.call_mem_instructions_iff _ 0, Calls, exists_comm]
  refine exists_congr fun label => ?_
  simp only [has_iff, decode_ofClauses known accepts, List.getElem?_map, Option.map_eq_some_iff,
    Except.ok.injEq, exists_eq_right]
  exact List.mem_iff_getElem?.symm

/-! ## Counting them -/

private theorem nodup_eraseDups {α : Type} [BEq α] [LawfulBEq α] (l : List α) :
    l.eraseDups.Nodup := by
  induction length : l.length using Nat.strongRecOn generalizing l with
  | ind n ih =>
      cases l with
      | nil => simp
      | cons a l =>
          rw [List.eraseDups_cons, List.nodup_cons]
          have shorter : (l.filter fun b => !b == a).length < n :=
            length ▸ Nat.lt_succ_of_le (List.length_filter_le _ _)
          exact ⟨by simp [List.mem_eraseDups], ih _ shorter _ rfl⟩

private theorem mem_calledBuiltins {clauses : List Clause} :
    b ∈ calledBuiltins clauses ↔ .call b ∈ clauses.map (·.statement) := by
  rw [calledBuiltins, List.mem_eraseDups, List.mem_filterMap, List.mem_map]
  refine exists_congr fun clause => and_congr_right fun _ => ?_
  cases clause.statement <;> simp

/-- There are few operations. -/
theorem length_calledBuiltins (clauses : List Clause) :
    (calledBuiltins clauses).length < UInt16.size := by
  have among : (calledBuiltins clauses).length ≤ Builtin.all.length :=
    ((nodup_eraseDups _).subperm fun b _ => b.mem_all).length_le
  exact among.trans_lt (by decide)

/-- **The number that a script tells** is that of the different operations that its clauses
call. -/
theorem builtinsUsed_ofClauses (clauses : List Clause) :
    (ofClauses name clauses).builtinsUsed.toNat =
      {b | Statement.call b ∈ clauses.map (·.statement)}.ncard := by
  have same : {b | Statement.call b ∈ clauses.map (·.statement)} =
      ((calledBuiltins clauses).toFinset : Set Builtin) := by
    ext b
    simp only [List.coe_toFinset, Set.mem_ofPred_eq, mem_calledBuiltins]
  have different : (calledBuiltins clauses).Nodup := nodup_eraseDups _
  rw [same, Set.ncard_coe_finset, List.toFinset_card_of_nodup different]
  exact UInt16.toNat_ofNat_of_lt' (length_calledBuiltins clauses)

end Script
end NpcScript
