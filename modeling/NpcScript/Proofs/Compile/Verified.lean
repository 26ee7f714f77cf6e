import NpcScript.Proofs.Compile.Correctness
import NpcScript.Proofs.Compile.Groups
import NpcScript.Proofs.Script.Verify
import NpcScript.Proofs.Statement.Known

/-! # Compiled scripts and verification

Compilation checks all that verification does, except that the variables among
the operands exist. Tokens that come from the text of a script name existing
variables only, so its compiled form passes verification
(`NpcScript.Script.verify_compileSource`). Tokens from elsewhere may name others:
what they compile to passes if and only if they do not
(`NpcScript.Script.verify_compile_iff`).
-/

namespace NpcScript.Script

variable {name : String} {tokens : List Token} {script : Script} {lines : List Line}

/-- The script of accepted lines whose variables exist is well-formed. -/
theorem wellFormed_ofClauses (known : ∀ line ∈ lines, ∀ token ∈ line.tokens, token.Known)
    (accepts : Outline.empty.Accepts lines)
    (small : (ofClauses name (lines.filterMap Clause.ofLine?)).words.size < UInt32.size) :
    (ofClauses name (lines.filterMap Clause.ofLine?)).WellFormed := by
  let block := Block.ofClauses (lines.filterMap Clause.ofLine?)
  have size : (Code.empty.append block).labels.size = 0 + block.labels :=
    (Code.grown_append _ block).size
  have few : block.labels ≤ Outline.maxLabels := Block.ofClauses_labels accepts
  have fits : block.Fits := (Block.ofClauses_becomes known accepts).fits
  have grouped : (Code.empty.append block).Grouped (Code.empty.append block).labels.size :=
    (Code.Grouped.empty _).append (by omega) fits (Nat.le_of_eq size.symm) small
  exact grouped.wellFormed

/-- The variables on accepted lines exist if the script of the lines is well-formed. -/
theorem known_of_wellFormed (accepts : Outline.empty.Accepts lines)
    (wellFormed : (ofClauses name (lines.filterMap Clause.ofLine?)).WellFormed) :
    ∀ line ∈ lines, ∀ token ∈ line.tokens, token.Known := by
  intro line member
  obtain ⟨st, reading⟩ := accepts.readable line member
  refine Statement.known_of_ofLine reading ?_
  rintro ⟨op, operand⟩ given
  have clause : (⟨line.indent, st⟩ : Clause) ∈ lines.filterMap Clause.ofLine? :=
    List.mem_filterMap.mpr ⟨line, member, Block.ofLine?_of_reading reading⟩
  have kept : ⟨op, operand⟩ ∈ (Block.ofClauses (lines.filterMap Clause.ofLine?)).assigned := by
    rw [Block.assigned_ofClauses accepts]
    exact List.mem_flatMap.mpr ⟨_, clause, given⟩
  cases operand with
  | constant value => trivial
  | var slot =>
      -- any slot fits its word, so the term is read back even if there is no variable in it
      exact wellFormed.known (Code.mem_words_of_assigned kept Code.empty)
        (Instruction.decode_encode_term_var op slot)

/-- **The compiled form of a text passes verification.** -/
theorem verify_compileSource {source : String} {symbols : SymbolTable}
    (compiled : compileSource name source symbols = .ok script)
    (small : script.words.size < UInt32.size) : script.verify = .ok () := by
  obtain ⟨accepts, rfl⟩ := compileSource_eq_ok compiled
  exact verify_of_wellFormed small
    (wellFormed_ofClauses (fun _ => Line.known_of_mem_group) accepts small)

/-- **What is compiled from tokens** passes verification if and only if every token that names a
variable names an existing one. -/
theorem verify_compile_iff (compiled : compile name tokens = .ok script)
    (small : script.words.size < UInt32.size) :
    script.verify = .ok () ↔ ∀ token ∈ tokens, token.Known := by
  obtain ⟨accepts, rfl⟩ := compile_eq_ok compiled
  rw [verify_eq_ok_iff small]
  constructor
  · intro wellFormed token member
    obtain ⟨line, grouped, onLine⟩ := Line.exists_mem_group member
    exact known_of_wellFormed accepts wellFormed line grouped token onLine
  · intro known
    refine wellFormed_ofClauses (fun line grouped token onLine => ?_) accepts small
    exact known token (Line.mem_of_mem_group grouped onLine)

/-- An assignment of what is in a slot to the first variable. -/
def slotTokens (slot : Int32) : List Token :=
  [⟨.var 0, ⟨1, 1⟩, 0, "tmpx"⟩, ⟨.assign, ⟨1, 6⟩, 0, "="⟩, ⟨.var slot, ⟨1, 8⟩, 0, "operand"⟩]

/-- The last slot that belongs to a variable passes. -/
theorem verify_compile_iff_slot :
    ∃ script, compile "slot" (slotTokens 43) = .ok script ∧ script.words.size < UInt32.size ∧
      (script.verify = .ok () ↔ ∀ token ∈ slotTokens 43, token.Known) ∧
      script.verify = .ok () := by
  have shape : (compile "slot" (slotTokens 43)).toOption.map (·.words.size) = some 2 := by
    decide +kernel
  obtain ⟨script, compiled, two⟩ := exists_ok_of_toOption shape
  have small : script.words.size < UInt32.size := by rw [two]; decide
  have passes := verify_compile_iff compiled small
  refine ⟨script, compiled, small, passes, passes.mpr ?_⟩
  simp only [slotTokens, List.forall_mem_cons]
  refine ⟨?_, Token.Known.of_ne_var (by simp), ?_, by simp⟩
  · rintro _ ⟨⟩
    exact ⟨.tmpX, rfl⟩
  · rintro _ ⟨⟩
    exact ⟨.timer, rfl⟩

/-- **There is no variable in slot 44**, and an assignment of it is compiled. -/
theorem verify_compile_ghost :
    ∃ script, compile "slot" (slotTokens 44) = .ok script ∧ script.words.size < UInt32.size ∧
      script.verify = .error (.unknownVariable 1 44) := by
  refine ⟨_, rfl, by decide +kernel, ?_⟩
  decide +kernel

end NpcScript.Script
