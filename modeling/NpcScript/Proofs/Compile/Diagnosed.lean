import NpcScript.Compile
import NpcScript.Proofs.Outline.Faults
import NpcScript.Proofs.Source.Rows

/-! # The faults of a rejected script

A script is rejected with all its faults. They stand in the order of its lines,
each at a token, and no line with a token that makes no sense is left out
(`NpcScript.Script.diagnostics_compileSource`).
-/

namespace NpcScript

/-! ## The numbers of lines -/

section Numbers

variable {symbols : SymbolTable} {source : String} {text : List Char} {number start : Nat}
  {line : Line}

private theorem Line.tokens_of_ofTokens? {tokens : List Token}
    (made : Line.ofTokens? tokens = some line) : line.tokens = tokens := by
  cases tokens with
  | nil => cases made
  | cons first others =>
      cases made
      rfl

/-- The tokens of a line of text carry its number. -/
theorem Line.number_of_lineTokens
    (made : Line.ofTokens? (Lexer.lineTokens symbols number text) = some line) :
    line.Straight ∧ line.number = number := by
  have inLine : ∀ token ∈ line.tokens, token.location.line = number := by
    rw [Line.tokens_of_ofTokens? made]
    exact fun token member => (Lexer.mem_lineTokens member).2.1
  have here : line.number = number := inLine line.first List.mem_cons_self
  exact ⟨fun token member => here ▸ inLine token member, here⟩

private theorem Line.straight_of_mem_group
    (grouped : line ∈ Line.group (Lexer.tokens symbols source)) : line.Straight := by
  rw [Lexer.tokens_eq_tokensFrom, Source.group_tokensFrom] at grouped
  obtain ⟨⟨text, number⟩, _, made⟩ := List.mem_filterMap.mp grouped
  exact (Line.number_of_lineTokens made).1

/-- The lines of a script are numbered from top to bottom. -/
theorem Line.pairwise_group (symbols : SymbolTable) (source : String) :
    (Line.group (Lexer.tokens symbols source)).Pairwise fun upper lower =>
      upper.number < lower.number := by
  rw [Lexer.tokens_eq_tokensFrom, Source.group_tokensFrom, List.pairwise_filterMap]
  refine (Source.pairwise_zipIdx _ _).imp ?_
  rintro ⟨_, _⟩ ⟨_, _⟩ less upper madeUpper lower madeLower
  rw [(Line.number_of_lineTokens madeUpper).2, (Line.number_of_lineTokens madeLower).2]
  exact less

end Numbers

namespace Script

open Outline

variable {name source : String} {symbols : SymbolTable} {tokens : List Token}

/-- A script is rejected with the faults of its outline, of which there is one. -/
theorem compile_eq_error {diagnostics : Diagnostics}
    (rejected : compile name tokens = .error diagnostics) :
    diagnostics = ⟨name, faults (Line.group tokens)⟩ ∧ diagnostics.errors ≠ [] := by
  unfold compile at rejected
  dsimp only at rejected
  split at rejected
  · cases rejected
  · rename_i dirty
    cases rejected
    exact ⟨rfl, by simpa using dirty⟩

private theorem compile_of_faults (faulty : faults (Line.group tokens) ≠ []) :
    compile name tokens = .error ⟨name, faults (Line.group tokens)⟩ := by
  unfold compile
  exact if_neg (by simpa using faulty)

/-- What the faults of a text tell of its lines. -/
theorem faults_tokens (symbols : SymbolTable) (source : String) :
    let lines := Line.group (Lexer.tokens symbols source)
    (faults lines).Pairwise (fun earlier later => earlier.location.line ≤ later.location.line) ∧
      (∀ error ∈ faults lines, ∃ line ∈ lines, line.Holds error.location) ∧
      ∀ line ∈ lines, (∃ token ∈ line.tokens, token.Faulty) →
        ∃ error ∈ faults lines, error.location.line = line.number := by
  intro lines
  have below : lines.Pairwise fun upper lower => upper.number ≤ lower.number :=
    (Line.pairwise_group symbols source).imp Nat.le_of_lt
  have straight : ∀ line ∈ lines, line.Straight := fun _ => Line.straight_of_mem_group
  obtain ⟨number, told⟩ := told_empty.after_lines straight (fun _ _ => Nat.zero_le _) below
  obtain ⟨sorted, placed, complete⟩ := told.after_finish
  rw [List.nil_append] at placed complete
  refine ⟨List.pairwise_reverse.mpr sorted.ordered, ?_, ?_⟩
  · intro error member
    exact placed error (List.mem_reverse.mp member)
  · intro line member faulty
    obtain ⟨error, found, here⟩ := complete line member faulty
    exact ⟨error, List.mem_reverse.mpr found, here⟩

/-- **The faults of a script.** A text with a token that makes no sense, or a name without a
meaning, is rejected, and there is a fault on the line of every such token. Whenever a text is
rejected there are faults, they stand in the order of their lines, and each is at the place of a
token. -/
theorem diagnostics_compileSource (name source : String) (symbols : SymbolTable) :
    (∀ token ∈ Lexer.tokens symbols source, token.Faulty →
      ∃ diagnostics, compileSource name source symbols = .error diagnostics ∧
        ∃ error ∈ diagnostics.errors, error.location.line = token.location.line) ∧
    ∀ diagnostics, compileSource name source symbols = .error diagnostics →
      diagnostics.errors ≠ [] ∧
      diagnostics.errors.Pairwise (fun earlier later =>
        earlier.location.line ≤ later.location.line) ∧
      ∀ error ∈ diagnostics.errors, ∃ token ∈ Lexer.tokens symbols source,
        token.location = error.location := by
  obtain ⟨ordered, placed, complete⟩ := faults_tokens symbols source
  refine ⟨?_, ?_⟩
  · intro token member faulty
    obtain ⟨line, grouped, onLine⟩ := Line.exists_mem_group member
    obtain ⟨error, found, here⟩ := complete line grouped ⟨token, onLine, faulty⟩
    refine ⟨_, compile_of_faults (List.ne_nil_of_mem found), error, found, ?_⟩
    rw [here, Line.straight_of_mem_group grouped token onLine]
  · intro diagnostics rejected
    obtain ⟨rfl, nonempty⟩ := compile_eq_error rejected
    refine ⟨nonempty, ordered, ?_⟩
    intro error member
    obtain ⟨line, grouped, token, onLine, here⟩ := placed error member
    exact ⟨token, Line.mem_of_mem_group grouped onLine, here⟩

/-- A predicate without a block, a name without a meaning, a line that is too deep with a character
that makes no sense on it, and an `Else` without a call. -/
def muddledText : String := "IfSpawned\nnowhere\n      tmpx = $\nElse"

/-- The two lines with a faulty token are reported, and all faults are in order. -/
theorem diagnostics_compileSource_muddled :
    ∃ diagnostics, compileSource "muddled" muddledText .standard = .error diagnostics ∧
      (∃ error ∈ diagnostics.errors, error.location.line = 2) ∧
      (∃ error ∈ diagnostics.errors, error.location.line = 3) ∧
      diagnostics.errors.Pairwise (fun earlier later =>
        earlier.location.line ≤ later.location.line) ∧
      ∀ error ∈ diagnostics.errors, ∃ token ∈ Lexer.tokens .standard muddledText,
        token.location = error.location := by
  have name : (⟨.name, ⟨2, 1⟩, 0, "nowhere"⟩ : Token) ∈ Lexer.tokens .standard muddledText := by
    decide +kernel
  have sign : (⟨.unknown .unexpectedCharacter, ⟨3, 14⟩, 3, "$"⟩ : Token) ∈
      Lexer.tokens .standard muddledText := by
    decide +kernel
  obtain ⟨complete, sound⟩ := diagnostics_compileSource "muddled" muddledText .standard
  obtain ⟨diagnostics, rejected, second⟩ := complete _ name (.inr rfl)
  obtain ⟨_, same, third⟩ := complete _ sign (.inl ⟨_, rfl⟩)
  cases rejected.symm.trans same
  obtain ⟨_, ordered, placed⟩ := sound diagnostics rejected
  exact ⟨diagnostics, rejected, second, third, ordered, placed⟩

end Script
end NpcScript
