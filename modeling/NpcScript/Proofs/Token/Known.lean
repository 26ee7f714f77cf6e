import Mathlib.Data.List.SplitBy
import NpcScript.Statement
import NpcScript.Token.Lexer

/-! # Which variables tokens name

The lexer makes a variable token only of a name that resolves to a variable, so
the slot that such a token carries is always the slot of a variable. Grouping
tokens into lines adds no tokens.
-/

namespace NpcScript

/-- A token that names a variable has the slot of a variable. -/
def Token.Known (token : Token) : Prop :=
  ∀ slot, token.kind = .var slot → ∃ v : Variable, slot = v.slot.toUInt32.toInt32

namespace Lexer

private theorem wordKind_var {symbols : SymbolTable} {word : String} {slot : Int32}
    (kind : wordKind symbols word = .var slot) :
    ∃ v : Variable, slot = v.slot.toUInt32.toInt32 := by
  unfold wordKind at kind
  split at kind
  case h_2 v _ =>
    cases kind
    exact ⟨v, rfl⟩
  all_goals cases kind

private theorem readIdsz_ne_var (close : Char) (rest : List Char) (slot : Int32) :
    (readIdsz close rest).kind ≠ .var slot := by
  unfold readIdsz
  dsimp only
  split
  · split <;> simp
  · simp

private theorem readReference_ne_var (rest : List Char) (slot : Int32) :
    (readReference rest).kind ≠ .var slot := by
  unfold readReference
  dsimp only
  split
  · simp
  · split <;> simp

private theorem readNumber_ne_var (first : Char) (rest : List Char) (slot : Int32) :
    (readNumber first rest).kind ≠ .var slot := by
  unfold readNumber wholeKind fixedKind
  dsimp only
  split
  all_goals
    dsimp only
    split <;> simp

private theorem readSign_ne_var (first : Char) (rest : List Char) (slot : Int32) :
    (readSign first rest).kind ≠ .var slot := by
  unfold readSign
  dsimp only
  split <;> simp

private theorem read_var {symbols : SymbolTable} {first : Char} {rest : List Char} {slot : Int32}
    (kind : (read symbols first rest).kind = .var slot) :
    ∃ v : Variable, slot = v.slot.toUInt32.toInt32 := by
  unfold read at kind
  split at kind
  · exact absurd kind (readIdsz_ne_var _ _ _)
  · split at kind
    · exact absurd kind (readIdsz_ne_var _ _ _)
    · split at kind
      · exact absurd kind (readReference_ne_var _ _)
      · split at kind
        · exact absurd kind (readNumber_ne_var _ _ _)
        · split at kind
          · exact wordKind_var kind
          · exact absurd kind (readSign_ne_var _ _ _)

/-- Every token of a line is read from some place of it, and carries its number and level. -/
theorem mem_scan {symbols : SymbolTable} {line indent column : Nat} {text : List Char}
    {done : List Token} {token : Token}
    (member : token ∈ scan symbols line indent column text done) :
    token ∈ done ∨ (∃ c rest, token.kind = (read symbols c rest).kind) ∧
      token.location.line = line ∧ token.indent = indent := by
  fun_induction scan symbols line indent column text done with
  | case1 done => exact .inl (by simpa using member)
  | case2 column c rest done blank ih => exact ih member
  | case3 column c rest done _ comment => exact .inl (by simpa using member)
  | case4 column c rest done _ _ reading lexeme ih =>
      rcases ih member with earlier | later
      · rcases List.mem_cons.mp earlier with rfl | earlier
        · exact .inr ⟨⟨c, rest, rfl⟩, rfl, rfl⟩
        · exact .inl earlier
      · exact .inr later

/-- A token of a line has the kind of some reading, and the number and the level of the line. -/
theorem mem_lineTokens {symbols : SymbolTable} {number : Nat} {line : List Char} {token : Token}
    (member : token ∈ lineTokens symbols number line) :
    (∃ c rest, token.kind = (read symbols c rest).kind) ∧
      token.location.line = number ∧ token.indent = indentOf line := by
  rcases mem_scan member with impossible | read
  · cases impossible
  · exact read

/-- Every token of a script that names a variable names an existing one. -/
theorem tokens_known (symbols : SymbolTable) (source : String) :
    ∀ token ∈ tokens symbols source, token.Known := by
  intro token member
  obtain ⟨⟨line, number⟩, _, member⟩ := List.mem_flatMap.mp member
  obtain ⟨⟨c, rest, kind⟩, _, _⟩ := mem_lineTokens member
  exact fun slot named => read_var (kind.symm.trans named)

end Lexer

/-- Grouping tokens into lines adds no tokens. -/
theorem Line.mem_of_mem_group {tokens : List Token} {line : Line} {token : Token}
    (grouped : line ∈ Line.group tokens) (member : token ∈ line.tokens) : token ∈ tokens := by
  obtain ⟨group, groupMember, ofTokens⟩ := List.mem_filterMap.mp grouped
  cases group with
  | nil => cases ofTokens
  | cons first others =>
      cases ofTokens
      rw [← List.flatten_splitBy (fun a b : Token => a.location.line == b.location.line) tokens]
      exact List.mem_flatten.mpr ⟨first :: others, groupMember, member⟩

/-- Every token is on one of the lines. -/
theorem Line.exists_mem_group {tokens : List Token} {token : Token} (member : token ∈ tokens) :
    ∃ line ∈ Line.group tokens, token ∈ line.tokens := by
  rw [← List.flatten_splitBy (fun a b : Token => a.location.line == b.location.line) tokens]
    at member
  obtain ⟨group, groupMember, member⟩ := List.mem_flatten.mp member
  cases group with
  | nil => cases member
  | cons first others =>
      exact ⟨⟨first, others⟩, List.mem_filterMap.mpr ⟨_, groupMember, rfl⟩, member⟩

/-- The variables on the lines of a script are known. -/
theorem Line.known_of_mem_group {symbols : SymbolTable} {source : String} {line : Line}
    (grouped : line ∈ Line.group (Lexer.tokens symbols source)) :
    ∀ token ∈ line.tokens, token.Known := fun token member =>
  Lexer.tokens_known symbols source token (Line.mem_of_mem_group grouped member)

end NpcScript
