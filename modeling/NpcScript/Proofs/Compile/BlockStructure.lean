import NpcScript.Proofs.Compile.Correctness
import NpcScript.Proofs.Outline.Nested
import NpcScript.Proofs.Source.Rows

/-! # The blocks of compiled scripts

Blocks are marked by levels, of which there is no deepest one
(`NpcScript.Source.Nested`). The compiler tells levels apart up to the deepest
one of its own. As long as a script goes no deeper, what is compiled is nested
exactly if no line at that level requires a block
(`NpcScript.Script.nested_iff_of_compileSource`): at the deepest level a line
takes a line beside it for its block.
-/

namespace NpcScript

/-- A line that calls a predicate, or an `Else`. -/
def Line.RequiresBlock (line : Line) : Prop :=
  ∃ st, line.Says st ∧ st.RequiresBlock

private theorem Statement.RequiresBlock.ne_assign {st : Statement} (requires : st.RequiresBlock)
    (target : Variable) (terms : List Term) : st ≠ .assign target terms := by
  rintro rfl
  exact requires

namespace Source

/-- The blocks of a script are marked by the levels of its lines. -/
structure Nested (rows : List Row) : Prop where
  /-- Below a predicate or an `Else` stands a line one level deeper. -/
  owned : ∀ front row back, rows = front ++ row :: back → row.line.RequiresBlock →
    ∃ next rest, back = next :: rest ∧ next.level = row.level + 1
  /-- A line deeper than the one before it is one level deeper, and stands below a call or an
  `Else`. -/
  deeper : ∀ front row next back, rows = front ++ row :: next :: back → row.level < next.level →
    next.level = row.level + 1 ∧ (row.line.Says .otherwise ∨ ∃ b, row.line.Says (.call b))
  /-- Before an `Else` stand a call at its level and, behind that, the block of the call, which is
  not empty. -/
  ended : ∀ front row back, rows = front ++ row :: back → row.line.Says .otherwise →
    ∃ before head body, front = before ++ head :: body ∧ (∃ b, head.line.Says (.call b)) ∧
      head.level = row.level ∧ body ≠ [] ∧ ∀ inner ∈ body, row.level < inner.level

/-- The rows of an accepted script, the levels of which are all told apart. -/
structure Accepted (rows : List Row) : Prop where
  known : ∀ row ∈ rows, ∀ token ∈ row.line.tokens, token.Known
  indent : ∀ row ∈ rows, row.line.indent = row.level
  accepts : Outline.empty.Accepts (rows.map (·.line))

namespace Accepted

variable {rows front back : List Row} {row next : Row} {st : Statement}

private theorem accepts_split (accepted : Accepted (front ++ row :: back)) :
    Outline.empty.Accepts (front.map (·.line) ++ row.line :: back.map (·.line)) := by
  simpa using accepted.accepts

private theorem reads (accepted : Accepted (front ++ row :: back)) :
    ∃ st, row.line.Says st ∧ Statement.ofLine row.line = .ok st := by
  obtain ⟨_, st, reading, _⟩ := accepted.accepts_split.of_append.cons
  exact ⟨st, Line.said_of_ofLine (accepted.known row (by simp)) reading, reading⟩

/-- A call or an `Else` is read as what it says. -/
theorem ofLine_of_says (accepted : Accepted (front ++ row :: back)) (said : row.line.Says st)
    (calls : ∀ target terms, st ≠ .assign target terms) :
    Statement.ofLine row.line = .ok st := by
  obtain ⟨other, saidOther, reading⟩ := accepted.reads
  rw [reading, said.unique calls saidOther]

/-- A line that requires a block is followed by the line that the compiler takes for the first
one of the block. -/
theorem followed (accepted : Accepted (front ++ row :: back)) (requires : row.line.RequiresBlock) :
    ∃ next rest, back = next :: rest ∧ next.level = Opener.ownedLevel row.level := by
  obtain ⟨st, said, requires⟩ := requires
  have reading := accepted.ofLine_of_says said requires.ne_assign
  obtain ⟨line, lines, following, owned⟩ :=
    accepted.accepts_split.owned_of_requiresBlock reading requires
  obtain ⟨next, rest, rfl, rfl, _⟩ := List.map_eq_cons_iff.mp following
  rw [accepted.indent next (by simp), accepted.indent row (by simp)] at owned
  exact ⟨next, rest, rfl, owned⟩

private theorem deeper (accepted : Accepted (front ++ row :: next :: back))
    (deeper : row.level < next.level) :
    next.level = row.level + 1 ∧ (row.line.Says .otherwise ∨ ∃ b, row.line.Says (.call b)) := by
  obtain ⟨st, said, reading⟩ := accepted.reads
  rw [← accepted.indent next (by simp), ← accepted.indent row (by simp)] at deeper ⊢
  obtain ⟨owned, calls⟩ := accepted.accepts_split.owned_of_deeper reading deeper
  refine ⟨owned, ?_⟩
  cases st with
  | otherwise => exact .inl said
  | call b => exact .inr ⟨b, said⟩
  | assign target terms => exact absurd rfl (calls target terms)

/-- The block before an `Else` is not empty, unless the compiler takes the `Else` for its first
line. -/
theorem ended (accepted : Accepted (front ++ row :: back)) (said : row.line.Says .otherwise) :
    ∃ before head body, front = before ++ head :: body ∧ (∃ b, head.line.Says (.call b)) ∧
      head.level = row.level ∧ (body = [] → row.level = Opener.ownedLevel row.level) ∧
      ∀ inner ∈ body, row.level < inner.level := by
  have reading := accepted.ofLine_of_says said (by simp)
  obtain ⟨_, _, _, behind, heads, same, owned⟩ := accepted.accepts_split.ends_block reading
  obtain ⟨before, others, rfl, rfl, rest⟩ := List.map_eq_append_iff.mp behind
  obtain ⟨head, body, rfl, rfl, rfl⟩ := List.map_eq_cons_iff.mp rest
  obtain ⟨b, readingHead⟩ := heads.calls
  rw [accepted.indent row (by simp)] at same owned
  rw [accepted.indent head (by simp)] at same
  refine ⟨before, head, body, rfl,
    ⟨b, Line.said_of_ofLine (accepted.known head (by simp)) readingHead⟩, same, ?_, ?_⟩
  · rintro rfl
    exact owned rfl
  · intro inner member
    have deeper := heads.deeper inner.line (List.mem_map_of_mem member)
    rwa [accepted.indent head (by simp), accepted.indent inner (by simp [member]), same] at deeper

/-- **The lines of an accepted script are nested** exactly if none of those at the deepest level
requires a block. -/
theorem nested_iff (accepted : Accepted rows) :
    Nested rows ↔ ∀ row ∈ rows, row.line.RequiresBlock → row.level < maxIndent := by
  constructor
  · intro nested row member requires
    obtain ⟨front, back, rfl⟩ := List.append_of_mem member
    obtain ⟨next, rest, rfl, capped⟩ := accepted.followed requires
    -- both the compiler and the levels tell which line is the first of the block
    obtain ⟨_, _, ⟨⟩, owned⟩ := nested.owned _ _ _ rfl requires
    rw [Opener.ownedLevel] at capped
    omega
  · intro shallow
    refine ⟨?_, ?_, ?_⟩
    · rintro front row back rfl requires
      obtain ⟨next, rest, following, owned⟩ := accepted.followed requires
      have short := shallow row (by simp) requires
      rw [Opener.ownedLevel] at owned
      exact ⟨next, rest, following, by omega⟩
    · rintro front row next back rfl
      exact accepted.deeper
    · rintro front row back rfl said
      obtain ⟨before, head, body, split, calls, same, owned, deeper⟩ := accepted.ended said
      refine ⟨before, head, body, split, calls, same, ?_, deeper⟩
      intro nothing
      have short := shallow row (by simp) ⟨_, said, trivial⟩
      have capped := owned nothing
      rw [Opener.ownedLevel] at capped
      omega

end Accepted
end Source

namespace Script

open Source

variable {name source : String} {symbols : SymbolTable} {script : Script}

/-- **Blocks of a compiled script.** A script that goes no deeper than the levels that the
compiler tells apart is nested exactly if no predicate and no `Else` stands at the deepest one. -/
theorem nested_iff_of_compileSource
    (compiled : compileSource name source symbols = .ok script)
    (apart : ∀ row ∈ rows symbols source, row.level ≤ maxIndent) :
    Nested (rows symbols source) ↔
      ∀ row ∈ rows symbols source, row.line.RequiresBlock → row.level < maxIndent := by
  obtain ⟨accepts, _⟩ := compileSource_eq_ok compiled
  rw [← rows_lines] at accepts
  refine Accepted.nested_iff ⟨?_, ?_, accepts⟩
  · intro row member
    have grouped : row.line ∈ Line.group (Lexer.tokens symbols source) :=
      rows_lines symbols source ▸ List.mem_map_of_mem member
    exact Line.known_of_mem_group grouped
  · intro row member
    rw [indent_of_mem_rows member]
    exact Nat.min_eq_right (apart row member)

/-- The blocks of the guard nest, since none of its lines is at the deepest level. -/
theorem nested_guard :
    let symbols := SymbolTable.standard.defineConstant "FIVE" 5
    ∃ script, compileSource "guard" guardText symbols = .ok script ∧
      (∀ row ∈ rows symbols guardText, row.level ≤ maxIndent) ∧
      Nested (rows symbols guardText) := by
  intro symbols
  have accepted : (compileSource "guard" guardText symbols).toOption.isSome := by decide +kernel
  have shallow : ∀ row ∈ rows symbols guardText, row.level < maxIndent := by decide +kernel
  have apart : ∀ row ∈ rows symbols guardText, row.level ≤ maxIndent :=
    fun row member => Nat.le_of_lt (shallow row member)
  cases compiled : compileSource "guard" guardText symbols with
  | error diagnostics =>
      rw [compiled] at accepted
      cases accepted
  | ok script =>
      exact ⟨script, rfl, apart,
        (nested_iff_of_compileSource compiled apart).mpr fun row member _ => shallow row member⟩

/-! ## A guard at the deepest level -/

/-- Guards one below the other, down to the deepest level that is told apart. Beside the last one
stands a call. -/
def ladder : List (Nat × Builtin) :=
  (List.range (maxIndent + 1)).map (·, .ifSpawned) ++ [(maxIndent, .endScript)]

def ladderText : String :=
  String.ofList (['\n'].intercalate
    (ladder.map fun (level, b) => List.replicate level '\t' ++ b.name.toList))

/-- The rows of the ladder. -/
def ladderRows : List Row :=
  (ladder.zipIdx 1).map fun ((level, b), number) =>
    ⟨level, ⟨⟨.function b.index.toUInt32.toInt32, ⟨number, level + 1⟩, min maxIndent level,
      b.name⟩, []⟩⟩

private theorem mem_ladder {level : Nat} {b : Builtin} (member : (level, b) ∈ ladder) :
    b = .ifSpawned ∨ b = .endScript := by
  simp only [ladder, List.mem_append, List.mem_map, List.mem_singleton, Prod.mk.injEq] at member
  rcases member with ⟨_, _, _, rfl⟩ | ⟨_, rfl⟩
  · exact .inl rfl
  · exact .inr rfl

private theorem row?_ladder {level number : Nat} {b : Builtin}
    (known : b = .ifSpawned ∨ b = .endScript) :
    row? .standard (List.replicate level '\t' ++ b.name.toList) number =
      some ⟨level, ⟨⟨.function b.index.toUInt32.toInt32, ⟨number, level + 1⟩,
        min maxIndent level, b.name⟩, []⟩⟩ := by
  have kind : Lexer.wordKind .standard b.name = .function b.index.toUInt32.toInt32 := by
    rcases known with rfl | rfl <;> decide +kernel
  rw [← kind]
  have spelled : ∃ c name, b.name.toList = c :: name ∧ c.isAlpha ∧
      ∀ d ∈ name, Lexer.isWordChar d := by
    rcases known with rfl | rfl
    · exact ⟨'I', ['f', 'S', 'p', 'a', 'w', 'n', 'e', 'd'], by decide, rfl, List.all_eq_true.mp rfl⟩
    · exact ⟨'E', ['n', 'd'], by decide, rfl, List.all_eq_true.mp rfl⟩
  obtain ⟨c, name, spelled, alpha, wordChars⟩ := spelled
  exact row?_name spelled alpha wordChars

private theorem rows_ladderText : rows .standard ladderText = ladderRows := by
  rw [ladderText, rows_intercalate]
  · rw [List.zipIdx_map, List.filterMap_map, ladderRows, ← List.filterMap_eq_map]
    refine List.filterMap_congr ?_
    rintro ⟨⟨level, b⟩, number⟩ member
    exact row?_ladder (mem_ladder (List.fst_mem_of_mem_zipIdx member))
  · intro text member
    obtain ⟨⟨level, b⟩, rung, rfl⟩ := List.mem_map.mp member
    rcases mem_ladder rung with rfl | rfl <;> simp [List.mem_replicate] <;> decide
  · simp [ladder]

/-- **The last guard of the ladder has no block**, and the ladder is compiled. -/
theorem not_nested_ladder :
    ∃ script, compileSource "ladder" ladderText .standard = .ok script ∧
      ¬Nested (rows .standard ladderText) := by
  have faults : Outline.faults (Line.group (Lexer.tokens .standard ladderText)) = [] := by
    rw [← rows_lines, rows_ladderText]
    decide +kernel
  refine ⟨_, by simp only [compileSource, compile, faults]; rfl, ?_⟩
  intro nested
  rw [rows_ladderText] at nested
  let last : Line := ⟨⟨.function Builtin.ifSpawned.index.toUInt32.toInt32,
    ⟨maxIndent + 1, maxIndent + 1⟩, maxIndent, Builtin.ifSpawned.name⟩, []⟩
  have split : ladderRows =
      ladderRows.take maxIndent ++ ⟨maxIndent, last⟩ :: ladderRows.drop (maxIndent + 1) := by
    decide +kernel
  have predicate : last.RequiresBlock :=
    ⟨.call .ifSpawned, .call _ .ifSpawned rfl rfl (by decide), rfl⟩
  obtain ⟨next, rest, following, owned⟩ := nested.owned _ _ _ split predicate
  have beside : (ladderRows.drop (maxIndent + 1)).map (·.level) = [maxIndent] := by decide +kernel
  rw [following, List.map_cons, owned] at beside
  cases beside

end Script
end NpcScript
