import NpcScript.Proofs.Block.Joined
import NpcScript.Proofs.Compile.Called
import NpcScript.Proofs.Outline.Joined
import NpcScript.Proofs.Outline.Moved
import NpcScript.Proofs.Source.Rows
import NpcScript.Proofs.Token.Joined

/-! # Scripts one behind the other

Two texts that are accepted on their own are accepted with a newline between
them, as long as calls can hold the labels of both. What comes of it is the first
script with the second one behind it: the labels that the words of the second one
go to are numbered on from those of the first one, and the offsets that they name
are further down by the words of the first one
(`NpcScript.Script.compileSource_joined`).
-/

namespace NpcScript

/-- The same place, a number of lines further down. -/
def Location.lower (count : Nat) (location : Location) : Location :=
  { location with line := location.line + count }

/-- The instruction with its label numbered on from a number of others. -/
def Instruction.relabel (more : UInt32) : Instruction → Instruction
  | .call builtin label => .call builtin (label.map (· + more))
  | .jump label => .jump (label + more)
  | .assign slot terms => .assign slot terms
  | .term operator operand => .term operator operand

/-- The word of an instruction with its label numbered on from a number of others. -/
def Instruction.relabelWord (more : UInt32) (word : UInt32) : UInt32 :=
  match decode word with
  | .ok instruction => (instruction.relabel more).encode
  | .error _ => word

private theorem Instruction.relabelWord_encode {instruction : Instruction} (fits : instruction.Fits)
    (more : UInt32) : relabelWord more instruction.encode = (instruction.relabel more).encode := by
  rw [relabelWord, decode_encode fits]

@[simp]
theorem Instruction.map_relabel_assignment (more : UInt32) (target : Variable) (terms : List Term) :
    (assignment target terms).map (relabel more) = assignment target terms := by
  simp [assignment, relabel]

/-! ## The lines of joined texts -/

private theorem Line.group_eq_nil_iff {tokens : List Token} : group tokens = [] ↔ tokens = [] := by
  constructor
  · intro nothing
    refine List.eq_nil_iff_forall_not_mem.mpr fun token member => ?_
    obtain ⟨line, grouped, _⟩ := exists_mem_group member
    rw [nothing] at grouped
    cases grouped
  · rintro rfl
    rfl

namespace Lexer

variable {symbols : SymbolTable}

private theorem lines_newline (s t : List Char) : lines (s ++ '\n' :: t) = lines s ++ lines t := by
  induction s using text_induction with
  | last s oneLine =>
      rw [lines_append_cons oneLine, lines_of_oneLine oneLine, List.singleton_append]
  | line line rest oneLine ih =>
      rw [List.append_assoc, List.cons_append, lines_append_cons oneLine, ih,
        lines_append_cons oneLine, List.cons_append]

/-- The lines of a text whose lines are numbered from a later number on are further down. -/
theorem group_tokensFrom_lower (text : List Char) (start count : Nat) :
    Line.group (tokensFrom symbols (start + count) text) =
      (Line.group (tokensFrom symbols start text)).map (Line.move (Location.lower count)) := by
  rw [Source.group_tokensFrom, Source.group_tokensFrom]
  induction lines text generalizing start with
  | nil => rfl
  | cons line others ih =>
      have lowered : Line.ofTokens? (lineTokens symbols (start + count) line) =
          (Line.ofTokens? (lineTokens symbols start line)).map
            (Line.move (Location.lower count)) := by
        rw [lineTokens_lower, ← Line.ofTokens?_map]
        rfl
      rw [List.zipIdx_cons, List.zipIdx_cons, List.filterMap_cons, List.filterMap_cons]
      dsimp only
      rw [lowered, Nat.add_right_comm, ih]
      cases Line.ofTokens? (lineTokens symbols start line) <;> rfl

/-- Behind a newline, the lines of a text are those that it has alone, further down. -/
theorem group_tokens_newline (symbols : SymbolTable) (s t : String) :
    ∃ count, Line.group (tokens symbols (s ++ "\n" ++ t)) =
      Line.group (tokens symbols s) ++
        (Line.group (tokens symbols t)).map (Line.move (Location.lower count)) := by
  have between : (s ++ "\n" ++ t).toList = s.toList ++ '\n' :: t.toList := by simp
  refine ⟨(lines s.toList).length, ?_⟩
  simp only [tokens_eq_tokensFrom]
  rw [← group_tokensFrom_lower, Source.group_tokensFrom, between, lines_newline, List.zipIdx_append,
    List.filterMap_append, ← Source.group_tokensFrom, ← Source.group_tokensFrom]

end Lexer

/-! ## The words of joined blocks -/

namespace Block

/-- Labels that are numbered on from others. -/
theorem instructions_add (block : Block) (more label : Nat) :
    block.instructions (more + label) =
      (block.instructions label).map (Instruction.relabel more.toUInt32) := by
  have further (label : Nat) : (more + label).toUInt32 = label.toUInt32 + more.toUInt32 := by
    rw [Nat.add_comm]
    exact UInt32.ofNat_add label more
  induction block generalizing label with
  | done => rfl
  | assign target terms rest ih => simp [instructions, ih]
  | call b rest ih => simp [instructions, ih, Instruction.relabel]
  | guarded b body rest ihBody ihRest =>
      simp only [instructions, Nat.add_assoc, ihBody, ihRest, further, List.map_cons,
        List.map_append, Instruction.relabel, Option.map_some]
  | branch b body alternative rest ihBody ihElse ihRest =>
      simp only [instructions, Nat.add_assoc, ihBody, ihElse, ihRest, further, List.map_cons,
        List.map_append, Instruction.relabel, Option.map_some]

/-- Offsets that begin further down. -/
theorem targets_add (block : Block) (more start : Nat) :
    block.targets (more + start) = (block.targets start).map (more + ·) := by
  induction block generalizing start with
  | done => rfl
  | assign target terms rest ih => simp only [targets, Nat.add_assoc, ih]
  | call b rest ih => simp only [targets, Nat.add_assoc, ih]
  | guarded b body rest ihBody ihRest =>
      simp only [targets, Nat.add_assoc, ihBody, ihRest, List.map_cons, List.map_append]
  | branch b body alternative rest ihBody ihElse ihRest =>
      simp only [targets, Nat.add_assoc, ihBody, ihElse, ihRest, List.map_cons, List.map_append]

private theorem instructions_followedBy (block next : Block) (label : Nat) :
    (block.followedBy next).instructions label =
      block.instructions label ++ next.instructions (label + block.labels) := by
  induction block generalizing label with
  | done => rfl
  | assign target terms rest ih | call b rest ih => simp [followedBy, instructions, labels, ih]
  | guarded b body rest _ ih =>
      have further : label + 1 + body.labels + rest.labels =
          label + (body.labels + rest.labels + 1) := by omega
      simp [followedBy, instructions, labels, ih, further]
  | branch b body alternative rest _ _ ih =>
      have further : label + 1 + body.labels + 1 + alternative.labels + rest.labels =
          label + (body.labels + alternative.labels + rest.labels + 2) := by omega
      simp [followedBy, instructions, labels, ih, further]

private theorem targets_followedBy (block next : Block) (start : Nat) :
    (block.followedBy next).targets start =
      block.targets start ++ next.targets (start + block.size) := by
  induction block generalizing start with
  | done => rfl
  | assign target terms rest ih => simp [followedBy, targets, size, ih, Nat.add_assoc]
  | call b rest ih => simp [followedBy, targets, size, ih, Nat.add_assoc]
  | guarded b body rest _ ih => simp [followedBy, targets, size, ih, Nat.add_assoc]
  | branch b body alternative rest _ _ ih => simp [followedBy, targets, size, ih, Nat.add_assoc]

end Block

/-! ## Joined scripts -/

namespace Script

variable {firstName secondName s t : String} {symbols : SymbolTable}
variable {first second : Script} {front back : List Line}

private theorem size_labels_ofClauses (name : String) (clauses : List Clause) :
    (ofClauses name clauses).labels.size = (Block.ofClauses clauses).labels := by
  rw [← Array.length_toList, labels_ofClauses, List.length_map, Block.length_targets]

private theorem size_words_ofClauses (name : String) (clauses : List Clause) :
    (ofClauses name clauses).words.size = (Block.ofClauses clauses).size := by
  rw [← Array.length_toList, words_ofClauses, List.length_map, Block.length_instructions]

section Joined

variable (name firstName secondName : String) (clauses : List Clause)
variable (accepts : Outline.empty.Accepts back)
include accepts

private theorem words_joined (known : ∀ line ∈ back, ∀ token ∈ line.tokens, token.Known) :
    let first := ofClauses firstName clauses
    let second := ofClauses secondName (back.filterMap Clause.ofLine?)
    (ofClauses name (clauses ++ back.filterMap Clause.ofLine?)).words =
      first.words ++ second.words.map (Instruction.relabelWord first.labels.size.toUInt32) := by
  intro first second
  have fits := fits_ofClauses known accepts
  have further := Block.instructions_add (Block.ofClauses (back.filterMap Clause.ofLine?))
    (Block.ofClauses clauses).labels 0
  rw [Nat.add_zero] at further
  apply Array.toList_inj.mp
  rw [Array.toList_append, Array.toList_map, words_ofClauses, words_ofClauses, words_ofClauses,
    Block.ofClauses_append clauses accepts, Block.instructions_followedBy, Nat.zero_add,
    List.map_append, size_labels_ofClauses, further, List.map_map, List.map_map]
  refine congrArg _ (List.map_congr_left fun instruction member => ?_)
  exact (Instruction.relabelWord_encode (fits instruction member) _).symm

/-- A word of an accepted script with its label numbered on is read back as such, as long as calls
can hold the labels. -/
theorem decode_relabelWord (known : ∀ line ∈ back, ∀ token ∈ line.tokens, token.Known) {more : Nat}
    (few : more + (Block.ofClauses (back.filterMap Clause.ofLine?)).labels ≤ Outline.maxLabels) :
    ∀ word ∈ (ofClauses secondName (back.filterMap Clause.ofLine?)).words.toList,
      Instruction.decode (Instruction.relabelWord more.toUInt32 word) =
        (Instruction.decode word).map (Instruction.relabel more.toUInt32) := by
  intro word inWords
  rw [words_ofClauses] at inWords
  obtain ⟨instruction, member, rfl⟩ := List.mem_map.mp inWords
  have fits := fits_ofClauses known accepts instruction member
  have further := Block.instructions_add (Block.ofClauses (back.filterMap Clause.ofLine?)) more 0
  have fitsFurther : (instruction.relabel more.toUInt32).Fits := by
    refine Block.fits_instructions (Block.ofClauses_becomes known accepts).fits few _ ?_
    rw [Nat.add_zero] at further
    rw [further]
    exact List.mem_map_of_mem member
  rw [Instruction.relabelWord_encode fits, Instruction.decode_encode fits,
    Instruction.decode_encode fitsFurther]
  rfl

private theorem labels_joined :
    let first := ofClauses firstName clauses
    let second := ofClauses secondName (back.filterMap Clause.ofLine?)
    (ofClauses name (clauses ++ back.filterMap Clause.ofLine?)).labels =
      first.labels ++ second.labels.map (· + first.words.size.toUInt32) := by
  intro first second
  have further := Block.targets_add (Block.ofClauses (back.filterMap Clause.ofLine?))
    (Block.ofClauses clauses).size 0
  rw [Nat.add_zero] at further
  apply Array.toList_inj.mp
  rw [Array.toList_append, Array.toList_map, labels_ofClauses, labels_ofClauses, labels_ofClauses,
    Block.ofClauses_append clauses accepts, Block.targets_followedBy, Nat.zero_add,
    List.map_append, size_words_ofClauses, further, List.map_map, List.map_map]
  refine congrArg _ (List.map_congr_left fun target _ => ?_)
  rw [Function.comp_apply, Nat.add_comm]
  exact UInt32.ofNat_add _ _

/-- The mark of the lines behind decides, unless there is none. -/
theorem endsWithEnd_joined : endsWithEnd (clauses ++ back.filterMap Clause.ofLine?) =
    if back = [] then endsWithEnd clauses else endsWithEnd (back.filterMap Clause.ofLine?) := by
  cases back with
  | nil => simp
  | cons l rest =>
      obtain ⟨fits, st, reading, _⟩ := accepts.cons
      have outer : l.indent = 0 := Nat.le_zero.mp fits
      rw [if_neg (List.cons_ne_nil l rest),
        List.filterMap_cons_some (Block.ofLine?_of_reading reading), outer]
      simp only [endsWithEnd, List.filter_append, List.getLast?_append]
      cases ends : ((⟨0, st⟩ :: rest.filterMap Clause.ofLine?).filter (·.level = 0)).getLast? with
      | none => simp at ends
      | some last => rfl

end Joined

/-- Two accepted texts have lines that make one walk without faults. -/
theorem accepts_joined (acceptsFront : Outline.empty.Accepts front)
    (acceptsBack : Outline.empty.Accepts back)
    (few : (Block.ofClauses (front.filterMap Clause.ofLine?)).labels +
      (Block.ofClauses (back.filterMap Clause.ofLine?)).labels ≤ Outline.maxLabels)
    (place : Location → Location) :
    Outline.empty.Accepts (front ++ back.map (Line.move place)) := by
  have moved : Outline.empty.Accepts (back.map (Line.move place)) :=
    (Outline.accepts_move_iff place Outline.empty back).mpr acceptsBack
  refine acceptsFront.append moved ?_
  rw [← Block.labels_ofClauses acceptsFront, ← Block.labels_ofClauses moved,
    Clause.filterMap_ofLine?_move]
  exact few

/-- **Joined texts** are relocated. With a newline between them, two accepted texts are accepted if
they have no more labels than calls can hold. The words are those of the first script and behind
them those of the second one, with the labels of calls and jumps numbered on; the labels are those
of the first script and behind them those of the second one, further down by the words of the first
one. The built-ins that either calls are counted, and it is marked like the second one, or like the
first one if there is no token in the second one. -/
theorem compileSource_joined (name : String)
    (compiledFirst : compileSource firstName s symbols = .ok first)
    (compiledSecond : compileSource secondName t symbols = .ok second)
    (few : first.labels.size + second.labels.size ≤ 65535) :
    ∃ script, compileSource name (s ++ "\n" ++ t) symbols = .ok script ∧
      script.words =
        first.words ++ second.words.map (Instruction.relabelWord first.labels.size.toUInt32) ∧
      script.words.toList.map Instruction.decode =
        first.words.toList.map Instruction.decode ++ second.words.toList.map (fun word =>
          (Instruction.decode word).map (Instruction.relabel first.labels.size.toUInt32)) ∧
      script.labels = first.labels ++ second.labels.map (· + first.words.size.toUInt32) ∧
      script.builtinsUsed.toNat = {b | first.Calls b ∨ second.Calls b}.ncard ∧
      script.flags = if Lexer.tokens symbols t = [] then first.flags else second.flags := by
  obtain ⟨acceptsFirst, rfl⟩ := compileSource_eq_ok compiledFirst
  obtain ⟨acceptsSecond, rfl⟩ := compileSource_eq_ok compiledSecond
  obtain ⟨count, lines⟩ := Lexer.group_tokens_newline symbols s t
  rw [size_labels_ofClauses, size_labels_ofClauses] at few
  have knownFirst : ∀ line ∈ Line.group (Lexer.tokens symbols s), ∀ token ∈ line.tokens,
    token.Known := fun _ => Line.known_of_mem_group
  have knownSecond : ∀ line ∈ Line.group (Lexer.tokens symbols t), ∀ token ∈ line.tokens,
    token.Known := fun _ => Line.known_of_mem_group
  have accepts := accepts_joined acceptsFirst acceptsSecond few (Location.lower count)
  refine ⟨_, compile_of_accepts (by rwa [lines]), ?_⟩
  rw [lines, List.filterMap_append, Clause.filterMap_ofLine?_move]
  refine ⟨words_joined _ _ _ _ acceptsSecond knownSecond, ?_, labels_joined _ _ _ _ acceptsSecond,
    ?_, ?_⟩
  · rw [words_joined name firstName secondName _ acceptsSecond knownSecond, Array.toList_append,
      Array.toList_map, List.map_append, List.map_map, size_labels_ofClauses]
    exact congrArg _ (List.map_congr_left (decode_relabelWord _ acceptsSecond knownSecond few))
  · rw [builtinsUsed_ofClauses]
    simp only [List.map_append, List.mem_append, calls_ofClauses_iff knownFirst acceptsFirst,
      calls_ofClauses_iff knownSecond acceptsSecond]
  · simp only [ofClauses, endsWithEnd_joined _ acceptsSecond, Line.group_eq_nil_iff]
    split <;> rfl

/-- A guard and an `Else`, with a label each. -/
def forkText : String := "IfSpawned\n  tmpx = 1\nElse\n  tmpx = 2"

/-- A guard with a label, and an `End`. -/
def stopText : String := "IfKilled\n  Stop\nEnd"

/-- The labels of the second script come behind the two of the first one. -/
theorem compileSource_joined_fork :
    ∃ first second script, compileSource "fork" forkText .standard = .ok first ∧
      compileSource "stop" stopText .standard = .ok second ∧
      first.labels.size + second.labels.size ≤ 65535 ∧
      compileSource "both" (forkText ++ "\n" ++ stopText) .standard = .ok script ∧
      script.words = first.words ++ second.words.map (Instruction.relabelWord 2) ∧
      script.labels = first.labels ++ second.labels.map (· + first.words.size.toUInt32) ∧
      script.builtinsUsed.toNat = {b | first.Calls b ∨ second.Calls b}.ncard ∧
      script.flags = second.flags := by
  have shapeFirst : (compileSource "fork" forkText .standard).toOption.map (·.labels.size) =
      some 2 := by
    decide +kernel
  have shapeSecond : (compileSource "stop" stopText .standard).toOption.map (·.labels.size) =
      some 1 := by
    decide +kernel
  have written : Lexer.tokens .standard stopText ≠ [] := by decide +kernel
  obtain ⟨first, compiledFirst, two⟩ := exists_ok_of_toOption shapeFirst
  obtain ⟨second, compiledSecond, one⟩ := exists_ok_of_toOption shapeSecond
  have few : first.labels.size + second.labels.size ≤ 65535 := by rw [two, one]; decide
  obtain ⟨script, compiled, words, _, labels, used, flags⟩ :=
    compileSource_joined "both" compiledFirst compiledSecond few
  rw [two] at words
  rw [if_neg written] at flags
  exact ⟨first, second, script, compiledFirst, compiledSecond, few, compiled, words, labels, used,
    flags⟩

end Script
end NpcScript
