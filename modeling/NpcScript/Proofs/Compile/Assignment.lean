import NpcScript.Proofs.Compile.Correctness
import NpcScript.Proofs.Compile.Emitted
import NpcScript.Proofs.Statement.Grammar

/-! # The words of assignments

A line that begins with a variable is read without a fault exactly if it is
written as an assignment. Every line has its own words in a compiled script,
behind those of the lines before it, and the words of an assignment give back
what its grammar says: the slot of its target, the number of its operands, and
each operand with its operator (`NpcScript.Script.assignment_grammar`).
-/

namespace NpcScript

/-- How many words a statement takes up. -/
def Statement.width : Statement → Nat
  | .assign _ terms => terms.length + 1
  | .call _ | .otherwise => 1

/-- The instructions of a line, whatever labels they go to. -/
inductive Entry.Written : Entry → List Instruction → Prop where
  | assign (target : Variable) (terms : List Term) (owns : Bool) :
      Written ⟨.assign target terms, owns⟩ (Instruction.assignment target terms)
  | call (b : Builtin) (owns : Bool) (label : Option UInt32) :
      Written ⟨.call b, owns⟩ [.call b.index label]
  | otherwise (owns : Bool) (label : UInt32) : Written ⟨.otherwise, owns⟩ [.jump label]

private theorem Entry.Written.length {entry : Entry} {instructions : List Instruction}
    (written : entry.Written instructions) : instructions.length = entry.statement.width := by
  cases written with
  | assign target terms => exact Instruction.length_assignment target terms
  | call | otherwise => rfl

namespace Block

/-- What a block says is written line by line. -/
theorem instructions_written (block : Block) (label : Nat) :
    ∃ groups, block.instructions label = groups.flatten ∧
      List.Forall₂ Entry.Written block.entries groups := by
  induction block generalizing label with
  | done => exact ⟨[], rfl, .nil⟩
  | assign target terms rest ih =>
      obtain ⟨groups, same, written⟩ := ih label
      exact ⟨_ :: groups, by rw [instructions, same, List.flatten_cons],
        .cons (.assign target terms false) written⟩
  | call b rest ih =>
      obtain ⟨groups, same, written⟩ := ih label
      exact ⟨_ :: groups, by rw [instructions, same]; rfl, .cons (.call b false none) written⟩
  | guarded b body rest ihBody ihRest =>
      obtain ⟨inner, sameBody, writtenBody⟩ := ihBody (label + 1)
      obtain ⟨outer, sameRest, writtenRest⟩ := ihRest (label + 1 + body.labels)
      refine ⟨[.call b.index (some label.toUInt32)] :: (inner ++ outer), ?_, ?_⟩
      · rw [instructions, sameBody, sameRest, List.flatten_cons, List.flatten_append]
        rfl
      · exact .cons (.call b true _) (List.rel_append writtenBody writtenRest)
  | branch b body alternative rest ihBody ihElse ihRest =>
      let past := label + 1 + body.labels
      obtain ⟨inner, sameBody, writtenBody⟩ := ihBody (label + 1)
      obtain ⟨other, sameElse, writtenElse⟩ := ihElse (past + 1)
      obtain ⟨outer, sameRest, writtenRest⟩ := ihRest (past + 1 + alternative.labels)
      refine ⟨[.call b.index (some label.toUInt32)] ::
        (inner ++ [.jump past.toUInt32] :: (other ++ outer)), ?_, ?_⟩
      · simp [instructions, sameBody, sameElse, sameRest, past]
      · exact .cons (.call b true _) (List.rel_append writtenBody
          (.cons (.otherwise true _) (List.rel_append writtenElse writtenRest)))

end Block

/-- What is related to a list with an element in it has one that is related to that. -/
theorem forall₂_append_cons {α β : Type} {relation : α → β → Prop} {front back : List α} {a : α}
    {bs : List β} (related : List.Forall₂ relation (front ++ a :: back) bs) :
    ∃ before b after, bs = before ++ b :: after ∧ List.Forall₂ relation front before ∧
      relation a b := by
  induction front generalizing bs with
  | nil =>
      cases related with
      | cons head _ => exact ⟨[], _, _, rfl, .nil, head⟩
  | cons first front ih =>
      cases related with
      | cons head tail =>
          obtain ⟨before, b, after, rfl, relatedFront, here⟩ := ih tail
          exact ⟨_ :: before, b, after, rfl, .cons head relatedFront, here⟩

/-- How many words a line takes up. -/
def Line.width (line : Line) : Nat :=
  match Statement.ofLine line with
  | .ok st => st.width
  | .error _ => 0

/-- The faults that are noted when a line is read. -/
def Rejection.noted {α : Type} : Except Rejection α → List CompileError
  | .ok _ => []
  | .error rejection => rejection.errors

/-- The words give back an assignment: the slot of its target, the number of its operands, and each
operand with its operator. -/
def Statement.Decoded (words : List UInt32) (target : Variable) (terms : List Term) : Prop :=
  ∃ count : UInt8, count.toNat = terms.length ∧
    words.map Instruction.decode = .ok (.assign target.slot count) ::
      terms.map fun term => .ok (.term term.operator term.operand)

namespace Statement

variable {line : Line} {target : Variable} {terms : List Term}

private theorem decoded_assignment (few : terms.length ≤ maxTerms)
    (fits : ∀ term ∈ terms, term.Fits) :
    Decoded ((Instruction.assignment target terms).map Instruction.encode) target terms := by
  refine ⟨terms.length.toUInt8, UInt8.toNat_ofNat_of_lt' (Nat.lt_succ_of_le few), ?_⟩
  have head : (Instruction.assign target.slot terms.length.toUInt8).Fits := trivial
  rw [Instruction.assignment, List.map_map, List.map_cons, List.map_map, Function.comp_apply,
    Instruction.decode_encode head]
  refine congrArg _ (List.map_congr_left fun term member => ?_)
  exact Instruction.decode_encode (fits term member).word

/-- A line without a token that makes no sense is read as an assignment if it begins with a
variable. -/
theorem ofLine_of_var {slot : Int32} (named : line.first.kind = .var slot)
    (resolved : ∀ token ∈ line.tokens, tokenError? token = none) :
    ofLine line = ofAssignment line.first slot line.others := by
  have clean : line.tokens.filterMap tokenError? = [] := List.filterMap_eq_nil_iff.mpr resolved
  rw [ofLine, clean, named]
  rfl

private theorem noted_eq_nil_iff {slot : Int32} :
    Rejection.noted (ofAssignment line.first slot line.others) = [] ↔
      ∃ st, ofAssignment line.first slot line.others = .ok st := by
  cases reading : ofAssignment line.first slot line.others with
  | ok st => exact ⟨fun _ => ⟨st, rfl⟩, fun _ => rfl⟩
  | error rejection =>
      have found := found_of_ofAssignment_error reading line.holds_first line.holds_others
      simp [Rejection.noted, found.nonempty]

end Statement

namespace Script

variable {source : String} {symbols : SymbolTable} {front back : List Line} {line : Line}
variable {st : Statement}

private theorem length_written {entries : List Entry} {groups : List (List Instruction)}
    (written : List.Forall₂ Entry.Written entries groups) :
    groups.flatten.length = ((entries.map (·.statement)).map Statement.width).sum := by
  induction written with
  | nil => rfl
  | cons here _ ih => simp [here.length, ih]

private theorem sum_width (lines : List Line) :
    (((lines.filterMap Clause.ofLine?).map (·.statement)).map Statement.width).sum =
      (lines.map Line.width).sum := by
  induction lines with
  | nil => rfl
  | cons line lines ih =>
      cases reading : Statement.ofLine line with
      | ok st => simp [Clause.ofLine?, Line.width, reading, ← ih]
      | error rejection => simp [Clause.ofLine?, Line.width, reading, ← ih]

/-- Every line of an accepted script has words of its own, behind those of the lines before it. -/
theorem words_of_line (name : String) (accepts : Outline.empty.Accepts (front ++ line :: back))
    (reading : Statement.ofLine line = .ok st) :
    ∃ before instructions after owns,
      (ofClauses name ((front ++ line :: back).filterMap Clause.ofLine?)).words.toList =
        before ++ instructions.map Instruction.encode ++ after ∧
      before.length = (front.map Line.width).sum ∧ Entry.Written ⟨st, owns⟩ instructions := by
  let clauses := (front ++ line :: back).filterMap Clause.ofLine?
  have statements : (Block.ofClauses clauses).entries.map (·.statement) =
      (front.filterMap Clause.ofLine?).map (·.statement) ++
        st :: (back.filterMap Clause.ofLine?).map (·.statement) := by
    rw [Block.entries_ofClauses accepts, Clause.map_statement_entries, List.filterMap_append,
      List.filterMap_cons_some (Block.ofLine?_of_reading reading), List.map_append, List.map_cons]
  obtain ⟨earlier, rest, split, sameFront, sameRest⟩ := List.map_eq_append_iff.mp statements
  obtain ⟨⟨_, owns⟩, later, rfl, rfl, _⟩ := List.map_eq_cons_iff.mp sameRest
  obtain ⟨groups, flat, written⟩ := Block.instructions_written (Block.ofClauses clauses) 0
  rw [split] at written
  obtain ⟨before, group, after, rfl, writtenBefore, here⟩ := forall₂_append_cons written
  refine ⟨before.flatten.map Instruction.encode, group, after.flatten.map Instruction.encode, owns,
    ?_, ?_, here⟩
  · rw [words_ofClauses, flat]
    simp
  · rw [List.length_map, length_written writtenBefore, sameFront, sum_width]

/-- **Assignments.** Take a line of a text that begins with a variable and has no token on it that
makes no sense. No fault is noted on it exactly if it is written as an assignment: to a writable
variable, with at most 255 operands, of the form `[op] operand (op operand)*`. Then it is read as
this assignment, and the words that are appended for it, which in a compiled script stand behind
those of the lines before it, give back the slot of the target, the number of operands, and each
operand with its operator. -/
theorem assignment_grammar {slot : Int32}
    (grouped : line ∈ Line.group (Lexer.tokens symbols source))
    (named : line.first.kind = .var slot)
    (resolved : ∀ token ∈ line.tokens,
      token.kind ≠ .name ∧ ∀ cause, token.kind ≠ .unknown cause) :
    (Rejection.noted (Statement.ofAssignment line.first slot line.others) = [] ↔
      ∃ target terms, line.Assigns target terms) ∧
    ∀ target terms, line.Assigns target terms →
      Statement.ofLine line = .ok (.assign target terms) ∧
      (∀ code : Code, ∃ words,
        (code.assign target terms).words.toList = code.words.toList ++ words ∧
          Statement.Decoded words target terms) ∧
      ∀ name script, compileSource name source symbols = .ok script →
        ∀ front back, Line.group (Lexer.tokens symbols source) = front ++ line :: back →
          ∃ before words after, script.words.toList = before ++ words ++ after ∧
            before.length = (front.map Line.width).sum ∧
            Statement.Decoded words target terms := by
  have known : ∀ token ∈ line.tokens, token.Known := Line.known_of_mem_group grouped
  have noFault : ∀ token ∈ line.tokens, Statement.tokenError? token = none := by
    intro token member
    obtain ⟨notName, notUnknown⟩ := resolved token member
    unfold Statement.tokenError?
    split
    · exact absurd ‹_› (notUnknown _)
    · exact absurd ‹_› notName
    · rfl
  have asAssignment := Statement.ofLine_of_var named noFault
  refine ⟨?_, ?_⟩
  · rw [Statement.noted_eq_nil_iff]
    simp only [Statement.ofAssignment_eq_ok_iff known named]
    constructor
    · rintro ⟨_, target, terms, _, assigns⟩
      exact ⟨target, terms, assigns⟩
    · rintro ⟨target, terms, assigns⟩
      exact ⟨_, target, terms, rfl, assigns⟩
  · intro target terms assigns
    have reading : Statement.ofLine line = .ok (.assign target terms) := by
      rw [asAssignment]
      exact (Statement.ofAssignment_eq_ok_iff known named).mpr ⟨target, terms, rfl, assigns⟩
    have decoded : Statement.Decoded
        ((Instruction.assignment target terms).map Instruction.encode) target terms := by
      cases Line.said_of_ofLine known reading with
      | assign _ _ _ _ _ _ few fits => exact Statement.decoded_assignment few fits
    refine ⟨reading, ?_, ?_⟩
    · intro code
      exact ⟨_, by rw [Code.assign_eq, Code.extend]; simp, decoded⟩
    · intro name script compiled front back split
      obtain ⟨accepts, rfl⟩ := compileSource_eq_ok compiled
      rw [split] at accepts ⊢
      obtain ⟨before, instructions, after, owns, words, place, written⟩ :=
        words_of_line name accepts reading
      cases written
      exact ⟨before, _, after, words, place, decoded⟩

/-- Two assignments, the second one with a sign in front of its first operand. -/
def scaledText : String := "tmpx = 7\ntmpy = - selfx * 2"

/-- The second line. -/
def scaledLine : Line :=
  ⟨⟨.var 1, ⟨2, 1⟩, 0, "tmpy"⟩, [⟨.assign, ⟨2, 6⟩, 0, "="⟩, ⟨.operator .sub, ⟨2, 8⟩, 0, "-"⟩,
    ⟨.var 6, ⟨2, 10⟩, 0, "selfx"⟩, ⟨.operator .mul, ⟨2, 16⟩, 0, "*"⟩,
    ⟨.number 2, ⟨2, 18⟩, 0, "2"⟩]⟩

/-- The second line is read as two terms, of which the first one is subtracted. -/
theorem assignment_grammar_scaled :
    let terms : List Term := [⟨.sub, .var Variable.selfX.slot⟩, ⟨.mul, .constant 2⟩]
    scaledLine ∈ Line.group (Lexer.tokens .standard scaledText) ∧
      scaledLine.first.kind = .var 1 ∧
      (∀ token ∈ scaledLine.tokens, token.kind ≠ .name ∧ ∀ cause, token.kind ≠ .unknown cause) ∧
      Rejection.noted (Statement.ofAssignment scaledLine.first 1 scaledLine.others) = [] ∧
      scaledLine.Assigns .tmpY terms ∧ Statement.ofLine scaledLine = .ok (.assign .tmpY terms) ∧
      ∃ script before words after, compileSource "scaled" scaledText .standard = .ok script ∧
        script.words.toList = before ++ words ++ after ∧ before.length = 2 ∧
        Statement.Decoded words .tmpY terms := by
  intro terms
  have lines : Line.group (Lexer.tokens .standard scaledText) =
      [⟨⟨.var 0, ⟨1, 1⟩, 0, "tmpx"⟩, [⟨.assign, ⟨1, 6⟩, 0, "="⟩, ⟨.number 7, ⟨1, 8⟩, 0, "7"⟩]⟩,
        scaledLine] := by
    decide +kernel
  have grouped : scaledLine ∈ Line.group (Lexer.tokens .standard scaledText) := by
    rw [lines]
    simp
  have resolved : ∀ token ∈ scaledLine.tokens,
      token.kind ≠ .name ∧ ∀ cause, token.kind ≠ .unknown cause := by
    simp [scaledLine, Line.tokens]
  have assigns : scaledLine.Assigns .tmpY terms :=
    ⟨rfl, rfl, ⟨_, _, rfl, rfl, .signed rfl (.var .selfX rfl) (.step rfl
      (.number 2 (by simp) (by decide) (by decide)) .done)⟩, by decide⟩
  obtain ⟨accepted, read⟩ := assignment_grammar grouped rfl resolved
  obtain ⟨reading, _, placed⟩ := read _ _ assigns
  have compiles : (compileSource "scaled" scaledText .standard).toOption.map (·.words.size) =
      some 5 := by
    decide +kernel
  obtain ⟨script, compiled, _⟩ := exists_ok_of_toOption compiles
  obtain ⟨before, words, after, split, place, decoded⟩ := placed _ script compiled [_] [] lines
  exact ⟨grouped, rfl, resolved, accepted.mpr ⟨_, _, assigns⟩, assigns, reading, script, before,
    words, after, compiled, split, place, decoded⟩

end Script
end NpcScript
