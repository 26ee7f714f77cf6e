import NpcScript.Proofs.Compile.Correctness
import NpcScript.Proofs.Statement.Faults
import NpcScript.Proofs.Token.Scan

/-! # Further constants

Of all definitions of a name the first one holds, so constants that are defined on
top of a symbol table change the meaning of no name that has one
(`NpcScript.SymbolTable.resolve?_defineConstants`). They change the tokens of a
text only where there is a name without a meaning, and an accepted text has none.
So it is accepted with the further constants as well, and the same script comes of
it (`NpcScript.Script.compileSource_defineConstants`).
-/

namespace NpcScript

namespace SymbolTable

variable {symbols extended : SymbolTable}

/-- Every name of the table keeps its meaning; other names may have been given one. -/
def Extends (extended symbols : SymbolTable) : Prop :=
  ∀ word symbol, symbols.resolve? word = some symbol → extended.resolve? word = some symbol

private theorem lookup_cons_eq {α : Type} (name word : String) (a : α) (rest : List (String × α)) :
    ((name, a) :: rest).lookup word = if word = name then some a else rest.lookup word := by
  by_cases same : word = name
  · rw [List.lookup_cons, beq_iff_eq.mpr same, if_pos same]
  · rw [List.lookup_cons, beq_eq_false_iff_ne.mpr same, if_neg same]

private theorem resolve?_define (symbols : SymbolTable) (name word : String) (symbol : Symbol) :
    (symbols.define name symbol).resolve? word =
      (symbols.resolve? word).or (if word = name then some symbol else none) := by
  unfold define
  cases defined : symbols.resolve? name with
  | some first =>
      dsimp only
      split
      · rename_i same
        rw [same, defined, Option.some_or]
      · rw [Option.or_none]
  | none =>
      simp only [resolve?, List.lookup_append, lookup_cons_eq, List.lookup_nil]

/-- **The first definition of a name holds**: the one in the table, or else the first one among the
constants. -/
theorem resolve?_defineConstants (symbols : SymbolTable) (constants : List (String × Int32))
    (word : String) :
    (symbols.defineConstants constants).resolve? word =
      (symbols.resolve? word).or ((constants.lookup word).map Symbol.constant) := by
  induction constants generalizing symbols with
  | nil => simp [defineConstants]
  | cons constant constants ih =>
      obtain ⟨name, value⟩ := constant
      have next : symbols.defineConstants ((name, value) :: constants) =
          (symbols.define name (.constant value)).defineConstants constants := rfl
      rw [next, ih, resolve?_define, Option.or_assoc, lookup_cons_eq]
      congr 1
      split <;> rfl

private theorem extends_defineConstants (symbols : SymbolTable)
    (constants : List (String × Int32)) : (symbols.defineConstants constants).Extends symbols := by
  intro word symbol defined
  rw [resolve?_defineConstants, defined, Option.some_or]

end SymbolTable

/-! ## Tokens -/

namespace Lexer

variable {symbols extended : SymbolTable} {line indent column number : Nat} {word : String}

private theorem wordKind_of_extends (larger : extended.Extends symbols)
    (meaning : wordKind symbols word ≠ .name) : wordKind extended word = wordKind symbols word := by
  unfold wordKind at meaning ⊢
  cases defined : symbols.resolve? word with
  | none => simp [defined] at meaning
  | some symbol => rw [larger word symbol defined]

/-- A lexeme that is no name without a meaning is read alike. -/
theorem read_of_extends (larger : extended.Extends symbols) {c : Char} {rest : List Char}
    (meaning : (read symbols c rest).kind ≠ .name) :
    read extended c rest = read symbols c rest := by
  unfold read at meaning ⊢
  split_ifs at meaning ⊢ <;> try rfl
  exact congrArg (Reading.mk · _) (wordKind_of_extends larger meaning)

private theorem scan_of_extends (larger : extended.Extends symbols) (text : List Char)
    (done : List Token)
    (meaning : ∀ token ∈ scan symbols line indent column text done, token.kind ≠ .name) :
    scan extended line indent column text done = scan symbols line indent column text done := by
  fun_induction scan symbols line indent column text done with
  | case1 done => rw [scan]
  | case2 column c rest done blank ih => rw [scan, if_pos blank, ih meaning]
  | case3 column c rest done visible comment => rw [scan, if_neg visible, if_pos comment]
  | case4 column c rest done visible noComment reading lexeme ih =>
      have here : reading.kind ≠ .name := by
        refine meaning ⟨reading.kind, ⟨line, column⟩, indent, lexeme⟩ ?_
        rw [scan_done]
        simp
      rw [scan, if_neg visible, if_neg noComment, read_of_extends larger here]
      exact ih meaning

/-- **The tokens of a text** are the same in a larger table if no name is without a meaning. -/
theorem tokens_of_extends (larger : extended.Extends symbols) {source : String}
    (meaning : ∀ token ∈ tokens symbols source, token.kind ≠ .name) :
    tokens extended source = tokens symbols source := by
  unfold tokens at meaning ⊢
  refine List.flatMap_congr fun numbered member => ?_
  exact scan_of_extends larger numbered.1 [] fun token inLine =>
    meaning token (List.mem_flatMap.mpr ⟨numbered, member, inLine⟩)

end Lexer

/-! ## Scripts -/

namespace Script

variable {name source : String} {symbols : SymbolTable} {script : Script}

/-- No name in an accepted text is without a meaning. -/
theorem kind_ne_name_of_compileSource (compiled : compileSource name source symbols = .ok script) :
    ∀ token ∈ Lexer.tokens symbols source, token.kind ≠ .name := by
  intro token member
  obtain ⟨line, grouped, onLine⟩ := Line.exists_mem_group member
  obtain ⟨st, reading⟩ := (compileSource_eq_ok compiled).1.readable line grouped
  have sound :=
    Statement.tokenError?_eq_none_iff.mp ((Statement.ofLine_eq_ok reading).1 token onLine)
  exact fun nameless => sound (.inr nameless)

/-- **Further constants change no script.** With constants defined on top of a symbol table, in any
order and also for names that are defined already, every name that has a meaning keeps it; another
one has the first value that it is given. A text that is accepted is accepted with the further
constants as well, and the same script comes of it. -/
theorem compileSource_defineConstants (symbols : SymbolTable)
    (constants : List (String × Int32)) :
    let extended := symbols.defineConstants constants
    (∀ word symbol, symbols.resolve? word = some symbol →
        extended.resolve? word = some symbol) ∧
      (∀ word, symbols.resolve? word = none →
        extended.resolve? word = (constants.lookup word).map .constant) ∧
      ∀ name source script, compileSource name source symbols = .ok script →
        compileSource name source extended = .ok script := by
  intro extended
  have larger := symbols.extends_defineConstants constants
  refine ⟨larger, ?_, ?_⟩
  · intro word undefined
    rw [SymbolTable.resolve?_defineConstants, undefined, Option.none_or]
  · intro name source script compiled
    have same := Lexer.tokens_of_extends larger (kind_ne_name_of_compileSource compiled)
    unfold compileSource at compiled ⊢
    rw [same]
    exact compiled

/-- Two constants of a text, the second one with a name that is the beginning of an operation's. -/
def paceSymbols : SymbolTable := SymbolTable.standard.defineConstants [("PACE", 3), ("If", 4)]

/-- Constants that clash with a constant, an operation and a variable, and one that is given two
values. -/
def clashes : List (String × Int32) :=
  [("PACE", 9), ("LIMIT", 5), ("IfSpawned", 1), ("tmpx", 2), ("LIMIT", 6)]

/-- A text with both constants, and with an operation and a variable whose names clash. -/
def paceText : String := "IfSpawned\n  tmpx = PACE * If\nEnd"

/-- The constant that is defined already keeps its value, the new one has its first value, and the
text compiles as before. -/
theorem compileSource_defineConstants_pace :
    paceSymbols.resolve? "PACE" = some (.constant 3) ∧
      (paceSymbols.defineConstants clashes).resolve? "PACE" = some (.constant 3) ∧
      paceSymbols.resolve? "LIMIT" = none ∧
      (paceSymbols.defineConstants clashes).resolve? "LIMIT" = some (.constant 5) ∧
      ∃ script, compileSource "pace" paceText paceSymbols = .ok script ∧
        compileSource "pace" paceText (paceSymbols.defineConstants clashes) = .ok script := by
  obtain ⟨keeps, gives, compiles⟩ := compileSource_defineConstants paceSymbols clashes
  have pace : paceSymbols.resolve? "PACE" = some (.constant 3) := by decide +kernel
  have limit : paceSymbols.resolve? "LIMIT" = none := by decide +kernel
  have accepted : (compileSource "pace" paceText paceSymbols).toOption.map (·.words.size) =
      some 5 := by
    decide +kernel
  obtain ⟨script, compiled, _⟩ := exists_ok_of_toOption accepted
  exact ⟨pace, keeps _ _ pace, limit, gives _ limit, script, compiled, compiles _ _ _ compiled⟩

end Script
end NpcScript
