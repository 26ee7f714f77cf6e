import Mathlib.Data.List.SplitBy
import NpcScript.Proofs.Token.Known
import NpcScript.Proofs.Token.Scan

/-! # Lines with the levels that they are written at

The lexer tells levels apart up to the deepest one. The rows of a script are its
lines with the levels that their blanks make, of which there is no deepest one:
the lines that are compiled are those of the rows
(`NpcScript.Source.rows_lines`), and each has the level of its row, up to the
deepest one (`NpcScript.Source.indent_of_mem_rows`).
-/

namespace NpcScript

/-- The columns that the blanks in front of a line take up. -/
def Lexer.columns (line : List Char) : Nat :=
  (line.takeWhile isIndent).foldr (fun c columns => indentWidth c + columns) 0

namespace Source

/-- A line with tokens on it, and its level. -/
structure Row where
  level : Nat
  line : Line
  deriving DecidableEq, Inhabited

/-- The row that a line of text makes, unless there is no token on it. -/
def row? (symbols : SymbolTable) (text : List Char) (number : Nat) : Option Row :=
  (Line.ofTokens? (Lexer.lineTokens symbols number text)).map fun line =>
    ⟨Lexer.columns text / 2, line⟩

/-- The rows of a script. -/
def rows (symbols : SymbolTable) (source : String) : List Row :=
  ((Lexer.lines source.toList).zipIdx 1).filterMap fun (text, number) => row? symbols text number

/-- The level of a line is told by its columns. -/
theorem indentOf_eq (line : List Char) :
    Lexer.indentOf line = min maxIndent (Lexer.columns line / 2) := by
  have sum (cs : List Char) (start : Nat) :
      cs.foldl (fun columns c => columns + Lexer.indentWidth c) start =
        start + cs.foldr (fun c columns => Lexer.indentWidth c + columns) 0 := by
    induction cs generalizing start with
    | nil => rfl
    | cons c cs ih => rw [List.foldl_cons, ih, List.foldr_cons, Nat.add_assoc]
  rw [Lexer.indentOf, sum, Nat.zero_add, Lexer.columns]

variable {symbols : SymbolTable} {source : String}

/-- A line has the level of its row, up to the deepest one. -/
theorem indent_of_mem_rows {row : Row} (member : row ∈ rows symbols source) :
    row.line.indent = min maxIndent row.level := by
  obtain ⟨⟨text, number⟩, _, made⟩ := List.mem_filterMap.mp member
  obtain ⟨line, ofTokens, rfl⟩ := Option.map_eq_some_iff.mp made
  cases tokens : Lexer.lineTokens symbols number text with
  | nil =>
      rw [tokens] at ofTokens
      cases ofTokens
  | cons first others =>
      rw [tokens] at ofTokens
      cases ofTokens
      obtain ⟨_, _, indent⟩ := Lexer.mem_lineTokens (tokens ▸ List.mem_cons_self)
      rw [← indentOf_eq]
      exact indent

/-- The tokens on each of the numbered lines of a text. -/
def tokenLines (symbols : SymbolTable) (texts : List (List Char × Nat)) : List (List Token) :=
  texts.map fun (text, number) => Lexer.lineTokens symbols number text

/-- Tokens of lines with increasing numbers are grouped by these lines. -/
theorem splitBy_tokenLines {texts : List (List Char × Nat)}
    (numbered : texts.Pairwise fun earlier later => earlier.2 < later.2) :
    (tokenLines symbols texts).flatten.splitBy (fun a b => a.location.line == b.location.line) =
      (tokenLines symbols texts).filter (!·.isEmpty) := by
  have apart : (tokenLines symbols texts).Pairwise fun earlier later =>
      ∀ a ∈ earlier, ∀ b ∈ later, a.location.line ≠ b.location.line := by
    refine List.pairwise_map.mpr (numbered.imp ?_)
    intro earlier later less a memberA b memberB
    rw [(Lexer.mem_lineTokens memberA).2.1, (Lexer.mem_lineTokens memberB).2.1]
    exact Nat.ne_of_lt less
  rw [← List.flatten_filter_not_isEmpty]
  refine List.splitBy_flatten (by simp) ?_ ?_
  · intro tokens member
    obtain ⟨⟨text, number⟩, _, rfl⟩ := List.mem_map.mp (List.mem_filter.mp member).1
    refine (List.pairwise_of_forall_mem_list fun a memberA b memberB => ?_).isChain
    simp [(Lexer.mem_lineTokens memberA).2.1, (Lexer.mem_lineTokens memberB).2.1]
  · refine (List.Pairwise.imp_of_mem ?_ (apart.filter _)).isChain
    intro earlier later memberEarlier memberLater lines
    have nonempty {tokens : List Token}
        (member : tokens ∈ (tokenLines symbols texts).filter (!·.isEmpty)) : tokens ≠ [] := by
      simpa using (List.mem_filter.mp member).2
    refine ⟨nonempty memberEarlier, nonempty memberLater, ?_⟩
    simpa using lines _ (List.getLast_mem _) _ (List.head_mem _)

private theorem filterMap_ofTokens?_filter (groups : List (List Token)) :
    (groups.filter (!·.isEmpty)).filterMap Line.ofTokens? = groups.filterMap Line.ofTokens? := by
  rw [List.filterMap_filter]
  congr 1
  funext tokens
  cases tokens <;> rfl

/-- Numbered lines have increasing numbers. -/
theorem pairwise_zipIdx (texts : List (List Char)) (start : Nat) :
    (texts.zipIdx start).Pairwise fun earlier later => earlier.2 < later.2 := by
  rw [← List.pairwise_map, List.zipIdx_map_snd]
  exact List.pairwise_lt_range'

/-- The lines of a script are its lines of text with tokens on them. -/
theorem group_tokensFrom (symbols : SymbolTable) (start : Nat) (text : List Char) :
    Line.group (Lexer.tokensFrom symbols start text) =
      ((Lexer.lines text).zipIdx start).filterMap fun (text, number) =>
        Line.ofTokens? (Lexer.lineTokens symbols number text) := by
  have flat : Lexer.tokensFrom symbols start text =
      (tokenLines symbols ((Lexer.lines text).zipIdx start)).flatten := List.flatMap_def
  rw [Line.group, flat, splitBy_tokenLines (pairwise_zipIdx _ _), filterMap_ofTokens?_filter,
    tokenLines, List.filterMap_map]
  rfl

/-- The lines that are compiled are those of the rows. -/
theorem rows_lines (symbols : SymbolTable) (source : String) :
    (rows symbols source).map (·.line) = Line.group (Lexer.tokens symbols source) := by
  rw [Lexer.tokens_eq_tokensFrom, group_tokensFrom, rows, List.map_filterMap]
  congr 1
  funext ⟨text, number⟩
  simp [row?, Function.comp_def]

/-! ## Rows with one name on them -/

/-- The rows of a text that is put together from its lines. -/
theorem rows_intercalate (symbols : SymbolTable) {texts : List (List Char)}
    (oneLine : ∀ text ∈ texts, '\n' ∉ text) (nonempty : texts ≠ []) :
    rows symbols (String.ofList (['\n'].intercalate texts)) =
      (texts.zipIdx 1).filterMap fun (text, number) => row? symbols text number := by
  rw [rows, Lexer.lines, String.toList_ofList, List.splitOn_intercalate '\n' oneLine nonempty]

/-- Equal blanks take up as many times the width of one. -/
theorem columns_replicate {blank c : Char} {rest : List Char} (count : Nat)
    (indents : Lexer.isIndent blank) (visible : Lexer.isIndent c = false) :
    Lexer.columns (List.replicate count blank ++ c :: rest) = count * Lexer.indentWidth blank := by
  unfold Lexer.columns
  induction count with
  | zero =>
      rw [List.replicate_zero, List.nil_append, List.takeWhile_cons_of_neg (by simp [visible]),
        List.foldr_nil, Nat.zero_mul]
  | succ count ih =>
      rw [List.replicate_succ, List.cons_append, List.takeWhile_cons_of_pos indents,
        List.foldr_cons, ih, Nat.succ_mul, Nat.add_comm]

/-- A name behind tabs makes a row of the level that the tabs count. -/
theorem row?_name {word : String} {c : Char} {name : List Char} {level number : Nat}
    (spelled : word.toList = c :: name) (alpha : c.isAlpha)
    (wordChars : ∀ d ∈ name, Lexer.isWordChar d) :
    row? symbols (List.replicate level '\t' ++ word.toList) number =
      some ⟨level, ⟨⟨Lexer.wordKind symbols word, ⟨number, level + 1⟩, min maxIndent level, word⟩,
        []⟩⟩ := by
  have indents : ∀ d ∈ List.replicate level '\t', Lexer.isIndent d := by
    intro d member
    rw [List.eq_of_mem_replicate member]
    rfl
  have visible : Lexer.isIndent c = false := by simp [Lexer.isIndent, Lexer.ne_of_class alpha]
  have columns : Lexer.columns (List.replicate level '\t' ++ c :: name) = level * 2 :=
    columns_replicate level rfl visible
  have half : level * 2 / 2 = level := by omega
  obtain rfl : word = String.ofList (c :: name) := by rw [← spelled, String.ofList_toList]
  rw [spelled, row?, Lexer.lineTokens_name indents alpha wordChars, indentOf_eq, columns, half,
    List.length_replicate]
  rfl

end Source
end NpcScript
