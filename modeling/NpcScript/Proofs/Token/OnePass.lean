import NpcScript.Proofs.Token.Cursor

/-! # Reading in one pass

The cursor skips blanks, newlines and comments alike, and measures the blanks in
front of a line when it comes to one. It is still on its line when it has read
what is left of the line (`NpcScript.Cursor.tokens_scan`), since its readers are,
and it begins the next line with nothing kept of this one but its number
(`NpcScript.Cursor.tokens_eq_tokensFrom`). So what it yields is what reading line
by line yields (`NpcScript.Cursor.tokens_start`).
-/

namespace NpcScript.Cursor

open Lexer

/-- Measures the blanks in front of a line. -/
def measure (cur : Cursor) : Cursor :=
  let (blanks, behind) := cur.passWhile isIndent
  let columns := blanks.foldl (fun columns c => columns + indentWidth c) 0
  { behind with indent := min maxIndent (columns / 2), fresh := false }

/-- Measures the blanks in front of a line unless that has been done. -/
def settle (cur : Cursor) : Cursor := if cur.fresh then cur.measure else cur

private theorem length_settle_le (cur : Cursor) : cur.settle.rest.length ≤ cur.rest.length := by
  unfold settle
  split
  · exact length_passWhile_le isIndent cur
  · exact Nat.le_refl _

/-- Skips blanks, newlines and comments. -/
def skip (cur : Cursor) : Cursor :=
  match _next : cur.settle.rest with
  | [] => cur.settle
  | c :: rest =>
      if isBlank c || c = '\n' then cur.settle.advance.skip
      else if c = '/' && rest.head? = some '/' then (cur.settle.passWhile (· ≠ '\n')).2.skip
      else cur.settle
termination_by cur.rest.length
decreasing_by
  all_goals have settled := length_settle_le cur
  · rw [_next, List.length_cons] at settled
    rw [rest_advance, _next]
    exact settled
  · refine Nat.lt_of_lt_of_le (length_passWhile_lt _next ?_) settled
    simp_all

variable {symbols : SymbolTable} {cur : Cursor} {c : Char} {rest : List Char}

/-! ## One token after the other -/

private theorem length_skip_le (cur : Cursor) : cur.skip.rest.length ≤ cur.rest.length := by
  fun_induction skip cur with
  | case1 cur none => exact length_settle_le cur
  | case2 cur c rest next blank ih =>
      have further : cur.settle.advance.rest.length ≤ cur.settle.rest.length := by
        rw [rest_advance, List.length_tail]
        exact Nat.sub_le _ _
      exact (ih.trans further).trans (length_settle_le cur)
  | case3 cur c rest next visible comment ih =>
      exact (ih.trans (length_passWhile_le _ _)).trans (length_settle_le cur)
  | case4 cur c rest next visible noComment => exact length_settle_le cur

private theorem ne_newline_of_skip (here : cur.skip.rest = c :: rest) : c ≠ '\n' := by
  fun_induction skip cur with
  | case1 cur none =>
      rw [none] at here
      cases here
  | case2 cur d behind next blank ih => exact ih here
  | case3 cur d behind next visible comment ih => exact ih here
  | case4 cur d behind next visible noComment =>
      obtain ⟨rfl, -⟩ := List.cons.inj (next.symm.trans here)
      rintro rfl
      exact visible (by simp)

/-- The next token, and the cursor behind it. -/
def next? (symbols : SymbolTable) (cur : Cursor) : Option (Token × Cursor) :=
  match cur.skip.rest with
  | [] => none
  | first :: _ =>
      let (kind, lexeme, behind) := cur.skip.read symbols first
      some (⟨kind, cur.skip.location, behind.indent, String.ofList lexeme⟩, behind)

/-- What a reading comes to is the next token. -/
theorem next?_of_reads {reading : Reading} (settled : cur.skip = cur)
    (here : cur.rest = c :: rest) (reads : Reads cur c rest reading (cur.read symbols c)) :
    ∃ taken behind, rest = taken ++ behind ∧ reading.extra = taken.length ∧
      cur.next? symbols = some (⟨reading.kind, cur.location, cur.indent,
        String.ofList (c :: taken)⟩, cur.onward (c :: taken) behind) := by
  obtain ⟨taken, behind, split, extra, read⟩ := reads
  refine ⟨taken, behind, split, extra, ?_⟩
  simp only [next?, settled, here, read]
  rfl

/-- Every token takes some of the text. -/
theorem length_next? {token : Token} {behind : Cursor}
    (next : cur.next? symbols = some (token, behind)) : behind.rest.length < cur.rest.length := by
  unfold next? at next
  split at next
  case h_1 => cases next
  case h_2 first rest here =>
    obtain ⟨taken, left, split, extra, read⟩ := reads symbols here (ne_newline_of_skip here)
    rw [read] at next
    cases next
    have shorter := length_skip_le cur
    rw [here, split, List.length_cons, List.length_append] at shorter
    change left.length < _
    omega

/-- All tokens from the cursor on. -/
def tokens (symbols : SymbolTable) (cur : Cursor) : List Token :=
  match _next : cur.next? symbols with
  | none => []
  | some (token, behind) => token :: behind.tokens symbols
termination_by cur.rest.length
decreasing_by exact length_next? _next

private theorem tokens_of_next? {token : Token} {behind : Cursor}
    (next : cur.next? symbols = some (token, behind)) :
    cur.tokens symbols = token :: behind.tokens symbols := by
  rw [tokens]
  split
  case h_1 none =>
    rw [next] at none
    cases none
  case h_2 there =>
    rw [next] at there
    cases there
    rfl

private theorem tokens_of_none (none : cur.next? symbols = none) : cur.tokens symbols = [] := by
  rw [tokens]
  split
  case h_1 => rfl
  case h_2 there =>
    rw [none] at there
    cases there

/-- Only what is left behind skipping matters to the tokens. -/
theorem tokens_of_skip {other : Cursor} (same : cur.skip = other.skip) :
    cur.tokens symbols = other.tokens symbols := by
  have next : cur.next? symbols = other.next? symbols := by rw [next?, next?, same]
  cases result : cur.next? symbols with
  | none => rw [tokens_of_none result, tokens_of_none (next.symm.trans result)]
  | some token => rw [tokens_of_next? result, tokens_of_next? (next.symm.trans result)]

/-! ## Between tokens -/

private theorem settle_of_settled (settled : cur.fresh = false) : cur.settle = cur := by
  rw [settle, settled]
  rfl

private theorem skip_of_nil (settled : cur.fresh = false) (none : cur.rest = []) :
    cur.skip = cur := by
  rw [skip]
  split
  case h_1 => exact settle_of_settled settled
  case h_2 here =>
    rw [settle_of_settled settled, none] at here
    cases here

private theorem skip_of_cons (settled : cur.fresh = false) (here : cur.rest = c :: rest) :
    cur.skip =
      if isBlank c || c = '\n' then cur.advance.skip
      else if c = '/' && rest.head? = some '/' then (cur.passWhile (· ≠ '\n')).2.skip
      else cur := by
  rw [skip]
  split
  case h_1 none =>
    rw [settle_of_settled settled, here] at none
    cases none
  case h_2 d behind there =>
    rw [settle_of_settled settled] at there ⊢
    obtain ⟨rfl, rfl⟩ := List.cons.inj (here.symm.trans there)
    rfl

/-- At the beginning of a line, its blanks are measured first. -/
theorem skip_of_fresh (fresh : cur.fresh = true) : cur.skip = cur.measure.skip := by
  have settled : cur.settle = cur.measure.settle := by
    rw [settle, if_pos fresh, settle_of_settled rfl]
  rw [skip]
  split
  case h_1 none =>
    rw [settled, settle_of_settled rfl] at none ⊢
    rw [skip_of_nil rfl none]
  case h_2 c rest here =>
    rw [settled, settle_of_settled rfl] at here ⊢
    rw [skip_of_cons rfl here]

private theorem skip_of_lexeme (settled : cur.fresh = false) (here : cur.rest = c :: rest)
    (begins : Begins c rest) (inLine : c ≠ '\n') : cur.skip = cur := by
  rw [skip_of_cons settled here, if_neg (by simp [begins.visible, inLine]),
    if_neg (by simpa using begins.noComment)]

variable {left tail : List Char}

private theorem tokens_of_end (settled : cur.fresh = false) (none : cur.rest = []) :
    cur.tokens symbols = [] := by
  refine tokens_of_none ?_
  rw [next?, skip_of_nil settled none, none]

private theorem tokens_of_blank (settled : cur.fresh = false) (here : cur.rest = c :: rest)
    (blank : isBlank c) (inLine : c ≠ '\n') :
    cur.tokens symbols = (cur.onward [c] rest).tokens symbols := by
  refine tokens_of_skip ?_
  rw [skip_of_cons settled here, if_pos (by simp [blank]), advance_of_ne here inLine]

/-- Skipping a comment stops in front of the newline. -/
theorem tokens_of_comment (settled : cur.fresh = false)
    (here : cur.rest = '/' :: '/' :: (left ++ tail)) (oneLine : '\n' ∉ left)
    (ended : firstLine tail = []) :
    cur.tokens symbols = (cur.onward ('/' :: '/' :: left) tail).tokens symbols := by
  have inside : ∀ c ∈ '/' :: '/' :: left, decide (c ≠ '\n') = true := by
    intro c member
    have other : '\n' ∉ '/' :: '/' :: left := by simpa using oneLine
    simpa using ne_of_mem_of_not_mem member other
  refine tokens_of_skip ?_
  rw [skip_of_cons settled here, if_neg (by decide), if_pos (by simp),
    passWhile_run (by simp) here inside ended]

private theorem tokens_of_newline (settled : cur.fresh = false) (here : cur.rest = '\n' :: rest) :
    cur.tokens symbols =
      (⟨rest, cur.line + 1, 1, cur.indent, true⟩ : Cursor).tokens symbols := by
  refine tokens_of_skip ?_
  rw [skip_of_cons settled here, if_pos (by simp), advance_newline here]

/-- A lexeme is the next token, and behind it the cursor is still on its line. -/
theorem tokens_of_lexeme {taken behind : List Char} (settled : cur.fresh = false)
    (here : cur.rest = c :: (taken ++ behind) ++ tail) (oneLine : '\n' ∉ c :: (taken ++ behind))
    (ended : firstLine tail = []) (begins : Begins c (taken ++ behind))
    (takes : Takes (Lexer.read symbols c) taken behind) :
    cur.tokens symbols =
      ⟨(Lexer.read symbols c (taken ++ behind)).kind, cur.location, cur.indent,
          String.ofList (c :: taken)⟩ ::
        (cur.onward (c :: taken) (behind ++ tail)).tokens symbols := by
  have inLine : c ≠ '\n' := ne_of_mem_of_not_mem List.mem_cons_self oneLine
  have inRest : '\n' ∉ taken ++ behind := fun member => oneLine (List.mem_cons_of_mem c member)
  have whole : cur.rest = c :: (taken ++ behind ++ tail) := here
  have reading := reads symbols whole inLine
  rw [firstLine_append inRest ended] at reading
  obtain ⟨taken', behind', split, extra, next⟩ :=
    next?_of_reads (skip_of_lexeme settled here (begins.append ended) inLine) whole reading
  -- what the cursor takes is a lexeme of the same length, so it is the same one
  have length : taken.length = taken'.length := takes.extra.symm.trans extra
  rw [List.append_assoc] at split
  obtain ⟨rfl, rfl⟩ := List.append_inj split length
  exact tokens_of_next? next

/-! ## Line after line -/

/-- What is left of a line is read by the cursor as it is by itself. -/
theorem tokens_scan (symbols : SymbolTable) (settled : cur.fresh = false)
    (here : cur.rest = left ++ tail) (oneLine : '\n' ∉ left) (ended : firstLine tail = []) :
    cur.tokens symbols =
      scan symbols cur.line cur.indent cur.column left [] ++
        (cur.onward left tail).tokens symbols := by
  -- The cursor moves along the line with what is left of it: its line and its level stay.
  induction left using line_induction symbols generalizing cur with
  | nil =>
      rw [List.nil_append] at here
      rw [scan, onward_nil here]
      rfl
  | blank c rest blank ih =>
      have inLine : c ≠ '\n' := ne_of_mem_of_not_mem List.mem_cons_self oneLine
      have inRest : '\n' ∉ rest := fun member => oneLine (List.mem_cons_of_mem c member)
      have further : (cur.onward [c] (rest ++ tail)).tokens symbols = _ := ih settled rfl inRest
      rw [List.cons_append] at here
      rw [tokens_of_blank settled here blank inLine, scan_blank blank, further, onward_onward]
      rfl
  | comment rest =>
      rw [tokens_of_comment settled here (by simpa using oneLine) ended, scan_comment]
      rfl
  | lexeme c taken behind begins takes ih =>
      have inBehind : '\n' ∉ behind := fun member => oneLine (by simp [member])
      have column : cur.column + 1 + taken.length = cur.column + (c :: taken).length := by
        rw [List.length_cons, Nat.add_assoc, Nat.add_comm 1]
      have further : (cur.onward (c :: taken) (behind ++ tail)).tokens symbols = _ :=
        ih settled rfl inBehind
      rw [tokens_of_lexeme settled here oneLine ended begins takes, scan_lexeme begins takes,
        further, onward_onward, column]
      rfl

/-- The blanks in front of a line give its level, and the cursor passes them. -/
theorem measure_eq (here : cur.rest = left ++ tail) (oneLine : '\n' ∉ left)
    (ended : firstLine tail = []) :
    cur.measure = ⟨left.dropWhile isIndent ++ tail, cur.line,
      cur.column + (left.takeWhile isIndent).length, indentOf left, false⟩ := by
  have line : firstLine cur.rest = left := by rw [here, firstLine_append oneLine ended]
  have blanks : cur.rest.takeWhile isIndent = left.takeWhile isIndent := by
    rw [← line, takeWhile_firstLine rfl]
  have behind : cur.rest.dropWhile isIndent = left.dropWhile isIndent ++ tail := by
    have whole : left.takeWhile isIndent ++ cur.rest.dropWhile isIndent =
        left.takeWhile isIndent ++ (left.dropWhile isIndent ++ tail) := by
      rw [← List.append_assoc, List.takeWhile_append_dropWhile, ← blanks,
        List.takeWhile_append_dropWhile, here]
    exact List.append_cancel_left whole
  simp only [measure, passWhile_eq (p := isIndent) rfl, blanks, behind]
  rfl

/-- The cursor passes a line as a whole. -/
theorem tokens_line (symbols : SymbolTable) {line indent : Nat} (oneLine : '\n' ∉ left)
    (ended : firstLine tail = []) :
    (⟨left ++ tail, line, 1, indent, true⟩ : Cursor).tokens symbols =
      lineTokens symbols line left ++
        (⟨tail, line, 1 + left.length, indentOf left, false⟩ : Cursor).tokens symbols := by
  have split : left.takeWhile isIndent ++ left.dropWhile isIndent = left :=
    List.takeWhile_append_dropWhile
  have blank : ∀ c ∈ left.takeWhile isIndent, isBlank c := fun c member =>
    isBlank_of_isIndent (List.mem_takeWhile_imp member)
  have inRest : '\n' ∉ left.dropWhile isIndent := fun member =>
    oneLine (List.dropWhile_subset isIndent member)
  have whole : lineTokens symbols line left =
      scan symbols line (indentOf left) (1 + (left.takeWhile isIndent).length)
        (left.dropWhile isIndent) [] := by
    rw [← scan_blanks blank, split]
    rfl
  have length : 1 + left.length =
      1 + (left.takeWhile isIndent).length + (left.dropWhile isIndent).length := by
    rw [Nat.add_assoc, ← List.length_append, split]
  rw [tokens_of_skip (skip_of_fresh rfl), measure_eq rfl oneLine ended,
    tokens_scan symbols rfl rfl inRest ended, whole, length]
  rfl

/-- Behind a newline the cursor goes on with the next line. -/
theorem tokens_eq_tokensFrom (symbols : SymbolTable) (text : List Char) (line indent : Nat) :
    (⟨text, line, 1, indent, true⟩ : Cursor).tokens symbols = tokensFrom symbols line text := by
  induction text using text_induction generalizing line indent with
  | last text oneLine =>
      have passed : (⟨text ++ [], line, 1, indent, true⟩ : Cursor).tokens symbols = _ :=
        tokens_line symbols oneLine rfl
      rw [List.append_nil] at passed
      rw [passed, tokens_of_end rfl rfl, List.append_nil, tokensFrom_of_oneLine oneLine]
  | line text rest oneLine ih =>
      have ended : firstLine ('\n' :: rest) = [] := rfl
      rw [tokens_line symbols oneLine ended, tokens_of_newline rfl rfl, ih,
        tokensFrom_append_cons oneLine]

/-- **Reading in one pass is reading line by line.** -/
theorem tokens_start (symbols : SymbolTable) (source : String) :
    (start source.toList).tokens symbols = Lexer.tokens symbols source :=
  tokens_eq_tokensFrom symbols source.toList 1 0

end NpcScript.Cursor
