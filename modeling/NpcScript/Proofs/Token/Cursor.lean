import NpcScript.Proofs.Token.Scan

/-! # Readers with a cursor

A script can be read in one pass by a cursor that moves over the whole text, one
character after the other, and that counts lines and columns as it goes. Nothing
cuts the text at newlines for it: a reader has everything in front of it that
follows its lexeme.

It is the readers that stop in front of a newline, each for a reason of its own:
a name and a numeral because a newline belongs to neither, a tag because it looks
for the newline, and a sign because it is doubled by itself only. So each reads
what it would read if its line were all there is (`NpcScript.Cursor.reads`).
-/

namespace NpcScript

/-- A place in a text that is read, with what has to be known there of the text in front of it. -/
structure Cursor where
  /-- What stands from the place on. -/
  rest : List Char
  line : Nat
  column : Nat
  /-- The level of the line. -/
  indent : Nat
  /-- Whether the blanks in front of the line have yet to be measured. -/
  fresh : Bool

namespace Cursor

open Lexer

/-- The place at which a text begins. -/
def start (text : List Char) : Cursor := ⟨text, 1, 1, 0, true⟩

/-- The place as it is told in tokens. -/
def location (cur : Cursor) : Location := ⟨cur.line, cur.column⟩

/-- Moves over one character. Behind a newline a line begins. -/
def advance (cur : Cursor) : Cursor :=
  match cur.rest with
  | [] => { cur with column := cur.column + 1 }
  | c :: rest =>
      if c = '\n' then ⟨rest, cur.line + 1, 1, cur.indent, true⟩
      else { cur with rest := rest, column := cur.column + 1 }

/-- Moving on leaves what stands behind the next character. -/
theorem rest_advance (cur : Cursor) : cur.advance.rest = cur.rest.tail := by
  unfold advance
  split
  case h_1 none => rw [none, List.tail_nil]
  case h_2 c rest here =>
    rw [here, List.tail_cons]
    split <;> rfl

/-- Moves over the characters of a class that come next, and gives them. -/
def passWhile (p : Char → Bool) (cur : Cursor) : List Char × Cursor :=
  match _next : cur.rest with
  | [] => ([], cur)
  | c :: _ =>
      if p c then
        let (passed, behind) := passWhile p cur.advance
        (c :: passed, behind)
      else ([], cur)
termination_by cur.rest.length
decreasing_by
  rw [rest_advance, _next]
  exact Nat.lt_succ_self _

/-- Passing characters leaves no more than there was. -/
theorem length_passWhile_le (p : Char → Bool) (cur : Cursor) :
    (cur.passWhile p).2.rest.length ≤ cur.rest.length := by
  fun_induction passWhile p cur with
  | case1 cur none => exact Nat.le_refl _
  | case2 cur c rest here inside passed behind more ih =>
      rw [more, rest_advance, here, List.tail_cons] at ih
      rw [here, List.length_cons]
      exact Nat.le_succ_of_le ih
  | case3 cur c rest here outside => exact Nat.le_refl _

private theorem passWhile_of_pos {p : Char → Bool} {cur : Cursor} {c : Char} {rest : List Char}
    (here : cur.rest = c :: rest) (inside : p c) :
    cur.passWhile p = (c :: (cur.advance.passWhile p).1, (cur.advance.passWhile p).2) := by
  rw [passWhile]
  split
  case h_1 none =>
    rw [here] at none
    cases none
  case h_2 d behind there =>
    obtain ⟨rfl, -⟩ := List.cons.inj (here.symm.trans there)
    rw [if_pos inside]

/-- Passing a character leaves less than there was. -/
theorem length_passWhile_lt {p : Char → Bool} {cur : Cursor} {c : Char} {rest : List Char}
    (here : cur.rest = c :: rest) (inside : p c) :
    (cur.passWhile p).2.rest.length < cur.rest.length := by
  have further := length_passWhile_le p cur.advance
  rw [rest_advance, here, List.tail_cons] at further
  rw [passWhile_of_pos here inside, here, List.length_cons]
  exact Nat.lt_succ_of_le further

/-! ## Readers

A reader gives the kind of the lexeme that begins at the cursor, its characters, and the cursor
behind it. -/

/-- Reads a name. -/
def readWord (symbols : SymbolTable) (cur : Cursor) : TokenKind × List Char × Cursor :=
  let (word, behind) := cur.passWhile isWordChar
  (wordKind symbols (String.ofList word), word, behind)

/-- Reads a reference to a kind of alert. -/
def readReference (cur : Cursor) : TokenKind × List Char × Cursor :=
  let (word, behind) := cur.advance.passWhile isWordChar
  if word.isEmpty then (.unknown .emptyReference, ['@'], behind)
  else
    match AlertKind.ofName? (String.ofList word) with
    | some kind => (.reference (Int32.ofNat kind.bit), '@' :: word, behind)
    | none => (.name, '@' :: word, behind)

/-- Reads a tag up to its closing sign, but not beyond a newline. -/
def readIdsz (first close : Char) (cur : Cursor) : TokenKind × List Char × Cursor :=
  let (body, behind) := cur.advance.passWhile fun c => c ≠ close && c ≠ '\n'
  if behind.rest.head? = some close then
    match Idsz.ofChars? body with
    | some tag => (.idsz tag.value, first :: body ++ [close], behind.advance)
    | none => (.unknown .malformedIdsz, first :: body ++ [close], behind.advance)
  else (.unknown .unterminatedIdsz, first :: body, behind)

/-- Reads a numeral. A point belongs to it if there is a digit behind the point. -/
def readNumber (cur : Cursor) : TokenKind × List Char × Cursor :=
  let (digits, behind) := cur.passWhile Char.isDigit
  if behind.rest.head? = some '.' && (behind.rest.tail.head?).any Char.isDigit then
    let (fraction, behind) := behind.advance.passWhile Char.isDigit
    (fixedKind digits fraction, digits ++ '.' :: fraction, behind)
  else (wholeKind digits, digits, behind)

/-- Reads a sign. The signs of shifts may be doubled. -/
def readSign (first : Char) (cur : Cursor) : TokenKind × List Char × Cursor :=
  let behind := cur.advance
  let doubled (kind : TokenKind) :=
    if behind.rest.head? = some first then (kind, [first, first], behind.advance)
    else (kind, [first], behind)
  match first with
  | '=' => (.assign, [first], behind)
  | '+' => (.operator .add, [first], behind)
  | '-' => (.operator .sub, [first], behind)
  | '&' => (.operator .and, [first], behind)
  | '*' => (.operator .mul, [first], behind)
  | '/' => (.operator .div, [first], behind)
  | '%' => (.operator .mod, [first], behind)
  | '<' => doubled (.operator .shiftLeft)
  | '>' => doubled (.operator .shiftRight)
  | _ => (.unknown .unexpectedCharacter, [first], behind)

/-- Reads the lexeme that begins with `first`. -/
def read (symbols : SymbolTable) (first : Char) (cur : Cursor) : TokenKind × List Char × Cursor :=
  if first = '[' then cur.readIdsz first ']'
  else if first = '\'' then cur.readIdsz first '\''
  else if first = '@' then cur.readReference
  else if first.isDigit then cur.readNumber
  else if first.isAlpha || first = '_' then cur.readWord symbols
  else cur.readSign first

/-! ## Moves -/

variable {symbols : SymbolTable} {cur : Cursor} {c : Char} {rest : List Char}

/-- The cursor behind characters of its line. -/
def onward (cur : Cursor) (passed rest : List Char) : Cursor :=
  { cur with rest := rest, column := cur.column + passed.length }

/-- A cursor that has moved has the rest of the text in front of it. -/
theorem rest_onward (cur : Cursor) (passed rest : List Char) :
    (cur.onward passed rest).rest = rest :=
  rfl

/-- A character that is no newline is passed within the line. -/
theorem advance_of_ne (here : cur.rest = c :: rest) (inLine : c ≠ '\n') :
    cur.advance = cur.onward [c] rest := by
  rw [advance, here]
  exact if_neg inLine

/-- Behind a newline only the number of the line is kept. -/
theorem advance_newline (here : cur.rest = '\n' :: rest) :
    cur.advance = ⟨rest, cur.line + 1, 1, cur.indent, true⟩ := by
  rw [advance, here]
  exact if_pos rfl

/-- A cursor that passes nothing stays. -/
theorem onward_nil (here : cur.rest = rest) : cur.onward [] rest = cur := by
  subst here
  rfl

/-- A cursor that passes characters twice passes them all. -/
theorem onward_onward (passed further middle rest : List Char) :
    (cur.onward passed middle).onward further rest = cur.onward (passed ++ further) rest := by
  rw [onward, onward, onward, List.length_append, Nat.add_assoc]

/-- A class without the newline is passed within a line. -/
theorem passWhile_eq {p : Char → Bool} (inLine : p '\n' = false) (cur : Cursor) :
    cur.passWhile p = (cur.rest.takeWhile p,
      cur.onward (cur.rest.takeWhile p) (cur.rest.dropWhile p)) := by
  fun_induction passWhile p cur with
  | case1 cur none =>
      rw [none, List.takeWhile_nil, List.dropWhile_nil, onward_nil none]
  | case2 cur c rest here inside passed behind more ih =>
      rw [advance_of_ne here (ne_of_class inside inLine)] at ih more
      have split : (passed, behind) = _ := more.symm.trans ih
      obtain ⟨rfl, rfl⟩ := Prod.mk.inj split
      rw [onward_onward, here, List.takeWhile_cons_of_pos inside, List.dropWhile_cons_of_pos inside]
      rfl
  | case3 cur c rest here outside =>
      rw [here, List.takeWhile_cons_of_neg outside, List.dropWhile_cons_of_neg outside,
        onward_nil here]

/-- Characters of a class that come next are passed up to the first one outside of it. -/
theorem passWhile_run {p : Char → Bool} {run after : List Char} (inLine : p '\n' = false)
    (here : cur.rest = run ++ after) (inside : ∀ c ∈ run, p c) (stop : after.takeWhile p = []) :
    cur.passWhile p = (run, cur.onward run after) := by
  rw [passWhile_eq inLine, here, takeWhile_run inside stop, dropWhile_run inside stop]

/-! ## Readers stop at newlines -/

/-- A class without the newline is read within the line. -/
theorem takeWhile_firstLine {p : Char → Bool} (inLine : p '\n' = false) (text : List Char) :
    (firstLine text).takeWhile p = text.takeWhile p := by
  rw [firstLine, List.takeWhile_takeWhile]
  congr 1
  funext c
  by_cases newline : c = '\n'
  · simp [newline, inLine]
  · simp [newline]

/-- A reader at the cursor comes to a reading of the line: to its kind, to the characters that it
takes behind the first one, and to the cursor behind them. -/
def Reads (cur : Cursor) (first : Char) (rest : List Char) (reading : Reading)
    (result : TokenKind × List Char × Cursor) : Prop :=
  ∃ taken behind, rest = taken ++ behind ∧ reading.extra = taken.length ∧
    result = (reading.kind, first :: taken, cur.onward (first :: taken) behind)

private theorem reads_word (here : cur.rest = c :: rest) (inWord : isWordChar c) :
    Reads cur c rest (Lexer.readWord symbols c (firstLine rest)) (cur.readWord symbols) := by
  obtain ⟨word, after, rfl, inside, stop⟩ := exists_run isWordChar rest
  have whole : ∀ d ∈ c :: word, isWordChar d := List.forall_mem_cons.mpr ⟨inWord, inside⟩
  have passed : cur.passWhile isWordChar = (c :: word, cur.onward (c :: word) after) :=
    passWhile_run rfl here whole stop
  refine ⟨word, after, rfl, ?_, ?_⟩ <;>
    simp only [Lexer.readWord, takeWhile_firstLine (p := isWordChar) rfl, takeWhile_run inside stop,
      readWord, passed]

private theorem reads_reference (here : cur.rest = '@' :: rest) :
    Reads cur '@' rest (Lexer.readReference (firstLine rest)) cur.readReference := by
  obtain ⟨word, after, rfl, inside, stop⟩ := exists_run isWordChar rest
  have first : cur.advance = cur.onward ['@'] (word ++ after) := advance_of_ne here (by decide)
  have passed : cur.advance.passWhile isWordChar = (word, cur.onward ('@' :: word) after) := by
    rw [first, passWhile_run rfl rfl inside stop, onward_onward]
    rfl
  have name : (firstLine (word ++ after)).takeWhile isWordChar = word := by
    rw [takeWhile_firstLine rfl, takeWhile_run inside stop]
  refine ⟨word, after, rfl, ?_⟩
  simp only [Lexer.readReference, name, readReference, passed]
  cases word with
  | nil => exact ⟨rfl, rfl⟩
  | cons d word =>
      cases AlertKind.ofName? (String.ofList (d :: word)) with
      | none => exact ⟨rfl, rfl⟩
      | some kind => exact ⟨rfl, rfl⟩

/-- A tag is looked for up to the end of the line, so a sign behind a newline does not close it. -/
theorem reads_idsz {first close : Char} (here : cur.rest = first :: rest) (inLine : first ≠ '\n')
    (closeInLine : close ≠ '\n') :
    Reads cur first rest (Lexer.readIdsz close (firstLine rest)) (cur.readIdsz first close) := by
  obtain ⟨body, after, rfl, inside, stop⟩ := exists_run (fun c => c ≠ close && c ≠ '\n') rest
  have opened : cur.advance = cur.onward [first] (body ++ after) := advance_of_ne here inLine
  have passed : cur.advance.passWhile (fun c => c ≠ close && c ≠ '\n') =
      (body, cur.onward (first :: body) after) := by
    rw [opened, passWhile_run (by simp) rfl inside stop, onward_onward]
    rfl
  have oneLine : '\n' ∉ body := fun member => by simpa using inside _ member
  have unclosed : close ∉ body := fun member => by simpa using inside _ member
  by_cases closed : after.head? = some close
  · obtain ⟨after, rfl⟩ := List.head?_eq_some_iff.mp closed
    have within : '\n' ∉ body ++ [close] := by simpa using ⟨oneLine, closeInLine.symm⟩
    have line : firstLine (body ++ close :: after) = body ++ close :: firstLine after := by
      simpa using firstLine_append_of_oneLine within after
    have behind : (cur.onward (first :: body) (close :: after)).advance =
        cur.onward (first :: (body ++ [close])) after := by
      rw [advance_of_ne rfl closeInLine, onward_onward]
      rfl
    rw [line, readIdsz_append unclosed]
    refine ⟨body ++ [close], after, by simp, ?_⟩
    simp only [readIdsz, passed, rest_onward, if_pos closed, behind]
    cases Idsz.ofChars? body with
    | none => exact ⟨by simp, rfl⟩
    | some tag => exact ⟨by simp, rfl⟩
  · have ended : firstLine after = [] := by
      cases after with
      | nil => rfl
      | cons d after =>
          have newline : d = '\n' := by
            have other : d ≠ close := by simpa using closed
            by_contra within
            rw [List.takeWhile_cons_of_pos (by simp [other, within])] at stop
            cases stop
          rw [newline]
          rfl
    rw [firstLine_append oneLine ended, readIdsz_open unclosed]
    exact ⟨body, after, rfl, rfl, by simp only [readIdsz, passed, rest_onward, if_neg closed]⟩

/-- A fraction begins where a point comes first and a digit behind it. -/
theorem isEmpty_fractionDigits (text : List Char) :
    (text.head? = some '.' && (text.tail.head?).any Char.isDigit) =
      !(fractionDigits text).isEmpty := by
  match text with
  | [] => rfl
  | c :: text =>
      by_cases point : c = '.'
      · subst point
        cases text with
        | nil => rfl
        | cons d text => cases digit : d.isDigit <;> simp [fractionDigits, digit]
      · simp [fractionDigits_cons point, point]

private theorem fractionDigits_firstLine (text : List Char) :
    fractionDigits (firstLine text) = fractionDigits text := by
  cases text with
  | nil => rfl
  | cons c text =>
      by_cases point : c = '.'
      · subst point
        exact takeWhile_firstLine rfl text
      · rw [fractionDigits_cons point, firstLine, List.takeWhile_cons]
        split
        · exact fractionDigits_cons point
        · rfl

private theorem reads_number (here : cur.rest = c :: rest) (digit : c.isDigit) :
    Reads cur c rest (Lexer.readNumber c (firstLine rest)) cur.readNumber := by
  obtain ⟨digits, after, rfl, inside, stop⟩ := exists_run Char.isDigit rest
  have whole : ∀ d ∈ c :: digits, d.isDigit := List.forall_mem_cons.mpr ⟨digit, inside⟩
  have passed : cur.passWhile Char.isDigit = (c :: digits, cur.onward (c :: digits) after) :=
    passWhile_run rfl here whole stop
  have oneLine : '\n' ∉ digits := fun member => absurd (inside _ member) (by decide)
  rw [firstLine_append_of_oneLine oneLine]
  by_cases noFraction : fractionDigits after = []
  · have line : Lexer.readNumber c (digits ++ firstLine after) = _ :=
      readNumber_whole inside (by rw [takeWhile_firstLine rfl, stop])
        (by rw [fractionDigits_firstLine, noFraction])
    refine ⟨digits, after, rfl, by rw [line], ?_⟩
    simp only [line, readNumber, passed, rest_onward, isEmpty_fractionDigits, noFraction]
    rfl
  · obtain ⟨fraction, after, rfl, nonempty, insideFraction, stop⟩ := exists_fraction noFraction
    have pointed : '\n' ∉ '.' :: fraction := by
      simpa using fun member => absurd (insideFraction _ member) (by decide)
    have split : firstLine ('.' :: (fraction ++ after)) = '.' :: (fraction ++ firstLine after) :=
      firstLine_append_of_oneLine pointed after
    have line : Lexer.readNumber c (digits ++ '.' :: (fraction ++ firstLine after)) = _ :=
      readNumber_fixed inside insideFraction nonempty (by rw [takeWhile_firstLine rfl, stop])
    have point : (cur.onward (c :: digits) ('.' :: (fraction ++ after))).advance =
        cur.onward (c :: (digits ++ ['.'])) (fraction ++ after) := by
      rw [advance_of_ne rfl (by decide), onward_onward]
      rfl
    have behind : (cur.onward (c :: (digits ++ ['.'])) (fraction ++ after)).passWhile Char.isDigit =
        (fraction, cur.onward (c :: (digits ++ '.' :: fraction)) after) := by
      rw [passWhile_run rfl rfl insideFraction stop, onward_onward]
      simp
    have present : (fractionDigits ('.' :: (fraction ++ after))).isEmpty = false := by
      simpa using noFraction
    rw [split, line]
    refine ⟨digits ++ '.' :: fraction, after, by simp, by simp [Nat.add_assoc, Nat.add_comm 1], ?_⟩
    simp only [readNumber, passed, rest_onward, isEmpty_fractionDigits, present, point, behind]
    rfl

private theorem reads_sign {first : Char} (here : cur.rest = first :: rest)
    (inLine : first ≠ '\n') :
    Reads cur first rest (Lexer.readSign first (firstLine rest)) (cur.readSign first) := by
  have single : cur.advance = cur.onward [first] rest := advance_of_ne here inLine
  have head : (firstLine rest).head? = some first ↔ rest.head? = some first := by
    rw [firstLine, List.head?_takeWhile, Option.filter_eq_some_iff]
    exact and_iff_left (by simpa using inLine)
  have plain {kind : TokenKind} (read : cur.readSign first = (kind, [first], cur.advance)) :
      Reads cur first rest ⟨kind, 0⟩ (cur.readSign first) :=
    ⟨[], rest, rfl, rfl, read.trans (by rw [single])⟩
  have doubled {kind : TokenKind} (read : cur.readSign first =
      if cur.advance.rest.head? = some first then (kind, [first, first], cur.advance.advance)
      else (kind, [first], cur.advance)) :
      Reads cur first rest ⟨kind, if (firstLine rest).head? = some first then 1 else 0⟩
        (cur.readSign first) := by
    rw [read, single, rest_onward]
    simp only [head]
    by_cases again : rest.head? = some first
    · obtain ⟨after, rfl⟩ := List.head?_eq_some_iff.mp again
      rw [if_pos again, if_pos again, advance_of_ne rfl inLine, onward_onward]
      exact ⟨[first], after, rfl, rfl, rfl⟩
    · rw [if_neg again, if_neg again]
      exact ⟨[], rest, rfl, rfl, rfl⟩
  simp only [Lexer.readSign]
  split
  case h_8 => exact doubled rfl
  case h_9 => exact doubled rfl
  case h_10 =>
    refine plain ?_
    unfold readSign
    split <;> first | rfl | contradiction
  all_goals exact plain rfl

/-- **Readers keep to their line.** A reader that has the whole text in front of it reads what it
would read if its line were all there is. -/
theorem reads (symbols : SymbolTable) (here : cur.rest = c :: rest) (inLine : c ≠ '\n') :
    Reads cur c rest (Lexer.read symbols c (firstLine rest)) (cur.read symbols c) := by
  unfold read Lexer.read
  by_cases bracket : c = '['
  · rw [if_pos bracket, if_pos bracket]
    exact reads_idsz here inLine (by decide)
  rw [if_neg bracket, if_neg bracket]
  by_cases quote : c = '\''
  · rw [if_pos quote, if_pos quote]
    exact reads_idsz here inLine (by decide)
  rw [if_neg quote, if_neg quote]
  by_cases reference : c = '@'
  · rw [if_pos reference, if_pos reference]
    subst reference
    exact reads_reference here
  rw [if_neg reference, if_neg reference]
  by_cases digit : c.isDigit
  · rw [if_pos digit, if_pos digit]
    exact reads_number here digit
  rw [if_neg digit, if_neg digit]
  by_cases letter : c.isAlpha || c = '_'
  · rw [if_pos letter, if_pos letter]
    have inWord : isWordChar c := by
      simp only [isWordChar, Char.isAlphanum, Bool.or_eq_true] at letter ⊢
      exact letter.imp_left .inl
    exact reads_word here inWord
  · rw [if_neg letter, if_neg letter]
    exact reads_sign here inLine

end Cursor
end NpcScript
