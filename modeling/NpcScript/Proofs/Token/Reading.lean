import Mathlib.Data.List.TakeWhile
import NpcScript.Token.Lexer

/-! # Lexemes and the text behind them

A reader looks at all that stands behind the first character of a lexeme, but
what it reads depends on the lexeme alone: with nothing behind the lexeme, or
with a blank or a slash there, it is read as before, and so it is if the text
behind it goes on in this way (`NpcScript.Lexer.exists_takes_read`). Only a tag
without a closing sign reaches as far as there is text, so nothing may be put
behind it.
-/

namespace NpcScript.Lexer

/-- A text that no lexeme in front of it goes on in: it is empty, or a blank comes first. -/
def Apart (text : List Char) : Prop :=
  ∀ c ∈ text.head?, isBlank c

/-- A text that no lexeme in front of it goes on in, although it may make a comment of a slash in
front of it: it is empty, or a blank or a slash comes first. -/
def Stops (text : List Char) : Prop :=
  ∀ c ∈ text.head?, isBlank c ∨ c = '/'

/-- A lexeme that stands apart is not read any further. -/
theorem Apart.stops {text : List Char} (apart : Apart text) : Stops text :=
  fun c member => .inl (apart c member)

/-- A reader takes some text away from the text behind it, and reads it again wherever the lexeme
does not go on. -/
structure Takes (reader : List Char → Reading) (taken behind : List Char) : Prop where
  extra : (reader (taken ++ behind)).extra = taken.length
  last : (reader (taken ++ behind)).kind = .unknown .unterminatedIdsz → behind = []
  again {after : List Char} (stops : Stops after)
    (closed : (reader (taken ++ behind)).kind = .unknown .unterminatedIdsz → after = []) :
    reader (taken ++ after) = reader (taken ++ behind)
  further {after : List Char} (stops : Stops after)
    (closed : (reader (taken ++ behind)).kind = .unknown .unterminatedIdsz → after = []) :
    reader (taken ++ (behind ++ after)) = reader (taken ++ behind)

/-- What is read alike in front of all texts that it ends at, and does not run on to the end of its
line. -/
theorem Takes.of_closed {reader : List Char → Reading} {taken behind : List Char}
    {kind : TokenKind} (closed : kind ≠ .unknown .unterminatedIdsz) {ends : List Char → Prop}
    (read : ∀ after, ends after → reader (taken ++ after) = ⟨kind, taken.length⟩)
    (here : ends behind) (stop : ∀ after, Stops after → ends after ∧ ends (behind ++ after)) :
    Takes reader taken behind where
  extra := by rw [read behind here]
  last unterminated := by
    rw [read behind here] at unterminated
    exact absurd unterminated closed
  again stops _ := by rw [read behind here, read _ (stop _ stops).1]
  further stops _ := by rw [read behind here, read _ (stop _ stops).2]

private theorem Stops.append {front back : List Char} (stopsFront : Stops front)
    (stopsBack : Stops back) : Stops (front ++ back) := by
  cases front with
  | nil => exact stopsBack
  | cons c front => exact stopsFront

section Takes

variable {reader : List Char → Reading} {taken behind after : List Char}

/-- What is taken is taken again where the lexeme does not go on. -/
theorem Takes.stops (takes : Takes reader taken behind) (stops : Stops after)
    (closed : (reader (taken ++ behind)).kind = .unknown .unterminatedIdsz → after = []) :
    Takes reader taken after where
  extra := by rw [takes.again stops closed, takes.extra]
  last unterminated := closed (by rwa [takes.again stops closed] at unterminated)
  again stops' closed' := by
    rw [takes.again stops closed] at closed' ⊢
    exact takes.again stops' closed'
  further stops' closed' := by
    rw [takes.again stops closed] at closed' ⊢
    refine takes.again (stops.append stops') fun unterminated => ?_
    rw [closed unterminated, closed' unterminated, List.nil_append]

/-- What is taken is taken again if the text behind it goes on. -/
theorem Takes.extend (takes : Takes reader taken behind) (stops : Stops after)
    (closed : (reader (taken ++ behind)).kind = .unknown .unterminatedIdsz → after = []) :
    Takes reader taken (behind ++ after) where
  extra := by rw [takes.further stops closed, takes.extra]
  last unterminated := by
    rw [takes.further stops closed] at unterminated
    rw [takes.last unterminated, closed unterminated, List.nil_append]
  again stops' closed' := by
    rw [takes.further stops closed] at closed' ⊢
    exact takes.again stops' closed'
  further stops' closed' := by
    rw [takes.further stops closed] at closed' ⊢
    rw [List.append_assoc]
    refine takes.further (stops.append stops') fun unterminated => ?_
    rw [closed unterminated, closed' unterminated, List.nil_append]

end Takes

/-! ## Runs of characters of one class -/

section Runs

variable {p : Char → Bool} {run after rest : List Char} {c : Char}

/-- A lexeme at the end of its line stands apart. -/
theorem apart_nil : Apart [] := fun _ member => by cases member

/-- A lexeme in front of a blank stands apart. -/
theorem apart_cons (blank : isBlank c) : Apart (c :: rest) := by
  intro d member
  cases member
  exact blank

private theorem eq_of_stops (stops : isBlank c ∨ c = '/') :
    c = ' ' ∨ c = '\t' ∨ c = '\r' ∨ c = '~' ∨ c = '/' := by
  simpa [isBlank, or_assoc] using stops

private theorem isWordChar_of_stops (stops : isBlank c ∨ c = '/') : isWordChar c = false := by
  rcases eq_of_stops stops with rfl | rfl | rfl | rfl | rfl <;> rfl

/-- What ends a lexeme is no digit. -/
theorem isDigit_of_stops (stops : isBlank c ∨ c = '/') : c.isDigit = false := by
  rcases eq_of_stops stops with rfl | rfl | rfl | rfl | rfl <;> rfl

/-- A run of a class without blanks and slashes does not go on in a text that it stops at. -/
theorem Stops.takeWhile_eq_nil (stops : Stops after)
    (outside : ∀ {c}, isBlank c ∨ c = '/' → p c = false) : after.takeWhile p = [] := by
  cases after with
  | nil => rfl
  | cons c after => rw [List.takeWhile_cons_of_neg (by simp [outside (stops c rfl)])]

private theorem takeWhile_append_eq_nil (here : rest.takeWhile p = [])
    (stop : after.takeWhile p = []) : (rest ++ after).takeWhile p = [] := by
  cases rest with
  | nil => exact stop
  | cons c rest =>
      have outside : ¬p c := fun inside => by simp [List.takeWhile_cons_of_pos inside] at here
      rw [List.cons_append, List.takeWhile_cons_of_neg outside]

/-- A run that ends in front of a text ends there too if the text goes on. -/
theorem run_stops (outside : ∀ {c}, isBlank c ∨ c = '/' → p c = false)
    (here : rest.takeWhile p = []) (after : List Char) (stops : Stops after) :
    after.takeWhile p = [] ∧ (rest ++ after).takeWhile p = [] :=
  have stop := stops.takeWhile_eq_nil outside
  ⟨stop, takeWhile_append_eq_nil here stop⟩

/-- The characters of a class are taken up to the first one outside of it. -/
theorem takeWhile_run (inside : ∀ c ∈ run, p c) (stop : after.takeWhile p = []) :
    (run ++ after).takeWhile p = run := by
  rw [List.takeWhile_append_of_pos inside, stop, List.append_nil]

/-- The characters of a class are dropped up to the first one outside of it. -/
theorem dropWhile_run (inside : ∀ c ∈ run, p c) (stop : after.takeWhile p = []) :
    (run ++ after).dropWhile p = after := by
  rw [List.dropWhile_append_of_pos inside]
  simpa [stop] using List.takeWhile_append_dropWhile (p := p) (l := after)

/-- A text begins with a run of a class that does not go on behind it. -/
theorem exists_run (p : Char → Bool) (rest : List Char) :
    ∃ run after, rest = run ++ after ∧ (∀ c ∈ run, p c) ∧ after.takeWhile p = [] := by
  refine ⟨rest.takeWhile p, rest.dropWhile p, List.takeWhile_append_dropWhile.symm,
    fun c member => List.mem_takeWhile_imp member, ?_⟩
  cases remaining : rest.dropWhile p with
  | nil => rfl
  | cons c after =>
      have stop := List.head_dropWhile_not p (l := rest) (by simp [remaining])
      rw [List.takeWhile_cons_of_neg]
      simpa [remaining] using stop

end Runs

/-! ## Names and references -/

section Words

variable {symbols : SymbolTable} {first : Char} {word rest after : List Char}

private theorem wordKind_ne_unknown (symbols : SymbolTable) (word : String) (cause : LexError) :
    wordKind symbols word ≠ .unknown cause := by
  unfold wordKind
  split <;> simp

private theorem readWord_append (inside : ∀ c ∈ word, isWordChar c)
    (stop : after.takeWhile isWordChar = []) :
    readWord symbols first (word ++ after) =
      ⟨wordKind symbols (String.ofList (first :: word)), word.length⟩ := by
  rw [readWord, takeWhile_run inside stop]

private theorem exists_takes_readWord (symbols : SymbolTable) (first : Char) (rest : List Char) :
    ∃ taken behind, rest = taken ++ behind ∧ Takes (readWord symbols first) taken behind := by
  obtain ⟨word, behind, rfl, inside, stop⟩ := exists_run isWordChar rest
  exact ⟨word, behind, rfl, .of_closed (wordKind_ne_unknown _ _ _)
    (fun after => readWord_append inside) stop
    (run_stops isWordChar_of_stops stop)⟩

/-- What a reference is depends on its name. -/
theorem readReference_append (inside : ∀ c ∈ word, isWordChar c) :
    ∃ kind ≠ .unknown .unterminatedIdsz, ∀ after, after.takeWhile isWordChar = [] →
      readReference (word ++ after) = ⟨kind, word.length⟩ := by
  cases word with
  | nil =>
      refine ⟨.unknown .emptyReference, by simp, fun after stop => ?_⟩
      rw [readReference, takeWhile_run inside stop]
      rfl
  | cons c word =>
      cases known : AlertKind.ofName? (String.ofList (c :: word)) with
      | none =>
          refine ⟨.name, by simp, fun after stop => ?_⟩
          simp only [readReference, takeWhile_run inside stop, known]
          rfl
      | some kind =>
          refine ⟨.reference (Int32.ofNat kind.bit), by simp, fun after stop => ?_⟩
          simp only [readReference, takeWhile_run inside stop, known]
          rfl

private theorem exists_takes_readReference (rest : List Char) :
    ∃ taken behind, rest = taken ++ behind ∧ Takes readReference taken behind := by
  obtain ⟨word, behind, rfl, inside, stop⟩ := exists_run isWordChar rest
  obtain ⟨kind, closed, read⟩ := readReference_append inside
  exact ⟨word, behind, rfl, .of_closed closed read stop
    (run_stops isWordChar_of_stops stop)⟩

end Words

/-! ## Tags -/

section Tags

variable {close : Char} {body : List Char}

/-- A tag that is closed has the letters up to its closing sign. -/
theorem readIdsz_append (inside : close ∉ body) (after : List Char) :
    readIdsz close (body ++ close :: after) =
      match Idsz.ofChars? body with
      | some tag => ⟨.idsz tag.value, body.length + 1⟩
      | none => ⟨.unknown .malformedIdsz, body.length + 1⟩ := by
  have letters : ∀ c ∈ body, decide (c ≠ close) = true := fun c member => by
    simpa using ne_of_mem_of_not_mem member inside
  have read : (body ++ close :: after).takeWhile (· ≠ close) = body :=
    takeWhile_run letters (List.takeWhile_cons_of_neg (by simp))
  have shorter : body.length < (body ++ close :: after).length := by simp
  simp only [readIdsz, read]
  exact if_pos shorter

/-- A tag ends with the first closing sign, whatever stands behind it. -/
theorem readIdsz_closed (inside : close ∉ body) :
    ∃ kind ≠ .unknown .unterminatedIdsz, ∀ after,
      readIdsz close (body ++ close :: after) = ⟨kind, body.length + 1⟩ := by
  simp only [readIdsz_append inside]
  cases Idsz.ofChars? body with
  | none => exact ⟨.unknown .malformedIdsz, by simp, fun _ => rfl⟩
  | some tag => exact ⟨.idsz tag.value, by simp, fun _ => rfl⟩

/-- A tag without a closing sign takes all that is there. -/
theorem readIdsz_open (inside : close ∉ body) :
    readIdsz close body = ⟨.unknown .unterminatedIdsz, body.length⟩ := by
  have letters : body.takeWhile (· ≠ close) = body := by
    refine List.takeWhile_eq_self_iff.mpr fun c member => ?_
    simpa using ne_of_mem_of_not_mem member inside
  rw [readIdsz, letters, if_neg (Nat.lt_irrefl _)]

private theorem exists_takes_readIdsz (close : Char) (rest : List Char) :
    ∃ taken behind, rest = taken ++ behind ∧ Takes (readIdsz close) taken behind := by
  by_cases member : close ∈ rest
  · obtain ⟨body, behind, rfl, inside⟩ := List.eq_append_cons_of_mem member
    obtain ⟨kind, closed, read⟩ := readIdsz_closed inside
    have again : ∀ after, True →
        readIdsz close (body ++ [close] ++ after) = ⟨kind, (body ++ [close]).length⟩ := by
      intro after _
      simpa using read after
    exact ⟨body ++ [close], behind, by simp,
      .of_closed closed again trivial fun _ _ => ⟨trivial, trivial⟩⟩
  · have unclosed : (readIdsz close (rest ++ [])).kind = .unknown .unterminatedIdsz := by
      rw [List.append_nil, readIdsz_open member]
    refine ⟨rest, [], (List.append_nil rest).symm, ?_, fun _ => rfl, fun _ closed => ?_,
      fun _ closed => ?_⟩
    · rw [List.append_nil, readIdsz_open member]
    · rw [closed unclosed]
    · rw [closed unclosed, List.append_nil]

end Tags

/-! ## Numerals -/

section Numerals

variable {first : Char} {digits fraction rest after : List Char}

/-- Digits without a point and a digit behind them are a whole number. -/
theorem readNumber_whole (inside : ∀ c ∈ digits, c.isDigit)
    (stop : after.takeWhile Char.isDigit = []) (noFraction : fractionDigits after = []) :
    readNumber first (digits ++ after) = ⟨wholeKind (first :: digits), digits.length⟩ := by
  simp [readNumber, takeWhile_run inside stop, dropWhile_run inside stop, noFraction]

/-- Digits on both sides of a point are a fixed-point number. -/
theorem readNumber_fixed (inside : ∀ c ∈ digits, c.isDigit)
    (insideFraction : ∀ c ∈ fraction, c.isDigit) (nonempty : fraction ≠ [])
    (stop : after.takeWhile Char.isDigit = []) :
    readNumber first (digits ++ '.' :: (fraction ++ after)) =
      ⟨fixedKind (first :: digits) fraction, digits.length + 1 + fraction.length⟩ := by
  have point : ('.' :: (fraction ++ after)).takeWhile Char.isDigit = [] := rfl
  have read : fractionDigits ('.' :: (fraction ++ after)) = fraction :=
    takeWhile_run insideFraction stop
  simp [readNumber, takeWhile_run inside point, dropWhile_run inside point, read, nonempty]

private theorem wholeKind_ne_unterminated (digits : List Char) :
    wholeKind digits ≠ .unknown .unterminatedIdsz := by
  unfold wholeKind
  dsimp only
  split <;> simp

private theorem fixedKind_ne_unterminated (digits fraction : List Char) :
    fixedKind digits fraction ≠ .unknown .unterminatedIdsz := by
  unfold fixedKind
  dsimp only
  split <;> simp

/-- Only a point has a fraction behind it. -/
theorem fractionDigits_cons {c : Char} (noPoint : c ≠ '.') : fractionDigits (c :: after) = [] := by
  simp [fractionDigits, noPoint]

/-- A fraction is a point, some digits and what follows them. -/
theorem exists_fraction (present : fractionDigits rest ≠ []) :
    ∃ fraction after, rest = '.' :: (fraction ++ after) ∧ fraction ≠ [] ∧
      (∀ c ∈ fraction, c.isDigit) ∧ after.takeWhile Char.isDigit = [] := by
  unfold fractionDigits at present
  split at present
  case h_1 tail =>
    obtain ⟨fraction, after, rfl, inside, stop⟩ := exists_run Char.isDigit tail
    rw [takeWhile_run inside stop] at present
    exact ⟨fraction, after, rfl, present, inside, stop⟩
  case h_2 => exact absurd rfl present

private theorem fractionDigits_of_stops (stops : Stops after) : fractionDigits after = [] := by
  cases after with
  | nil => rfl
  | cons c after =>
      refine fractionDigits_cons ?_
      rintro rfl
      exact absurd (stops '.' rfl) (by decide)

private theorem fractionDigits_append (here : fractionDigits rest = []) (stops : Stops after) :
    fractionDigits (rest ++ after) = [] := by
  cases rest with
  | nil => exact fractionDigits_of_stops stops
  | cons c rest =>
      by_cases point : c = '.'
      · subst point
        exact takeWhile_append_eq_nil here (stops.takeWhile_eq_nil isDigit_of_stops)
      · exact fractionDigits_cons point

private theorem exists_takes_readNumber (first : Char) (rest : List Char) :
    ∃ taken behind, rest = taken ++ behind ∧ Takes (readNumber first) taken behind := by
  obtain ⟨digits, tail, rfl, inside, here⟩ := exists_run Char.isDigit rest
  by_cases noFraction : fractionDigits tail = []
  · have read (after : List Char)
        (ends : after.takeWhile Char.isDigit = [] ∧ fractionDigits after = []) :
        readNumber first (digits ++ after) = ⟨wholeKind (first :: digits), digits.length⟩ :=
      readNumber_whole inside ends.1 ends.2
    refine ⟨digits, tail, rfl, .of_closed (wholeKind_ne_unterminated _) read ⟨here, noFraction⟩
      fun after stops => ?_⟩
    obtain ⟨ends, further⟩ := run_stops isDigit_of_stops here after stops
    exact ⟨⟨ends, fractionDigits_of_stops stops⟩, further, fractionDigits_append noFraction stops⟩
  · obtain ⟨fraction, behind, rfl, nonempty, insideFraction, here⟩ := exists_fraction noFraction
    have read (after : List Char) (ends : after.takeWhile Char.isDigit = []) :
        readNumber first (digits ++ '.' :: fraction ++ after) =
          ⟨fixedKind (first :: digits) fraction, (digits ++ '.' :: fraction).length⟩ := by
      have length : (digits ++ '.' :: fraction).length = digits.length + 1 + fraction.length := by
        simp [Nat.add_assoc, Nat.add_comm 1]
      rw [List.append_assoc, List.cons_append, length]
      exact readNumber_fixed inside insideFraction nonempty ends
    exact ⟨digits ++ '.' :: fraction, behind, by simp,
      .of_closed (fixedKind_ne_unterminated (first :: digits) fraction) read here
        (run_stops isDigit_of_stops here)⟩

end Numerals

/-! ## Signs -/

/-- A sign is one character, or two where it may be doubled and is. A slash may not. -/
theorem readSign_eq (first : Char) :
    ∃ kind ≠ .unknown .unterminatedIdsz, ∃ doubles : Bool, (doubles → first ≠ '/') ∧ ∀ rest,
      readSign first rest = ⟨kind, if doubles ∧ rest.head? = some first then 1 else 0⟩ := by
  unfold readSign
  dsimp only
  split
  case h_8 => exact ⟨.operator .shiftLeft, by simp, true, by decide, fun rest => by simp⟩
  case h_9 => exact ⟨.operator .shiftRight, by simp, true, by decide, fun rest => by simp⟩
  all_goals
    refine ⟨_, ?_, false, by simp, fun rest => rfl⟩
    simp

private theorem exists_takes_readSign {first : Char} (visible : isBlank first = false)
    (rest : List Char) :
    ∃ taken behind, rest = taken ++ behind ∧ Takes (readSign first) taken behind := by
  obtain ⟨kind, closed, doubles, notSlash, read⟩ := readSign_eq first
  by_cases doubled : doubles ∧ rest.head? = some first
  · obtain ⟨behind, rfl⟩ := List.head?_eq_some_iff.mp doubled.2
    have again : ∀ after, True → readSign first ([first] ++ after) = ⟨kind, [first].length⟩ := by
      intro after _
      simp [read, doubled.1]
    exact ⟨[first], behind, rfl, .of_closed closed again trivial fun _ _ => ⟨trivial, trivial⟩⟩
  · have again (after : List Char) (single : ¬(doubles ∧ after.head? = some first)) :
        readSign first ([] ++ after) = ⟨kind, ([] : List Char).length⟩ := by
      rw [List.nil_append, read, if_neg single]
      rfl
    refine ⟨[], rest, rfl, .of_closed closed again doubled fun after stops => ?_⟩
    have single : ¬(doubles ∧ after.head? = some first) := by
      rintro ⟨may, head⟩
      rcases stops first head with blank | slash
      · rw [visible] at blank
        cases blank
      · exact notSlash may slash
    refine ⟨single, ?_⟩
    cases rest with
    | nil => exact single
    | cons c rest => exact doubled

/-! ## All lexemes -/

/-- **What is read depends on the lexeme alone.** -/
theorem exists_takes_read (symbols : SymbolTable) {c : Char} (visible : isBlank c = false)
    (rest : List Char) :
    ∃ taken behind, rest = taken ++ behind ∧ Takes (read symbols c) taken behind := by
  unfold read
  split
  · exact exists_takes_readIdsz ']' rest
  · split
    · exact exists_takes_readIdsz '\'' rest
    · split
      · exact exists_takes_readReference rest
      · split
        · exact exists_takes_readNumber c rest
        · split
          · exact exists_takes_readWord symbols c rest
          · exact exists_takes_readSign visible rest

end NpcScript.Lexer
