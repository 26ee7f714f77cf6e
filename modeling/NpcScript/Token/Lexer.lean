import NpcScript.Alert
import NpcScript.Symbol
import NpcScript.Token.Basic

/-!
# Reading tokens

No lexeme crosses the end of its line, so a script is read line by line. The blanks before the
first lexeme of a line give the level of indentation that all tokens of the line carry. Further
blanks only separate lexemes, and two slashes begin a comment that runs to the end of the line.
A lexeme that makes no sense becomes an `unknown` token, and reading goes on behind it.
-/

namespace NpcScript.Lexer

/-- The lines of a text: what stands before, between and after its newlines. -/
def lines (text : List Char) : List (List Char) := text.splitOn '\n'

/-- A character that separates lexemes within a line. -/
def isBlank (c : Char) : Bool :=
  c = ' ' || c = '\t' || c = '\r' || c = '~'

/-- A blank that counts for the indentation of its line. -/
def isIndent (c : Char) : Bool :=
  c = ' ' || c = '\t' || c = '~'

/-- The columns that an indenting blank stands for: one for a space, two for the others. -/
def indentWidth (c : Char) : Nat :=
  if c = ' ' then 1 else 2

/-- The level of indentation of a line: two columns make a level, up to the deepest one. -/
def indentOf (line : List Char) : Nat :=
  min maxIndent ((line.takeWhile isIndent).foldl (fun columns c => columns + indentWidth c) 0 / 2)

/-- A character that may stand in a name. -/
def isWordChar (c : Char) : Bool :=
  c.isAlphanum || c = '_'

/-- A lexeme that begins with a given character: its kind, and how many more characters it has. -/
structure Reading where
  kind : TokenKind
  extra : Nat
  deriving DecidableEq

/-- The kind of a name. -/
def wordKind (symbols : SymbolTable) (word : String) : TokenKind :=
  match symbols.resolve? word with
  | some (.builtin index) => .function index.toUInt32.toInt32
  | some (.var v) => .var v.slot.toUInt32.toInt32
  | some (.constant value) => .constant value
  | none => .name

/-- Reads a name. -/
def readWord (symbols : SymbolTable) (first : Char) (rest : List Char) : Reading :=
  let more := rest.takeWhile isWordChar
  ⟨wordKind symbols (String.ofList (first :: more)), more.length⟩

/-- Reads what follows `@`: the name of an alert. An unknown name counts as a name without a
meaning, like any other. -/
def readReference (rest : List Char) : Reading :=
  let word := rest.takeWhile isWordChar
  if word.isEmpty then
    ⟨.unknown .emptyReference, 0⟩
  else
    match AlertKind.ofName? (String.ofList word) with
    | some kind => ⟨.reference (Int32.ofNat kind.bit), word.length⟩
    | none => ⟨.name, word.length⟩

/-- Reads what follows the opening sign of a tag. A tag that is not closed takes the rest of the
line. -/
def readIdsz (close : Char) (rest : List Char) : Reading :=
  let body := rest.takeWhile (· ≠ close)
  if body.length < rest.length then
    match Idsz.ofChars? body with
    | some tag => ⟨.idsz tag.value, body.length + 1⟩
    | none => ⟨.unknown .malformedIdsz, body.length + 1⟩
  else
    ⟨.unknown .unterminatedIdsz, body.length⟩

/-- The number that decimal digits denote, cut off at the first number without a signed 32-bit
form. -/
def digitsValue (digits : List Char) : Nat :=
  digits.foldl (fun n d => min (10 * n + (d.toNat - '0'.toNat)) 0x80000000) 0

/-- The fraction that decimal digits after a point denote, in whole 256ths. Nine digits are enough:
each 256th has at most eight. -/
def fractionValue (digits : List Char) : Nat :=
  let digits := digits.take 9
  digitsValue digits * 256 / Nat.pow 10 digits.length

/-- The kind of a numeral without a point. -/
def wholeKind (digits : List Char) : TokenKind :=
  let whole := digitsValue digits
  if whole < 0x80000000 then .number (Int32.ofNat whole) else .unknown .numberOverflow

/-- The kind of a numeral with a point: a fixed-point number in 256ths. -/
def fixedKind (digits fraction : List Char) : TokenKind :=
  let whole := digitsValue digits
  if whole < 0x800000 then .number (Int32.ofNat (256 * whole + fractionValue fraction))
  else .unknown .numberOverflow

/-- The digits behind a point, if the text begins with a point. -/
def fractionDigits : List Char → List Char
  | '.' :: rest => rest.takeWhile Char.isDigit
  | _ => []

/-- Reads a numeral. A point without a digit behind it does not belong to the numeral. -/
def readNumber (first : Char) (rest : List Char) : Reading :=
  let more := rest.takeWhile Char.isDigit
  let fraction := fractionDigits (rest.dropWhile Char.isDigit)
  if fraction.isEmpty then
    ⟨wholeKind (first :: more), more.length⟩
  else
    ⟨fixedKind (first :: more) fraction, more.length + 1 + fraction.length⟩

/-- Reads a sign. A shift is written with one sign or two. -/
def readSign (first : Char) (rest : List Char) : Reading :=
  let doubled := if rest.head? = some first then 1 else 0
  match first with
  | '=' => ⟨.assign, 0⟩
  | '+' => ⟨.operator .add, 0⟩
  | '-' => ⟨.operator .sub, 0⟩
  | '&' => ⟨.operator .and, 0⟩
  | '*' => ⟨.operator .mul, 0⟩
  | '/' => ⟨.operator .div, 0⟩
  | '%' => ⟨.operator .mod, 0⟩
  | '<' => ⟨.operator .shiftLeft, doubled⟩
  | '>' => ⟨.operator .shiftRight, doubled⟩
  | _ => ⟨.unknown .unexpectedCharacter, 0⟩

/-- Reads the lexeme that begins with `first`, of which `rest` is what stands behind it on the
line. -/
def read (symbols : SymbolTable) (first : Char) (rest : List Char) : Reading :=
  if first = '[' then readIdsz ']' rest
  else if first = '\'' then readIdsz '\'' rest
  else if first = '@' then readReference rest
  else if first.isDigit then readNumber first rest
  else if first.isAlpha || first = '_' then readWord symbols first rest
  else readSign first rest

/-- Reads a line from a column on, behind the tokens already read, which stand last first. -/
def scan (symbols : SymbolTable) (line indent column : Nat) :
    List Char → List Token → List Token
  | [], done => done.reverse
  | c :: rest, done =>
      if isBlank c then
        scan symbols line indent (column + 1) rest done
      else if c = '/' && rest.head? = some '/' then
        done.reverse
      else
        let reading := read symbols c rest
        let lexeme := String.ofList (c :: rest.take reading.extra)
        scan symbols line indent (column + 1 + reading.extra) (rest.drop reading.extra)
          (⟨reading.kind, ⟨line, column⟩, indent, lexeme⟩ :: done)
termination_by text => text.length

/-- The tokens of one line. -/
def lineTokens (symbols : SymbolTable) (number : Nat) (line : List Char) : List Token :=
  scan symbols number (indentOf line) 1 line []

/-- The tokens of a script. -/
def tokens (symbols : SymbolTable) (source : String) : List Token :=
  ((lines source.toList).zipIdx 1).flatMap fun (line, number) => lineTokens symbols number line

end NpcScript.Lexer
