import NpcScript.Text
import NpcScript.Text.Quoted
import NpcScript.Token.Basic

/-!
# Token listings

A listing shows one token on each line, behind its line and column. It may be coloured, and it shows
either all fields of a token or only what a reader needs.
-/

namespace NpcScript.Token.Listing

/-- How a listing is set. -/
structure Style where
  /-- Whether lines are coloured by the kind of token. -/
  colored : Bool
  /-- Whether every field of a token is shown. -/
  detailed : Bool
  deriving DecidableEq, Inhabited

/-- The tag of a kind of token. -/
def tag : TokenKind → String
  | .function _ => "FUNC"
  | .var _ => "VAR"
  | .constant _ => "CONST"
  | .name => "NAME"
  | .idsz _ => "IDSZ"
  | .number _ => "NUM"
  | .reference _ => "REF"
  | .assign | .operator _ => "OP"
  | .unknown _ => "UNKNOWN"

/-- The sequence that ends a colour. -/
def plain : String := "\x1b[0m"

/-- The sequence that begins the colour of a kind of token. -/
def color : TokenKind → String
  | .unknown _ | .name => "\x1b[31m"
  | .idsz _ | .reference _ => "\x1b[32m"
  | .function _ => "\x1b[33m"
  | .assign | .operator _ => "\x1b[35m"
  | .number _ | .constant _ => "\x1b[36m"
  | .var _ => plain

/-- The name of a kind of token in a detailed listing. -/
def kindName : TokenKind → String
  | .function _ => "Function"
  | .var _ => "Variable"
  | .constant _ => "Constant"
  | .name => "Name"
  | .idsz _ => "Idsz"
  | .number _ => "NumericLiteral"
  | .reference _ => "Reference"
  | .assign => "Assign"
  | .operator .add => "Plus"
  | .operator .sub => "Minus"
  | .operator .and => "And"
  | .operator .mul => "Multiply"
  | .operator .div => "Divide"
  | .operator .mod => "Modulus"
  | .operator .shiftLeft => "ShiftLeft"
  | .operator .shiftRight => "ShiftRight"
  | .unknown _ => "Unknown"

/-- The name of a lexical error in a detailed listing. -/
def errorName : LexError → String
  | .unexpectedCharacter => "UnexpectedCharacter"
  | .malformedIdsz => "MalformedIdsz"
  | .unterminatedIdsz => "UnterminatedIdsz"
  | .numberOverflow => "NumberOverflow"
  | .emptyReference => "EmptyReference"

/-- A record with its fields, as a detailed listing shows it. -/
def record (name : String) (fields : List (String × String)) : String :=
  name ++ " \x7b " ++ ", ".intercalate (fields.map fun (field, value) => field ++ ": " ++ value) ++
    " \x7d"

/-- All fields of a token. -/
def details (token : Token) : String :=
  record "Token" [
    ("kind", kindName token.kind),
    ("location", record "SourceLocation" [
      ("line", toString token.location.line),
      ("column", toString token.location.column)]),
    ("indent", toString token.indent),
    ("lexeme", Text.quote token.lexeme),
    ("value", toString token.kind.value),
    ("error", match token.kind.error? with
      | none => "None"
      | some error => "Some(" ++ errorName error ++ ")")]

/-- What a reader needs of a token: the lexeme, and its error or its value where it has one. -/
def summary (token : Token) : String :=
  match token.kind with
  | .unknown cause => Text.padRight 16 token.lexeme ++ " (" ++ cause.message ++ ")"
  | .assign | .operator _ => token.lexeme
  | kind =>
      Text.padRight 16 token.lexeme ++ " = " ++ toString kind.value ++
        " (indent " ++ toString token.indent ++ ")"

/-- The line of a token in a listing. -/
def line (style : Style) (token : Token) : String :=
  "[" ++ Text.decimal 2 token.location.line ++ ":" ++
    Text.decimal 2 token.location.column ++ "] " ++
    (if style.colored then color token.kind else "") ++
    Text.padRight 8 (tag token.kind) ++ " " ++
    (if style.detailed then details token else summary token) ++
    (if style.colored then plain else "") ++ "\n"

/-- The listing of a sequence of tokens. -/
def render (style : Style) (tokens : List Token) : String :=
  String.join (tokens.map (line style))

end NpcScript.Token.Listing
