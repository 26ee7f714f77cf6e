import NpcScript.Json.Basic
import NpcScript.Text

/-!
# Reading JSON

A text is cut into lexemes, and the lexemes are put together by a machine that keeps the arrays and
objects it is inside of on a stack. The syntax is strict: no comments, no trailing commas, no
control characters within texts, and nothing but blanks around the value.
-/

namespace NpcScript.Json

/-- The smallest parts of a JSON text. -/
inductive Lexeme where
  | openArray
  | closeArray
  | openObject
  | closeObject
  | comma
  | colon
  /-- A value without parts. -/
  | leaf (value : Value)

namespace Lexeme

/-- A lexeme that begins with a given byte, and how many more bytes it has. -/
structure Reading where
  lexeme : Lexeme
  extra : Nat

/-- A byte that separates lexemes. -/
def isBlank (b : UInt8) : Bool :=
  let c := Char.ofUInt8 b
  c = ' ' || c = '\n' || c = '\t' || c = '\r'

/-- A decimal digit. -/
def isDigit (b : UInt8) : Bool := (Char.ofUInt8 b).isDigit

/-- The value of a hexadecimal digit. -/
def hexDigit? (b : UInt8) : Option Nat := Text.hexDigit? (Char.ofUInt8 b)

/-- The code unit that four hexadecimal digits stand for. -/
def codeUnit? : List UInt8 → Option UInt16
  | a :: b :: c :: d :: _ => do
      let a ← hexDigit? a
      let b ← hexDigit? b
      let c ← hexDigit? c
      let d ← hexDigit? d
      return (((a * 16 + b) * 16 + c) * 16 + d).toUInt16
  | _ => none

/-- Reads what follows a backslash, and tells how many bytes it has. -/
def readEscape : List UInt8 → Option (Piece × Nat)
  | [] => none
  | b :: rest =>
      match Char.ofUInt8 b with
      | '"' => some (.byte b, 1)
      | '\\' => some (.byte b, 1)
      | '/' => some (.byte b, 1)
      | 'b' => some (.byte 0x08, 1)
      | 'f' => some (.byte 0x0C, 1)
      | 'n' => some (.byte 0x0A, 1)
      | 'r' => some (.byte 0x0D, 1)
      | 't' => some (.byte 0x09, 1)
      | 'u' => (codeUnit? rest).map fun u => (.codeUnit u, 5)
      | _ => none

/-- Reads a text up to its closing quote. The pieces read so far stand last first, and they take up
`length` bytes. -/
def readText (pieces : List Piece) (length : Nat) : List UInt8 → Option Reading
  | [] => none
  | b :: rest =>
      match Char.ofUInt8 b with
      | '"' => some ⟨.leaf (.text pieces.reverse), length + 1⟩
      | '\\' =>
          match readEscape rest with
          | some (piece, extra) =>
              readText (piece :: pieces) (length + 1 + extra) (rest.drop extra)
          | none => none
      | _ => if b < 0x20 then none else readText (.byte b :: pieces) (length + 1) rest
termination_by text => text.length

/-- The length of the whole part of a number: a single zero, or digits that begin with another. -/
def wholeLength? : List UInt8 → Option Nat
  | [] => none
  | b :: rest =>
      if Char.ofUInt8 b = '0' then some 1
      else if isDigit b then some (1 + (rest.takeWhile isDigit).length)
      else none

/-- The length of the digits that must be there. -/
def digitsLength? (text : List UInt8) : Option Nat :=
  let digits := text.takeWhile isDigit
  if digits.isEmpty then none else some digits.length

/-- The length of the fraction of a number, which may be missing. -/
def fractionLength? : List UInt8 → Option Nat
  | [] => some 0
  | b :: rest => if Char.ofUInt8 b = '.' then (digitsLength? rest).map (1 + ·) else some 0

/-- The length of the sign of an exponent, which may be missing. -/
def signLength : List UInt8 → Nat
  | [] => 0
  | b :: _ => if Char.ofUInt8 b = '+' || Char.ofUInt8 b = '-' then 1 else 0

/-- The length of the exponent of a number, which may be missing. -/
def exponentLength? : List UInt8 → Option Nat
  | [] => some 0
  | b :: rest =>
      if Char.ofUInt8 b = 'e' || Char.ofUInt8 b = 'E' then
        let sign := signLength rest
        (digitsLength? (rest.drop sign)).map (1 + sign + ·)
      else some 0

/-- The number that decimal digits stand for. -/
def digitsValue (digits : List UInt8) : Nat :=
  digits.foldl (fun n d => 10 * n + (d.toNat - '0'.toNat)) 0

/-- The value of an integer. Minus zero is none. -/
def integerValue (negative : Bool) (n : Nat) : Value :=
  if negative then (if n = 0 then .real else .integer (-n)) else .integer n

/-- Reads a number. -/
def readNumber (negative : Bool) (text : List UInt8) : Option (Value × Nat) := do
  let whole ← wholeLength? text
  let fraction ← fractionLength? (text.drop whole)
  let exponent ← exponentLength? (text.drop (whole + fraction))
  let value :=
    if fraction = 0 ∧ exponent = 0 then integerValue negative (digitsValue (text.take whole))
    else .real
  return (value, whole + fraction + exponent)

/-- Reads a word that stands for a value. -/
def readWord (word : String) (value : Value) (text : List UInt8) : Option Reading :=
  let bytes := word.toUTF8.data.toList
  if bytes.isPrefixOf text then some ⟨.leaf value, bytes.length - 1⟩ else none

/-- Reads the lexeme that begins with `first`, of which `rest` is what stands behind it. -/
def read (first : UInt8) (rest : List UInt8) : Option Reading :=
  match Char.ofUInt8 first with
  | '[' => some ⟨.openArray, 0⟩
  | ']' => some ⟨.closeArray, 0⟩
  | '\x7b' => some ⟨.openObject, 0⟩
  | '\x7d' => some ⟨.closeObject, 0⟩
  | ',' => some ⟨.comma, 0⟩
  | ':' => some ⟨.colon, 0⟩
  | '"' => readText [] 0 rest
  | 'n' => readWord "null" .null (first :: rest)
  | 't' => readWord "true" (.bool true) (first :: rest)
  | 'f' => readWord "false" (.bool false) (first :: rest)
  | '-' => (readNumber true rest).map fun (value, length) => ⟨.leaf value, length⟩
  | _ =>
      (readNumber false (first :: rest)).map fun (value, length) => ⟨.leaf value, length - 1⟩

/-- The lexemes of a text, behind those already read, which stand last first. -/
def scan (done : List Lexeme) : List UInt8 → Option (List Lexeme)
  | [] => some done.reverse
  | b :: rest =>
      if isBlank b then scan done rest
      else
        match read b rest with
        | some reading => scan (reading.lexeme :: done) (rest.drop reading.extra)
        | none => none
termination_by text => text.length

end Lexeme

/-- An array or object that has been begun. What it holds stands last first. -/
inductive Frame where
  | array (items : List Value)
  /-- An object in which the value of the member with the given name is being read. -/
  | object (members : List (List Piece × Value)) (name : List Piece)

/-- What is due next. -/
inductive Place where
  | value
  /-- Behind an opening bracket: the first item, or the closing bracket. -/
  | firstItem
  /-- Behind an opening brace: the first name, or the closing brace. -/
  | firstName
  /-- A name, behind the members already read. -/
  | name (members : List (List Piece × Value))
  | colon (members : List (List Piece × Value)) (name : List Piece)
  /-- What follows a value that has been read. -/
  | behind (value : Value)

namespace Place

/-- Reads the beginning of a value. -/
def stepValue (stack : List Frame) : Lexeme → Option (Place × List Frame)
  | .leaf v => some (.behind v, stack)
  | .openArray => some (.firstItem, stack)
  | .openObject => some (.firstName, stack)
  | _ => none

/-- Reads the name of a member. -/
def stepName (members : List (List Piece × Value)) (stack : List Frame) :
    Lexeme → Option (Place × List Frame)
  | .leaf (.text key) => some (.colon members key, stack)
  | _ => none

/-- Reads what follows a value within an array or object. -/
def stepBehind (v : Value) : List Frame → Lexeme → Option (Place × List Frame)
  | .array items :: stack, .comma => some (.value, .array (v :: items) :: stack)
  | .array items :: stack, .closeArray => some (.behind (.array (v :: items).reverse), stack)
  | .object members key :: stack, .comma => some (.name ((key, v) :: members), stack)
  | .object members key :: stack, .closeObject =>
      some (.behind (.object ((key, v) :: members).reverse), stack)
  | _, _ => none

/-- Reads a lexeme. -/
def step (stack : List Frame) (lexeme : Lexeme) : Place → Option (Place × List Frame)
  | .value => stepValue stack lexeme
  | .firstItem =>
      match lexeme with
      | .closeArray => some (.behind (.array []), stack)
      | lexeme => stepValue (.array [] :: stack) lexeme
  | .firstName =>
      match lexeme with
      | .closeObject => some (.behind (.object []), stack)
      | lexeme => stepName [] stack lexeme
  | .name members => stepName members stack lexeme
  | .colon members key =>
      match lexeme with
      | .colon => some (.value, .object members key :: stack)
      | _ => none
  | .behind v => stepBehind v stack lexeme

/-- Reads lexemes to their end, where exactly one value must have been read. -/
def run : Place → List Frame → List Lexeme → Option Value
  | .behind v, [], [] => some v
  | _, _, [] => none
  | place, stack, lexeme :: rest =>
      match place.step stack lexeme with
      | some (place, stack) => run place stack rest
      | none => none

end Place

/-- The value that a text is. -/
def Value.ofBytes? (text : List UInt8) : Option Value :=
  (Lexeme.scan [] text).bind (Place.run .value [])

end NpcScript.Json
