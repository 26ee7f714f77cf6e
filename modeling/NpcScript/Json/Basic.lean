/-!
# JSON values

A value is kept as it is written wherever its reader may care about the writing: a number with a
point or an exponent is no integer, and a text keeps its escapes undecoded, since a text that nobody
reads may spell anything.
-/

namespace NpcScript.Json

/-- A piece of a text between its quotes. -/
inductive Piece where
  /-- A byte of the text, which stands for itself. -/
  | byte (b : UInt8)
  /-- A UTF-16 code unit that is given by its number. -/
  | codeUnit (u : UInt16)
  deriving DecidableEq, Inhabited

/-- A JSON value. -/
inductive Value where
  | null
  | bool (b : Bool)
  | integer (n : Int)
  /-- A number that is not written as an integer. Minus zero counts as one. -/
  | real
  | text (pieces : List Piece)
  | array (items : List Value)
  | object (members : List (List Piece × Value))
  deriving Inhabited

namespace Piece

/-- The first code unit of a surrogate pair. -/
def isHighSurrogate (u : UInt16) : Bool := 0xD800 ≤ u && u < 0xDC00

/-- The second code unit of a surrogate pair. -/
def isLowSurrogate (u : UInt16) : Bool := 0xDC00 ≤ u && u < 0xE000

/-- The character that a surrogate pair stands for. -/
def pairedChar (high low : UInt16) : Char :=
  Char.ofNat (0x10000 + (high.toNat - 0xD800) * 0x400 + (low.toNat - 0xDC00))

/-- The bytes that pieces spell, behind those that stand last first in `done`. A surrogate without
its partner spells nothing. -/
def spell (done : List UInt8) : List Piece → Option (List UInt8)
  | [] => some done.reverse
  | .byte b :: rest => spell (b :: done) rest
  | .codeUnit u :: rest =>
      if isHighSurrogate u then
        match rest with
        | .codeUnit v :: rest =>
            if isLowSurrogate v then
              spell ((String.utf8EncodeChar (pairedChar u v)).reverse ++ done) rest
            else none
        | _ => none
      else if isLowSurrogate u then none
      else spell ((String.utf8EncodeChar (Char.ofNat u.toNat)).reverse ++ done) rest

/-- The text that pieces spell. -/
def decode? (pieces : List Piece) : Option String :=
  (spell [] pieces).bind fun bytes => String.fromUTF8? ⟨bytes.toArray⟩

end Piece

namespace Value

/-- The text that a value is. -/
def text? : Value → Option String
  | .text pieces => Piece.decode? pieces
  | _ => none

/-- The truth value that a value is. -/
def bool? : Value → Option Bool
  | .bool b => some b
  | _ => none

/-- The integer that a value is, if it lies within the bounds. -/
def integer? (least greatest : Int) : Value → Option Int
  | .integer n => if least ≤ n ∧ n ≤ greatest then some n else none
  | _ => none

/-- The signed 32-bit number that a value is. -/
def int32? (value : Value) : Option Int32 :=
  (value.integer? Int32.minValue.toInt Int32.maxValue.toInt).map Int32.ofInt

/-- The 32-bit word that a value is. -/
def word? (value : Value) : Option UInt32 :=
  (value.integer? 0 0xFFFFFFFF).map fun n => n.toNat.toUInt32

/-- The count that a value is. Counts have 64 bits. -/
def count? (value : Value) : Option Nat :=
  (value.integer? 0 0xFFFFFFFFFFFFFFFF).map Int.toNat

/-- The list that a value is. -/
def list? (item? : Value → Option α) : Value → Option (List α)
  | .array items => items.mapM item?
  | _ => none

end Value

/-- The fields of a record that are given, with their names. -/
abbrev Fields := List (String × Value)

namespace Fields

/-- Adds a field that has not been given yet. -/
def add? (fields : Fields) (name : String) (value : Value) : Option Fields :=
  match fields.lookup name with
  | some _ => none
  | none => some ((name, value) :: fields)

/-- Adds the members of an object whose names are fields, each at most once. Other members are
passed over, but their names have to be texts. -/
def addMembers? (names : List String) : Fields → List (List Piece × Value) → Option Fields
  | fields, [] => some fields
  | fields, (pieces, value) :: rest =>
      match Piece.decode? pieces with
      | none => none
      | some name =>
          if names.contains name then
            match fields.add? name value with
            | none => none
            | some fields => addMembers? names fields rest
          else
            addMembers? names fields rest

/-- The fields of a record with the given names. They are written as an object, or as an array in
their order, of which at least the given number must be there. -/
def ofValue? (names : List String) (least : Nat) : Value → Option Fields
  | .object members => addMembers? names [] members
  | .array items =>
      if least ≤ items.length ∧ items.length ≤ names.length then some (names.zip items) else none
  | _ => none

/-- A field that has to be given. -/
def get? (fields : Fields) (name : String) (read? : Value → Option α) : Option α :=
  (fields.lookup name).bind read?

/-- A field that has a value of its own when it is not given. -/
def getD? (fields : Fields) (name : String) (read? : Value → Option α) (default : α) : Option α :=
  match fields.lookup name with
  | some value => read? value
  | none => some default

/-- A field that may be absent, which is the same as null. -/
def getOption? (fields : Fields) (name : String) (read? : Value → Option α) : Option (Option α) :=
  match fields.lookup name with
  | none => some none
  | some .null => some none
  | some value => (read? value).map some

end Fields

end NpcScript.Json
