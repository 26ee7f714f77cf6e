/-!
# Four-letter tags

Kinds of characters and items are told apart by tags of four letters, such as `[HUMA]`. A tag is
packed into twenty bits, five for each letter, and the first letter takes the highest place.
-/

namespace NpcScript

/-- A packed four-letter tag. -/
structure Idsz where
  bits : UInt32
  deriving DecidableEq, Inhabited

namespace Idsz

/-- The five bits that stand for a letter: its distance from `A`, modulo 32. -/
def letterBits (c : Char) : UInt32 :=
  (c.val - 'A'.val) &&& 0x1F

/-- The letter that stands for five bits. -/
def ofLetterBits (bits : UInt32) : Char :=
  Char.ofNat ((bits &&& 0x1F).toNat + 'A'.toNat)

/-- Packs four letters, the first one highest. -/
def pack (a b c d : Char) : Idsz :=
  ⟨(letterBits a <<< 15) ||| (letterBits b <<< 10) ||| (letterBits c <<< 5) ||| letterBits d⟩

/-- The tag that stands for no tag at all. -/
def untagged : Idsz := pack 'N' 'O' 'N' 'E'

/-- A character that a tag may be written with. -/
def isTagChar (c : Char) : Bool :=
  c.val < 0x80

/-- Reads the letters of a tag: exactly four ASCII characters. -/
def ofChars? : List Char → Option Idsz
  | [a, b, c, d] =>
      if [a, b, c, d].all isTagChar then some (pack a b c d) else none
  | _ => none

/-- The tag as a signed number. -/
def value (tag : Idsz) : Int32 := tag.bits.toInt32

/-- The four letters of a tag. Packing them again gives the low twenty bits of the tag. -/
def letters (tag : Idsz) : String :=
  String.ofList (([15, 10, 5, 0] : List UInt32).map fun shift => ofLetterBits (tag.bits >>> shift))

/-- A tag as it is shown: its letters in brackets. -/
def render (tag : Idsz) : String :=
  "[" ++ tag.letters ++ "]"

end Idsz
end NpcScript
