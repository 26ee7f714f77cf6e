import NpcScript.Script.Verify

/-!
# Stored scripts

A compiled script is stored as bytes: four magic bytes, the version of the format, the name, the
words, the labels, the number of built-ins used and the flags. Numbers are written seven bits to a
byte, the lowest first, and the high bit says that more follow. Text and lists begin with their
length. A stored script is verified when it is read back, and bytes behind it are ignored.
-/

namespace NpcScript

/-- Why bytes do not spell what they should. -/
inductive SpellError where
  | endOfBytes
  | malformedNumber
  | malformedText
  deriving DecidableEq, Inhabited

/-- The wording of a spelling error. -/
def SpellError.message : SpellError → String
  | endOfBytes => "Hit the end of buffer, expected more data"
  | malformedNumber =>
      "Found a varint that didn't terminate. Is the usize too big for this platform?"
  | malformedText => "Tried to parse invalid utf-8"

/-- Why bytes hold no script that is fit to run. -/
inductive PersistError where
  | decode (cause : SpellError)
  | badMagic
  | version (found : UInt16)
  | verify (cause : VerifyError)
  deriving DecidableEq, Inhabited

namespace Bytes

/-- A reader takes what it reads from the front of the bytes. -/
abbrev Reader (α : Type) := List UInt8 → Except SpellError (α × List UInt8)

/-- Writes a number, seven bits to a byte. -/
def putNumber (n : Nat) : List UInt8 :=
  if n < 128 then [n.toUInt8] else (n % 128 + 128).toUInt8 :: putNumber (n / 128)
termination_by n

/-- Reads the digits of a number from the given place on, of which at most `left` may follow. The
last digit there is room for has to leave the number below two to the power of `bits`. -/
def getDigits (bits : Nat) : (left place sum : Nat) → Reader Nat
  | 0, _, _, _ => .error .malformedNumber
  | _ + 1, _, _, [] => .error .endOfBytes
  | left + 1, place, sum, byte :: rest =>
      let sum := sum + byte.toNat % 128 * Nat.pow 2 place
      if 128 ≤ byte.toNat then getDigits bits left (place + 7) sum rest
      else if sum < Nat.pow 2 bits then .ok (sum, rest)
      else .error .malformedNumber

/-- Reads a number below two to the power of `bits`; zeros in front of it may fill up the room that
the greatest such number takes. -/
def getNumber (bits : Nat) : Reader Nat :=
  getDigits bits ((bits + 6) / 7) 0 0

/-- Reads one byte. -/
def getByte : Reader UInt8
  | [] => .error .endOfBytes
  | byte :: rest => .ok (byte, rest)

/-- Reads as many bytes as given. -/
def getBytes (count : Nat) : Reader (List UInt8) := fun bytes =>
  if bytes.length < count then .error .endOfBytes
  else .ok (bytes.take count, bytes.drop count)

/-- The size of a length in bits. -/
def lengthBits : Nat := 64

/-- Writes a text behind its length. -/
def putText (s : String) : List UInt8 :=
  let bytes := s.toUTF8.data.toList
  putNumber bytes.length ++ bytes

/-- Reads a text behind its length. -/
def getText : Reader String := fun bytes =>
  match getNumber lengthBits bytes with
  | .error error => .error error
  | .ok (count, bytes) =>
      match getBytes count bytes with
      | .error error => .error error
      | .ok (content, bytes) =>
          match String.fromUTF8? ⟨content.toArray⟩ with
          | some s => .ok (s, bytes)
          | none => .error .malformedText

/-- Writes words behind their number. -/
def putWords (words : Array UInt32) : List UInt8 :=
  putNumber words.size ++ words.toList.flatMap fun word => putNumber word.toNat

/-- Reads as many words as given, behind those already read. -/
def getWordsOnto : (count : Nat) → Array UInt32 → Reader (Array UInt32)
  | 0, words, bytes => .ok (words, bytes)
  | count + 1, words, bytes =>
      match getNumber 32 bytes with
      | .error error => .error error
      | .ok (word, bytes) => getWordsOnto count (words.push word.toUInt32) bytes

/-- Reads words behind their number. -/
def getWords : Reader (Array UInt32) := fun bytes =>
  match getNumber lengthBits bytes with
  | .error error => .error error
  | .ok (count, bytes) => getWordsOnto count #[] bytes

end Bytes

namespace Script

/-- The bytes that a stored script begins with. -/
def magic : List UInt8 := [0x41, 0x49, 0x53, 0x43]

/-- The version of the format. -/
def formatVersion : UInt16 := 1

/-- The wording of an error in a stored script. -/
def persistMessage : PersistError → String
  | .decode cause => "failed to decode script: " ++ cause.message
  | .badMagic => "not a compiled script"
  | .version found =>
      "unsupported format version " ++ toString found.toNat ++ " (expected " ++
        toString formatVersion.toNat ++ ")"
  | .verify cause => "persisted script failed verification: " ++ cause.message

/-- The bytes of a script. -/
def toBytes (script : Script) : List UInt8 :=
  magic ++ Bytes.putNumber formatVersion.toNat ++ Bytes.putText script.name ++
    Bytes.putWords script.words ++ Bytes.putWords script.labels ++
    Bytes.putNumber script.builtinsUsed.toNat ++ [script.flags.bits]

/-- Reads the magic bytes, the version and the fields of a script. -/
def getStored : Bytes.Reader (List UInt8 × UInt16 × Script) := fun bytes => do
  let (found, bytes) ← Bytes.getBytes magic.length bytes
  let (version, bytes) ← Bytes.getNumber 16 bytes
  let (name, bytes) ← Bytes.getText bytes
  let (words, bytes) ← Bytes.getWords bytes
  let (labels, bytes) ← Bytes.getWords bytes
  let (builtinsUsed, bytes) ← Bytes.getNumber 16 bytes
  let (flags, bytes) ← Bytes.getByte bytes
  return ((found, version.toUInt16, ⟨name, words, labels, builtinsUsed.toUInt16, ⟨flags⟩⟩), bytes)

/-- Reads a stored script and verifies it. -/
def ofBytes (bytes : List UInt8) : Except PersistError Script :=
  match getStored bytes with
  | .error cause => .error (.decode cause)
  | .ok ((found, version, script), _) =>
      if found ≠ magic then .error .badMagic
      else if version ≠ formatVersion then .error (.version version)
      else
        match script.verify with
        | .error cause => .error (.verify cause)
        | .ok () => .ok script

end Script
end NpcScript
