import NpcScript.Proofs.Script.Codec
import NpcScript.Proofs.Script.Verify

/-! # Stored scripts are read back

The stored form of a script is the codecs of its fields one behind the other.
So a stored script is read back whatever stands behind it, and is then judged by
verification alone; and no spelling of a script that can be read is shorter than
the one that is written (`NpcScript.Script.ofBytes_toBytes`).
-/

namespace NpcScript

open Bytes

namespace Bytes.Codec

variable {α β : Type} {fits : α → Prop} {put : α → List UInt8} {get : Reader α}

/-- A reader that goes on with what it read. -/
theorem bind_put (codec : Codec fits put get) {a : α} (ok : fits a) (rest : List UInt8)
    (next : α × List UInt8 → Except SpellError (β × List UInt8)) :
    (get (put a ++ rest) >>= next) = next (a, rest) := by
  rw [codec.get_put a ok]
  rfl

/-- What a reader read before it went on. -/
theorem of_bind (codec : Codec fits put get) {bytes : List UInt8}
    {next : α × List UInt8 → Except SpellError (β × List UInt8)} {read : β × List UInt8}
    (ok : (get bytes >>= next) = .ok read) :
    ∃ a rest, fits a ∧ (put a).length + rest.length ≤ bytes.length ∧ next (a, rest) = .ok read := by
  cases found : get bytes with
  | error error =>
      rw [found] at ok
      cases ok
  | ok result =>
      rw [found] at ok
      obtain ⟨fits, shorter⟩ := codec.put_le bytes result.1 result.2 found
      exact ⟨result.1, result.2, fits, shorter, ok⟩

end Bytes.Codec

namespace Script

/-- The lengths of the name and the lists of a script are machine words, as are all lengths. -/
structure Addressable (script : Script) : Prop where
  name : script.name.toUTF8.size < UInt64.size
  words : script.words.size < UInt64.size
  labels : script.labels.size < UInt64.size

/-- The bytes of a script behind the given magic bytes and version. -/
def storedAs (found : List UInt8) (version : UInt16) (script : Script) : List UInt8 :=
  found ++ (putNumber version.toNat ++ (putText script.name ++ (putWords script.words ++
    (putWords script.labels ++ (putNumber script.builtinsUsed.toNat ++ [script.flags.bits])))))

/-- A script is written with the mark and the version of its format in front. -/
theorem toBytes_eq (script : Script) : script.toBytes = storedAs magic formatVersion script := by
  simp only [toBytes, storedAs, List.append_assoc]

/-- What `getStored` reads has a codec. -/
theorem codec_stored :
    Codec (fun (found, _, script) => found.length = magic.length ∧ script.Addressable)
      (fun (found, version, script) => storedAs found version script) getStored where
  get_put := by
    rintro ⟨found, version, script⟩ ⟨length, name, words, labels⟩ rest
    have number := codec_number 16 (by decide)
    change getStored (storedAs found version script ++ rest) = _
    unfold getStored storedAs
    simp only [List.append_assoc]
    rw [(codec_bytes magic.length).bind_put length, number.bind_put version.toNat_lt,
      codec_text.bind_put name, codec_words.bind_put words, codec_words.bind_put labels,
      number.bind_put script.builtinsUsed.toNat_lt, codec_byte.bind_put trivial]
    simp only [Nat.toUInt16, UInt16.ofNat_toNat]
    rfl
  put_le := by
    rintro bytes ⟨found, version, script⟩ rest read
    obtain ⟨magic, bytes, length, shorter₁, read⟩ := (codec_bytes magic.length).of_bind read
    obtain ⟨number, bytes, fits, shorter₂, read⟩ :=
      (codec_number 16 (by decide)).of_bind read
    obtain ⟨name, bytes, nameFits, shorter₃, read⟩ := codec_text.of_bind read
    obtain ⟨words, bytes, wordsFit, shorter₄, read⟩ := codec_words.of_bind read
    obtain ⟨labels, bytes, labelsFit, shorter₅, read⟩ := codec_words.of_bind read
    obtain ⟨used, bytes, usedFits, shorter₆, read⟩ :=
      (codec_number 16 (by decide)).of_bind read
    obtain ⟨flags, bytes, -, shorter₇, read⟩ := codec_byte.of_bind read
    cases read
    have version : number.toUInt16.toNat = number := UInt16.toNat_ofNat_of_lt' fits
    have builtins : used.toUInt16.toNat = used := UInt16.toNat_ofNat_of_lt' usedFits
    refine ⟨⟨length, nameFits, wordsFit, labelsFit⟩, ?_⟩
    simp only [storedAs, List.length_append, version, builtins]
    omega

/-- What is behind a stored script does not matter, and verification alone decides. -/
theorem ofBytes_toBytes_append {script : Script} (addressable : script.Addressable)
    (behind : List UInt8) :
    ofBytes (script.toBytes ++ behind) =
      match script.verify with
      | .error cause => .error (.verify cause)
      | .ok () => .ok script := by
  have stored : getStored (storedAs magic formatVersion script ++ behind) = _ :=
    codec_stored.get_put (magic, formatVersion, script) ⟨rfl, addressable⟩ behind
  rw [ofBytes, toBytes_eq, stored]
  cases verified : script.verify with
  | error cause => simp [verified]
  | ok done => simp [verified]

/-- A script that is read passes verification, and is no shorter where it is read from than where
it is written. -/
theorem of_ofBytes {bytes : List UInt8} {script : Script} (read : ofBytes bytes = .ok script) :
    script.Addressable ∧ script.verify = .ok () ∧ script.toBytes.length ≤ bytes.length := by
  unfold ofBytes at read
  split at read
  · cases read
  · rename_i found version stored rest getOk
    obtain ⟨⟨_, addressable⟩, shorter⟩ := codec_stored.put_le _ _ _ getOk
    split at read
    · cases read
    · rename_i isMagic
      split at read
      · cases read
      · rename_i isVersion
        split at read
        · cases read
        · rename_i accepted
          cases read
          refine ⟨addressable, accepted, ?_⟩
          rw [toBytes_eq, ← not_not.mp isMagic, ← not_not.mp isVersion]
          exact Nat.le_trans (Nat.le_add_right _ _) shorter

/-- **Stored scripts are read back.** In front of any bytes, a stored script is read back if it
passes verification, and otherwise the fault is told that verification finds. Whatever bytes a
script is read from, its own stored form is read back as the same script and is no longer. -/
theorem ofBytes_toBytes :
    (∀ (script : Script) (behind : List UInt8), script.Addressable →
      ofBytes (script.toBytes ++ behind) =
        match script.verify with
        | .error cause => .error (.verify cause)
        | .ok () => .ok script) ∧
      ∀ (bytes : List UInt8) (script : Script), ofBytes bytes = .ok script →
        ofBytes script.toBytes = .ok script ∧ script.toBytes.length ≤ bytes.length := by
  refine ⟨fun script behind addressable => ofBytes_toBytes_append addressable behind, ?_⟩
  intro bytes script read
  obtain ⟨addressable, accepted, shorter⟩ := of_ofBytes read
  refine ⟨?_, shorter⟩
  have back := ofBytes_toBytes_append addressable []
  rwa [accepted, List.append_nil] at back

/-- A script with a label behind its last word and a flag without a meaning, and a spelling of it
with zeros in front of its version and of its only label, and with a byte behind it. -/
def storedScript : Script := ⟨"wächter", #[0x10001010], #[1], 1, ⟨0x84⟩⟩

def longSpelling : List UInt8 :=
  magic ++ [0x81, 0x00] ++ putText "wächter" ++ [1, 0x90, 0xA0, 0x80, 0x80, 0x01] ++
    [1, 0x81, 0x00] ++ [1, 0x84] ++ [0xFF]

/-- The script is read from both of its spellings, and its own is not the longer one. -/
theorem ofBytes_toBytes_stored :
    storedScript.Addressable ∧ ofBytes (storedScript.toBytes ++ [0xFF]) = .ok storedScript ∧
      ofBytes longSpelling = .ok storedScript ∧
      ofBytes storedScript.toBytes = .ok storedScript ∧
      storedScript.toBytes.length ≤ longSpelling.length := by
  have addressable : storedScript.Addressable := ⟨by decide +kernel, by decide, by decide⟩
  have spelled : ofBytes longSpelling = .ok storedScript := by decide +kernel
  exact ⟨addressable, ofBytes_toBytes.1 storedScript [0xFF] addressable, spelled,
    ofBytes_toBytes.2 longSpelling storedScript spelled⟩

end Script
end NpcScript
