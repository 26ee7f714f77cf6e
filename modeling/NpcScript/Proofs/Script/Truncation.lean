import NpcScript.Proofs.Script.Persistence

/-! # Truncated scripts are detected

A reader of stored scripts is steady: what it makes of some bytes it makes of
them whatever stands behind, unless they end too early. So no bytes that are cut
off can be taken for anything else, wherever the cut falls: between two fields,
in a number, or in a character of the name
(`NpcScript.Script.ofBytes_truncated`).
-/

namespace NpcScript

namespace Bytes

variable {α β : Type} {get : Reader α}

/-- What the reader makes of bytes that do not end too early does not depend on what stands behind
them. -/
def Steady (get : Reader α) : Prop :=
  ∀ bytes more, get bytes ≠ .error .endOfBytes →
    get (bytes ++ more) = (get bytes).map fun (a, rest) => (a, rest ++ more)

/-! ## The readers are steady -/

/-- A reader that goes on with what it read is steady if it is so in both parts. -/
theorem Steady.bind {next : α × List UInt8 → Except SpellError (β × List UInt8)}
    (first : Steady get) (second : ∀ a, Steady fun bytes => next (a, bytes)) :
    Steady fun bytes => get bytes >>= next := by
  intro bytes more decided
  cases read : get bytes with
  | error error =>
      simp only [read] at decided ⊢
      have same := first bytes more (by rw [read]; rintro ⟨⟩; exact decided rfl)
      rw [same, read]
      rfl
  | ok result =>
      obtain ⟨a, rest⟩ := result
      simp only [read] at decided ⊢
      have same := first bytes more (by simp [read])
      rw [same, read]
      exact second a rest more decided

private theorem steady_ok (value : β) : Steady fun bytes => .ok (value, bytes) :=
  fun _ _ _ => rfl

private theorem steady_error (error : SpellError) : Steady (α := α) fun _ => .error error :=
  fun _ _ _ => rfl

private theorem steady_byte : Steady getByte := by
  rintro (_ | ⟨byte, bytes⟩) more decided
  · exact absurd rfl decided
  · rfl

private theorem steady_bytes (count : Nat) : Steady (getBytes count) := by
  intro bytes more decided
  unfold getBytes at decided ⊢
  by_cases short : bytes.length < count
  · rw [if_pos short] at decided
    exact absurd rfl decided
  · have long : count ≤ bytes.length := Nat.le_of_not_lt short
    rw [if_neg short, if_neg (by rw [List.length_append]; omega),
      List.take_append_of_le_length long, List.drop_append_of_le_length long]
    rfl

private theorem steady_digits (bits left place sum : Nat) :
    Steady (getDigits bits left place sum) := by
  intro bytes more decided
  fun_induction getDigits bits left place sum bytes with
  | case1 => rfl
  | case2 => exact absurd rfl decided
  | case3 left place before byte rest sum continued ih =>
      rw [List.cons_append, getDigits, if_pos continued]
      exact ih decided
  | case4 left place before byte rest sum last fits =>
      rw [List.cons_append, getDigits, if_neg last, if_pos fits]
      rfl
  | case5 left place before byte rest sum last tooLarge =>
      rw [List.cons_append, getDigits, if_neg last, if_neg tooLarge]
      rfl

private theorem steady_number (bits : Nat) : Steady (getNumber bits) := steady_digits _ _ _ _

private theorem steady_text : Steady getText := by
  have asBind : getText = fun bytes => getNumber lengthBits bytes >>= fun count =>
      getBytes count.1 count.2 >>= fun content =>
        (String.fromUTF8? ⟨content.1.toArray⟩).elim (.error .malformedText)
          fun s => .ok (s, content.2) := by
    funext bytes
    unfold getText
    cases getNumber lengthBits bytes with
    | error error => rfl
    | ok count =>
        dsimp only [bind, Except.bind]
        cases getBytes count.1 count.2 with
        | error error => rfl
        | ok content =>
            dsimp only
            cases String.fromUTF8? ⟨content.1.toArray⟩ <;> rfl
  rw [asBind]
  refine (steady_number _).bind fun count => (steady_bytes count).bind fun content => ?_
  dsimp only
  cases String.fromUTF8? ⟨content.toArray⟩ with
  | none => exact steady_error _
  | some s => exact steady_ok s

private theorem steady_wordsOnto (count : Nat) (onto : Array UInt32) :
    Steady (getWordsOnto count onto) := by
  induction count generalizing onto with
  | zero => exact steady_ok onto
  | succ count ih =>
      have asBind : getWordsOnto (count + 1) onto = fun bytes => getNumber 32 bytes >>=
          fun word => getWordsOnto count (onto.push word.1.toUInt32) word.2 := by
        funext bytes
        rw [getWordsOnto]
        cases getNumber 32 bytes <;> rfl
      rw [asBind]
      exact (steady_number 32).bind fun word => ih (onto.push word.toUInt32)

private theorem steady_words : Steady getWords := by
  have asBind : getWords = fun bytes => getNumber lengthBits bytes >>=
      fun count => getWordsOnto count.1 #[] count.2 := by
    funext bytes
    unfold getWords
    cases getNumber lengthBits bytes <;> rfl
  rw [asBind]
  exact (steady_number _).bind fun count => steady_wordsOnto count #[]

/-! ## Cut off bytes -/

/-- A steady reader finds that bytes which were written are cut off. -/
theorem Codec.truncated {fits : α → Prop} {put : α → List UInt8} (codec : Codec fits put get)
    (steady : Steady get) {a : α} (ok : fits a) {front : List UInt8} (cut : front <+: put a)
    (strict : front ≠ put a) : get front = .error .endOfBytes := by
  obtain ⟨behind, whole⟩ := cut
  by_contra decided
  have same := steady front behind decided
  have back := codec.get_put a ok []
  rw [List.append_nil, ← whole, same] at back
  cases read : get front with
  | error error =>
      rw [read] at back
      cases back
  | ok result =>
      -- all that was written was read, so nothing was cut off
      rw [read] at back
      have nothing : result.2 ++ behind = [] := congrArg Prod.snd (Except.ok.inj back)
      rw [(List.append_eq_nil_iff.mp nothing).2, List.append_nil] at whole
      exact strict whole

end Bytes

namespace Script

open Bytes

private theorem steady_stored : Steady getStored :=
  (steady_bytes _).bind fun _ => (steady_number _).bind fun _ => steady_text.bind fun _ =>
    steady_words.bind fun _ => steady_words.bind fun _ => (steady_number _).bind fun _ =>
      steady_byte.bind fun _ => steady_ok _

variable {script other : Script} {front : List UInt8}

private theorem getStored_toBytes (addressable : script.Addressable) :
    getStored script.toBytes = .ok ((magic, formatVersion, script), []) := by
  have back := codec_stored.get_put (magic, formatVersion, script) ⟨rfl, addressable⟩ []
  rw [List.append_nil] at back
  rw [toBytes_eq]
  exact back

private theorem getStored_truncated (addressable : script.Addressable)
    (cut : front <+: script.toBytes) (strict : front ≠ script.toBytes) :
    getStored front = .error .endOfBytes := by
  rw [toBytes_eq] at cut strict
  exact codec_stored.truncated steady_stored (a := (magic, formatVersion, script))
    ⟨rfl, addressable⟩ cut strict

/-- The stored form of a script is not the beginning of that of another one. -/
theorem eq_of_prefix_toBytes (addressable : script.Addressable)
    (otherAddressable : other.Addressable) (front : script.toBytes <+: other.toBytes) :
    script = other := by
  have here := getStored_toBytes addressable
  by_cases same : script.toBytes = other.toBytes
  · rw [same, getStored_toBytes otherAddressable] at here
    cases here
    rfl
  · rw [getStored_truncated otherAddressable front same] at here
    cases here

/-- **Truncated scripts are detected.** Of a stored script that is cut off anywhere it is found that
the bytes end too early. So of two different scripts neither is stored as the beginning of the
other. -/
theorem ofBytes_truncated (addressable : script.Addressable) :
    (∀ front, front <+: script.toBytes → front ≠ script.toBytes →
      ofBytes front = .error (.decode .endOfBytes)) ∧
      ∀ other : Script, other.Addressable → script ≠ other →
        ¬script.toBytes <+: other.toBytes ∧ ¬other.toBytes <+: script.toBytes := by
  refine ⟨?_, ?_⟩
  · intro front cut strict
    rw [ofBytes, getStored_truncated addressable cut strict]
  · intro other otherAddressable distinct
    refine ⟨fun front => distinct ?_, fun front => distinct ?_⟩
    · exact eq_of_prefix_toBytes addressable otherAddressable front
    · exact (eq_of_prefix_toBytes otherAddressable addressable front).symm

/-- The stored script, cut off inside the second character of its name. -/
def cutName : List UInt8 := magic ++ [0x01, 0x08, 0x77, 0xC3]

/-- What is cut off is found to end too soon, and the bytes of another script are none of it. -/
theorem ofBytes_truncated_name :
    storedScript.Addressable ∧ cutName <+: storedScript.toBytes ∧
      cutName ≠ storedScript.toBytes ∧ ofBytes cutName = .error (.decode .endOfBytes) ∧
      (noop "wächter").Addressable ∧ storedScript ≠ noop "wächter" ∧
      ¬storedScript.toBytes <+: (noop "wächter").toBytes ∧
      ¬(noop "wächter").toBytes <+: storedScript.toBytes := by
  have addressable : storedScript.Addressable := ⟨by decide +kernel, by decide, by decide⟩
  have otherAddressable : (noop "wächter").Addressable :=
    ⟨by decide +kernel, by decide, by decide⟩
  have cut : cutName <+: storedScript.toBytes := by decide +kernel
  have strict : cutName ≠ storedScript.toBytes := by decide +kernel
  have distinct : storedScript ≠ noop "wächter" := by decide +kernel
  obtain ⟨truncated, apart⟩ := ofBytes_truncated addressable
  exact ⟨addressable, cut, strict, truncated cutName cut strict, otherAddressable, distinct,
    apart _ otherAddressable distinct⟩

end Script
end NpcScript
