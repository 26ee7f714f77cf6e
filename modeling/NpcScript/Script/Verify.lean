import NpcScript.Builtin.Basic
import NpcScript.Script.Basic
import NpcScript.Variable

/-!
# Verification

A script from elsewhere is checked before it is run: every word holds an instruction, every
operation, variable and label exists, every assignment is followed by its terms, which occur nowhere
else, and every label names the beginning of an instruction or the end of the script.
-/

namespace NpcScript

/-- Why a script is not fit to run. -/
inductive VerifyError where
  | corrupt (offset : Nat) (cause : DecodeError)
  | unknownBuiltin (offset : Nat) (index : UInt16)
  | undefinedLabel (offset : Nat) (label : UInt32)
  | labelOutOfRange (label : Nat) (target : UInt32)
  | unknownVariable (offset : Nat) (slot : UInt8)
  | readOnlyVariable (offset : Nat) (v : Variable)
  | truncatedExpression (offset expected found : Nat)
  | strayOperand (offset : Nat)
  | labelInsideExpression (label : Nat) (target : UInt32)
  deriving DecidableEq, Inhabited

namespace VerifyError

/-- The wording of a verification error. -/
def message : VerifyError → String
  | corrupt offset cause => at_ offset ++ cause.message
  | unknownBuiltin offset index =>
      at_ offset ++ "built-in index " ++ toString index.toNat ++ " out of range"
  | undefinedLabel offset label =>
      at_ offset ++ "label " ++ toString label.toNat ++ " is not defined"
  | labelOutOfRange label target =>
      "label " ++ toString label ++ " points past the end of the script (" ++
        toString target.toNat ++ ")"
  | unknownVariable offset slot => at_ offset ++ "no variable in slot " ++ toString slot.toNat
  | readOnlyVariable offset v => at_ offset ++ "variable '" ++ v.name ++ "' is read-only"
  | truncatedExpression offset expected found =>
      at_ offset ++ "expression expects " ++ toString expected ++ " operands, found " ++
        toString found
  | strayOperand offset => at_ offset ++ "operand outside an expression"
  | labelInsideExpression label target =>
      "label " ++ toString label ++ " points into an expression (word " ++
        toString target.toNat ++ ")"
where
  /-- Names the word that an error is about. -/
  at_ (offset : Nat) : String := "word " ++ toString offset ++ ": "

end VerifyError

namespace Script

/-- An assignment whose terms are being read: its offset, the number of its terms, and how many of
them are still to come. -/
structure PendingTerms where
  offset : Nat
  expected : Nat
  missing : Nat
  deriving DecidableEq, Inhabited

/-- The error of an assignment that lacks a term. -/
def PendingTerms.truncated (pending : PendingTerms) : VerifyError :=
  .truncatedExpression pending.offset pending.expected (pending.expected - pending.missing)

/-- Checks a label that an instruction goes to. -/
def checkLabel (labels : Nat) (offset : Nat) (label : UInt32) : Except VerifyError Unit :=
  if label.toNat < labels then .ok () else .error (.undefinedLabel offset label)

/-- Checks the word at which an instruction begins, in a script with the given number of labels,
and gives the number of terms that follow it. -/
def checkInstruction (labels offset : Nat) : Instruction → Except VerifyError Nat
  | .call builtin label =>
      match Builtin.ofIndex? builtin with
      | none => .error (.unknownBuiltin offset builtin)
      | some _ =>
          match label with
          | none => .ok 0
          | some label => (checkLabel labels offset label).map fun _ => 0
  | .jump label => (checkLabel labels offset label).map fun _ => 0
  | .assign slot terms =>
      match Variable.ofSlot? slot with
      | none => .error (.unknownVariable offset slot)
      | some v =>
          if v.isWritable then .ok terms.toNat else .error (.readOnlyVariable offset v)
  | .term _ _ => .error (.strayOperand offset)

/-- Checks the word at which a term of an assignment is due. -/
def checkTerm (pending : PendingTerms) (offset : Nat) : Instruction → Except VerifyError Unit
  | .term _ (.var slot) =>
      match Variable.ofSlot? slot with
      | none => .error (.unknownVariable offset slot)
      | some _ => .ok ()
  | .term _ (.constant _) => .ok ()
  | _ => .error pending.truncated

/-- Checks the words from an offset on, and gives for every offset whether an instruction begins
there; the end of the script counts as such a place. -/
def checkWords (labels : Nat) :
    (offset : Nat) → PendingTerms → List UInt32 → Array Bool → Except VerifyError (Array Bool)
  | _, pending, [], starts =>
      if pending.missing = 0 then .ok (starts.push true) else .error pending.truncated
  | offset, pending, word :: rest, starts =>
      match Instruction.decode word with
      | .error cause => .error (.corrupt offset cause)
      | .ok instruction =>
          if pending.missing = 0 then
            match checkInstruction labels offset instruction with
            | .error error => .error error
            | .ok terms =>
                checkWords labels (offset + 1) ⟨offset, terms, terms⟩ rest (starts.push true)
          else
            match checkTerm pending offset instruction with
            | .error error => .error error
            | .ok () =>
                checkWords labels (offset + 1) { pending with missing := pending.missing - 1 } rest
                  (starts.push false)

/-- The first label whose target has a fault, with that target. -/
def findLabel? (script : Script) (faulty : UInt32 → Bool) : Option (UInt32 × Nat) :=
  script.labels.toList.zipIdx.find? fun (target, _) => faulty target

/-- Checks whether a script is fit to run. -/
def verify (script : Script) : Except VerifyError Unit :=
  match script.findLabel? fun target => script.words.size.toUInt32 < target with
  | some (target, label) => .error (.labelOutOfRange label target)
  | none =>
      match checkWords script.labels.size 0 ⟨0, 0, 0⟩ script.words.toList #[] with
      | .error error => .error error
      | .ok starts =>
          match script.findLabel? fun target => !starts.getD target.toNat false with
          | some (target, label) => .error (.labelInsideExpression label target)
          | none => .ok ()

end Script
end NpcScript
