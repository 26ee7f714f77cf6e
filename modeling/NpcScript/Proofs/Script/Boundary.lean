import NpcScript.Builtin.Basic
import NpcScript.Script.Basic
import NpcScript.Variable

/-! # Where instructions begin

The instructions of a script follow each other from its first word on, each
right behind the one before it and its terms. A sound script has an instruction
that is fit to be carried out at every such place but its end, and its labels
name such places only.
-/

namespace NpcScript

/-- An operand that can be read. -/
def Operand.Known : Operand → Prop
  | .var slot => ∃ v, Variable.ofSlot? slot = some v
  | .constant _ => True

/-- How many words an instruction and its terms take up. -/
def Instruction.width : Instruction → Nat
  | .assign _ terms => 1 + terms.toNat
  | _ => 1

namespace Script

variable (script : Script)

/-- The word at an offset holds an instruction. -/
def Has (offset : Nat) (instruction : Instruction) : Prop :=
  ∃ word, script.words[offset]? = some word ∧ Instruction.decode word = .ok instruction

/-- The beginning of an instruction, or the end of the script. -/
inductive Boundary : Nat → Prop where
  | first : Boundary 0
  | next {offset : Nat} {instruction : Instruction} (here : Boundary offset)
      (head : script.Has offset instruction) : Boundary (offset + instruction.width)

/-- An instruction at an offset that is fit to be carried out: the operation is in the table, the
label is defined, the variable that is assigned is writable, and the terms are there and name
variables that exist. A term on its own is not fit. -/
def Fit (offset : Nat) : Instruction → Prop
  | .call index label =>
      (∃ b, Builtin.ofIndex? index = some b) ∧
        ∀ l ∈ label, ∃ target, script.labelOffset? l = some target
  | .jump label => ∃ target, script.labelOffset? label = some target
  | .assign slot terms =>
      (∃ v, Variable.ofSlot? slot = some v ∧ v.isWritable) ∧
        ∀ i < terms.toNat, ∃ op operand, script.Has (offset + 1 + i) (.term op operand) ∧
          operand.Known
  | .term _ _ => False

/-- Where control may go from an instruction: behind it and its terms, or to its label. -/
inductive Leads (offset : Nat) : Instruction → Nat → Prop where
  | next {instruction : Instruction} : Leads offset instruction (offset + instruction.width)
  | skip {index : UInt16} {label : UInt32} {target : Nat}
      (names : script.labelOffset? label = some target) :
      Leads offset (.call index (some label)) target
  | jump {label : UInt32} {target : Nat} (names : script.labelOffset? label = some target) :
      Leads offset (.jump label) target

/-- Wherever an instruction begins there is one that is fit to be carried out, and every label
names the beginning of an instruction or the end. -/
structure Sound : Prop where
  fit : ∀ offset, script.Boundary offset →
    offset = script.words.size ∨ ∃ instruction, script.Has offset instruction ∧
      script.Fit offset instruction
  labels : ∀ label target, script.labelOffset? label = some target → script.Boundary target

variable {script} {offset : Nat} {first second : Instruction}

/-- An instruction stands inside of the script. -/
theorem Has.lt (head : script.Has offset first) : offset < script.words.size := by
  obtain ⟨word, fetched, _⟩ := head
  exact (Array.getElem?_eq_some_iff.mp fetched).1

/-- One instruction stands at an offset. -/
theorem Has.unique (left : script.Has offset first) (right : script.Has offset second) :
    first = second := by
  obtain ⟨word, fetched, decoded⟩ := left
  obtain ⟨other, fetched', decoded'⟩ := right
  rw [fetched] at fetched'
  cases fetched'
  rw [decoded] at decoded'
  cases decoded'
  rfl

/-- An instruction of a sound script leads to where an instruction begins. -/
theorem Sound.boundary_of_leads {target : Nat} (sound : script.Sound)
    (here : script.Boundary offset) (head : script.Has offset first)
    (leads : script.Leads offset first target) : script.Boundary target := by
  cases leads with
  | next => exact here.next head
  | skip names | jump names => exact sound.labels _ _ names

end Script
end NpcScript
