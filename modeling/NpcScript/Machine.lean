import NpcScript.Builtin.Perform
import NpcScript.Script.Basic

/-!
# Running scripts

A run of a script begins at its first word and ends behind its last one, at an operation that ends
it, or when it has used up its instructions. A word that makes no sense is a defect: it is reported
once, and the run goes on behind it.
-/

namespace NpcScript

/-- What may be wrong with an instruction that is to be carried out. -/
inductive Defect where
  | corrupt (cause : DecodeError)
  | unknownBuiltin (index : UInt16)
  | undefinedLabel (label : UInt32)
  | unknownVariable (slot : UInt8)
  | readOnlyVariable (v : Variable)
  | truncatedExpression (expected found : Nat)
  | strayOperand
  deriving DecidableEq, Inhabited

/-- The wording of a defect. -/
def Defect.message : Defect → String
  | corrupt cause => "corrupt instruction: " ++ cause.message
  | unknownBuiltin index => "built-in index " ++ toString index.toNat ++ " out of range"
  | undefinedLabel label => "label " ++ toString label.toNat ++ " is not defined"
  | unknownVariable slot => "no variable in slot " ++ toString slot.toNat
  | readOnlyVariable v => "variable '" ++ v.name ++ "' is read-only"
  | truncatedExpression expected found =>
      "expression expects " ++ toString expected ++ " operands, found " ++ toString found
  | strayOperand => "operand outside an expression"

/-- How a run ended. -/
inductive Outcome where
  /-- Behind the last word. -/
  | completed
  /-- At an operation that ends the run. -/
  | halted
  /-- With its instructions used up. -/
  | suspended
  deriving DecidableEq, Inhabited

/-- An operation that was dispatched. -/
structure CallRecord where
  entity : Handle
  builtin : Builtin
  signal : Signal
  deriving DecidableEq, Inhabited

/-- What a run has to say. -/
inductive MachineNote where
  | defect (script : String) (offset : Nat) (defect : Defect)
  | debug (note : DebugNote)
  deriving DecidableEq, Inhabited

/-- What is kept about the runs of all scripts. -/
structure Journal where
  calls : Array CallRecord
  /-- The defects that have been reported, by script and offset, the last first. -/
  reported : List (String × Nat)
  notes : Array MachineNote
  deriving Inhabited

namespace Journal

/-- Nothing has been run. -/
def empty : Journal := ⟨#[], [], #[]⟩

/-- The number of defects reported. -/
def defectCount (journal : Journal) : Nat := journal.reported.length

/-- Reports a defect, unless one has been reported at the same place of a script of that name. -/
def report (journal : Journal) (script : Script) (offset : Nat) (defect : Defect) : Journal :=
  if journal.reported.contains (script.name, offset) then journal
  else
    { journal with
      reported := (script.name, offset) :: journal.reported
      notes := journal.notes.push (.defect script.name offset defect) }

/-- Notes a dispatch: what it shows of the script, and itself if calls are recorded. -/
def dispatched (journal : Journal) (recordsCalls : Bool) (record : CallRecord)
    (note : Option DebugNote) : Journal :=
  { journal with
    calls := if recordsCalls then journal.calls.push record else journal.calls
    notes := match note with
      | some note => journal.notes.push (.debug note)
      | none => journal.notes }

/-- Takes the recorded calls out of the journal. -/
def takeCalls (journal : Journal) : List CallRecord × Journal :=
  (journal.calls.toList, { journal with calls := #[] })

/-- Takes the notes out of the journal. -/
def takeNotes (journal : Journal) : List MachineNote × Journal :=
  (journal.notes.toList, { journal with notes := #[] })

end Journal

/-- How scripts are run. -/
structure Machine where
  /-- The most instructions that a run may carry out. -/
  ceiling : Nat := 4096
  /-- Whether dispatches are recorded. -/
  recordsCalls : Bool := false
  deriving DecidableEq, Inhabited

/-- The state of a run. -/
structure RunState where
  journal : Journal
  mind : Mind
  world : World
  deriving Inhabited

namespace RunState

/-- Lets the run go on at an offset. -/
def goto (s : RunState) (offset : Nat) : RunState :=
  { s with mind := { s.mind with counter := offset } }

/-- Reports a defect. -/
def report (s : RunState) (script : Script) (offset : Nat) (defect : Defect) : RunState :=
  { s with journal := s.journal.report script offset defect }

/-- Lets the run go on at a label, or behind the instruction if there is no such label. -/
def jump (s : RunState) (script : Script) (offset : Nat) (label : UInt32) : RunState :=
  match script.labelOffset? label with
  | some target => s.goto target
  | none => (s.report script offset (.undefinedLabel label)).goto (offset + 1)

/-- Folds a value into the expression. -/
def fold (s : RunState) (op : Operator) (value : Int32) : RunState :=
  { s with mind := { s.mind with operand := value, working := op.apply s.mind.working value } }

/-- Folds the term at an offset into the expression. An unknown variable adds nothing. -/
def foldTerm (s : RunState) (script : Script) (offset : Nat) (op : Operator) :
    Operand → RunState
  | .constant value => s.fold op value
  | .var slot =>
      match Variable.ofSlot? slot with
      | some v =>
          let (value, world) := s.mind.read s.world v
          { s with world := world }.fold op value
      | none => (s.report script offset (.unknownVariable slot)).fold .add 0

/-- Folds the terms of an assignment from an offset on, of which some are still missing. Gives the
number of terms that could not be found, and the offset behind those that were. -/
def foldTerms (script : Script) : (missing offset : Nat) → RunState → Nat × Nat × RunState
  | 0, offset, s => (0, offset, s)
  | missing + 1, offset, s =>
      match (script.words[offset]?).map Instruction.decode with
      | some (.ok (.term op operand)) =>
          foldTerms script missing (offset + 1) (s.foldTerm script offset op operand)
      | _ => (missing + 1, offset, s)

/-- Stores the value of the expression. -/
def store (s : RunState) (script : Script) (offset : Nat) (slot : UInt8) : RunState :=
  match Variable.ofSlot? slot with
  | some v =>
      if v.isWritable then { s with mind := s.mind.write v s.mind.working }
      else s.report script offset (.readOnlyVariable v)
  | none => s.report script offset (.unknownVariable slot)

/-- Carries out an assignment. Nothing is stored when a term is missing. -/
def assign (s : RunState) (script : Script) (offset : Nat) (slot terms : UInt8) : RunState :=
  let s := { s with mind := { s.mind with working := 0 } }
  match foldTerms script terms.toNat (offset + 1) s with
  | (0, next, s) => (s.store script offset slot).goto next
  | (missing, next, s) =>
      (s.report script offset
        (.truncatedExpression terms.toNat (terms.toNat - missing))).goto next

/-- Lets the run go on as a reply to a call says, and tells whether the run ends. -/
def follow (s : RunState) (script : Script) (offset : Nat) (label : Option UInt32) :
    Signal → Bool × RunState
  | .proceed => (false, s.goto (offset + 1))
  | .skip =>
      match label with
      | some label => (false, s.jump script offset label)
      | none => (false, s.goto (offset + 1))
  | .halt => (true, s)

/-- Dispatches an operation. -/
def dispatch (s : RunState) (machine : Machine) (b : Builtin) : Signal × RunState :=
  let reply := b.perform s.mind s.world
  (reply.signal,
    { journal := s.journal.dispatched machine.recordsCalls
        ⟨s.mind.entity, b, reply.signal⟩ (b.debugNote? s.mind)
      mind := reply.mind
      world := reply.world })

/-- Carries out an instruction, and tells whether the run ends. -/
def execute (s : RunState) (machine : Machine) (script : Script) (offset : Nat) :
    Instruction → Bool × RunState
  | .call index label =>
      match Builtin.ofIndex? index with
      | some b =>
          let (signal, s) := s.dispatch machine b
          s.follow script offset label signal
      | none => (false, (s.report script offset (.unknownBuiltin index)).goto (offset + 1))
  | .jump label => (false, s.jump script offset label)
  | .assign slot terms => (false, s.assign script offset slot terms)
  | .term _ _ => (false, (s.report script offset .strayOperand).goto (offset + 1))

/-- Carries out the instruction in a word, and tells whether the run ends. -/
def step (s : RunState) (machine : Machine) (script : Script) (word : UInt32) : Bool × RunState :=
  let offset := s.mind.counter
  match Instruction.decode word with
  | .ok instruction => s.execute machine script offset instruction
  | .error cause => (false, (s.report script offset (.corrupt cause)).goto (offset + 1))

/-- Ends the run. The next one begins at the first word. -/
def finish (s : RunState) (phase : Phase) : RunState :=
  { s with mind := { s.mind with phase := phase, counter := 0 } }

end RunState

namespace Machine

/-- Runs a script on from where it is, with at most the given number of instructions. -/
def runFrom (machine : Machine) (script : Script) : (left : Nat) → RunState → Outcome × RunState
  | 0, s =>
      if s.mind.counter < script.words.size then (.suspended, s.finish .suspended)
      else (.completed, s.finish .idle)
  | left + 1, s =>
      match script.words[s.mind.counter]? with
      | none => (.completed, s.finish .idle)
      | some word =>
          match s.step machine script word with
          | (true, s) => (.halted, s.finish .terminated)
          | (false, s) => runFrom machine script left s

/-- Runs a script from its first word. -/
def run (machine : Machine) (script : Script) (s : RunState) : Outcome × RunState :=
  machine.runFrom script machine.ceiling
    { s with mind := { s.mind with counter := 0, phase := .running } }

end Machine
end NpcScript
