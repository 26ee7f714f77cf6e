import NpcScript.Proofs.Machine.Expressions
import NpcScript.Proofs.Machine.Reach

/-! # Defects are contained

What is wrong with an instruction is a matter of the script, but for a call whose
operation is skipped to a label that is not defined (`NpcScript.RunState.Meets`).
Reporting it moves neither mind nor world. What is left of the instruction is
nothing if the word makes no sense, what the operation has done if a skip has no
label, and the operands that have been folded if nothing is stored. Control goes on
behind all of that, so no defect ends a run or leads back
(`NpcScript.Machine.reaches_meets`).
-/

namespace NpcScript

/-! ## What is reported -/

/-- Between two journals, some defects of a script have been reported, and no others. -/
structure Journal.Reports (script : Script) (met : Nat → Defect → Prop) (before after : Journal) :
    Prop where
  reported : ∀ place, place ∈ after.reported ↔
    place ∈ before.reported ∨ ∃ offset defect, met offset defect ∧ place = (script.name, offset)
  noted : ∀ name offset defect, .defect name offset defect ∈ after.notes →
    .defect name offset defect ∈ before.notes ∨ name = script.name ∧ met offset defect

namespace Journal.Reports

variable {script : Script} {met met' : Nat → Defect → Prop} {first second third : Journal}

/-- Nothing has been reported between a journal and itself. -/
theorem refl (journal : Journal) : journal.Reports script (fun _ _ => False) journal where
  reported place := by simp
  noted _ _ _ member := .inl member

/-- What has been reported in two stretches has been reported in one or the other. -/
theorem trans (left : first.Reports script met second) (right : second.Reports script met' third) :
    first.Reports script (fun offset defect => met offset defect ∨ met' offset defect) third where
  reported place := by
    rw [right.reported, left.reported, or_assoc]
    refine or_congr_right ?_
    simp only [or_and_right, exists_or]
  noted name offset defect member := by
    rcases right.noted name offset defect member with member | ⟨named, later⟩
    · exact (left.noted name offset defect member).imp_right fun ⟨named, sooner⟩ =>
        ⟨named, .inl sooner⟩
    · exact .inr ⟨named, .inr later⟩

/-- Only what the defects are matters to what has been reported. -/
theorem congr (reports : first.Reports script met second)
    (same : ∀ offset defect, met offset defect ↔ met' offset defect) :
    first.Reports script met' second := by
  have : met = met' := funext fun offset => funext fun defect => propext (same offset defect)
  rwa [← this]

private theorem of_none (reports : first.Reports script (fun _ _ => False) second)
    (nothing : ∀ offset defect, ¬met offset defect) : first.Reports script met second :=
  reports.congr fun offset defect => (iff_false_intro (nothing offset defect)).symm

private theorem report (journal : Journal) (script : Script) (offset : Nat) (defect : Defect) :
    journal.Reports script (fun place met => place = offset ∧ met = defect)
      (journal.report script offset defect) := by
  unfold Journal.report
  split
  · rename_i before
    rw [List.contains_iff_mem] at before
    refine ⟨fun place => ⟨.inl, ?_⟩, fun _ _ _ member => .inl member⟩
    rintro (member | ⟨_, _, ⟨rfl, rfl⟩, rfl⟩)
    · exact member
    · exact before
  · refine ⟨fun place => ?_, fun name place met member => ?_⟩
    · simp [or_comm]
    · simpa using member

private theorem dispatched (journal : Journal) (script : Script) (recordsCalls : Bool)
    (record : CallRecord) (note : Option DebugNote) :
    journal.Reports script (fun _ _ => False) (journal.dispatched recordsCalls record note) := by
  refine ⟨fun place => by simp [Journal.dispatched], fun name offset defect member => .inl ?_⟩
  unfold Journal.dispatched at member
  cases note with
  | none => exact member
  | some note => simpa using member

end Journal.Reports

/-! ## What is wrong with an instruction -/

namespace Script

variable (script : Script)

/-- What is wrong with a word that cannot be carried out at all, by what it decodes to. -/
inductive Senseless : Except DecodeError Instruction → Defect → Prop where
  | corrupt {cause : DecodeError} : Senseless (.error cause) (.corrupt cause)
  | unknownBuiltin {index : UInt16} {label : Option UInt32}
      (unknown : Builtin.ofIndex? index = none) :
      Senseless (.ok (.call index label)) (.unknownBuiltin index)
  | strayOperand {op : Operator} {operand : Operand} :
      Senseless (.ok (.term op operand)) .strayOperand
  | undefinedLabel {label : UInt32} (undefined : script.labelOffset? label = none) :
      Senseless (.ok (.jump label)) (.undefinedLabel label)

variable (offset : Nat)

/-- What keeps an assignment at an offset from storing anything. -/
inductive Unassignable (slot terms : UInt8) : Defect → Prop where
  | truncated (missing : script.operandsAt (offset + 1) terms.toNat < terms.toNat) :
      Unassignable slot terms
        (.truncatedExpression terms.toNat (script.operandsAt (offset + 1) terms.toNat))
  | unknownTarget (complete : script.operandsAt (offset + 1) terms.toNat = terms.toNat)
      (unknown : Variable.ofSlot? slot = none) : Unassignable slot terms (.unknownVariable slot)
  | readOnlyTarget {v : Variable}
      (complete : script.operandsAt (offset + 1) terms.toNat = terms.toNat)
      (known : Variable.ofSlot? slot = some v) (readOnly : v.isWritable = false) :
      Unassignable slot terms (.readOnlyVariable v)

/-- One of the operands from an offset on, out of at most the given number of words, names no
variable. -/
inductive Unreadable (most : Nat) : Nat → Defect → Prop where
  | mk {i : Nat} {op : Operator} {slot : UInt8} (inside : i < script.operandsAt offset most)
      (there : script.Has (offset + i) (.term op (.var slot)))
      (unknown : Variable.ofSlot? slot = none) :
      Unreadable most (offset + i) (.unknownVariable slot)

variable {script offset}

/-- An assignment is faulty for one reason. -/
theorem Unassignable.unique {slot terms : UInt8} {defect defect' : Defect}
    (left : script.Unassignable offset slot terms defect)
    (right : script.Unassignable offset slot terms defect') : defect = defect' := by
  cases left <;> cases right <;> first | rfl | omega | simp_all

end Script

namespace RunState

/-- What is wrong with a call of an operation that is skipped to a label that is not defined. -/
inductive Astray (s : RunState) (script : Script) (b : Builtin) :
    Except DecodeError Instruction → Defect → Prop where
  | mk {index : UInt16} {label : UInt32} (known : Builtin.ofIndex? index = some b)
      (skipped : (b.perform s.mind s.world).signal = .skip)
      (undefined : script.labelOffset? label = none) :
      Astray s script b (.ok (.call index (some label))) (.undefinedLabel label)

/-- What is wrong with the instruction that is to be carried out, by what its word decodes to, and
the offset at which that is reported. -/
inductive Meets (s : RunState) (script : Script) :
    Except DecodeError Instruction → Nat → Defect → Prop where
  | senseless {decoded : Except DecodeError Instruction} {defect : Defect}
      (senseless : script.Senseless decoded defect) : Meets s script decoded s.mind.counter defect
  | astray {decoded : Except DecodeError Instruction} {b : Builtin} {defect : Defect}
      (astray : s.Astray script b decoded defect) : Meets s script decoded s.mind.counter defect
  | unassignable {slot terms : UInt8} {defect : Defect}
      (unassignable : script.Unassignable s.mind.counter slot terms defect) :
      Meets s script (.ok (.assign slot terms)) s.mind.counter defect
  | unreadable {slot terms : UInt8} {place : Nat} {defect : Defect}
      (unreadable : script.Unreadable (s.mind.counter + 1) terms.toNat place defect) :
      Meets s script (.ok (.assign slot terms)) place defect

variable {s : RunState} {machine : Machine} {script : Script} {word : UInt32} {place offset : Nat}
variable {slot terms : UInt8} {b : Builtin} {defect : Defect}

/-! ## Assignments -/

/-- One operand in front of others. -/
theorem unreadable_succ_iff {most : Nat} {op : Operator} {operand : Operand}
    (head : script.Has offset (.term op operand)) :
    script.Unreadable offset (most + 1) place defect ↔
      (place = offset ∧ ∃ slot, operand = .var slot ∧ Variable.ofSlot? slot = none ∧
        defect = .unknownVariable slot) ∨ script.Unreadable (offset + 1) most place defect := by
  have more := script.operandsAt_succ_of_has most head
  have behind (i : Nat) : offset + (i + 1) = offset + 1 + i := by omega
  constructor
  · rintro (@⟨_ | i, _, slot, inside, there, unknown⟩)
    · cases head.unique there
      exact .inl ⟨rfl, slot, rfl, unknown, rfl⟩
    · rw [behind] at there ⊢
      exact .inr (.mk (by omega) there unknown)
  · rintro (⟨rfl, slot, rfl, unknown, rfl⟩ | @⟨i, _, _, inside, there, unknown⟩)
    · exact .mk (i := 0) (by omega) head unknown
    · rw [← behind] at there ⊢
      exact .mk (by omega) there unknown

private theorem not_unreadable {most : Nat} (empty : script.operandsAt offset most = 0) :
    ¬script.Unreadable offset most place defect := by
  rintro ⟨inside⟩
  omega

private theorem foldTerm_reports {op : Operator} {operand : Operand} (s : RunState) (offset : Nat) :
    s.journal.Reports script
      (fun place defect => place = offset ∧ ∃ slot, operand = .var slot ∧
        Variable.ofSlot? slot = none ∧ defect = .unknownVariable slot)
      (s.foldTerm script offset op operand).journal := by
  unfold foldTerm
  split
  · exact (Journal.Reports.refl _).congr (by simp)
  · split
    · rename_i known
      exact (Journal.Reports.refl _).congr (by simp [known])
    · rename_i slot unknown
      exact (Journal.Reports.report _ _ _ _).congr (by simp [unknown])

/-- Folding operands reports those that name no variable. -/
theorem foldTerms_reports (most offset : Nat) (s : RunState) :
    s.journal.Reports script (script.Unreadable offset most)
      (foldTerms script most offset s).2.2.journal := by
  induction most generalizing offset s with
  | zero =>
      have empty := Nat.le_zero.mp (script.operandsAt_le offset 0)
      exact (Journal.Reports.refl _).of_none fun _ _ => not_unreadable empty
  | succ most ih =>
      by_cases term : ∃ op operand, script.Has offset (.term op operand)
      · obtain ⟨op, operand, head⟩ := term
        rw [foldTerms_succ_of_has most s head]
        exact ((foldTerm_reports s offset).trans (ih _ _)).congr fun _ _ =>
          (unreadable_succ_iff head).symm
      · have other := fun op operand head => term ⟨op, operand, head⟩
        have empty := script.operandsAt_of_not_has (most + 1) other
        rw [foldTerms_of_not_has _ s other]
        exact (Journal.Reports.refl _).of_none fun _ _ => not_unreadable empty

/-- The state in which an assignment has folded its operands. -/
def evaluated (s : RunState) (script : Script) (offset : Nat) (terms : UInt8) : RunState :=
  (foldTerms script terms.toNat (offset + 1) { s with mind := { s.mind with working := 0 } }).2.2

private theorem evaluated_folded (s : RunState) (script : Script) (offset : Nat) (terms : UInt8) :
    Folded s (s.evaluated script offset terms) :=
  (Folded.zero s).trans (.foldTerms script _ _ _)

private theorem evaluated_reports (s : RunState) (script : Script) (offset : Nat) (terms : UInt8) :
    s.journal.Reports script (script.Unreadable (offset + 1) terms.toNat)
      (s.evaluated script offset terms).journal :=
  foldTerms_reports _ _ { s with mind := { s.mind with working := 0 } }

/-- What an assignment does: it folds the operands that are there, stores the value if there are as
many as it expects, and goes on behind them. -/
theorem assign_eq (s : RunState) (script : Script) (offset : Nat) (slot terms : UInt8) :
    s.assign script offset slot terms =
      (if script.operandsAt (offset + 1) terms.toNat = terms.toNat then
          (s.evaluated script offset terms).store script offset slot
        else (s.evaluated script offset terms).report script offset
          (.truncatedExpression terms.toNat (script.operandsAt (offset + 1) terms.toNat))).goto
        (offset + 1 + script.operandsAt (offset + 1) terms.toNat) := by
  have within := script.operandsAt_le (offset + 1) terms.toNat
  obtain ⟨missing, next⟩ := foldTerms_operands script terms.toNat (offset + 1)
    { s with mind := { s.mind with working := 0 } }
  unfold assign evaluated
  dsimp only
  generalize foldTerms script terms.toNat (offset + 1) _ = result at missing next ⊢
  obtain ⟨left, behind, t⟩ := result
  dsimp only at missing next
  subst next
  cases left with
  | zero =>
      rw [if_pos (by omega)]
      rfl
  | succ left =>
      have found : terms.toNat - (left + 1) = script.operandsAt (offset + 1) terms.toNat := by omega
      rw [if_neg (by omega), ← found]
      rfl

/-- An assignment that cannot store anything reports why. -/
theorem assign_of_unassignable (s : RunState)
    (unassignable : script.Unassignable offset slot terms defect) :
    s.assign script offset slot terms =
      ((s.evaluated script offset terms).report script offset defect).goto
        (offset + 1 + script.operandsAt (offset + 1) terms.toNat) := by
  rw [assign_eq]
  cases unassignable with
  | truncated missing => rw [if_neg (Nat.ne_of_lt missing)]
  | unknownTarget complete unknown =>
      rw [if_pos complete]
      simp only [store, unknown]
  | readOnlyTarget complete known readOnly =>
      rw [if_pos complete]
      simp [store, known, readOnly]

private theorem assign_frame (s : RunState)
    (unassignable : script.Unassignable offset slot terms defect) :
    ∃ working operand seed,
      (s.assign script offset slot terms).mind =
          { s.mind with
            working := working
            operand := operand
            counter := offset + 1 + script.operandsAt (offset + 1) terms.toNat } ∧
        (s.assign script offset slot terms).world = { s.world with seed := seed } := by
  obtain ⟨⟨working, operand, mind⟩, ⟨seed, world⟩, _⟩ := s.evaluated_folded script offset terms
  rw [assign_of_unassignable s unassignable]
  refine ⟨working, operand, seed, ?_, world⟩
  simp only [goto, report, mind]

/-- An assignment that nothing keeps from it stores its value. -/
theorem assign_of_assignable (s : RunState)
    (able : ∀ defect, ¬script.Unassignable offset slot terms defect) :
    ∃ v, s.assign script offset slot terms =
      let e := s.evaluated script offset terms
      RunState.goto { e with mind := e.mind.write v e.mind.working }
        (offset + 1 + script.operandsAt (offset + 1) terms.toNat) := by
  have complete : script.operandsAt (offset + 1) terms.toNat = terms.toNat :=
    Nat.le_antisymm (script.operandsAt_le _ _)
      (Nat.not_lt.mp fun missing => able _ (.truncated missing))
  rw [assign_eq, if_pos complete]
  cases known : Variable.ofSlot? slot with
  | none => exact (able _ (.unknownTarget complete known)).elim
  | some v =>
      cases writable : v.isWritable with
      | false => exact (able _ (.readOnlyTarget complete known writable)).elim
      | true => exact ⟨v, by simp only [store, known, writable, if_true]⟩

/-- What an assignment reports. -/
theorem assign_reports (s : RunState) (offset : Nat) (slot terms : UInt8) :
    s.journal.Reports script
      (fun place defect => script.Unreadable (offset + 1) terms.toNat place defect ∨
        place = offset ∧ script.Unassignable offset slot terms defect)
      (s.assign script offset slot terms).journal := by
  have reads := s.evaluated_reports script offset terms
  by_cases wrong : ∃ defect, script.Unassignable offset slot terms defect
  · obtain ⟨defect, unassignable⟩ := wrong
    rw [assign_of_unassignable s unassignable]
    refine (reads.trans (.report _ script offset defect)).congr fun place met => ?_
    refine or_congr_right (and_congr_right fun _ => ?_)
    exact ⟨fun same => same ▸ unassignable, fun other => other.unique unassignable⟩
  · have able := not_exists.mp wrong
    obtain ⟨v, stored⟩ := s.assign_of_assignable able
    rw [stored]
    exact reads.congr fun place met =>
      ⟨.inl, fun either => either.resolve_right fun other => able met other.2⟩

/-! ## Instructions -/

/-- A word that makes no sense is reported and passed over. -/
theorem step_of_senseless (senseless : script.Senseless (Instruction.decode word) defect) :
    s.step machine script word =
      (false, (s.report script s.mind.counter defect).goto (s.mind.counter + 1)) := by
  unfold step
  generalize Instruction.decode word = decoded at senseless ⊢
  cases senseless with
  | corrupt | strayOperand => rfl
  | unknownBuiltin unknown => simp only [execute, unknown]
  | undefinedLabel undefined => simp only [execute, jump, undefined]

/-- A skip without a place to go on at is reported, and the run goes on behind the call. -/
theorem step_of_astray (astray : s.Astray script b (Instruction.decode word) defect) :
    s.step machine script word =
      (false, ((s.dispatch machine b).2.report script s.mind.counter defect).goto
        (s.mind.counter + 1)) := by
  unfold step
  generalize Instruction.decode word = decoded at astray ⊢
  obtain ⟨known, skipped, undefined⟩ := astray
  simp only [execute, known, dispatch, skipped, follow, jump, undefined]

private theorem step_of_assign (decoded : Instruction.decode word = .ok (.assign slot terms)) :
    s.step machine script word = (false, s.assign script s.mind.counter slot terms) := by
  simp only [step, decoded, execute]

private theorem meets_iff_of_senseless {decoded : Except DecodeError Instruction} {met : Defect}
    (senseless : script.Senseless decoded defect) :
    s.Meets script decoded place met ↔ place = s.mind.counter ∧ met = defect := by
  constructor
  · intro meets
    cases senseless with
    | corrupt | strayOperand | undefinedLabel =>
        obtain ⟨⟨⟩⟩ | ⟨⟨⟩⟩ := meets
        exact ⟨rfl, rfl⟩
    | unknownBuiltin unknown =>
        obtain ⟨⟨⟩⟩ | ⟨⟨known⟩⟩ := meets
        · exact ⟨rfl, rfl⟩
        · cases unknown.symm.trans known
  · rintro ⟨rfl, rfl⟩
    exact .senseless senseless

private theorem meets_iff_of_astray {decoded : Except DecodeError Instruction} {met : Defect}
    (astray : s.Astray script b decoded defect) :
    s.Meets script decoded place met ↔ place = s.mind.counter ∧ met = defect := by
  constructor
  · intro meets
    obtain ⟨known⟩ := astray
    cases meets with
    | senseless wrong =>
        cases wrong with
        | unknownBuiltin unknown => cases unknown.symm.trans known
    | astray other =>
        cases other
        exact ⟨rfl, rfl⟩
  · rintro ⟨rfl, rfl⟩
    exact .astray astray

private theorem meets_assign_iff :
    s.Meets script (.ok (.assign slot terms)) place defect ↔
      script.Unreadable (s.mind.counter + 1) terms.toNat place defect ∨
        place = s.mind.counter ∧ script.Unassignable s.mind.counter slot terms defect := by
  constructor
  · rintro (⟨⟨⟩⟩ | ⟨⟨⟩⟩ | unassignable | unreadable)
    · exact .inr ⟨rfl, unassignable⟩
    · exact .inl unreadable
  · rintro (unreadable | ⟨rfl, unassignable⟩)
    · exact .unreadable unreadable
    · exact .unassignable unassignable

/-- A run that has a place to go on at reports nothing when it goes there. -/
theorem journal_follow {label : Option UInt32} {signal : Signal}
    (defined : signal = .skip → ∀ l ∈ label, script.labelOffset? l ≠ none) :
    (s.follow script offset label signal).2.journal = s.journal := by
  cases signal with
  | proceed | halt => rfl
  | skip =>
      cases label with
      | none => rfl
      | some label =>
          obtain ⟨target, known⟩ := Option.ne_none_iff_exists'.mp (defined rfl label rfl)
          simp only [follow, jump, known]
          rfl

/-- **What is reported** when an instruction is carried out is what is wrong with it. -/
theorem step_reports (s : RunState) (machine : Machine) (script : Script) (word : UInt32) :
    s.journal.Reports script (s.Meets script (Instruction.decode word))
      (s.step machine script word).2.journal := by
  by_cases senseless : ∃ defect, script.Senseless (Instruction.decode word) defect
  · obtain ⟨defect, senseless⟩ := senseless
    rw [step_of_senseless senseless]
    exact (Journal.Reports.report _ _ _ _).congr fun _ _ =>
      (meets_iff_of_senseless senseless).symm
  by_cases astray : ∃ b defect, s.Astray script b (Instruction.decode word) defect
  · obtain ⟨b, defect, astray⟩ := astray
    rw [step_of_astray astray]
    refine ((Journal.Reports.dispatched _ _ _ _ _).trans (.report _ _ _ _)).congr fun _ _ => ?_
    rw [meets_iff_of_astray astray, false_or]
  cases decoded : Instruction.decode word with
  | error cause =>
      rw [decoded] at senseless
      exact (senseless ⟨_, .corrupt⟩).elim
  | ok instruction =>
      rw [decoded] at senseless astray
      cases instruction with
      | term op operand => exact (senseless ⟨_, .strayOperand⟩).elim
      | assign slot terms =>
          rw [step_of_assign decoded]
          exact (s.assign_reports _ slot terms).congr fun _ _ => meets_assign_iff.symm
      | jump label =>
          have nothing (place : Nat) (met : Defect) :
              ¬s.Meets script (.ok (.jump label)) place met := by
            rintro (wrong | ⟨⟨⟩⟩)
            exact senseless ⟨_, wrong⟩
          cases target : script.labelOffset? label with
          | none => exact (senseless ⟨_, .undefinedLabel target⟩).elim
          | some offset =>
              simp only [step, decoded, execute, jump, target]
              exact (Journal.Reports.refl _).of_none nothing
      | call index label =>
          have nothing (place : Nat) (met : Defect) :
              ¬s.Meets script (.ok (.call index label)) place met := by
            rintro (wrong | wrong)
            · exact senseless ⟨_, wrong⟩
            · exact astray ⟨_, _, wrong⟩
          cases known : Builtin.ofIndex? index with
          | none => exact (senseless ⟨_, .unknownBuiltin known⟩).elim
          | some b =>
              simp only [step, decoded, execute, known, dispatch]
              rw [journal_follow]
              · exact (Journal.Reports.dispatched _ _ _ _ _).of_none nothing
              · rintro skipped l ⟨⟩ undefined
                exact astray ⟨b, _, .mk known skipped undefined⟩

/-- Whatever is wrong with an instruction, the run does not end there and goes on further behind. -/
theorem Meets.forward (meets : s.Meets script (Instruction.decode word) place defect)
    (machine : Machine) :
    (s.step machine script word).1 = false ∧
      s.mind.counter < (s.step machine script word).2.mind.counter := by
  generalize decodes : Instruction.decode word = decoded at meets
  cases meets with
  | senseless senseless =>
      rw [← decodes] at senseless
      rw [step_of_senseless senseless]
      exact ⟨rfl, Nat.lt_succ_self _⟩
  | astray astray =>
      rw [← decodes] at astray
      rw [step_of_astray astray]
      exact ⟨rfl, Nat.lt_succ_self _⟩
  | unassignable | unreadable =>
      rw [step_of_assign decodes, assign_eq]
      refine ⟨rfl, ?_⟩
      change s.mind.counter < s.mind.counter + 1 + _
      omega

end RunState

namespace Machine

/-- **Defects are contained.** When a run carries out an instruction, it reports just what is wrong
with it. If the word makes no sense, that is all, and the run goes on behind it. If an operation is
skipped to a label that is not defined, there is what the operation has done. If an assignment
cannot store anything, two registers and the state of the random numbers may have moved, and the
run goes on behind the operands that there are. No defect ends the run or leads back. -/
theorem reaches_meets (machine : Machine) (script : Script) (start : RunState) {n : Nat}
    {here : RunState} {word : UInt32} (reaches : machine.Reaches script n (started start) here)
    (fetched : script.words[here.mind.counter]? = some word) (inTime : n < machine.ceiling) :
    let offset := here.mind.counter
    let decoded := Instruction.decode word
    let next := (here.step machine script word).2
    here.journal.Reports script (here.Meets script decoded) next.journal ∧
      (∀ defect, script.Senseless decoded defect →
        next.mind = { here.mind with counter := offset + 1 } ∧ next.world = here.world) ∧
      (∀ b defect, here.Astray script b decoded defect →
        let reply := b.perform here.mind here.world
        next.mind = { reply.mind with counter := offset + 1 } ∧ next.world = reply.world) ∧
      (∀ slot terms defect, decoded = .ok (.assign slot terms) →
        script.Unassignable offset slot terms defect →
        ∃ working operand seed,
          next.mind =
              { here.mind with
                working := working
                operand := operand
                counter := offset + 1 + script.operandsAt (offset + 1) terms.toNat } ∧
            next.world = { here.world with seed := seed }) ∧
      ∀ place defect, here.Meets script decoded place defect →
        offset < next.mind.counter ∧ machine.Reaches script (n + 1) (started start) next ∧
          machine.run script start = machine.runFrom script (machine.ceiling - (n + 1)) next := by
  intro offset decoded next
  refine ⟨here.step_reports machine script word, ?_, ?_, ?_, ?_⟩
  · intro defect senseless
    have carried : here.step machine script word = _ := RunState.step_of_senseless senseless
    simp only [next, carried]
    exact ⟨rfl, rfl⟩
  · intro b defect astray
    have carried : here.step machine script word = _ := RunState.step_of_astray astray
    simp only [next, carried]
    exact ⟨rfl, rfl⟩
  · intro slot terms defect isAssignment unassignable
    have carried : here.step machine script word = _ := RunState.step_of_assign isAssignment
    simp only [next, carried]
    exact here.assign_frame unassignable
  · intro place defect meets
    obtain ⟨ongoing, later⟩ := meets.forward machine
    have further := reaches.trans (.single fetched (Prod.ext ongoing rfl))
    refine ⟨later, further, ?_⟩
    rw [run_eq, ← further.runFrom]
    congr
    omega

/-- A script with a call whose label is not defined, and an assignment that expects three terms,
finds a random number and a variable in a slot that has none, and is cut off. -/
def garbledScript : Script :=
  ⟨"garbled", #[0x10006010, 0x30000300, 0x40000005, 0x400000C8], #[], 1, .empty⟩

/-- A mind that has not been spawned, in a world without entities. -/
def garbledStart : RunState := ⟨.empty, .blank ⟨0⟩, .empty⟩

/-- Both defects of the assignment are reported, nothing is assigned, and the run goes on behind it.
-/
theorem reaches_meets_garbled :
    ∃ here word, Machine.Reaches ⟨8, true⟩ garbledScript 1 (started garbledStart) here ∧
      garbledScript.words[here.mind.counter]? = some word ∧ 1 < 8 ∧
      let next := (here.step ⟨8, true⟩ garbledScript word).2
      ("garbled", 1) ∈ next.journal.reported ∧ ("garbled", 3) ∈ next.journal.reported ∧
        next.mind.vars = garbledStart.mind.vars ∧ next.mind.counter = 4 ∧
        Machine.run ⟨8, true⟩ garbledScript garbledStart =
          Machine.runFrom ⟨8, true⟩ garbledScript 6 next := by
  have astray : (started garbledStart).Astray garbledScript .ifSpawned
      (Instruction.decode 0x10006010) (.undefinedLabel 5) := .mk rfl rfl rfl
  have first : Machine.Reaches ⟨8, true⟩ garbledScript 1 (started garbledStart) _ :=
    .single rfl (RunState.step_of_astray astray)
  have fetched : garbledScript.words[1]? = some 0x30000300 := rfl
  have truncated : garbledScript.Unassignable 1 0 3 (.truncatedExpression 3 2) :=
    .truncated (by decide)
  have unreadable : garbledScript.Unreadable 2 3 3 (.unknownVariable 200) :=
    .mk (i := 1) (by decide) ⟨0x400000C8, rfl, rfl⟩ rfl
  obtain ⟨reports, _, _, stays, goesOn⟩ :=
    reaches_meets ⟨8, true⟩ garbledScript garbledStart first fetched (by decide)
  obtain ⟨working, operand, seed, mind, _⟩ := stays 0 3 _ rfl truncated
  refine ⟨_, _, first, fetched, by decide, ?_, ?_, ?_, ?_, ?_⟩
  · exact (reports.reported _).mpr (.inr ⟨1, _, .unassignable truncated, rfl⟩)
  · exact (reports.reported _).mpr (.inr ⟨3, _, .unreadable unreadable, rfl⟩)
  · rw [mind]
    rfl
  · rw [mind]
    rfl
  · exact (goesOn 1 _ (.unassignable truncated)).2.2

end Machine
end NpcScript
