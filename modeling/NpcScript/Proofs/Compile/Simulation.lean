import NpcScript.Proofs.Builtin.Frame
import NpcScript.Proofs.Compile.Layout
import NpcScript.Proofs.Machine.Reach

/-! # A laid out block runs as the block does

A state of a run mirrors a scene when it differs from it in the counter alone.
From a state that mirrors a scene at the start of a block, the run reaches a
state that mirrors what the block makes of the scene at the end of the block, or
it halts there as the block does (`NpcScript.Script.LaysOut.simulates`). On the
way it carries out no more instructions than the block has words.
-/

namespace NpcScript

/-- The counter does not matter to what variables read as. -/
theorem Mind.read_counter (mind : Mind) (world : World) (v : Variable) (offset : Nat) :
    { mind with counter := offset }.read world v = mind.read world v := by
  cases v <;> rfl

/-- Nor does it matter to what is written. -/
theorem Mind.write_counter (mind : Mind) (v : Variable) (value : Int32) (offset : Nat) :
    { mind with counter := offset }.write v value =
      { mind.write v value with counter := offset } := by
  cases v <;> rfl

namespace RunState

/-- The run is at an offset of its script, and otherwise stands as the scene does. -/
structure Mirrors (machine : Machine) (start : Journal) (s : RunState) (scene : Scene)
    (offset : Nat) : Prop where
  mind : s.mind = { scene.mind with counter := offset }
  world : s.world = scene.world
  calls : s.journal.calls =
    if machine.recordsCalls then start.calls ++ scene.calls.toArray else start.calls
  reported : s.journal.reported = start.reported

namespace Mirrors

variable {machine : Machine} {start : Journal} {s : RunState} {scene : Scene} {offset : Nat}
variable {script : Script}

/-- The state of a scene is at the offset that the scene has come to. -/
theorem counter (mirrors : s.Mirrors machine start scene offset) : s.mind.counter = offset := by
  rw [mirrors.mind]

private theorem goto (mirrors : s.Mirrors machine start scene offset) (target : Nat) :
    (s.goto target).Mirrors machine start scene target := by
  refine ⟨?_, mirrors.world, mirrors.calls, mirrors.reported⟩
  rw [RunState.goto, mirrors.mind]

private theorem setWorld (mirrors : s.Mirrors machine start scene offset) (world : World) :
    { s with world := world }.Mirrors machine start { scene with world := world } offset :=
  ⟨mirrors.mind, rfl, mirrors.calls, mirrors.reported⟩

private theorem fold (mirrors : s.Mirrors machine start scene offset) (op : Operator)
    (value : Int32) :
    (s.fold op value).Mirrors machine start (scene.fold op value) offset := by
  refine ⟨?_, mirrors.world, mirrors.calls, mirrors.reported⟩
  rw [RunState.fold, mirrors.mind]
  rfl

/-- A term of a block folds as the word that holds it. -/
theorem foldTerm (mirrors : s.Mirrors machine start scene offset) {term : Term} (fits : term.Fits)
    (place : Nat) :
    (s.foldTerm script place term.operator term.operand).Mirrors machine start
      (scene.foldTerm term) offset := by
  unfold RunState.foldTerm Scene.foldTerm
  cases operand : term.operand with
  | constant value => exact mirrors.fold term.operator value
  | var slot =>
      obtain ⟨v, known⟩ := fits.known slot operand
      simp only [known]
      have same : s.mind.read s.world v = scene.mind.read scene.world v := by
        rw [mirrors.mind, mirrors.world, Mind.read_counter]
      rw [same]
      exact (mirrors.setWorld _).fold _ _

/-- The terms of an assignment fold as the words that hold them. -/
theorem foldTerms {terms : List Term} (fits : ∀ term ∈ terms, term.Fits) {place : Nat}
    (present : script.HasTerms place terms) (mirrors : s.Mirrors machine start scene offset) :
    ∃ s', RunState.foldTerms script terms.length place s = (0, place + terms.length, s') ∧
      s'.Mirrors machine start (terms.foldl Scene.foldTerm scene) offset := by
  induction terms generalizing s scene place with
  | nil => exact ⟨s, rfl, mirrors⟩
  | cons term terms ih =>
      obtain ⟨word, fetched, decoded⟩ := present 0 (Nat.zero_lt_succ _)
      have rest : script.HasTerms (place + 1) terms := fun i inside => by
        have := present (i + 1) (Nat.succ_lt_succ inside)
        rwa [← Nat.add_assoc, Nat.add_right_comm] at this
      have first : (s.foldTerm script place term.operator term.operand).Mirrors machine start
          (scene.foldTerm term) offset := mirrors.foldTerm (fits term (by simp)) place
      obtain ⟨s', folded, mirrors'⟩ :=
        ih (fun term member => fits term (by simp [member])) rest first
      refine ⟨s', ?_, mirrors'⟩
      rw [Nat.add_zero] at fetched
      rw [List.length_cons, RunState.foldTerms, fetched, Option.map_some, decoded]
      simp only [List.getElem_cons_zero]
      rw [folded, Nat.add_assoc, Nat.add_comm 1]

private theorem begin (mirrors : s.Mirrors machine start scene offset) :
    { s with mind := { s.mind with working := 0 } }.Mirrors machine start scene.begin offset := by
  refine ⟨?_, mirrors.world, mirrors.calls, mirrors.reported⟩
  rw [mirrors.mind]
  rfl

private theorem store (mirrors : s.Mirrors machine start scene offset) {target : Variable}
    (writable : target.isWritable) (place : Nat) :
    (s.store script place target.slot).Mirrors machine start (scene.store target) offset := by
  unfold RunState.store
  simp only [target.ofSlot?_slot, if_pos writable]
  refine ⟨?_, mirrors.world, mirrors.calls, mirrors.reported⟩
  rw [mirrors.mind, Mind.write_counter]
  rfl

/-- An assignment of a block runs as its words do. -/
theorem assign (mirrors : s.Mirrors machine start scene offset) {target : Variable}
    {terms : List Term} (writable : target.isWritable)
    (few : terms.length ≤ Statement.maxTerms) (fits : ∀ term ∈ terms, term.Fits)
    (present : script.HasTerms (offset + 1) terms) :
    (s.assign script offset target.slot terms.length.toUInt8).Mirrors machine start
      (scene.assignTerms target terms) (offset + 1 + terms.length) := by
  obtain ⟨s', folded, mirrors'⟩ := mirrors.begin.foldTerms fits present
  have count : terms.length.toUInt8.toNat = terms.length :=
    UInt8.toNat_ofNat_of_lt' (Nat.lt_succ_of_le few)
  unfold RunState.assign
  simp only [count, folded]
  exact (mirrors'.store writable offset).goto _

/-- A call dispatches its operation as the scene does. -/
theorem dispatch (mirrors : s.Mirrors machine start scene offset) (b : Builtin) :
    (s.dispatch machine b).1 = (scene.call b).1 ∧
      (s.dispatch machine b).2.Mirrors machine start (scene.call b).2 offset := by
  have same := b.perform_counter scene.mind scene.world offset
  rw [← mirrors.mind, ← mirrors.world] at same
  unfold RunState.dispatch Scene.call
  rw [same, mirrors.world]
  refine ⟨rfl, rfl, rfl, ?_, mirrors.reported⟩
  simp only [Journal.dispatched, mirrors.calls]
  split
  · rw [mirrors.mind]
    simp
  · rfl

/-- A jump goes to the place that its label names. -/
theorem jump (mirrors : s.Mirrors machine start scene offset) {label : UInt32} {target : Nat}
    (marked : script.labelOffset? label = some target) (place : Nat) :
    (s.jump script place label).Mirrors machine start scene target := by
  unfold RunState.jump
  simp only [marked]
  exact mirrors.goto target

end Mirrors
end RunState

namespace Machine

variable {machine : Machine} {script : Script} {start : Journal} {s s' : RunState}
variable {scene : Scene} {result : Bool × Scene} {offset stop bound more : Nat}

/-- From a state, the run does what is asked for: it reaches an offset, or it halts, within a
number of instructions, and then mirrors the scene. -/
def Performs (machine : Machine) (script : Script) (start : Journal) (s : RunState)
    (result : Bool × Scene) (stop bound : Nat) : Prop :=
  match result with
  | (false, scene) => ∃ n s', n ≤ bound ∧ machine.Reaches script n s s' ∧
      s'.Mirrors machine start scene stop
  | (true, scene) => ∃ n s' offset, n < bound ∧ machine.Halts script n s s' ∧
      s'.Mirrors machine start scene offset

private theorem Performs.of_reaches {n : Nat} (reaches : machine.Reaches script n s s')
    (performs : machine.Performs script start s' result stop bound) (fits : n + bound ≤ more) :
    machine.Performs script start s result stop more := by
  rcases result with ⟨_ | _, scene⟩
  · obtain ⟨m, last, few, behind, mirrors⟩ := performs
    exact ⟨n + m, last, by omega, reaches.trans behind, mirrors⟩
  · obtain ⟨m, last, offset, few, behind, mirrors⟩ := performs
    exact ⟨n + m, last, offset, by omega, reaches.halts behind, mirrors⟩

/-- What is asked for next is done from the state that was reached. -/
theorem Performs.andThen {next : Scene → Bool × Scene}
    (first : machine.Performs script start s result offset bound)
    (second : ∀ s' scene, s'.Mirrors machine start scene offset →
      machine.Performs script start s' (next scene) stop more) :
    machine.Performs script start s (Scene.andThen result next) stop (bound + more) := by
  rcases result with ⟨_ | _, scene⟩
  · obtain ⟨n, s', few, reaches, mirrors⟩ := first
    exact (second s' scene mirrors).of_reaches reaches (Nat.add_le_add_right few more)
  · obtain ⟨n, last, offset, few, halts, mirrors⟩ := first
    exact ⟨n, last, offset, Nat.lt_add_right more few, halts, mirrors⟩

private theorem reaches_of_has {instruction : Instruction} (head : script.Has offset instruction)
    (counter : s.mind.counter = offset)
    (ongoing : s.execute machine script offset instruction = (false, s')) :
    machine.Reaches script 1 s s' := by
  obtain ⟨word, fetched, decoded⟩ := head
  refine .single (by rw [counter]; exact fetched) ?_
  rw [RunState.step, decoded, counter]
  exact ongoing

private theorem halts_of_has {instruction : Instruction} (head : script.Has offset instruction)
    (counter : s.mind.counter = offset)
    (halting : s.execute machine script offset instruction = (true, s')) :
    machine.Halts script 0 s s' := by
  obtain ⟨word, fetched, decoded⟩ := head
  refine ⟨s, word, .refl s, by rw [counter]; exact fetched, ?_⟩
  rw [RunState.step, decoded, counter]
  exact halting

/-- A call that proceeds goes on behind itself, and one that is skipped where its label says. -/
theorem call_mirrors {b : Builtin} {label : Option UInt32} {skipped : Nat}
    (head : script.Has offset (.call b.index label))
    (landing : match label with
      | some label => script.labelOffset? label = some skipped
      | none => skipped = offset + 1)
    (mirrors : s.Mirrors machine start scene offset) :
    match scene.call b with
    | (.proceed, after) =>
        ∃ s', machine.Reaches script 1 s s' ∧ s'.Mirrors machine start after (offset + 1)
    | (.skip, after) =>
        ∃ s', machine.Reaches script 1 s s' ∧ s'.Mirrors machine start after skipped
    | (.halt, after) =>
        ∃ s', machine.Halts script 0 s s' ∧ s'.Mirrors machine start after offset := by
  obtain ⟨sameSignal, after⟩ := mirrors.dispatch b
  have execute : s.execute machine script offset (.call b.index label) =
      (s.dispatch machine b).2.follow script offset label (scene.call b).1 := by
    rw [RunState.execute, b.ofIndex?_index, ← sameSignal]
  rcases dispatched : scene.call b with ⟨signal, scene'⟩
  rw [dispatched] at after execute
  cases signal with
  | proceed => exact ⟨_, reaches_of_has head mirrors.counter execute, after.goto (offset + 1)⟩
  | halt => exact ⟨_, halts_of_has head mirrors.counter execute, after⟩
  | skip =>
      cases label with
      | none =>
          rw [landing]
          exact ⟨_, reaches_of_has head mirrors.counter execute, after.goto (offset + 1)⟩
      | some label =>
          exact ⟨_, reaches_of_has head mirrors.counter execute, after.jump landing offset⟩

end Machine

namespace Script.LaysOut

open Machine

variable {machine : Machine} {script : Script} {journal : Journal} {block : Block}
variable {start stop : Nat}

/-- What is laid out stands between its offsets. -/
theorem le (laid : script.LaysOut block start stop) : start ≤ stop := by
  induction laid <;> omega

/-- **A laid out block runs as the block does.** -/
theorem simulates (laid : script.LaysOut block start stop) (s : RunState) (scene : Scene)
    (mirrors : s.Mirrors machine journal scene start) :
    machine.Performs script journal s (block.run scene) stop (stop - start) := by
  induction laid generalizing s scene with
  | done start => exact ⟨0, s, Nat.zero_le _, .refl s, mirrors⟩
  | assign writable few fits head tail behind ih =>
      have after := mirrors.assign writable few fits tail
      have step : machine.Reaches script 1 s _ := reaches_of_has head mirrors.counter rfl
      have room := behind.le
      exact (ih _ _ after).of_reaches step (by omega)
  | call head behind ih =>
      have called := call_mirrors head rfl mirrors
      have room := behind.le
      rw [Block.run]
      generalize scene.call _ = reply at called ⊢
      obtain ⟨signal, after⟩ := reply
      cases signal with
      | proceed | skip =>
          obtain ⟨s', step, mirrors'⟩ := called
          exact (ih s' after mirrors').of_reaches step (by omega)
      | halt =>
          obtain ⟨s', halts, mirrors'⟩ := called
          exact ⟨0, s', _, by omega, halts, mirrors'⟩
  | guarded head below marked behind ihBelow ihBehind =>
      have called := call_mirrors head marked mirrors
      have roomBelow := below.le
      have roomBehind := behind.le
      rw [Block.run]
      generalize scene.call _ = reply at called ⊢
      obtain ⟨signal, after⟩ := reply
      cases signal with
      | proceed =>
          obtain ⟨s', step, mirrors'⟩ := called
          exact ((ihBelow s' after mirrors').andThen ihBehind).of_reaches step (by omega)
      | skip =>
          obtain ⟨s', step, mirrors'⟩ := called
          exact (ihBehind s' after mirrors').of_reaches step (by omega)
      | halt =>
          obtain ⟨s', halts, mirrors'⟩ := called
          exact ⟨0, s', _, by omega, halts, mirrors'⟩
  | branch head below leaving marked belowElse markedPast behind ihBelow ihElse ihBehind =>
      have called := call_mirrors head marked mirrors
      have roomBelow := below.le
      have roomElse := belowElse.le
      have roomBehind := behind.le
      rw [Block.run]
      generalize scene.call _ = reply at called ⊢
      obtain ⟨signal, after⟩ := reply
      cases signal with
      | proceed =>
          obtain ⟨s', step, mirrors'⟩ := called
          -- Behind the body stands the jump over the block of the `Else`.
          have leave (s : RunState) (scene : Scene) (atJump : s.Mirrors machine journal scene _) :=
            (ihBehind _ scene (atJump.jump markedPast _)).of_reaches
              (reaches_of_has leaving atJump.counter rfl) (Nat.le_refl _)
          exact ((ihBelow s' after mirrors').andThen leave).of_reaches step (by omega)
      | skip =>
          obtain ⟨s', step, mirrors'⟩ := called
          exact ((ihElse s' after mirrors').andThen ihBehind).of_reaches step (by omega)
      | halt =>
          obtain ⟨s', halts, mirrors'⟩ := called
          exact ⟨0, s', _, by omega, halts, mirrors'⟩

end Script.LaysOut
end NpcScript
