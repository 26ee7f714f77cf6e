import Mathlib.Data.List.Induction
import NpcScript.Proofs.Alert.Sets
import NpcScript.Proofs.Builtin.Effects
import NpcScript.Proofs.Director.Turns

/-! # How long alerts last

An alert is pending behind a turn only if the script has set it in its run and
not cleared it since. One that was pending at the start of the run outlasts it
only if the script has also set it by its bit: the operation that sets a whole
mask does not keep the alerts of the mask from being used up
(`NpcScript.Director.tick_alerts`).
-/

namespace NpcScript

namespace Dispatch

variable (d : Dispatch) (k : AlertKind)

/-- The operation sets an alert by its bit. -/
def raises : Bool :=
  match d.builtin with
  | .setAlertBit => AlertKind.ofBit? d.mind.vars.argument = some k
  | _ => false

/-- The operation sets an alert, by its bit or in a mask. -/
def sets : Bool :=
  match d.builtin with
  | .setAlertBit => AlertKind.ofBit? d.mind.vars.argument = some k
  | .setAlert => (Builtin.argumentAlerts d.mind).has k
  | _ => false

/-- The operation clears an alert, by its bit or in a mask. -/
def clears : Bool :=
  match d.builtin with
  | .clearAlertBit => AlertKind.ofBit? d.mind.vars.argument = some k
  | .clearAlert => (Builtin.argumentAlerts d.mind).has k
  | _ => false

/-- The alerts that are pending, and those that the script has raised, behind the operation. -/
def alertsAfter (before : Alerts × Alerts) : Alerts × Alerts :=
  match d.builtin with
  | .setAlertBit =>
      match AlertKind.ofBit? d.mind.vars.argument with
      | some kind => (before.1.raise kind, before.2.raise kind)
      | none => before
  | .clearAlertBit =>
      match AlertKind.ofBit? d.mind.vars.argument with
      | some kind => (before.1.lower kind, before.2)
      | none => before
  | .setAlert => (before.1.union (Builtin.argumentAlerts d.mind), before.2)
  | .clearAlert => (before.1.diff (Builtin.argumentAlerts d.mind), before.2)
  | _ => before

/-- All operations but four do nothing to alerts. -/
theorem alerts_of_keeps (keeps : d.builtin.setsAlerts = false) (before : Alerts × Alerts) :
    d.alertsAfter before = before ∧ d.sets k = false ∧ d.clears k = false ∧
      d.raises k = false := by
  obtain ⟨b, mind, world⟩ := d
  change b.setsAlerts = false at keeps
  cases b <;> first | exact ⟨rfl, rfl, rfl, rfl⟩ | cases keeps

private theorem reply_alerts :
    (d.reply.mind.alerts, d.reply.mind.raised) = d.alertsAfter (d.mind.alerts, d.mind.raised) := by
  cases keeps : d.builtin.setsAlerts with
  | false =>
      obtain ⟨alerts, raised⟩ : d.reply.mind.alerts = d.mind.alerts ∧
          d.reply.mind.raised = d.mind.raised := Builtin.perform_alerts _ keeps
      rw [(alerts_of_keeps d .spawned keeps _).1]
      exact Prod.ext alerts raised
  | true =>
      obtain ⟨b, mind, world⟩ := d
      change b.setsAlerts = true at keeps
      cases b <;> first | rfl | (cases keeps; done) | skip
      case setAlertBit | clearAlertBit =>
        unfold reply alertsAfter
        simp only [Builtin.perform]
        cases AlertKind.ofBit? mind.vars.argument <;> rfl

/-- What an operation does to a kind of alert: whether it is pending behind the operation, and
whether the script has raised it. -/
theorem has_alertsAfter (before : Alerts × Alerts) :
    (d.alertsAfter before).1.has k = (d.sets k || (before.1.has k && !d.clears k)) ∧
      (d.alertsAfter before).2.has k = (before.2.has k || d.raises k) := by
  cases keeps : d.builtin.setsAlerts with
  | false =>
      obtain ⟨same, sets, clears, raises⟩ := alerts_of_keeps d k keeps before
      rw [same, sets, clears, raises]
      simp
  | true =>
      obtain ⟨b, mind, world⟩ := d
      change b.setsAlerts = true at keeps
      cases b <;> first | (cases keeps; done) | skip
      case setAlertBit =>
        unfold alertsAfter sets clears raises
        cases AlertKind.ofBit? mind.vars.argument with
        | none => simp
        | some kind => simp [Alerts.has_raise, eq_comm, Bool.or_comm]
      case clearAlertBit =>
        unfold alertsAfter sets clears raises
        cases AlertKind.ofBit? mind.vars.argument with
        | none => simp
        | some kind => simp [Alerts.has_lower, eq_comm]
      case setAlert =>
        unfold alertsAfter sets clears raises
        simp [Alerts.has_union, Bool.or_comm]
      case clearAlert =>
        unfold alertsAfter sets clears raises
        simp [Alerts.has_diff]

private theorem sets_of_raises (raised : d.raises k) : d.sets k := by
  obtain ⟨b, mind, world⟩ := d
  cases b <;> first | exact raised | exact Bool.noConfusion (show false = true from raised)

end Dispatch

/-- The alerts that are pending and those that were raised, on which operations act. -/
def alertView : Machine.View (Alerts × Alerts) where
  look mind _ := (mind.alerts, mind.raised)
  act before d := d.alertsAfter before
  aside _ _ _ _ _ := rfl
  acts := Dispatch.reply_alerts

/-- The last operation that sets an alert is followed by none that clears it. -/
def StaysSet (k : AlertKind) (dispatches : List Dispatch) : Prop :=
  ∃ front d back, dispatches = front ++ d :: back ∧ d.sets k ∧
    ∀ later ∈ back, later.sets k = false ∧ later.clears k = false

namespace StaysSet

variable {k : AlertKind} {dispatches : List Dispatch} {d : Dispatch}

private theorem snoc_iff :
    StaysSet k (dispatches ++ [d]) ↔ d.sets k ∨ StaysSet k dispatches ∧ d.clears k = false := by
  constructor
  · rintro ⟨front, last, back, split, sets, quiet⟩
    rcases List.eq_nil_or_concat back with rfl | ⟨back, final, rfl⟩
    · have whole : dispatches ++ [d] = front ++ [last] := split
      cases (List.append_inj' whole rfl).2
      exact .inl sets
    · rw [List.concat_eq_append] at split quiet
      have whole : dispatches ++ [d] = (front ++ last :: back) ++ [final] := by
        rw [split]
        simp
      obtain ⟨rfl, same⟩ := List.append_inj' whole rfl
      cases same
      refine .inr ⟨⟨front, last, back, rfl, sets, ?_⟩, ?_⟩
      · intro later member
        exact quiet later (by simp [member])
      · exact (quiet d (by simp)).2
  · intro ends
    cases sets : d.sets k with
    | true => exact ⟨dispatches, d, [], rfl, sets, by simp⟩
    | false =>
        obtain ⟨⟨front, last, back, rfl, lastSets, quiet⟩, keeps⟩ :=
          ends.resolve_left (by simp [sets])
        refine ⟨front, last, back ++ [d], by simp, lastSets, ?_⟩
        intro later member
        rcases List.mem_append.mp member with earlier | final
        · exact quiet later earlier
        · rw [List.mem_singleton.mp final]
          exact ⟨sets, keeps⟩

/-- What is set and never cleared stays set. -/
theorem of_unclear (sets : ∃ d ∈ dispatches, d.sets k)
    (unclear : ∀ d ∈ dispatches, d.clears k = false) : StaysSet k dispatches := by
  induction dispatches using List.reverseRecOn with
  | nil =>
      obtain ⟨d, impossible, _⟩ := sets
      cases impossible
  | append_singleton dispatches last ih =>
      rw [snoc_iff]
      obtain ⟨d, member, sets⟩ := sets
      rcases List.mem_append.mp member with earlier | final
      · have rest := ih ⟨d, earlier, sets⟩ fun other inside => unclear other (by simp [inside])
        exact .inr ⟨rest, unclear last (by simp)⟩
      · rw [List.mem_singleton.mp final] at sets
        exact .inl sets

end StaysSet

/-- Which alerts are pending behind a sequence of operations, and which have been raised. -/
theorem has_foldl_alerts (k : AlertKind) (before : Alerts × Alerts) (dispatches : List Dispatch) :
    ((dispatches.foldl alertView.act before).1.has k ↔
      StaysSet k dispatches ∨ before.1.has k ∧ ∀ d ∈ dispatches, d.clears k = false) ∧
    ((dispatches.foldl alertView.act before).2.has k ↔
      before.2.has k ∨ ∃ d ∈ dispatches, d.raises k) := by
  induction dispatches using List.reverseRecOn with
  | nil => simp [StaysSet]
  | append_singleton dispatches d ih =>
      obtain ⟨pending, raised⟩ := ih
      rw [List.foldl_append, List.foldl_cons, List.foldl_nil]
      obtain ⟨here, there⟩ := d.has_alertsAfter k (dispatches.foldl alertView.act before)
      change ((d.alertsAfter _).1.has k ↔ _) ∧ ((d.alertsAfter _).2.has k ↔ _)
      rw [here, there, StaysSet.snoc_iff]
      constructor
      · rw [Bool.or_eq_true, Bool.and_eq_true, pending, Bool.not_eq_true']
        have every : (∀ other ∈ dispatches ++ [d], other.clears k = false) ↔
            (∀ other ∈ dispatches, other.clears k = false) ∧ d.clears k = false := by
          simp [or_imp, forall_and]
        rw [every, or_and_right, and_assoc, or_assoc]
      · have some : (∃ other ∈ dispatches ++ [d], other.raises k) ↔
            (∃ other ∈ dispatches, other.raises k) ∨ d.raises k := by
          simp [or_and_right, exists_or]
        rw [Bool.or_eq_true, raised, some, or_assoc]

namespace Director

/-- Which alerts are pending behind a turn in which the script was run. -/
theorem Turn.has_after (machine : Machine) (t : Turn) (runs : t.runs) (k : AlertKind) :
    (t.after machine).mind.alerts.has k ↔
      StaysSet k (t.dispatches machine) ∧
        (t.actor.mind.alerts.has k → ∃ d ∈ t.dispatches machine, d.raises k) := by
  have view := machine.run_view alertView t.actor.script t.start
  obtain ⟨pending, raised⟩ := has_foldl_alerts k (t.actor.mind.alerts, .empty)
    (machine.dispatches t.actor.script t.start)
  change ((t.ran machine).2.mind.alerts, (t.ran machine).2.mind.raised) =
    (machine.dispatches t.actor.script t.start).foldl alertView.act
      (t.actor.mind.alerts, .empty) at view
  rw [← view] at pending raised
  rw [Alerts.has_empty, or_iff_right (by simp)] at raised
  unfold after dispatches
  rw [if_pos runs, if_pos runs]
  dsimp only
  rw [Mind.consumedAlerts, Alerts.has_diff, Alerts.has_diff, Bool.and_eq_true, pending]
  have kept : (!(t.actor.mind.alerts.has k && !(t.ran machine).2.mind.raised.has k)) = true ↔
      (t.actor.mind.alerts.has k →
        ∃ d ∈ machine.dispatches t.actor.script t.start, d.raises k) := by
    rw [← raised]
    cases t.actor.mind.alerts.has k <;> simp
  rw [kept]
  constructor
  · rintro ⟨stays | ⟨observed, unclear⟩, again⟩
    · exact ⟨stays, again⟩
    · obtain ⟨d, member, raises⟩ := again observed
      exact ⟨.of_unclear ⟨d, member, d.sets_of_raises k raises⟩ unclear, again⟩
  · rintro ⟨stays, again⟩
    exact ⟨.inl stays, again⟩

/-- **How long alerts last.** Every actor behind a tick comes out of a turn. If its script was run,
an alert is pending exactly when the script set it and did not clear it since, and, if it was
pending at the start already, also set it by its bit. -/
theorem tick_alerts (d : Director) (world : World) :
    (∀ actor ∈ (d.tick world).2.1.actors, ∃ t ∈ d.turns world, actor = t.after d.machine) ∧
      ∀ t ∈ d.turns world, t.runs → ∀ k : AlertKind,
        ((t.after d.machine).mind.alerts.has k ↔
          StaysSet k (t.dispatches d.machine) ∧
            (t.actor.mind.alerts.has k → ∃ call ∈ t.dispatches d.machine, call.raises k)) := by
  refine ⟨?_, fun t _ runs k => t.has_after d.machine runs k⟩
  intro actor member
  rw [tick_actors] at member
  obtain ⟨t, taken, rfl⟩ := List.mem_map.mp (List.mem_filter.mp member).1
  exact ⟨t, taken, rfl⟩

/-- A script that sets the alert of a newly spawned entity again, in a mask. -/
def maskScript : Script :=
  ⟨"mask", #[0x30000104, 0x50000001, 0x10000007, 0x10000001], #[], 2, .empty⟩

/-- A director with one actor, which runs the script. -/
def maskDirector : Director := (Director.empty {}).spawn ⟨0⟩ maskScript

/-- The world of one entity. -/
def maskWorld : World := (World.empty.add (.placed 0 0)).2

/-- The turn of the actor. -/
def maskTurn : Turn :=
  ⟨⟨.empty, { maskWorld with posted := #[] }, .empty, []⟩, ⟨Mind.spawned ⟨0⟩, maskScript⟩⟩

/-- An alert that is pending at the start and set again in a mask is used up all the same. -/
theorem mask_consumed :
    ∃ t ∈ maskDirector.turns maskWorld, t.runs ∧
      t.after maskDirector.machine ∈ (maskDirector.tick maskWorld).2.1.actors ∧
      StaysSet .spawned (t.dispatches maskDirector.machine) ∧
      (t.after maskDirector.machine).mind.alerts.has .spawned = false := by
  have turns : maskDirector.turns maskWorld = [maskTurn] := rfl
  have sets : (maskTurn.dispatches maskDirector.machine).any (·.sets .spawned) := by
    decide +kernel
  have unclear : (maskTurn.dispatches maskDirector.machine).all (!·.clears .spawned) := by
    decide +kernel
  refine ⟨maskTurn, by rw [turns]; simp, rfl, ?_, ?_, by decide +kernel⟩
  · rw [tick_actors, turns]
    exact List.mem_filter.mpr ⟨by simp, by decide +kernel⟩
  · exact .of_unclear (List.any_eq_true.mp sets) (by simpa using unclear)

end Director
end NpcScript
