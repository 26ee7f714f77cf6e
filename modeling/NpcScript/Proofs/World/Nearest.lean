import Mathlib.Data.List.Basic
import Mathlib.Data.Prod.Lex
import Mathlib.Tactic.MkIffOfInductiveProp
import NpcScript.Proofs.World.Distance
import NpcScript.Proofs.World.Handles

/-! # The nearest entity

The search goes through the entities that fit in the order of their handles and
keeps the nearest one, the first of those that are equally far. So what it finds
is least by its distance and then by its handle
(`NpcScript.World.findNearest?_spec`).
-/

namespace NpcScript.World

/-- An entity is what another one looks for. -/
@[mk_iff]
structure Sought (criteria : Criteria) (origin candidate : Entity) : Prop where
  related : match criteria.relation with
    | .enemy => candidate.team ≠ origin.team
    | .friend => candidate.team = origin.team
    | .any => True
  alive : criteria.aliveOnly → 0 < candidate.life
  near : ∀ limit ∈ criteria.maxDistance, (reach origin candidate : Int) ≤ limit.toInt
  far : ∀ limit ∈ criteria.minDistance, limit.toInt ≤ (reach origin candidate : Int)
  tagged : ∀ tag ∈ criteria.tag, tag ∈ candidate.tags ∨ tag ∈ candidate.inventory

/-- An entity of the world, other than the one that looks, that is what it looks for. -/
def Eligible (world : World) (criteria : Criteria) (origin : Handle) (me : Entity) (h : Handle)
    (c : Entity) : Prop :=
  h ≠ origin ∧ world.entity? h = some c ∧ Sought criteria me c

variable {world : World} {criteria : Criteria} {origin h : Handle} {me c : Entity}

private theorem fits_iff_sought : fits criteria me c ↔ Sought criteria me c := by
  rw [sought_iff, fits]
  simp only [Bool.and_eq_true, Option.all_eq_true, decide_eq_true_eq, Int32.le_iff_toInt_le,
    toInt_gridDistance, Bool.or_eq_true, List.contains_iff_mem, Bool.not_eq_true', and_assoc]
  refine and_congr ?_ (and_congr ?_ Iff.rfl)
  · cases criteria.relation <;> simp
  · cases criteria.aliveOnly <;> simp

/-- The entities that fit, with their distances. -/
theorem candidates_eq (numbered : world.entities.size ≤ UInt32.size) :
    world.candidates criteria origin me =
      (world.handlesWhere (fits criteria me)).filterMap fun h =>
        if h = origin then none else (world.entity? h).map fun c => (gridDistance me c, h) := by
  unfold candidates handlesWhere
  rw [List.filterMap_filterMap]
  apply List.filterMap_congr
  rintro ⟨slot, index⟩ member
  have place : world.entities[index]? = some slot := by
    rw [← Array.getElem?_toList]
    exact List.mem_zipIdx_iff_getElem?.mp member
  have named := toNat_toUInt32_of_lt numbered (Array.getElem?_eq_some_iff.mp place).1
  have same : (⟨index.toUInt32⟩ : Handle) = origin ↔ index = origin.index.toNat := by
    cases origin
    rw [Handle.mk.injEq, ← UInt32.toNat_inj, named]
  have found : world.entity? ⟨index.toUInt32⟩ = slot := by
    rw [entity?, named, place, Option.join_some]
  cases slot with
  | none => simp
  | some c =>
      by_cases fit : fits criteria me c
      · simp [Option.filter, fit, same, found]
      · simp [Option.filter, fit]

private theorem mem_candidates_iff (numbered : world.entities.size ≤ UInt32.size) {d : Int32} :
    (d, h) ∈ world.candidates criteria origin me ↔
      ∃ c, world.Eligible criteria origin me h c ∧ d = gridDistance me c := by
  rw [candidates_eq numbered, List.mem_filterMap]
  constructor
  · rintro ⟨other, member, kept⟩
    obtain ⟨c, found, fit⟩ := (mem_handlesWhere_iff numbered).mp member
    obtain ⟨apart, kept⟩ := Option.ite_none_left_eq_some.mp kept
    rw [found, Option.map_some] at kept
    cases kept
    exact ⟨c, ⟨apart, found, fits_iff_sought.mp fit⟩, rfl⟩
  · rintro ⟨c, ⟨apart, found, sought⟩, rfl⟩
    refine ⟨h, (mem_handlesWhere_iff numbered).mpr ⟨c, found, fits_iff_sought.mpr sought⟩, ?_⟩
    rw [if_neg apart, found, Option.map_some]

private theorem pairwise_candidates (numbered : world.entities.size ≤ UInt32.size) :
    (world.candidates criteria origin me).Pairwise fun a b => a.2.index < b.2.index := by
  have handle {h : Handle} {x : Int32 × Handle} (kept : (if h = origin then none else
      (world.entity? h).map fun c => (gridDistance me c, h)) = some x) : x.2 = h := by
    obtain ⟨-, kept⟩ := Option.ite_none_left_eq_some.mp kept
    obtain ⟨c, -, rfl⟩ := Option.map_eq_some_iff.mp kept
    rfl
  rw [candidates_eq numbered]
  refine List.pairwise_filterMap.mpr ((pairwise_handlesWhere numbered).imp ?_)
  intro a b before x kept y kept'
  rw [handle kept, handle kept']
  exact before

/-! ## The least of a list -/

/-- By what candidates are compared. -/
def rank (x : Int32 × Handle) : Int ×ₗ Nat := toLex (x.1.toInt, x.2.index.toNat)

variable {first second : Int32 × Handle} {rest : List (Int32 × Handle)}

/-- Of two candidates in the order of their handles the nearer one is the lesser one. -/
theorem rank_nearer (before : first.2.index < second.2.index) :
    rank (nearer first second) = min (rank first) (rank second) := by
  rw [UInt32.lt_iff_toNat_lt] at before
  unfold nearer
  split
  case isTrue less =>
    rw [Int32.lt_iff_toInt_lt] at less
    exact (min_eq_right (Prod.Lex.toLex_le_toLex.mpr (.inl less))).symm
  case isFalse notLess =>
    rw [Int32.lt_iff_toInt_lt] at notLess
    refine (min_eq_left (Prod.Lex.toLex_le_toLex.mpr ?_)).symm
    rcases lt_or_eq_of_le (not_lt.mp notLess) with less | same
    · exact .inl less
    · exact .inr ⟨same, before.le⟩

private theorem foldl_nearer_mem (first : Int32 × Handle) (rest : List (Int32 × Handle)) :
    rest.foldl nearer first ∈ first :: rest := by
  induction rest generalizing first with
  | nil => exact List.mem_singleton_self first
  | cons second rest ih =>
      rw [List.foldl_cons]
      rcases List.mem_cons.mp (ih (nearer first second)) with same | member
      · rw [same, nearer]
        split <;> simp
      · exact List.mem_cons_of_mem _ (List.mem_cons_of_mem _ member)

/-- The winner among candidates in the order of their handles is the least of them. -/
theorem rank_foldl_nearer_le (ordered : (first :: rest).Pairwise fun a b => a.2.index < b.2.index) :
    ∀ x ∈ first :: rest, rank (rest.foldl nearer first) ≤ rank x := by
  induction rest generalizing first with
  | nil =>
      intro x member
      rw [List.mem_singleton.mp member, List.foldl_nil]
  | cons second rest ih =>
      obtain ⟨firstBefore, ordered⟩ := List.pairwise_cons.mp ordered
      have less := rank_nearer (firstBefore second List.mem_cons_self)
      have survivor : (nearer first second :: rest).Pairwise fun a b => a.2.index < b.2.index := by
        obtain ⟨secondBefore, ordered⟩ := List.pairwise_cons.mp ordered
        refine List.pairwise_cons.mpr ⟨fun x member => ?_, ordered⟩
        unfold nearer
        split
        · exact secondBefore x member
        · exact firstBefore x (List.mem_cons_of_mem _ member)
      have least := ih survivor
      intro x member
      rw [List.foldl_cons]
      rcases List.mem_cons.mp member with rfl | member
      · exact (least _ List.mem_cons_self).trans (less ▸ min_le_left _ _)
      rcases List.mem_cons.mp member with rfl | member
      · exact (least _ List.mem_cons_self).trans (less ▸ min_le_right _ _)
      · exact least x (List.mem_cons_of_mem _ member)

private theorem rank_le_iff {d : Entity} {other : Handle} :
    rank (gridDistance me c, h) ≤ rank (gridDistance me d, other) ↔
      toLex (reach me c, h.index.toNat) ≤ toLex (reach me d, other.index.toNat) := by
  simp only [rank, Prod.Lex.toLex_le_toLex, toInt_gridDistance, Nat.cast_lt, Nat.cast_inj]

private theorem handle_of_rank_eq (same : rank first = rank second) : first.2 = second.2 := by
  have index : first.2.index.toNat = second.2.index.toNat :=
    congrArg (fun r => (ofLex r).2) same
  exact congrArg Handle.mk (UInt32.toNat.inj index)

/-! ## What the search finds -/

/-- The winner among the candidates is looked for, and no one who is comes before it. -/
theorem least_of_candidates (numbered : world.entities.size ≤ UInt32.size)
    (all : world.candidates criteria origin me = first :: rest) :
    (∃ c, world.Eligible criteria origin me (rest.foldl nearer first).2 c ∧
      (rest.foldl nearer first).1 = gridDistance me c) ∧
    ∀ h c, world.Eligible criteria origin me h c →
      rank (rest.foldl nearer first) ≤ rank (gridDistance me c, h) := by
  constructor
  · refine (mem_candidates_iff numbered).mp ?_
    rw [all]
    exact foldl_nearer_mem first rest
  · intro h c eligible
    have member := (mem_candidates_iff numbered).mpr ⟨c, eligible, rfl⟩
    have ordered : (world.candidates criteria origin me).Pairwise
        fun a b => a.2.index < b.2.index := pairwise_candidates numbered
    rw [all] at member ordered
    exact rank_foldl_nearer_le ordered _ member

section Search

variable (numbered : world.entities.size ≤ UInt32.size) (here : world.entity? origin = some me)

include here

private theorem findNearest?_of_entity (criteria : Criteria) :
    (world.findNearest? origin criteria = none ↔ world.candidates criteria origin me = []) ∧
    ∀ found, world.findNearest? origin criteria = some found ↔
      ∃ first rest, world.candidates criteria origin me = first :: rest ∧
        (rest.foldl nearer first).2 = found := by
  unfold findNearest?
  rw [here]
  dsimp only
  split
  case h_1 none => simp [none]
  case h_2 first rest some => simp [some]

include numbered

/-- Nothing is found if nobody is looked for. -/
theorem findNearest?_eq_none_iff :
    world.findNearest? origin criteria = none ↔
      ∀ h c, ¬ world.Eligible criteria origin me h c := by
  rw [(findNearest?_of_entity here criteria).1]
  constructor
  · intro empty h c eligible
    have member := (mem_candidates_iff numbered).mpr ⟨c, eligible, rfl⟩
    rw [empty] at member
    exact List.not_mem_nil member
  · intro nobody
    refine List.eq_nil_iff_forall_not_mem.mpr fun (d, h) member => ?_
    obtain ⟨c, eligible, -⟩ := (mem_candidates_iff numbered).mp member
    exact nobody h c eligible

/-- What is found is the least of all who are looked for. -/
theorem findNearest?_eq_some_iff {found : Handle} :
    world.findNearest? origin criteria = some found ↔
      ∃ c, world.Eligible criteria origin me found c ∧
        ∀ other d, world.Eligible criteria origin me other d →
          toLex (reach me c, found.index.toNat) ≤ toLex (reach me d, other.index.toNat) := by
  rw [(findNearest?_of_entity here criteria).2]
  constructor
  · rintro ⟨first, rest, all, rfl⟩
    obtain ⟨⟨c, eligible, distance⟩, least⟩ := least_of_candidates numbered all
    refine ⟨c, eligible, fun other d otherEligible => rank_le_iff.mp ?_⟩
    rw [← distance]
    exact least other d otherEligible
  · rintro ⟨c, eligible, best⟩
    have member := (mem_candidates_iff numbered).mpr ⟨c, eligible, rfl⟩
    obtain ⟨first, rest, all⟩ := List.exists_cons_of_ne_nil (List.ne_nil_of_mem member)
    obtain ⟨⟨d, winner, distance⟩, least⟩ := least_of_candidates numbered all
    have greater := rank_le_iff.mpr (best _ d winner)
    rw [← distance] at greater
    exact ⟨first, rest, all, handle_of_rank_eq (le_antisymm (least found c eligible) greater)⟩

end Search

/-- **The nearest entity.** Nothing is found if the entity that looks is not there, or if no other
one is what it looks for. Otherwise the one that is found is another entity that is looked for, and
the least of all these by its distance and then by its handle. -/
theorem findNearest?_spec (numbered : world.entities.size ≤ UInt32.size) (origin : Handle)
    (criteria : Criteria) :
    (world.findNearest? origin criteria = none ↔ world.entity? origin = none ∨
      ∃ me, world.entity? origin = some me ∧ ∀ h c, ¬ world.Eligible criteria origin me h c) ∧
    ∀ found, world.findNearest? origin criteria = some found ↔
      ∃ me c, world.entity? origin = some me ∧ world.Eligible criteria origin me found c ∧
        ∀ other d, world.Eligible criteria origin me other d →
          toLex (reach me c, found.index.toNat) ≤ toLex (reach me d, other.index.toNat) := by
  cases here : world.entity? origin with
  | none => simp [findNearest?, here]
  | some me =>
      refine ⟨?_, fun found => ?_⟩
      · rw [findNearest?_eq_none_iff numbered here]
        simp
      · rw [findNearest?_eq_some_iff numbered here]
        simp

/-- One entity that looks, a gap, and three enemies, of which two are equally far. -/
def lookout : World :=
  { empty with entities := #[some { Entity.placed 0 0 with team := 6 }, none,
      some { Entity.placed 300 0 with team := 4 }, some { Entity.placed 60 (-40) with team := 4 },
      some { Entity.placed 0 100 with team := 4 }] }

/-- Of the two nearest enemies the one with the lower handle is found. -/
theorem findNearest?_spec_lookout :
    lookout.entities.size ≤ UInt32.size ∧
      lookout.findNearest? ⟨0⟩ { relation := .enemy } = some ⟨3⟩ ∧
      ∃ me c, lookout.entity? ⟨0⟩ = some me ∧
        lookout.Eligible { relation := .enemy } ⟨0⟩ me ⟨3⟩ c ∧
        ∀ other d, lookout.Eligible { relation := .enemy } ⟨0⟩ me other d →
          toLex (reach me c, 3) ≤ toLex (reach me d, other.index.toNat) :=
  have numbered : lookout.entities.size ≤ UInt32.size := by decide
  have found : lookout.findNearest? ⟨0⟩ { relation := .enemy } = some ⟨3⟩ := by decide
  ⟨numbered, found, ((findNearest?_spec numbered ⟨0⟩ { relation := .enemy }).2 ⟨3⟩).mp found⟩

end NpcScript.World
