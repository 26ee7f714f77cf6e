import NpcScript.World.Search

/-! # Lists of handles

The entities that fulfil a condition are listed in the order of their handles,
each of them once (`NpcScript.World.mem_handlesWhere_iff`,
`NpcScript.World.pairwise_handlesWhere`). A handle has 32 bits, so this needs a
world that has a handle for each of its places.
-/

namespace NpcScript.World

variable {world : World} {p : Entity → Bool} {h : Handle}

/-- The handle of a place is numbered as the place is. -/
theorem toNat_toUInt32_of_lt {index : Nat} (numbered : world.entities.size ≤ UInt32.size)
    (inside : index < world.entities.size) : index.toUInt32.toNat = index :=
  UInt32.toNat_ofNat_of_lt' (Nat.lt_of_lt_of_le inside numbered)

/-- The handles of some entities are those of the entities, and no others. -/
theorem mem_handlesWhere_iff (numbered : world.entities.size ≤ UInt32.size) :
    h ∈ world.handlesWhere p ↔ ∃ e, world.entity? h = some e ∧ p e := by
  unfold handlesWhere entity?
  rw [List.mem_filterMap]
  constructor
  · rintro ⟨⟨slot, index⟩, member, found⟩
    have place : world.entities[index]? = some slot := by
      rw [← Array.getElem?_toList]
      exact List.mem_zipIdx_iff_getElem?.mp member
    have inside := (Array.getElem?_eq_some_iff.mp place).1
    obtain ⟨fulfils, same⟩ := Option.ite_none_right_eq_some.mp found
    cases same
    obtain ⟨e, rfl, holds⟩ := (Option.any_eq_true _ _).mp fulfils
    refine ⟨e, ?_, holds⟩
    rw [toNat_toUInt32_of_lt numbered inside, place, Option.join_some]
  · rintro ⟨e, found, holds⟩
    have place := Option.join_eq_some_iff.mp found
    refine ⟨(some e, h.index.toNat), ?_, ?_⟩
    · rw [List.mem_zipIdx_iff_getElem?, Array.getElem?_toList]
      exact place
    · simp [holds]

/-- The handles of some entities are in ascending order. -/
theorem pairwise_handlesWhere (numbered : world.entities.size ≤ UInt32.size) :
    (world.handlesWhere p).Pairwise fun a b => a.index < b.index := by
  have places : (world.entities.toList.zipIdx.map Prod.snd).Pairwise (· < ·) := by
    rw [List.zipIdx_map_snd]
    exact List.pairwise_lt_range' 1
  rw [List.pairwise_map] at places
  refine List.pairwise_filterMap.mpr (places.imp_of_mem ?_)
  rintro ⟨slot, index⟩ ⟨slot', index'⟩ member member' before a found a' found'
  have inside (slot : Option Entity) (index : Nat)
      (member : (slot, index) ∈ world.entities.toList.zipIdx) : index < world.entities.size := by
    simpa using (List.mem_zipIdx member).2.1
  obtain ⟨_, same⟩ := Option.ite_none_right_eq_some.mp found
  obtain ⟨_, same'⟩ := Option.ite_none_right_eq_some.mp found'
  cases same
  cases same'
  rw [UInt32.lt_iff_toNat_lt, toNat_toUInt32_of_lt numbered (inside _ _ member),
    toNat_toUInt32_of_lt numbered (inside _ _ member')]
  exact before

end NpcScript.World
