import NpcScript.Proofs.Script.Groups
import NpcScript.Proofs.Text.Fields
import NpcScript.Script.Listing

/-! # The labels that a listing shows

Above each word stand the labels that name it, in the order of their numbers,
and below the last word those that name the end. A label is shown exactly where
it points to, so the labels of a script whose labels point to no other places
are known from where they are shown
(`NpcScript.Script.Listing.labels_eq_of_marks`).
-/

namespace NpcScript.Script

open Text

variable {s t : Script} {offset : Nat}

/-- The labels of a well-formed script point to its words or to their end. -/
theorem WellFormed.toNat_le {target : UInt32} (wellFormed : s.WellFormed)
    (member : target ∈ s.labels) : target.toNat ≤ s.words.size := by
  obtain ⟨groups, -, words, places⟩ := wellFormed
  rcases places target member with atEnd | ⟨front, group, back, split, here⟩
  · exact atEnd.le
  · rw [here, ← Array.length_toList, words, split, List.flatten_append, List.length_append]
    exact Nat.le_add_right _ _

namespace Listing

/-- The labels shown at an offset. -/
def marksAt (script : Script) (offset : Nat) : List Nat := (marks script).getD offset []

/-- What is put in front of the lists of an array, list by list. -/
theorem getElem?_foldr_modify (entries : List (UInt32 × Nat)) (lists : Array (List Nat))
    (offset : Nat) :
    (entries.foldr (fun (target, label) lists => lists.modify target.toNat (label :: ·))
        lists)[offset]? =
      lists[offset]?.map
        (((entries.filter fun entry => entry.1.toNat = offset).map (·.2)) ++ ·) := by
  induction entries with
  | nil => simp
  | cons entry entries ih =>
      rw [List.foldr_cons, Array.getElem?_modify, ih]
      by_cases here : entry.1.toNat = offset
      · simp [here, Option.map_map, Function.comp_def]
      · simp [here]

/-- At every place of a script those labels are shown that point there. -/
theorem mem_marksAt_iff (inside : offset ≤ s.words.size) (label : Nat) :
    label ∈ marksAt s offset ↔
      ∃ target, s.labels[label]? = some target ∧ target.toNat = offset := by
  have shown : marksAt s offset =
      (s.labels.toList.zipIdx.filter fun entry => entry.1.toNat = offset).map (·.2) := by
    rw [marksAt, Array.getD_eq_getD_getElem?, marks, getElem?_foldr_modify,
      Array.getElem?_replicate, if_pos (Nat.lt_succ_of_le inside)]
    simp
  rw [shown]
  simp [List.mem_zipIdx_iff_getElem?, and_comm]

/-- A label that is shown at one place in two listings points there in both scripts. -/
theorem names_of_marks (wellFormed : s.WellFormed) (size : s.words.size = t.words.size)
    (same : ∀ offset ≤ s.words.size, marksAt s offset = marksAt t offset) {label : Nat}
    {target : UInt32} (names : s.labels[label]? = some target) :
    t.labels[label]? = some target := by
  have inside := wellFormed.toNat_le (Array.mem_of_getElem? names)
  have shown := (mem_marksAt_iff inside label).mpr ⟨target, names, rfl⟩
  rw [same _ inside, mem_marksAt_iff (size ▸ inside)] at shown
  obtain ⟨target', names', equal⟩ := shown
  rw [names', UInt32.toNat_inj.mp equal]

/-- **The labels of a script are known from where they are shown.** -/
theorem labels_eq_of_marks (wellFormed : s.WellFormed) (wellFormed' : t.WellFormed)
    (size : s.words.size = t.words.size)
    (same : ∀ offset ≤ s.words.size, marksAt s offset = marksAt t offset) :
    s.labels = t.labels := by
  have same' : ∀ offset ≤ t.words.size, marksAt t offset = marksAt s offset :=
    fun offset inside => (same offset (size ▸ inside)).symm
  exact Array.ext_getElem? fun label => Option.ext fun target =>
    ⟨names_of_marks wellFormed size same, names_of_marks wellFormed' size.symm same'⟩

/-! ## Labels in a row -/

private theorem solid_label (n : Nat) : Solid (label n) :=
  Solid.append (by decide) (solid_toString n)

private theorem label_injective : Function.Injective label :=
  fun _ _ same => Nat.repr_injective ((String.append_right_inj _).mp same)

/-- The labels of a row are listed on one line. -/
theorem oneLine_labels (row : List Nat) : OneLine (labels row) := by
  induction row with
  | nil => decide
  | cons n row ih =>
      have first := (solid_label n).oneLine
      cases row with
      | nil => simpa [labels] using first
      | cons m row =>
          rw [labels, List.map_cons, String.intercalate_cons_of_ne_nil (by simp), oneLine_append,
            oneLine_append]
          exact ⟨⟨first, by decide⟩, ih⟩

/-- Rows of labels are told apart by their listings. -/
theorem labels_inj {row row' : List Nat} (some : row ≠ []) (some' : row' ≠ [])
    (same : labels row = labels row') : row = row' := by
  have split {row : List Nat} (some : row ≠ []) :
      (labels row).toList.splitOn ' ' = row.map fun n => (label n).toList := by
    rw [labels, String.toList_intercalate, List.map_map]
    refine List.splitOn_intercalate ' ' ?_ (by simpa using some)
    intro part member
    obtain ⟨n, -, rfl⟩ := List.mem_map.mp member
    exact (solid_label n).notMem_blank
  have parts := split some
  rw [same, split some'] at parts
  exact (List.map_injective_iff.mpr fun _ _ equal =>
    label_injective (String.toList_inj.mp equal)) parts.symm

end Listing
end NpcScript.Script
