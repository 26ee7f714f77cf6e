import NpcScript.Proofs.Script.Groups
import NpcScript.Proofs.Text.Fields
import NpcScript.Script.Listing

/-! # How instructions are shown

An instruction is shown on a line of its own. The first character tells what
kind it is of, and every field behind it ends at a blank: the names of
operations and variables, the symbols of operators and the numerals are free of
blanks, and no two of them are alike. So no two instructions of which the names
exist are shown alike (`NpcScript.Script.Listing.instruction_inj`), not even in
listings of different scripts.
-/

namespace NpcScript

open Text

/-- What an instruction names exists: the operation that it calls, or the variable that it sets or
reads. -/
def Instruction.Known : Instruction → Prop
  | .call index _ => ∃ b, Builtin.ofIndex? index = some b
  | .jump _ => True
  | .assign slot _ => ∃ v, Variable.ofSlot? slot = some v
  | .term _ operand => operand.Known

namespace Script

variable {script : Script} {word : UInt32}

private theorem Group.decode_of_mem {labels : Nat} {group : List UInt32} (fit : Group labels group)
    (member : word ∈ group) :
    ∃ instruction, Instruction.decode word = .ok instruction ∧ instruction.Known := by
  cases fit with
  | call decoded known =>
      cases List.mem_singleton.mp member
      exact ⟨_, decoded, known⟩
  | jump decoded =>
      cases List.mem_singleton.mp member
      exact ⟨_, decoded, trivial⟩
  | assign decoded writable length present =>
      rcases List.mem_cons.mp member with rfl | behind
      · obtain ⟨v, known, -⟩ := writable
        exact ⟨_, decoded, v, known⟩
      · obtain ⟨op, operand, decoded, known⟩ := present word behind
        exact ⟨_, decoded, known⟩

/-- All that the words of a well-formed script name exists. -/
theorem WellFormed.decode_of_mem (wellFormed : script.WellFormed)
    (member : word ∈ script.words.toList) :
    ∃ instruction, Instruction.decode word = .ok instruction ∧ instruction.Known := by
  obtain ⟨groups, fit, words, -⟩ := wellFormed
  rw [words] at member
  obtain ⟨group, among, member⟩ := List.mem_flatten.mp member
  exact (fit group among).decode_of_mem member

namespace Listing

variable {s t : Script} {i j : Instruction}

/-! ## Names -/

/-- Places in a table of distinct names are told apart by the names. -/
theorem getElem?_name_inj {α : Type} {table : List α} {name : α → String}
    (distinct : (table.map name).Nodup) {m n : Nat} {a b : α} (atM : table[m]? = some a)
    (atN : table[n]? = some b) (same : name a = name b) : m = n := by
  have inside : m < (table.map name).length := by
    simpa using (List.getElem?_eq_some_iff.mp atM).1
  refine (List.getElem?_inj inside distinct).mp ?_
  rw [List.getElem?_map, List.getElem?_map, atM, atN, Option.map_some, Option.map_some, same]

private theorem ofIndex?_eq_getElem? (index : UInt16) :
    Builtin.ofIndex? index = Builtin.all[index.toNat]? := by
  simp [Builtin.ofIndex?, Builtin.table]

private theorem solid_builtinName {index : UInt16} (known : ∃ b, Builtin.ofIndex? index = some b) :
    Solid (builtinName index) := by
  have solid : ∀ b ∈ Builtin.all, Solid b.name := by decide +kernel
  obtain ⟨b, found⟩ := known
  rw [builtinName, found]
  exact solid b (List.mem_of_getElem? (ofIndex?_eq_getElem? index ▸ found))

private theorem builtinName_inj {m n : UInt16} (knownM : ∃ b, Builtin.ofIndex? m = some b)
    (knownN : ∃ b, Builtin.ofIndex? n = some b) (same : builtinName m = builtinName n) : m = n := by
  have distinct : (Builtin.all.map Builtin.name).Nodup := by decide +kernel
  obtain ⟨b, foundM⟩ := knownM
  obtain ⟨c, foundN⟩ := knownN
  rw [builtinName, builtinName, foundM, foundN] at same
  rw [ofIndex?_eq_getElem?] at foundM foundN
  exact UInt16.toNat_inj.mp (getElem?_name_inj distinct foundM foundN same)

private theorem solid_variableName {slot : UInt8} (known : ∃ v, Variable.ofSlot? slot = some v) :
    Solid (variableName slot) := by
  have solid : ∀ v ∈ Variable.all, Solid v.name := by decide +kernel
  obtain ⟨v, found⟩ := known
  rw [variableName, found]
  exact solid v (List.mem_of_getElem? found)

private theorem variableName_inj {m n : UInt8} (knownM : ∃ v, Variable.ofSlot? m = some v)
    (knownN : ∃ v, Variable.ofSlot? n = some v) (same : variableName m = variableName n) :
    m = n := by
  have distinct : (Variable.all.map Variable.name).Nodup := by decide +kernel
  obtain ⟨v, foundM⟩ := knownM
  obtain ⟨w, foundN⟩ := knownN
  rw [variableName, variableName, foundM, foundN] at same
  exact UInt8.toNat_inj.mp (getElem?_name_inj distinct foundM foundN same)

/-- No variable is called like a number: every name has a letter. -/
theorem variableName_ne_toString {slot : UInt8} (known : ∃ v, Variable.ofSlot? slot = some v)
    (value : Int32) : variableName slot ≠ toString value := by
  have letter : ∀ v ∈ Variable.all, v.name.toList.any fun c => !c.isDigit && c != '-' := by
    decide +kernel
  obtain ⟨v, found⟩ := known
  obtain ⟨c, member, other⟩ := List.any_eq_true.mp (letter v (List.mem_of_getElem? found))
  intro same
  rw [variableName, found] at same
  rw [show v.name = _ from same] at member
  rcases mem_toString_int32 member with digit | rfl <;> simp_all

private theorem solid_symbol (op : Operator) : Solid op.symbol := by
  cases op <;> simp [Solid, Operator.symbol]

private theorem symbol_injective : Function.Injective Operator.symbol := by
  intro a b
  cases a <;> cases b <;> simp [Operator.symbol]

/-! ## Fields -/

private theorem opens_target (script : Script) (label : UInt32) :
    Opens ' ' (match script.labelOffset? label with
      | some offset => " (→ " ++ Text.decimal 4 offset ++ ")"
      | none => " (undefined)") := by
  split
  · rw [String.append_assoc]
    exact opens_append rfl
  · simp [Opens]

private theorem target_inj {l m : UInt32} (same : target s l = target t m) : l = m := by
  unfold target at same
  rw [String.append_assoc, String.append_assoc, String.append_right_inj] at same
  exact UInt32.toNat_inj.mp (toString_append_inj (opens_target s l) (opens_target t m) same).1

private theorem oneLine_target (script : Script) (label : UInt32) :
    OneLine (target script label) := by
  unfold target
  rw [oneLine_append, oneLine_append]
  refine ⟨⟨by decide, (solid_toString _).oneLine⟩, ?_⟩
  split
  · rw [oneLine_append, oneLine_append]
    exact ⟨⟨by decide, (solid_decimal _ _).oneLine⟩, by decide⟩
  · decide

private theorem oneLine_render (tag : Idsz) : OneLine tag.render := by
  have letter (bits : UInt32) : Idsz.ofLetterBits bits ≠ '\n' := by
    have inside : (bits &&& 0x1F).toNat < 32 := by
      rw [UInt32.toNat_and]
      exact Nat.lt_succ_of_le Nat.and_le_right
    have letters : ∀ n < 32, Char.ofNat (n + 65) ≠ '\n' := by decide
    exact letters _ inside
  unfold Idsz.render
  rw [oneLine_append, oneLine_append]
  refine ⟨⟨by decide, ?_⟩, by decide⟩
  simp [OneLine, Idsz.letters, Ne.symm (letter _)]

/-- What an operand names or counts. -/
def shown : Operand → String
  | .var slot => variableName slot
  | .constant value => toString value

private theorem solid_shown {operand : Operand} (known : operand.Known) :
    Solid (shown operand) := by
  cases operand with
  | var slot => exact solid_variableName known
  | constant value => exact solid_toString_int32 value

private theorem shown_inj {a b : Operand} (knownA : a.Known) (knownB : b.Known)
    (same : shown a = shown b) : a = b := by
  cases a with
  | var slot =>
      cases b with
      | var slot' => exact congrArg _ (variableName_inj knownA knownB same)
      | constant value => exact absurd same (variableName_ne_toString knownA value)
  | constant value =>
      cases b with
      | var slot => exact absurd same.symm (variableName_ne_toString knownB value)
      | constant value' => exact congrArg _ (toString_int32_injective same)

/-- The letters of a tag stand in a comment behind the number. -/
theorem operand_eq (operand : Operand) :
    ∃ comment, Opens ' ' comment ∧ OneLine comment ∧
      Listing.operand operand = shown operand ++ comment := by
  cases operand with
  | var slot => exact ⟨"", opens_empty, by decide, String.append_empty.symm⟩
  | constant value =>
      refine ⟨_, ?_, ?_, rfl⟩
      · split
        · exact opens_append rfl
        · exact opens_empty
      · split
        · exact oneLine_append.mpr ⟨by decide, oneLine_render _⟩
        · decide

private theorem operand_inj {a b : Operand} (knownA : a.Known) (knownB : b.Known)
    (same : operand a = operand b) : a = b := by
  obtain ⟨comment, opens, -, here⟩ := operand_eq a
  obtain ⟨comment', opens', -, here'⟩ := operand_eq b
  rw [here, here'] at same
  exact shown_inj knownA knownB
    ((solid_shown knownA).append_inj (solid_shown knownB) opens opens' same).1

/-! ## Instructions -/

/-- The first character of an instruction tells what kind it is of. -/
def initial : Instruction → Char
  | .call _ _ => 'C'
  | .jump _ => 'J'
  | .assign _ _ => 'S'
  | .term _ _ => ' '

private theorem head?_instruction (script : Script) (i : Instruction) :
    (instruction script i).toList.head? = some (initial i) := by
  cases i with
  | call index label => cases label <;> simp [instruction, initial]
  | jump label => simp [instruction, initial]
  | assign slot terms => simp [instruction, initial]
  | term op operand => simp [instruction, initial]

/-- An instruction is listed on one line. -/
theorem oneLine_instruction (script : Script) (known : i.Known) :
    OneLine (instruction script i) := by
  cases i with
  | call index label =>
      have name := (solid_builtinName known).oneLine
      cases label with
      | none => exact oneLine_append.mpr ⟨by decide, name⟩
      | some label =>
          simp only [instruction, oneLine_append]
          exact ⟨⟨⟨by decide, name.padRight⟩, by decide⟩, oneLine_target script label⟩
  | jump label => exact oneLine_append.mpr ⟨by decide, oneLine_target script label⟩
  | assign slot terms =>
      simp only [instruction, oneLine_append]
      exact ⟨⟨⟨⟨by decide, (solid_variableName known).oneLine.padRight⟩, by decide⟩,
        (solid_toString _).oneLine⟩, by decide⟩
  | term op operand =>
      obtain ⟨comment, -, line, here⟩ := operand_eq operand
      simp only [instruction, here, oneLine_append]
      exact ⟨⟨⟨by decide, (solid_symbol op).oneLine.padRight⟩, by decide⟩,
        (solid_shown known).oneLine, line⟩

private theorem call_inj {m n : UInt16} {l l' : Option UInt32}
    (known : ∃ b, Builtin.ofIndex? m = some b) (known' : ∃ b, Builtin.ofIndex? n = some b)
    (same : instruction s (.call m l) = instruction t (.call n l')) : m = n ∧ l = l' := by
  have noBlank := (solid_builtinName known).notMem_blank
  have noBlank' := (solid_builtinName known').notMem_blank
  cases l with
  | none =>
      cases l' with
      | none =>
          rw [instruction, instruction, String.append_right_inj] at same
          exact ⟨builtinName_inj known known' same, rfl⟩
      | some l' =>
          simp only [instruction, String.append_assoc, String.append_right_inj] at same
          exact absurd (by simp [same]) noBlank
  | some l =>
      cases l' with
      | none =>
          simp only [instruction, String.append_assoc, String.append_right_inj] at same
          exact absurd (by simp [← same]) noBlank'
      | some l' =>
          simp only [instruction, String.append_assoc, String.append_right_inj] at same
          obtain ⟨names, rest⟩ := padRight_append_inj (solid_builtinName known)
            (solid_builtinName known') (opens_append rfl) (opens_append rfl) same
          rw [String.append_right_inj] at rest
          exact ⟨builtinName_inj known known' names, congrArg some (target_inj rest)⟩

/-- **No two instructions are shown alike.** -/
theorem instruction_inj (known : i.Known) (known' : j.Known)
    (same : instruction s i = instruction t j) : i = j := by
  have kind : initial i = initial j := by
    rw [← Option.some_inj, ← head?_instruction s, ← head?_instruction t, same]
  cases i with
  | call m l =>
      cases j <;> cases kind
      obtain ⟨rfl, rfl⟩ := call_inj known known' same
      rfl
  | jump l =>
      cases j <;> cases kind
      simp only [instruction, String.append_right_inj] at same
      rw [target_inj same]
  | assign slot terms =>
      cases j <;> cases kind
      simp only [instruction, String.append_assoc, String.append_right_inj] at same
      obtain ⟨names, rest⟩ := padRight_append_inj (solid_variableName known)
        (solid_variableName known') (opens_append rfl) (opens_append rfl) same
      rw [String.append_right_inj] at rest
      obtain ⟨counts, -⟩ := toString_append_inj (by simp [Opens]) (by simp [Opens]) rest
      rw [variableName_inj known known' names, UInt8.toNat_inj.mp counts]
  | term op operand =>
      cases j <;> cases kind
      simp only [instruction, String.append_assoc, String.append_right_inj] at same
      obtain ⟨symbols, rest⟩ := padRight_append_inj (solid_symbol _)
        (solid_symbol _) (opens_append rfl) (opens_append rfl) same
      rw [String.append_right_inj] at rest
      rw [symbol_injective symbols, operand_inj known known' rest]

end Listing
end Script
end NpcScript
