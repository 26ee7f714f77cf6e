import NpcScript.Builtin.Basic
import NpcScript.Idsz
import NpcScript.Variable

/-!
# Symbols

Built-in operations, variables and constants share one flat namespace. The first definition of a
name holds: names defined on top of the standard table never change what an existing name means.
-/

namespace NpcScript

/-- What a name stands for. -/
inductive Symbol where
  | constant (value : Int32)
  | var (v : Variable)
  | builtin (index : UInt16)
  deriving DecidableEq, Inhabited

/-- Names with their meaning, in the order of definition. -/
structure SymbolTable where
  entries : List (String × Symbol)
  deriving Inhabited

namespace SymbolTable

/-- The table without names. -/
def empty : SymbolTable := ⟨[]⟩

/-- The meaning of a name. -/
def resolve? (symbols : SymbolTable) (name : String) : Option Symbol :=
  symbols.entries.lookup name

/-- Adds a name unless it is already defined. -/
def define (symbols : SymbolTable) (name : String) (symbol : Symbol) : SymbolTable :=
  match symbols.resolve? name with
  | some _ => symbols
  | none => ⟨symbols.entries ++ [(name, symbol)]⟩

/-- Adds a named constant unless the name is already defined. -/
def defineConstant (symbols : SymbolTable) (name : String) (value : Int32) : SymbolTable :=
  symbols.define name (.constant value)

/-- Adds named constants one after the other. -/
def defineConstants (symbols : SymbolTable) (constants : List (String × Int32)) : SymbolTable :=
  constants.foldl (fun symbols (name, value) => symbols.defineConstant name value) symbols

/-- The number of names. -/
def size (symbols : SymbolTable) : Nat := symbols.entries.length

/-- The constants that every script may use. -/
def standardConstants : List (String × Int32) := [
  ("FALSE", 0),
  ("TRUE", 1),
  ("DAMAGE_SLASH", 0),
  ("DAMAGE_CRUSH", 1),
  ("DAMAGE_POKE", 2),
  ("DAMAGE_HOLY", 3),
  ("DAMAGE_EVIL", 4),
  ("DAMAGE_FIRE", 5),
  ("DAMAGE_ICE", 6),
  ("DAMAGE_ZAP", 7),
  ("DAMAGE_NONE", 255),
  ("TEAM_EVIL", 4),
  ("TEAM_GOOD", 6),
  ("TEAM_NULL", 13),
  ("XP_FINDSECRET", 0),
  ("XP_WINQUEST", 1),
  ("XP_USEDUNKOWN", 2),
  ("XP_KILLENEMY", 3),
  ("XP_KILLSLEEPY", 4),
  ("XP_KILLHATED", 5),
  ("XP_TEAMKILL", 6),
  ("XP_TALKGOOD", 7),
  ("XP_DIRECT", 255),
  ("MOVE_RUN", 0),
  ("MOVE_WALK", 1),
  ("MOVE_SNEAK", 2),
  ("IDSZ_NONE", Idsz.untagged.value)]

/-- The operations, the variables and the standard constants, in this order. -/
def standard : SymbolTable where
  entries :=
    Builtin.all.map (fun b => (b.name, .builtin b.index)) ++
    Variable.sourceNames.map (fun (name, v) => (name, .var v)) ++
    standardConstants.map (fun (name, value) => (name, .constant value))

end SymbolTable
end NpcScript
