import OpenSand.Lib.Word
import Mathlib.Algebra.Order.Floor.Ring
import Mathlib.Data.Rat.Floor
import Std.Data.TreeMap

/-!
FMT definitions, their table and the groups of FMTs of the carriers.

The floating-point values of a definition are taken as exact rational numbers. A
group keeps its FMT identifiers from the most to the least robust one.
-/

namespace OpenSand

open OpenSand.Word Std

/-- The rounding up of a rational stored in a word. -/
def ceilW (w : Nat) (x : ℚ) : Nat := wrap w ⌈x⌉₊

structure FmtDefinition where
  id : UInt8
  modulationEfficiency : Nat
  codingRate : ℚ
  coding : String
  spectralEfficiency : ℚ
  requiredEsN0 : ℚ

namespace FmtDefinition

/-- The length with the FEC, stored in 16 bits by its callers. -/
def addFec (fmt : FmtDefinition) (length : Nat) : Nat := wrap 16 ⌊(length : ℚ) / fmt.codingRate⌋₊

/-- The length without the FEC, stored in 16 bits by its callers. -/
def removeFec (fmt : FmtDefinition) (length : Nat) : Nat := ceilW 16 (length * fmt.codingRate)

end FmtDefinition

/-- The definitions by identifier (`FmtDefinitionTable`). -/
abbrev FmtDefinitionTable := TreeMap UInt8 FmtDefinition

namespace FmtDefinitionTable

variable (table : FmtDefinitionTable)

def getDefinition (id : UInt8) : Option FmtDefinition := table[id]?

/-- 0 when there is no definition. -/
def getRequiredEsN0 (id : UInt8) : ℚ := (table.getDefinition id).elim 0 (·.requiredEsN0)

/-- The lowest identifier, 0 when the table is empty. -/
def getMinId : UInt8 :=
  match table.keys with
  | [] => 0
  | id :: rest => rest.foldl (fun least id => if id < least then id else least) id

variable {table}

theorem getRequiredEsN0_of_some {id : UInt8} {fmt : FmtDefinition}
    (found : table[id]? = some fmt) : table.getRequiredEsN0 id = fmt.requiredEsN0 := by
  unfold getRequiredEsN0 getDefinition
  rw [found]
  rfl

theorem getRequiredEsN0_of_none {id : UInt8} (missing : table[id]? = none) :
    table.getRequiredEsN0 id = 0 := by
  unfold getRequiredEsN0 getDefinition
  rw [missing]
  rfl

end FmtDefinitionTable

/-- An identifier with the Es/N0 it requires. -/
structure FmtId where
  id : UInt8
  esN0 : ℚ

structure FmtGroup where
  fmtIds : List FmtId
  modcodDef : FmtDefinitionTable

namespace FmtGroup

def getFmtIds (group : FmtGroup) : List UInt8 := group.fmtIds.map (·.id)

/-- The least robust FMT of the group that requires no more than the given one, 0 when
there is none or the given one is unknown. -/
def getNearest (group : FmtGroup) (id : UInt8) : UInt8 :=
  let esN0 := group.modcodDef.getRequiredEsN0 id
  if esN0 = 0 then 0 else (group.fmtIds.reverse.find? (·.esN0 ≤ esN0)).elim 0 (·.id)

/-- The FMT found is one of the group. -/
theorem getNearest_mem {group : FmtGroup} {id : UInt8} (found : group.getNearest id ≠ 0) :
    group.getNearest id ∈ group.getFmtIds := by
  unfold getNearest at found ⊢
  dsimp only at found ⊢
  split at found
  · exact absurd rfl found
  · rename_i known
    rw [if_neg known]
    cases nearest : group.fmtIds.reverse.find? (·.esN0 ≤ group.modcodDef.getRequiredEsN0 id) with
    | none =>
        rw [nearest] at found
        exact absurd rfl found
    | some fmtId =>
        have mem := List.mem_reverse.mp (List.mem_of_find?_eq_some nearest)
        exact List.mem_map.mpr ⟨fmtId, mem, rfl⟩

end FmtGroup

end OpenSand
