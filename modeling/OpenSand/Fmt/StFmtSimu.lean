import OpenSand.Fmt.RequiredModcod
import OpenSand.Lib.SortedMap

/-!
The terminals of a spot with their MODCOD (`StFmtSimu`, `StFmtSimuList`).

A terminal designates the MODCOD table of its link. The list is a set of identifiers and a
map of terminals; the two have the same keys, which is a field of the structure.
-/

namespace OpenSand

/-- The MODCOD tables of a channel. -/
inductive ModcodDef where
  | s2 | rcs2
deriving DecidableEq, Repr

/-- The greatest identifier, 0 when the table is empty. -/
def FmtDefinitionTable.getMaxId (table : FmtDefinitionTable) : UInt8 :=
  match table.keys with
  | [] => 0
  | id :: rest => rest.foldl (fun greatest id => if greatest < id then id else greatest) id

structure StFmtSimu where
  modcodDef : ModcodDef
  cniHasChanged : Bool
  currentModcodId : UInt8
deriving DecidableEq, Repr

namespace StFmtSimu

variable (tables : ModcodDef → FmtDefinitionTable) (st : StFmtSimu)

/-- The change of the C/N of a new terminal was not reported. -/
def new (initModcodId : UInt8) (modcodDef : ModcodDef) : StFmtSimu :=
  ⟨modcodDef, true, initModcodId⟩

/-- The update without margin, as it is called. -/
def updateModcodId (newId : UInt8) : StFmtSimu :=
  { st with
    cniHasChanged := st.cniHasChanged || newId ≠ st.currentModcodId
    currentModcodId := newId }

def updateCni (cni acmLoopMarginDb : ℚ) : StFmtSimu :=
  st.updateModcodId ((tables st.modcodDef).getRequiredModcod (cni - acmLoopMarginDb))

/-- The C/N that the current MODCOD requires. -/
def requiredCni : ℚ := (tables st.modcodDef).getRequiredEsN0 st.currentModcodId

/-- The change is considered reported by the read of the value. -/
def getRequiredCni : ℚ × StFmtSimu := (st.requiredCni tables, { st with cniHasChanged := false })

end StFmtSimu

/-- The terminals of a list and the set of their identifiers. -/
structure StFmtSimuMap where
  sts : SortedMap Nat StFmtSimu
  ids : SortedMap Nat Unit
  acmLoopMarginDb : ℚ
  same : ids.keys = sts.keys

namespace StFmtSimuMap

def new (acmLoopMarginDb : ℚ) : StFmtSimuMap :=
  ⟨.empty, .empty, acmLoopMarginDb, rfl⟩

variable (tables : ModcodDef → FmtDefinitionTable) (list : StFmtSimuMap)

/-- The set of the identifiers is asked. -/
def isStPresent (stId : Nat) : Bool := (list.ids.lookup stId).isSome

def delTerminal (stId : Nat) : Bool × StFmtSimuMap :=
  match list.sts.lookup stId with
  | none => (false, list)
  | some _ =>
      (true, { list with
        sts := list.sts.erase stId
        ids := list.ids.erase stId
        same := by rw [SortedMap.keys_erase, SortedMap.keys_erase, list.same] })

/-- A terminal that exists is deleted first. -/
def addTerminal (stId : Nat) (initModcod : UInt8) (modcodDef : ModcodDef) : StFmtSimuMap :=
  let list := if list.isStPresent stId then (list.delTerminal stId).2 else list
  { list with
    sts := list.sts.insert stId (StFmtSimu.new initModcod modcodDef)
    ids := list.ids.insert stId ()
    same := SortedMap.keys_insert_congr list.same stId _ _ }

def modify (stId : Nat) (f : StFmtSimu → StFmtSimu) : StFmtSimuMap :=
  { list with
    sts := list.sts.modify stId f
    same := by rw [SortedMap.keys_modify, list.same] }

/-- A terminal that is not in the list is ignored. -/
def setRequiredCni (stId : Nat) (cni : ℚ) : StFmtSimuMap :=
  list.modify stId fun st => st.updateCni tables cni list.acmLoopMarginDb

/-- 0 for a terminal that is not in the list. -/
def getRequiredCni (stId : Nat) : ℚ × StFmtSimuMap :=
  match list.sts.lookup stId with
  | none => (0, list)
  | some st =>
      ((st.getRequiredCni tables).1, list.modify stId fun st => (st.getRequiredCni tables).2)

def getCniHasChanged (stId : Nat) : Bool :=
  match list.sts.lookup stId with
  | none => false
  | some st => st.cniHasChanged

variable {list}

/-! ### The terminals after an operation -/

theorem isStPresent_eq (stId : Nat) :
    list.isStPresent stId = (list.sts.lookup stId).isSome := by
  rw [isStPresent, Bool.eq_iff_iff, ← SortedMap.mem_keys_iff, list.same, SortedMap.mem_keys_iff]

theorem delTerminal_lookup (stId other : Nat) :
    (list.delTerminal stId).2.sts.lookup other =
      if other = stId then none else list.sts.lookup other := by
  unfold delTerminal
  split
  next missing =>
    split
    next same =>
      subst same
      exact missing
    next => rfl
  next => exact SortedMap.lookup_erase list.sts stId other

theorem delTerminal_fst (stId : Nat) :
    (list.delTerminal stId).1 = (list.sts.lookup stId).isSome := by
  unfold delTerminal
  split
  next missing => rw [missing]; rfl
  next found => rw [found]; rfl

theorem delTerminal_of_missing {stId : Nat} (failed : (list.delTerminal stId).1 = false) :
    (list.delTerminal stId).2 = list := by
  rw [delTerminal_fst, Option.isSome_eq_false_iff, Option.isNone_iff_eq_none] at failed
  unfold delTerminal
  rw [failed]

theorem addTerminal_lookup (stId : Nat) (initModcod : UInt8) (modcodDef : ModcodDef)
    (other : Nat) : (list.addTerminal stId initModcod modcodDef).sts.lookup other =
      if other = stId then some (StFmtSimu.new initModcod modcodDef)
      else list.sts.lookup other := by
  unfold addTerminal
  dsimp only
  split
  next =>
    rw [SortedMap.lookup_insert]
    · split
      · rfl
      next ne => rw [delTerminal_lookup, if_neg ne]
    · rw [delTerminal_lookup, if_pos rfl]
  next absent =>
    rw [SortedMap.lookup_insert]
    rw [isStPresent_eq, Option.not_isSome_iff_eq_none] at absent
    exact absent

theorem setRequiredCni_lookup (stId : Nat) (cni : ℚ) (other : Nat) :
    (list.setRequiredCni tables stId cni).sts.lookup other =
      (list.sts.lookup other).map fun st =>
        if other = stId then st.updateCni tables cni list.acmLoopMarginDb else st :=
  SortedMap.lookup_modify _ _ _ _

end StFmtSimuMap

end OpenSand
