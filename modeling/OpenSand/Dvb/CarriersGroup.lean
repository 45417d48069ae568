import OpenSand.Fmt.FmtGroup

/-!
Groups of carriers (`CarriersGroupDama`) and their capacities.
-/

namespace OpenSand

/-- A group of carriers; `previousCapacity` is only meant for one superframe. -/
structure CarriersGroupDama where
  carriersId : Nat
  fmtGroup : FmtGroup
  capacitySym : Nat
  carriersNumber : Nat
  remainingCapacity : Nat
  previousCapacity : Nat
  previousSf : Nat

namespace CarriersGroupDama

def getFmtIds (carriers : CarriersGroupDama) : List UInt8 := carriers.fmtGroup.getFmtIds

def getNearestFmtId (carriers : CarriersGroupDama) (id : UInt8) : UInt8 :=
  carriers.fmtGroup.getNearest id

def getTotalCapacity (carriers : CarriersGroupDama) : Nat :=
  Word.wrap 32 (carriers.capacitySym * carriers.carriersNumber)

def setRemainingCapacity (carriers : CarriersGroupDama) (remaining : Nat) : CarriersGroupDama :=
  { carriers with remainingCapacity := remaining }

/-- Superframe numbers are kept in 16 bits. -/
def setPreviousCapacity (carriers : CarriersGroupDama) (previous superframe : Nat) :
    CarriersGroupDama :=
  { carriers with previousCapacity := previous, previousSf := Word.wrap 16 superframe }

def getPreviousCapacity (carriers : CarriersGroupDama) (superframe : Nat) : Nat :=
  if carriers.previousSf ≠ superframe then 0 else carriers.previousCapacity

theorem getPreviousCapacity_le (carriers : CarriersGroupDama) (superframe : Nat) :
    carriers.getPreviousCapacity superframe ≤ carriers.previousCapacity := by
  unfold getPreviousCapacity
  split
  · exact Nat.zero_le _
  · exact le_rfl

end CarriersGroupDama

end OpenSand
