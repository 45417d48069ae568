import OpenSand.Common.NetPacket
import OpenSand.Fmt.FmtGroup

/-!
BB frames and the containers in which the S2 schedulers keep them.

Frames are allocated one after the other and designated by their number of
allocation, as the code designates them by their address. An incomplete frame is
found through a map by MODCOD and through an ordered list, then it moves to the
complete frames, or first to the pending ones when the capacity is exhausted.
-/

namespace OpenSand

open OpenSand.Word Std

/-- The size of `T_DVB_BBFRAME`. -/
def bbframeHeaderLength : Nat := 6

structure BBFrame where
  modcodId : UInt8
  maxSize : Nat
  packets : List NetPacket

namespace BBFrame

def getTotalLength (frame : BBFrame) : Nat :=
  bbframeHeaderLength + (frame.packets.map NetContainer.getTotalLength).sum

/-- No packet is added beyond the maximum size. -/
def getFreeSpace (frame : BBFrame) : Nat := frame.maxSize - frame.getTotalLength

def getPacketsCount (frame : BBFrame) : Nat := wrap 16 frame.packets.length

/-- The frame with a packet, unless it is too long. -/
def addPacket (frame : BBFrame) (packet : NetPacket) : Option BBFrame :=
  if frame.getFreeSpace < NetContainer.getTotalLength packet then none
  else some { frame with packets := frame.packets ++ [packet] }

end BBFrame

/-! ### Sizes -/

/-- The payload in bytes for a coding rate. -/
def getPayloadSize : String → Nat
  | "1/4" => 2001
  | "1/3" => 2676
  | "2/5" => 3216
  | "1/2" => 4026
  | "3/5" => 4836
  | "2/3" => 5380
  | "3/4" => 6051
  | "4/5" => 6456
  | "5/6" => 6730
  | "8/9" => 7184
  | "9/10" => 7274
  | _ => 8100

/-- The size of the frames of a MODCOD; the one of a normal FECFRAME when it is unknown. -/
def getBBFrameSizeBytes (table : FmtDefinitionTable) (modcodId : UInt8) : Nat :=
  match table.getDefinition modcodId with
  | none => getPayloadSize ""
  | some fmt => getPayloadSize fmt.coding

/-- The number of symbols for a size in bytes, when the MODCOD is known. -/
def getBBFrameSizeSym (table : FmtDefinitionTable) (sizeBytes : Nat) (modcodId : UInt8) :
    Option Nat :=
  (table.getDefinition modcodId).map fun fmt =>
    wrap 32 ⌊(sizeBytes * 8 : ℚ) / fmt.spectralEfficiency⌋₊

/-! ### Containers -/

/-- A frame given to the caller, with the carriers it was scheduled on and the
symbols it takes there. -/
structure CompleteFrame where
  frame : Nat
  carriers : Nat × Nat
  sizeSym : Nat

/-- The frames and where they are kept. -/
structure BBFrames where
  allocated : Nat
  frame : Nat → BBFrame
  incomplete : TreeMap UInt8 Nat
  incompleteOrdered : List Nat
  pending : List Nat
  complete : List CompleteFrame

inductive SchedStatus where
  | ok | error | full
deriving DecidableEq, Repr

namespace BBFrames

def empty : BBFrames where
  allocated := 0
  frame := fun _ => ⟨0, 0, []⟩
  incomplete := ∅
  incompleteOrdered := []
  pending := []
  complete := []

variable (bbframes : BBFrames)

def modcod (f : Nat) : UInt8 := (bbframes.frame f).modcodId

/-- The symbols a frame takes, when its MODCOD is known. -/
def sizeSym (table : FmtDefinitionTable) (f : Nat) : Option Nat :=
  getBBFrameSizeSym table (bbframes.frame f).maxSize (bbframes.modcod f)

/-- A new frame, put in the map and in the list. -/
def createIncompleteBBFrame (table : FmtDefinitionTable) (modcodId : UInt8) : BBFrames :=
  { bbframes with
    allocated := bbframes.allocated + 1
    frame := Function.update bbframes.frame bbframes.allocated
      ⟨modcodId, getBBFrameSizeBytes table modcodId, []⟩
    incomplete := bbframes.incomplete.insert modcodId bbframes.allocated
    incompleteOrdered := bbframes.incompleteOrdered ++ [bbframes.allocated] }

/-- The incomplete frame of a MODCOD, created when there is none. -/
def getIncompleteBBFrame (table : FmtDefinitionTable) (modcodId : UInt8) : Nat × BBFrames :=
  match bbframes.incomplete[modcodId]? with
  | some f => (f, bbframes)
  | none => (bbframes.allocated, bbframes.createIncompleteBBFrame table modcodId)

/-- Add a packet to a frame, which fails when it is too long. -/
def addPacket (f : Nat) (packet : NetPacket) : Option BBFrames :=
  ((bbframes.frame f).addPacket packet).map fun frame =>
    { bbframes with frame := Function.update bbframes.frame f frame }

/-- Remove a frame from the incomplete ones. -/
def removeIncomplete (f : Nat) : BBFrames :=
  { bbframes with
    incomplete := bbframes.incomplete.erase (bbframes.modcod f)
    incompleteOrdered := bbframes.incompleteOrdered.filter (· ≠ f) }

/-- Put a frame in the complete ones when the capacity is enough for it. -/
def addCompleteBBFrame (table : FmtDefinitionTable) (carriers : Nat × Nat) (f : Nat)
    (capacitySym : Nat) : SchedStatus × BBFrames × Nat :=
  match bbframes.sizeSym table f with
  | none => (.error, bbframes, capacitySym)
  | some sizeSym =>
      if capacitySym < sizeSym then (.full, bbframes, capacitySym)
      else
        (.ok, { bbframes with complete := bbframes.complete ++ [⟨f, carriers, sizeSym⟩] },
          capacitySym - sizeSym)

end BBFrames

end OpenSand
