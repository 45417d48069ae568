import OpenSand.Dama.UnitConverter
import OpenSand.Dvb.Ttp
import OpenSand.Sched.Return

/-!
The allocation of a terminal, from the TTP that grants it to the superframe that uses it.

`DamaAgentRcs2` keeps what the last TTP allocated until the next start of frame, which
makes it the allocation of the superframe; `BlockDvbTal` schedules the frames at once. The
FIFOs are given any contents between two frames: packets arrive, and Slotted Aloha takes
others.
-/

namespace OpenSand

open OpenSand.Bytes OpenSand.Word Std

/-- What a superframe had to send and what its scheduling did. -/
structure SentSuperframe where
  allocationB : Nat
  scheduled : MacSchedule

structure ReturnTerminal where
  superFrameCounter : Nat
  converter : UnitConverterFixedSymbolLength
  modcodId : UInt8
  allocatedKb : Nat
  dynamicAllocationKb : Nat
  remainingAllocationB : Nat
  burstLengthB : Nat
  fifos : List (DvbFifo NetPacket)
  history : List Taken
  last : Option SentSuperframe

/-- What happens to a terminal. -/
inductive ReturnEvent where
  | sof (superframe fuel : Nat)
  | ttp (data : Data)
  | fifos (fifos : List (DvbFifo NetPacket))

namespace ReturnTerminal

variable (handler : ReturnPacketHandler) (retModcodDef : FmtDefinitionTable)
  (talId groupId : UInt16) (terminal : ReturnTerminal)

/-- The greatest identifier of the MODCODs, 0 when there is none. -/
def getMaxId : UInt8 :=
  match retModcodDef.keys with
  | [] => 0
  | id :: rest => rest.foldl (fun most id => if most < id then id else most) id

/-- A terminal that has received nothing. -/
def start (converter : UnitConverterFixedSymbolLength) : ReturnTerminal where
  superFrameCounter := 0
  converter :=
    match retModcodDef.getDefinition (getMaxId retModcodDef) with
    | none => converter
    | some fmt => converter.setModulationEfficiency fmt.modulationEfficiency
  modcodId := getMaxId retModcodDef
  allocatedKb := 0
  dynamicAllocationKb := 0
  remainingAllocationB := 0
  burstLengthB := 0
  fifos := []
  history := []
  last := none

/-- One time plan for the terminal; without definition for its MODCOD, the volume is not
added. -/
def hereIsTimePlan (terminal : ReturnTerminal) (tp : EmuTp) : ReturnTerminal :=
  match retModcodDef.getDefinition tp.fmtId with
  | none =>
      { terminal with
        modcodId := tp.fmtId
        converter := terminal.converter.setModulationEfficiency 0 }
  | some fmt =>
      { terminal with
        modcodId := tp.fmtId
        converter := terminal.converter.setModulationEfficiency fmt.modulationEfficiency
        allocatedKb := addW 16 terminal.allocatedKb (ofLE tp.assignmentCount) }

/-- The group identifier is read as it is in memory. -/
def hereIsTTP (data : Data) : Option ReturnTerminal :=
  (slice 3 2 data).bind fun group =>
    let terminal := { terminal with allocatedKb := 0 }
    if groupId.toNat ≠ ofLE group then some terminal
    else
      (Ttp.getTp talId data).map fun (ok, tps, _) =>
        if ok then (tps.toList.map (·.2)).foldl (hereIsTimePlan retModcodDef) terminal
        else terminal

/-- `DamaAgentRcs2::hereIsSOF`. -/
def hereIsSOF : ReturnTerminal :=
  { terminal with dynamicAllocationKb := terminal.allocatedKb, allocatedKb := 0 }

/-- `DamaAgentRcs2::processOnFrameTick`: the burst length is the one without FEC. -/
def processOnFrameTick : Bool × ReturnTerminal :=
  let terminal := { terminal with
    remainingAllocationB := terminal.dynamicAllocationKb * 1000
    burstLengthB := terminal.converter.getPacketBitLength }
  match retModcodDef.getDefinition terminal.modcodId with
  | none => (false, terminal)
  | some fmt =>
      (true, { terminal with burstLengthB := ceilW 32 (terminal.burstLengthB * fmt.codingRate) })

/-- `DamaAgentRcs2::returnSchedule`. -/
def returnSchedule (fuel : Nat) : Option ReturnTerminal :=
  (MacSchedule.schedule handler terminal.burstLengthB fuel terminal.fifos terminal.history
      terminal.remainingAllocationB).map
    fun (ok, scheduled) =>
      { terminal with
        fifos := scheduled.fifos
        history := terminal.history ++ scheduled.taken
        remainingAllocationB :=
          if ok then scheduled.remainingAllocationB else terminal.remainingAllocationB
        last := some ⟨terminal.remainingAllocationB, scheduled⟩ }

/-- `handleStartOfFrame`: a superframe number that goes back, but for its wrapping, tells
that the gateway has restarted, and the FIFOs are flushed. -/
def handleStartOfFrame (superframe fuel : Nat) : Option ReturnTerminal :=
  if superframe < terminal.superFrameCounter ∧
      (superframe ≠ 0 ∨ (terminal.superFrameCounter + 1) % 65536 ≠ 0) then
    some { terminal with
      superFrameCounter := superframe
      fifos := terminal.fifos.map (·.flush) }
  else
    let (ok, terminal) := ({ terminal with superFrameCounter := superframe }.hereIsSOF).processOnFrameTick
      retModcodDef
    if ok then terminal.returnSchedule handler fuel else some terminal

def step (terminal : ReturnTerminal) : ReturnEvent → Option ReturnTerminal
  | .sof superframe fuel => terminal.handleStartOfFrame handler retModcodDef superframe fuel
  | .ttp data => terminal.hereIsTTP retModcodDef talId groupId data
  | .fifos fifos => some { terminal with fifos := fifos }

end ReturnTerminal

end OpenSand
