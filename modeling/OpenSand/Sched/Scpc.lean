import OpenSand.Sched.PacketLoop

/-!
The scheduling of an SCPC terminal (`ScpcScheduling`).

A call serves each carriers group in turn: all FIFOs by priority, each of them after
the pending frames, then the incomplete frames that fill the capacity left.
-/

namespace OpenSand

open OpenSand.Word

namespace ScpcScheduling

/-- All packets go to the gateway; without MODCOD for it on the carriers, the one with
the lowest identifier is used (`getIncompleteBBFrame`). -/
def select (gwId : Nat) (scpcModcodDef : FmtDefinitionTable) (sts : StFmtSimuList)
    (fmtGroup : FmtGroup) (_ : NetPacket) : Selection :=
  let modcodId := fmtGroup.getNearest (sts.getCurrentModcodId gwId)
  .modcod (if modcodId = 0 then scpcModcodDef.getMinId else modcodId)

def link (handler : EncapPacketHandler) (scpcModcodDef : FmtDefinitionTable) (gwId : Nat) :
    S2Link where
  handler := handler
  modcodDef := scpcModcodDef
  select := select gwId scpcModcodDef
  assertChunk := true
  capacityWhenFull := fun _ => 0
  capacityWhenFull_le := Nat.zero_le

end ScpcScheduling

namespace Serving

variable (link : S2Link) (call : SchedCall) (position : Nat × Nat)

/-- The capacity of the carriers, then with what was carried from the previous superframe. -/
def scpcCapacities (call : SchedCall) (s : Serving) : Nat × Nat :=
  let capacitySym := s.carriers.remainingCapacity
  (capacitySym, addW 32 capacitySym (s.carriers.getPreviousCapacity call.superframe))

/-- The pending frames, then the packets of the FIFO. -/
def scpcEncapPackets (fuel : Nat) (s : Serving) (k : Nat) : Option (Bool × Serving) :=
  s.fifos[k]?.bind fun fifo =>
    let (initCapa, capacitySym) := s.scpcCapacities call
    let carriers := s.carriers.setPreviousCapacity 0 0
    if fifo.getCurrentSize = 0 ∧ s.bbframes.pending = [] then
      some (true, { s with
        capacitySym := capacitySym
        carriers := carriers.setRemainingCapacity capacitySym })
    else
      let (bbframes, capacitySym) := schedulePendingFrom false link.modcodDef position
        s.carriers.getFmtIds [] s.bbframes.pending s.bbframes capacitySym
      let capacitySym := if bbframes.incomplete.isEmpty then min initCapa capacitySym
        else capacitySym
      let s := { s with bbframes := bbframes, capacitySym := capacitySym, carriers := carriers }
      if fifo.getCurrentSize = 0 then
        some (true, { s with carriers := carriers.setRemainingCapacity capacitySym })
      else
        (s.packetLoop link call position k fuel).map fun (ok, s) =>
          if ok then
            (true, { s with carriers := s.carriers.setRemainingCapacity s.capacitySym })
          else (false, s)

/-- The incomplete frames; the capacity left is kept for the statistics. -/
def scpcFlush (initCapa : Nat) (s : Serving) : Bool × Serving :=
  match flushIncomplete link.modcodDef position s.bbframes.incompleteOrdered s.bbframes
      s.carriers.remainingCapacity with
  | (.error, bbframes, capacitySym) =>
      (false, { s with bbframes := bbframes, capacitySym := capacitySym })
  | (.full, bbframes, capacitySym) =>
      (true, { s with
        bbframes := bbframes
        capacitySym := capacitySym
        carriers := (s.carriers.setPreviousCapacity (min capacitySym initCapa)
          (call.superframe + 1)).setRemainingCapacity (min capacitySym initCapa) })
  | (.ok, bbframes, capacitySym) =>
      (true, { s with
        bbframes := bbframes
        capacitySym := capacitySym
        carriers := s.carriers.setRemainingCapacity (min capacitySym initCapa) })

end Serving

/-- The state of the scheduler and what it works on. -/
structure ScpcScheduling where
  bbframes : BBFrames
  fifos : List (DvbFifo NetPacket)
  carriersGroups : List CarriersGroupDama
  popped : List Popped
  remainingAllocation : Nat

namespace ScpcScheduling

variable (handler : EncapPacketHandler) (scpcModcodDef : FmtDefinitionTable) (gwId : Nat)
  (fuel : Nat) (call : SchedCall)

def initCapacity (carriers : CarriersGroupDama) : Nat :=
  addW 32 carriers.getTotalCapacity carriers.remainingCapacity

def serving (sched : ScpcScheduling) (carriers : CarriersGroupDama) : Serving where
  bbframes := sched.bbframes
  fifos := sched.fifos
  carriers := carriers.setRemainingCapacity (initCapacity carriers)
  capacitySym := 0
  popped := sched.popped

def store (sched : ScpcScheduling) (g : Nat) (s : Serving) : ScpcScheduling :=
  { sched with
    bbframes := s.bbframes
    fifos := s.fifos
    carriersGroups := sched.carriersGroups.set g s.carriers
    popped := s.popped }

/-- The FIFOs on a carriers group. -/
def fifosOn (sched : ScpcScheduling) (g : Nat) (carriers : CarriersGroupDama) :
    Option (Bool × Serving) :=
  Run.forEach (Serving.scpcEncapPackets (link handler scpcModcodDef gwId) call (g, 0) fuel)
    (sched.serving carriers) (List.range sched.fifos.length)

/-- A carriers group. -/
def serve (sched : ScpcScheduling) (g : Nat) : Option (Bool × ScpcScheduling) :=
  sched.carriersGroups[g]?.bind fun carriers =>
    (sched.fifosOn handler scpcModcodDef gwId fuel call g carriers).map fun (ok, s) =>
      if ok = false then (false, sched.store g s)
      else
        let (ok, s) := s.scpcFlush (link handler scpcModcodDef gwId) call (g, 0)
          (initCapacity carriers)
        (ok, sched.store g s)

def resetRemaining (sched : ScpcScheduling) : ScpcScheduling :=
  { sched with
    remainingAllocation := (sched.carriersGroups.map (·.remainingCapacity)).foldl
      (addW 32) sched.remainingAllocation
    carriersGroups := sched.carriersGroups.map (·.setRemainingCapacity 0) }

def schedule (sched : ScpcScheduling) : Option (Bool × ScpcScheduling) :=
  (Run.forEach (serve handler scpcModcodDef gwId fuel call) sched
      (List.range sched.carriersGroups.length)).map
    fun (ok, sched) => if ok then (true, sched.resetRemaining) else (false, sched)

end ScpcScheduling

end OpenSand
