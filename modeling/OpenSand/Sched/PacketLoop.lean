import OpenSand.Dvb.CarriersGroup
import OpenSand.Sched.BBFrames

/-!
The loop of the S2 schedulers that builds BB frames with the packets of a FIFO.

`ForwardSchedulingS2` and `ScpcScheduling` have the same loop but for the MODCOD
they select for a packet, an assertion on the encapsulation and the capacity they
leave once a frame does not fit; `S2Link` holds these. A step of the loop or the
loop has no result when the program does not survive it, or does not end in the
given number of turns. `popped` records the packets taken out of the FIFOs.
-/

namespace OpenSand

open OpenSand.Word

/-! ### What the loop uses -/

/-- The terminals with their current MODCOD, by identifier. -/
abbrev StFmtSimuList := List (Nat × UInt8)

namespace StFmtSimuList

variable (sts : StFmtSimuList)

def isStPresent (talId : Nat) : Bool := sts.any fun st => st.1 = talId

/-- 0 for a terminal that is not present. -/
def getCurrentModcodId (talId : Nat) : UInt8 := (sts.find? fun st => st.1 = talId).elim 0 (·.2)

/-- The terminal with the lowest MODCOD, the highest identifier when there is none. -/
def getTalIdWithLowerModcod : Nat :=
  (sts.foldl (fun (lower : UInt8 × Nat) st => if st.2 < lower.1 then (st.2, st.1) else lower)
    (255, 65535)).2

end StFmtSimuList

inductive Outcome where
  | skipped
  | framed (frame : Nat) (data remaining : Option NetPacket)

/-- A packet taken out of a FIFO: its element, what selected its MODCOD, its outcome. -/
structure Popped where
  fifo : Nat
  elem : FifoElement NetPacket
  sts : StFmtSimuList
  fmtGroup : FmtGroup
  outcome : Outcome

/-- The packet handler. The encapsulation of a packet in the space left by a frame,
new or not, gives the part that fits and the part that remains; it may fail. A handler
has a state of its own, so all depends on the packets it was given before. -/
structure EncapPacketHandler where
  encapNextPacket : List Popped → NetPacket → Nat → Bool →
    Option (Option NetPacket × Option NetPacket)

/-- The MODCOD selected for a packet: an error, no MODCOD for its terminal, or one. -/
inductive Selection where
  | failed
  | skipped
  | modcod (id : UInt8)
deriving DecidableEq, Repr

/-- What a scheduler of S2 frames does its own way. -/
structure S2Link where
  handler : EncapPacketHandler
  modcodDef : FmtDefinitionTable
  select : StFmtSimuList → FmtGroup → NetPacket → Selection
  assertChunk : Bool
  capacityWhenFull : Nat → Nat
  capacityWhenFull_le : ∀ capacitySym, capacityWhenFull capacitySym ≤ capacitySym

/-- The arguments of a call of `schedule`. -/
structure SchedCall where
  superframe : Nat
  currentTime : Nat
  sts : StFmtSimuList

/-- What the loops change. -/
structure Serving where
  bbframes : BBFrames
  fifos : List (DvbFifo NetPacket)
  carriers : CarriersGroupDama
  capacitySym : Nat
  popped : List Popped

/-! ### A step of the loop -/

def BBFrames.addData (bbframes : BBFrames) (f : Nat) (data : Option NetPacket) :
    Option BBFrames :=
  match data with
  | none => some bbframes
  | some packet => bbframes.addPacket f packet

/-- The remaining data is inserted again at the head of the FIFO. -/
def reinsertPacket (fifo : DvbFifo NetPacket) (elem : FifoElement NetPacket)
    (remaining : Option NetPacket) : Option (DvbFifo NetPacket) :=
  match remaining with
  | none => some fifo
  | some packet => (fifo.pushFront (elem.getElem.2.setElem packet)).map (·.2)

inductive LoopStatus where
  | again | finished | failed
deriving DecidableEq, Repr

namespace Serving

variable (link : S2Link) (call : SchedCall) (position : Nat × Nat) (k : Nat)

def setFifo (s : Serving) (fifo : DvbFifo NetPacket) : Serving :=
  { s with fifos := s.fifos.set k fifo }

/-- Record a packet taken out of a FIFO. -/
def record (s : Serving) (elem : FifoElement NetPacket) (outcome : Outcome) : Serving :=
  { s with popped := s.popped ++ [⟨k, elem, call.sts, s.carriers.fmtGroup, outcome⟩] }

/-- A frame that is completed, which gets pending when the capacity is exhausted. -/
def closeFrame (s : Serving) (f : Nat) : LoopStatus × Serving :=
  match s.bbframes.addCompleteBBFrame link.modcodDef position f s.capacitySym with
  | (.error, _, _) => (.failed, s)
  | (.ok, bbframes, capacitySym) =>
      (.again, { s with bbframes := bbframes.removeIncomplete f, capacitySym := capacitySym })
  | (.full, bbframes, capacitySym) =>
      let bbframes := bbframes.removeIncomplete f
      (.finished, { s with
        bbframes := { bbframes with pending := bbframes.pending ++ [f] }
        carriers := s.carriers.setPreviousCapacity capacitySym (call.superframe + 1)
        capacitySym := link.capacityWhenFull capacitySym })

/-- A packet put in the incomplete frame of its MODCOD; `fifo` is the FIFO without it. -/
def encapsulate (s : Serving) (fifo : DvbFifo NetPacket) (elem : FifoElement NetPacket)
    (packet : NetPacket) (modcodId : UInt8) : Option (LoopStatus × Serving) :=
  let (f, bbframes) := s.bbframes.getIncompleteBBFrame link.modcodDef modcodId
  let frame := bbframes.frame f
  (link.handler.encapNextPacket s.popped packet frame.getFreeSpace
      (frame.getPacketsCount = 0)).bind
    fun (data, remaining) =>
      if link.assertChunk = true ∧ data = none ∧ remaining = none then none
      else
        match bbframes.addData f data with
        | none => some (.failed, { s.setFifo k fifo with bbframes := bbframes })
        | some bbframes =>
            (reinsertPacket fifo elem remaining).map fun fifo =>
              let s := { (s.setFifo k fifo).record call k elem (.framed f data remaining) with
                bbframes := bbframes }
              if (bbframes.frame f).getFreeSpace = 0 ∨ remaining ≠ none then
                s.closeFrame link call position f
              else (.again, s)

/-- A turn of the loop, with the FIFO it is on. -/
def packetStep (s : Serving) (fifo : DvbFifo NetPacket) : Option (LoopStatus × Serving) :=
  fifo.pop.bind fun (popped, fifo) =>
    popped.bind fun elem =>
      match elem.getElem.1 with
      | none => some (.failed, s.setFifo k fifo)
      | some packet =>
          match link.select call.sts s.carriers.fmtGroup packet with
          | .failed => some (.failed, s.setFifo k fifo)
          | .skipped => some (.again, (s.setFifo k fifo).record call k elem .skipped)
          | .modcod modcodId => s.encapsulate link call position k fifo elem packet modcodId

/-- The loop while the FIFO has packets that are ready. -/
def packetLoop : Nat → Serving → Option (Bool × Serving)
  | 0, _ => none
  | fuel + 1, s =>
      s.fifos[k]?.bind fun fifo =>
        if fifo.getCurrentSize = 0 ∨ call.currentTime < fifo.getTickOut then some (true, s)
        else
          (s.packetStep link call position k fifo).bind fun (status, s) =>
            match status with
            | .again => packetLoop fuel s
            | .finished => some (true, s)
            | .failed => some (false, s)

end Serving

/-! ### Pending and incomplete frames -/

/-- The complete frames filled with the pending ones of the supported MODCODs. A frame
that is not supported is kept, and one that does not fit when `keepFull`; the others
are forgotten. -/
def schedulePendingFrom (keepFull : Bool) (table : FmtDefinitionTable) (position : Nat × Nat)
    (supported : List UInt8) : List Nat → List Nat → BBFrames → Nat → BBFrames × Nat
  | kept, [], bbframes, capacitySym => ({ bbframes with pending := kept }, capacitySym)
  | kept, f :: rest, bbframes, capacitySym =>
      if bbframes.modcod f ∈ supported then
        match bbframes.addCompleteBBFrame table position f capacitySym with
        | (.ok, bbframes, capacitySym) =>
            schedulePendingFrom keepFull table position supported kept rest bbframes capacitySym
        | (.full, bbframes, capacitySym) =>
            schedulePendingFrom keepFull table position supported
              (if keepFull then kept ++ [f] else kept) rest bbframes capacitySym
        | (.error, bbframes, capacitySym) =>
            schedulePendingFrom keepFull table position supported kept rest bbframes capacitySym
      else
        schedulePendingFrom keepFull table position supported (kept ++ [f]) rest bbframes
          capacitySym

/-- The complete frames filled with the first incomplete ones, as long as there is
capacity; `full` when the loop ended on a frame that does not fit. -/
def flushIncomplete (table : FmtDefinitionTable) (position : Nat × Nat) :
    List Nat → BBFrames → Nat → SchedStatus × BBFrames × Nat
  | [], bbframes, capacitySym => (.ok, bbframes, capacitySym)
  | f :: rest, bbframes, capacitySym =>
      if capacitySym = 0 then (.ok, bbframes, capacitySym)
      else
        match bbframes.addCompleteBBFrame table position f capacitySym with
        | (.ok, bbframes, capacitySym) =>
            flushIncomplete table position rest
              { bbframes with
                incomplete := bbframes.incomplete.erase (bbframes.modcod f)
                incompleteOrdered := rest }
              capacitySym
        | stopped => stopped

/-! ### Values for examples -/

/-- A handler that fills the space left with the beginning of a packet. -/
def EncapPacketHandler.fragmenting : EncapPacketHandler where
  encapNextPacket _ packet freeSpace _ :=
    if packet.data.length ≤ freeSpace then some (some packet, none)
    else
      some (some { packet with data := packet.data.take freeSpace },
        some { packet with data := packet.data.drop freeSpace })

/-- A MODCOD with one bit for each symbol. -/
def sampleFmt (id : UInt8) (coding : String) : FmtDefinition where
  id := id
  modulationEfficiency := 2
  codingRate := 1 / 2
  coding := coding
  spectralEfficiency := 1
  requiredEsN0 := id.toNat

/-- Two MODCODs, whose frames take 64800 and 16008 symbols. -/
def sampleFmts : FmtDefinitionTable :=
  (Std.TreeMap.empty.insert 1 (sampleFmt 1 "")).insert 2 (sampleFmt 2 "1/4")

def sampleCarriers (fmtIds : List UInt8) (capacitySym : Nat) : CarriersGroupDama where
  carriersId := 0
  fmtGroup := ⟨fmtIds.map fun id => ⟨id, id.toNat⟩, sampleFmts⟩
  capacitySym := capacitySym
  carriersNumber := 1
  remainingCapacity := 0
  previousCapacity := 0
  previousSf := 0

/-- A packet to a terminal. -/
def sampleElement (dstTalId length : Nat) : FifoElement NetPacket :=
  ⟨some ⟨List.replicate length 0, 0, 0, dstTalId⟩, 0, 0⟩

end OpenSand
