import OpenSand.Common.NetPacket
import OpenSand.Lib.SortedMap
import OpenSand.Saloha.Frame
import Mathlib.Data.List.Sort

/-!
The Slotted Aloha of a terminal (`SlottedAlohaTal`) and the loop that tags and
stores the packets of a burst (`BlockDvbTal::Downward::onEvent`).

A packet is owned by one place at a time: a MAC FIFO, the list of the packets that
wait for an acknowledgement under some QoS, or the list of those to send again. An
entry of these lists whose packet was moved out is empty, and looking into it is not
survived. What the random generator yields (the slots and the state of the back-off)
comes with the event.

Beside what the program stores, the state numbers the packet objects as they are
built and keeps what became of them.
-/

namespace OpenSand

open OpenSand.Word

/-- A packet object of the terminal, with its number. -/
structure SalohaTalPacket where
  packet : SlottedAlohaPacketData
  timeoutSaf : Nat
  nbRetransmissions : UInt16
  number : Nat
deriving DecidableEq, Repr

namespace SalohaTalPacket

/-- The total length that the header claims. -/
def getTotalLength (sent : SalohaTalPacket) : Nat := wrap 16 sent.packet.length

def getNbReplicas (sent : SalohaTalPacket) : Nat := sent.packet.replicas.length

def getQos (sent : SalohaTalPacket) : Nat := sent.packet.qos.toNat

def decTimeout (sent : SalohaTalPacket) : SalohaTalPacket :=
  { sent with timeoutSaf := sent.timeoutSaf - 1 }

end SalohaTalPacket

/-- What a MAC FIFO of a terminal holds. -/
inductive MacPacket where
  | encap (packet : NetPacket)
  | saloha (sent : SalohaTalPacket)
deriving DecidableEq, Repr

instance : NetContainer MacPacket where
  getTotalLength
    | .encap packet => packet.data.length
    | .saloha sent => sent.getTotalLength

/-- An acknowledgement or other signal of the gateway (`SlottedAlohaPacketCtrl`). -/
structure SalohaPacketCtrl where
  ctrlType : UInt8
  talId : UInt16
  id : SalohaId
deriving DecidableEq, Repr

def SALOHA_CTRL_ACK : UInt8 := 1

structure SlottedAlohaTalConfig where
  talId : UInt16
  nbReplicas : UInt16
  timeoutSaf : Nat
  nbMaxPackets : UInt16
  nbMaxRetransmissions : UInt16
  sfPerSaframe : Nat
  slotsPerCarrier : Nat
  defaultFifoId : Nat

/-- What became of the packet objects, and the tagged packets that were stored with
the number of their burst. -/
structure SalohaTalRecord where
  popped : List Nat := []
  acked : List Nat := []
  dropped : List Nat := []
  failed : List Nat := []
  stored : List (Nat × SlottedAlohaPacketData) := []
  bursts : Nat := 0
  built : Nat := 0

structure SlottedAlohaTal where
  baseId : UInt32
  dvbFifos : SortedMap Nat (DvbFifo MacPacket)
  packetsWaitAck : SortedMap Nat (List (Option SalohaTalPacket))
  retransmissionPackets : List (Option SalohaTalPacket)
  record : SalohaTalRecord

namespace SlottedAlohaTal

/-- The probes exist for the FIFOs of Slotted Aloha. -/
def hasProbe (tal : SlottedAlohaTal) (qos : Nat) : Bool :=
  (tal.dvbFifos.lookup qos).any fun fifo => fifo.accessType = .return .saloha

/-- The access through a probe pointer. -/
def putProbe (tal : SlottedAlohaTal) (qos : Nat) : Option Unit :=
  if tal.hasProbe qos then some () else none

def setFifo (tal : SlottedAlohaTal) (key : Nat) (fifo : DvbFifo MacPacket) : SlottedAlohaTal :=
  { tal with dvbFifos := tal.dvbFifos.modify key fun _ => fifo }

/-! ### Bursts of encapsulated packets -/

/-- Build the Slotted Aloha packet of an encapsulated one. The base id advances at
the packet whose offset is the last one of the burst. -/
def addSalohaHeader (config : SlottedAlohaTalConfig) (tal : SlottedAlohaTal) (packet : NetPacket)
    (offset burstSize : UInt16) : SalohaTalPacket × SlottedAlohaTal :=
  ({ packet := {
       id := tal.baseId
       ts := 0
       seq := offset
       pduNb := burstSize
       qos := .ofNat packet.qos
       replicas := List.replicate config.nbReplicas.toNat 0
       payload := packet.data
       srcTalId := packet.srcTalId }
     timeoutSaf := config.timeoutSaf
     nbRetransmissions := 0
     number := tal.record.built },
   { tal with
     baseId := if (offset.toNat : Int) = burstSize.toNat - 1 then tal.baseId + 1 else tal.baseId
     record := { tal.record with built := tal.record.built + 1 } })

/-- The FIFO of a packet: that of its QoS, else the default one. -/
def fifoPriority (config : SlottedAlohaTalConfig) (tal : SlottedAlohaTal) (packet : NetPacket) :
    Nat :=
  let qos := (UInt8.ofNat packet.qos).toNat
  if (tal.dvbFifos.lookup qos).isSome then qos else config.defaultFifoId

/-- Put a packet in a FIFO. -/
def onRcvEncapPacket (tal : SlottedAlohaTal) (key : Nat) (fifo : DvbFifo MacPacket)
    (packet : MacPacket) : Option (Bool × SlottedAlohaTal) :=
  (fifo.push ⟨some packet, 0, 0⟩).map fun (pushed, fifo) => (pushed, tal.setFifo key fifo)

/-- Tag and store one packet of a burst: the status, and the next offset. -/
def storePacket (config : SlottedAlohaTalConfig) (burstSize : Nat) (offset : Nat)
    (tal : SlottedAlohaTal) (packet : NetPacket) : Option (Bool × Nat × SlottedAlohaTal) :=
  let key := tal.fifoPriority config packet
  (tal.dvbFifos.lookup key).bind fun fifo =>
    if fifo.accessType = .return .saloha then
      let (sent, tal) := tal.addSalohaHeader config packet (.ofNat offset) (.ofNat burstSize)
      (tal.onRcvEncapPacket key fifo (.saloha sent)).map fun (pushed, tal) =>
        (pushed, offset + 1, if pushed then
          { tal with record := { tal.record with
              stored := tal.record.stored ++ [(tal.record.bursts, sent.packet)] } }
        else tal)
    else
      (tal.onRcvEncapPacket key fifo (.encap packet)).map fun (pushed, tal) => (pushed, offset, tal)

/-- The loop over the packets of a burst, left at the first one that is not stored. -/
def storePackets (config : SlottedAlohaTalConfig) (burstSize : Nat) :
    Nat → SlottedAlohaTal → List NetPacket → Option (Bool × SlottedAlohaTal)
  | _, tal, [] => some (true, tal)
  | offset, tal, packet :: packets =>
      (tal.storePacket config burstSize offset packet).bind fun (pushed, offset, tal) =>
        if pushed then storePackets config burstSize offset tal packets else some (false, tal)

/-- A burst of encapsulated packets from the upper layer. -/
def onBurst (config : SlottedAlohaTalConfig) (tal : SlottedAlohaTal) (burst : List NetPacket) :
    Option (Bool × SlottedAlohaTal) :=
  (tal.storePackets config burst.length 0 burst).map fun (ok, tal) =>
    (ok, { tal with record := { tal.record with bursts := tal.record.bursts + 1 } })

/-! ### Acknowledgements -/

/-- The search of a packet by its unique identifier: the packet and the list without
it. -/
def removeAcked (id : SalohaId) : List (Option SalohaTalPacket) →
    Option (Option (SalohaTalPacket × List (Option SalohaTalPacket)))
  | [] => some none
  | none :: _ => none
  | some sent :: rest =>
      if id = sent.packet.getUniqueId then some (some (sent, rest))
      else (removeAcked id rest).map fun found => found.map fun (acked, rest) =>
        (acked, some sent :: rest)

/-- One control packet. The list of the QoS that the identifier is read to have is
created if it is not there. -/
def onRcvCtrl (config : SlottedAlohaTalConfig) (ids : PacketIds) (tal : SlottedAlohaTal)
    (ctrl : SalohaPacketCtrl) : Option SlottedAlohaTal :=
  if ctrl.talId ≠ config.talId then some tal
  else if ctrl.ctrlType ≠ SALOHA_CTRL_ACK then some tal
  else
    let qos := wrap 8 (SlottedAlohaPacketData.convertPacketId ctrl.id ids).qos
    let waiting := tal.packetsWaitAck.insert qos []
    (removeAcked ctrl.id ((waiting.lookup qos).getD [])).map fun
      | none => { tal with packetsWaitAck := waiting }
      | some (acked, rest) => { tal with
          packetsWaitAck := waiting.modify qos fun _ => rest
          record := { tal.record with acked := tal.record.acked ++ [acked.number] } }

/-- A frame of control packets; `ids` is what the identifier array holds before it is
filled. -/
def onRcvFrame (config : SlottedAlohaTalConfig) (ids : PacketIds) :
    SlottedAlohaTal → List SalohaPacketCtrl → Option SlottedAlohaTal
  | tal, [] => some tal
  | tal, ctrl :: ctrls =>
      (tal.onRcvCtrl config ids ctrl).bind fun tal => onRcvFrame config ids tal ctrls

/-! ### Time-outs -/

/-- The waiting packets of a QoS with their time-outs decreased. -/
def decTimeouts : List (Option SalohaTalPacket) → Option (List (Option SalohaTalPacket))
  | [] => some []
  | none :: _ => none
  | some sent :: rest => (decTimeouts rest).map (some sent.decTimeout :: ·)

/-- What the scan of the waiting packets changes: the packets to send again, how many
of them were added so far, and the packets given up. -/
structure Expiry where
  retransmissionPackets : List (Option SalohaTalPacket)
  nbRetransmissions : Nat
  dropped : List Nat

/-- A packet that timed out is sent again behind those added before it in this scan,
or given up after too many attempts, which is reported under its QoS. -/
def expirePacket (config : SlottedAlohaTalConfig) (hasProbe : Nat → Bool) (expiry : Expiry)
    (sent : SalohaTalPacket) : Option Expiry :=
  if sent.nbRetransmissions < config.nbMaxRetransmissions then
    some { expiry with
      retransmissionPackets := expiry.retransmissionPackets.insertIdx expiry.nbRetransmissions
        (some { sent with
          nbRetransmissions := sent.nbRetransmissions + 1
          timeoutSaf := config.timeoutSaf })
      nbRetransmissions := addW 16 expiry.nbRetransmissions 1 }
  else if hasProbe sent.getQos then
    some { expiry with dropped := expiry.dropped ++ [sent.number] }
  else none

/-- The scan of the waiting packets of a QoS. -/
def expireList (config : SlottedAlohaTalConfig) (hasProbe : Nat → Bool) :
    Expiry → List (Option SalohaTalPacket) → Option (Expiry × List (Option SalohaTalPacket))
  | expiry, [] => some (expiry, [])
  | _, none :: _ => none
  | expiry, some sent :: rest =>
      if sent.timeoutSaf = 0 then
        (expirePacket config hasProbe expiry sent).bind fun expiry =>
          expireList config hasProbe expiry rest
      else
        (expireList config hasProbe expiry rest).map fun (expiry, rest) =>
          (expiry, some sent :: rest)

/-! ### Slots -/

def insertSlot (slot : UInt16) (slots : List UInt16) : List UInt16 :=
  if slot ∈ slots then slots else slots.orderedInsert (· ≤ ·) slot

/-- The first loop of `getTimeSlots`: draw until there are enough different slots.
Without result, the draws do not end the loop. -/
def drawSlots (max : Nat) : List UInt16 → List UInt16 → Option (List UInt16)
  | [], tmp => if max ≤ tmp.length then some tmp else none
  | slot :: draws, tmp =>
      if max ≤ tmp.length then some tmp else drawSlots max draws (insertSlot slot tmp)

/-- The slots of a Slotted Aloha frame: different slots of one carrier, each then moved
to a carrier that is drawn for it. -/
def getTimeSlots (config : SlottedAlohaTalConfig) (tal : SlottedAlohaTal) (slots : List UInt16)
    (carriers : Nat → UInt16) : Option (List UInt16) :=
  let queued := (tal.dvbFifos.entries.filter fun entry =>
    entry.2.accessType = .return .saloha).map fun entry => entry.2.getCurrentSize
  let nbPackets := wrap 16 (tal.retransmissionPackets.length + queued.sum)
  let max := wrap 16 (min nbPackets config.nbMaxPackets.toNat * config.nbReplicas.toNat)
  (drawSlots max slots []).map fun tmp =>
    tmp.zipIdx.foldl (fun slots (slot, index) =>
      insertSlot (.ofNat ((carriers index).toNat * config.slotsPerCarrier + slot.toNat)) slots) []

/-! ### Sending -/

/-- What sending changes: the lists of waiting packets, the frame under construction
and the complete ones, the slots that are left, the packets counted in slots, and the
record. -/
structure Sending where
  packetsWaitAck : SortedMap Nat (List (Option SalohaTalPacket))
  frame : List SlottedAlohaPacketData
  completeFrames : List (List SlottedAlohaPacketData)
  slots : List UInt16
  nbrPacketsTotal : Nat
  record : SalohaTalRecord

/-- The free space of a frame that holds packets. -/
def freeSpace (frame : List SlottedAlohaPacketData) : Nat :=
  subW 64 MSG_SALOHA_SIZE_MAX (salohaHeaderLength + SlottedAlohaFrame.payloadLength frame)

/-- Put the copies of a packet in the frames, one for each slot. A frame without room
is complete; a packet that has no room in the new one is not added. -/
def addCopies (sent : SalohaTalPacket) : List UInt16 → Sending → Bool × Sending
  | [], sending => (true, sending)
  | ts :: slots, sending =>
      let sending :=
        if freeSpace sending.frame < sent.getTotalLength then { sending with
          frame := []
          completeFrames := sending.completeFrames ++ [sending.frame] }
        else sending
      if freeSpace sending.frame < sent.getTotalLength then (false, sending)
      else addCopies sent slots { sending with
        frame := sending.frame ++ [{ sent.packet with ts := ts }] }

/-- Take the slots of a packet, put its copies in the frames and keep it until it is
acknowledged, under a given QoS. A packet that is not added is lost. -/
def addPacketInFrames (sent : SalohaTalPacket) (qos : Nat) (sending : Sending) :
    Option (Bool × Sending) :=
  let nbReplicas := sent.getNbReplicas
  if sending.slots.length < nbReplicas then none
  else
    let replicas := sending.slots.take nbReplicas
    let sent := { sent with packet := { sent.packet with replicas := replicas } }
    let (added, sending) := addCopies sent replicas
      { sending with slots := sending.slots.drop nbReplicas }
    if added then
      some (true, { sending with
        packetsWaitAck := (sending.packetsWaitAck.insert qos []).modify qos (· ++ [some sent]) })
    else
      some (false, { sending with
        record := { sending.record with failed := sending.record.failed ++ [sent.number] } })

/-- The packets to send again, as long as their slots last. The entry of a packet that
is not added stays, empty. -/
def sendAgain (hasProbe : Nat → Bool) (nbSlots : Nat) :
    List (Option SalohaTalPacket) → Sending → Option (List (Option SalohaTalPacket) × Sending)
  | [], sending => some ([], sending)
  | none :: _, _ => none
  | some sent :: rest, sending =>
      if sending.nbrPacketsTotal + sent.getNbReplicas ≤ nbSlots then
        (addPacketInFrames sent sent.getQos sending).bind fun
          | (true, sending) =>
              if hasProbe sent.getQos then
                sendAgain hasProbe nbSlots rest { sending with
                  nbrPacketsTotal := addW 16 sending.nbrPacketsTotal sent.getNbReplicas }
              else none
          | (false, sending) =>
              (sendAgain hasProbe nbSlots rest sending).map fun (rest, sending) =>
                (none :: rest, sending)
      else some (some sent :: rest, sending)

/-- The packets of one FIFO, as long as their slots last; `fuel` is the number of
elements. -/
def sendFifo (config : SlottedAlohaTalConfig) (nbSlots qos : Nat) :
    Nat → DvbFifo MacPacket → Sending → Option (DvbFifo MacPacket × Sending)
  | 0, fifo, sending => some (fifo, sending)
  | fuel + 1, fifo, sending =>
      if fifo.getCurrentSize ≠ 0 ∧
          sending.nbrPacketsTotal + config.nbReplicas.toNat ≤ nbSlots then
        fifo.pop.bind fun
          | (some ⟨some (.saloha sent), _, _⟩, fifo) =>
              let sending := { sending with
                record := { sending.record with popped := sending.record.popped ++ [sent.number] } }
              (addPacketInFrames sent qos sending).bind fun
                | (true, sending) =>
                    sendFifo config nbSlots qos fuel fifo { sending with
                      nbrPacketsTotal := addW 16 sending.nbrPacketsTotal sent.getNbReplicas }
                | (false, sending) => sendFifo config nbSlots qos fuel fifo sending
          -- the element holds no Slotted Aloha packet
          | _ => none
      else some (fifo, sending)

/-- The FIFOs in the order of their QoS. -/
def sendFifos (config : SlottedAlohaTalConfig) (nbSlots : Nat) :
    SortedMap Nat (DvbFifo MacPacket) → Sending →
      Option (Sending × SortedMap Nat (DvbFifo MacPacket)) :=
  fun fifos sending => fifos.forValues (fun sending qos fifo =>
    if nbSlots ≤ sending.nbrPacketsTotal then some (sending, fifo)
    else if fifo.accessType ≠ .return .saloha then some (sending, fifo)
    else (sendFifo config nbSlots qos fifo.queue.length fifo sending).map Prod.swap) sending

/-- The reports on the waiting packets, at the end of every schedule. -/
def refreshProbes (tal : SlottedAlohaTal) : Option SlottedAlohaTal :=
  if tal.packetsWaitAck.entries.all fun entry => tal.hasProbe entry.1 then some tal else none

/-- What the generator yields in a schedule: whether the back-off is over, the slots
and the carriers. -/
structure Draws where
  backoffReady : Bool
  slots : List UInt16
  carriers : Nat → UInt16

/-- A schedule at the tick of a Slotted Aloha frame: the frames to send. -/
def schedule (config : SlottedAlohaTalConfig) (tal : SlottedAlohaTal) (sfCounter : Nat)
    (draws : Draws) : Option (List (List SlottedAlohaPacketData) × SlottedAlohaTal) :=
  if sfCounter % config.sfPerSaframe ≠ 0 then tal.refreshProbes.map ([], ·)
  else
    (tal.packetsWaitAck.forValues (fun _ _ waiting => (decTimeouts waiting).map ((), ·)) ()).bind
      fun ((), packetsWaitAck) =>
        let tal := { tal with packetsWaitAck := packetsWaitAck }
        if ¬ draws.backoffReady then tal.refreshProbes.map ([], ·)
        else
          (tal.packetsWaitAck.forValues (fun expiry _ waiting =>
            expireList config tal.hasProbe expiry waiting)
              ⟨tal.retransmissionPackets, 0, []⟩).bind fun (expiry, packetsWaitAck) =>
            let tal := { tal with
              packetsWaitAck := packetsWaitAck
              retransmissionPackets := expiry.retransmissionPackets
              record := { tal.record with dropped := tal.record.dropped ++ expiry.dropped } }
            (tal.getTimeSlots config draws.slots draws.carriers).bind fun slots =>
              (sendAgain tal.hasProbe slots.length tal.retransmissionPackets
                  ⟨tal.packetsWaitAck, [], [], slots, 0, tal.record⟩).bind fun (again, sending) =>
                (sendFifos config slots.length tal.dvbFifos sending).bind fun (sending, fifos) =>
                  let tal : SlottedAlohaTal := { tal with
                    dvbFifos := fifos
                    packetsWaitAck := sending.packetsWaitAck
                    retransmissionPackets := again
                    record := sending.record }
                  let frames :=
                    if sending.frame = [] then sending.completeFrames
                    else sending.completeFrames ++ [sending.frame]
                  tal.refreshProbes.map (frames, ·)

/-! ### Runs -/

/-- What happens to a terminal. The FIFOs of other access types are emptied by other
schedulers. -/
inductive TalEvent where
  | burst (packets : List NetPacket)
  | ctrl (ids : PacketIds) (ctrls : List SalohaPacketCtrl)
  | schedule (sfCounter : Nat) (draws : Draws)
  | pop (key : Nat)

def step (config : SlottedAlohaTalConfig) (tal : SlottedAlohaTal) :
    TalEvent → Option SlottedAlohaTal
  | .burst packets => (tal.onBurst config packets).map Prod.snd
  | .ctrl ids ctrls => tal.onRcvFrame config ids ctrls
  | .schedule sfCounter draws => (tal.schedule config sfCounter draws).map Prod.snd
  | .pop key =>
      (tal.dvbFifos.lookup key).bind fun fifo =>
        if fifo.accessType = .return .saloha then none
        else fifo.pop.map fun (_, fifo) => tal.setFifo key fifo

/-- A terminal with its FIFOs. -/
def new (dvbFifos : SortedMap Nat (DvbFifo MacPacket)) : SlottedAlohaTal where
  baseId := 0
  dvbFifos := dvbFifos
  packetsWaitAck := .empty
  retransmissionPackets := []
  record := {}

/-! ### What sending a packet does -/

/-- Copies go to the frames only. -/
theorem addCopies_keeps (sent : SalohaTalPacket) (slots : List UInt16) (sending : Sending) :
    (addCopies sent slots sending).2.packetsWaitAck = sending.packetsWaitAck ∧
      (addCopies sent slots sending).2.nbrPacketsTotal = sending.nbrPacketsTotal ∧
        (addCopies sent slots sending).2.record = sending.record := by
  induction slots generalizing sending with
  | nil => exact ⟨rfl, rfl, rfl⟩
  | cons ts slots ih =>
      simp only [addCopies]
      split
      · split
        · exact ⟨rfl, rfl, rfl⟩
        · exact ih _
      · exact ih _

/-- A packet that has room in an empty frame is added. -/
theorem addCopies_added {sent : SalohaTalPacket} (fits : sent.getTotalLength ≤ freeSpace [])
    (slots : List UInt16) (sending : Sending) : (addCopies sent slots sending).1 = true := by
  induction slots generalizing sending with
  | nil => rfl
  | cons ts slots ih =>
      simp only [addCopies]
      split
      · rw [if_neg (Nat.not_lt.mpr fits)]
        exact ih _
      · exact ih _

/-- A packet that is added waits under the QoS it was sent for; one that is not added is
lost and has no room in an empty frame. -/
theorem addPacketInFrames_cases {sent : SalohaTalPacket} {qos : Nat} {sending sending' : Sending}
    {added : Bool} (h : addPacketInFrames sent qos sending = some (added, sending')) :
    (added = true ∧ sending'.record = sending.record ∧ ∃ replicas,
        replicas.length = sent.packet.replicas.length ∧
        sending'.packetsWaitAck = (sending.packetsWaitAck.insert qos []).modify qos
          (· ++ [some { sent with packet := { sent.packet with replicas := replicas } }])) ∨
      (added = false ∧ freeSpace [] < sent.getTotalLength ∧
        sending'.packetsWaitAck = sending.packetsWaitAck ∧
        sending'.record =
          { sending.record with failed := sending.record.failed ++ [sent.number] }) := by
  simp only [addPacketInFrames] at h
  split at h
  · cases h
  next enough =>
    have count : (sending.slots.take sent.getNbReplicas).length = sent.packet.replicas.length := by
      rw [List.length_take]
      exact Nat.min_eq_left (Nat.not_lt.mp enough)
    have same : SalohaTalPacket.getTotalLength { sent with
        packet := { sent.packet with replicas := sending.slots.take sent.getNbReplicas } } =
          sent.getTotalLength := by
      rw [SalohaTalPacket.getTotalLength, SalohaTalPacket.getTotalLength,
        SlottedAlohaPacketData.length, SlottedAlohaPacketData.length, count]
    obtain ⟨waiting, -, record⟩ := addCopies_keeps
      { sent with packet := { sent.packet with replicas := sending.slots.take sent.getNbReplicas } }
      (sending.slots.take sent.getNbReplicas)
      { sending with slots := sending.slots.drop sent.getNbReplicas }
    split at h
    next =>
      cases h
      refine .inl ⟨rfl, record, _, count, ?_⟩
      rw [waiting]
    next failed =>
      cases h
      refine .inr ⟨rfl, ?_, waiting, ?_⟩
      · by_contra room
        exact failed (addCopies_added (same.le.trans (Nat.not_lt.mp room)) _ _)
      · rw [record]

end SlottedAlohaTal

end OpenSand
