import OpenSand.Lib.Run
import OpenSand.Lib.SortedMap
import OpenSand.Saloha.Crdsa
import OpenSand.Saloha.Reassembly
import OpenSand.Saloha.Tal

/-!
The Slotted Aloha of a gateway (`SlottedAlohaNcc`) and the messages that drive it
(`BlockDvbNcc::Upward`, `SpotUpward::scheduleSaloha`).

Received packets are put in the slots of the category of their terminal. At the tick of
a Slotted Aloha frame each category that received some resolves its collisions,
acknowledges the packets accepted and reassembles PDUs into a burst. The burst is made
anew for each of these categories. A schedule is triggered by a start of frame, whose
handler forwards the burst and the acknowledgements, and by a frame of data, whose
handler drops both.

The record keeps what was accepted and completed, and what was handed on.
-/

namespace OpenSand

open OpenSand.Word

abbrev SalohaSlots := List (Nat × List SlottedAlohaPacketData)

/-- A category with the packets of its slots; the accepted packets are all handled
within a schedule. -/
structure TerminalCategorySaloha where
  receivedPacketsNbr : Nat
  slots : SalohaSlots

structure SalohaTerminal where
  currentCategory : Nat
  context : TerminalContextSaloha

/-- What the gateway is built from: the packet handler and the resolution of collisions of
each category (which gives the packets accepted in the order they are handled, or is not
survived). -/
structure SlottedAlohaNccConfig where
  sfPerSaframe : Nat
  handler : EncapPacketReader
  build : List UInt8 → NetPacket
  removeCollisions : Nat → SalohaSlots → Option (List SlottedAlohaPacketData)

/-- What a schedule meets: the simulated traffic added to the slots of a category, and what
reassembly leaves open at a packet. -/
structure ScheduleOracle where
  simulated : Nat → SalohaSlots → SalohaSlots
  unspecified : SlottedAlohaPacketData → Unspecified

/-- The packets accepted in a category, the PDUs completed, and what was sent. -/
structure SalohaNccRecord where
  accepted : List (Nat × SlottedAlohaPacketData) := []
  completed : List (List SlottedAlohaPacketData) := []
  handed : List NetPacket := []
  acks : List SalohaPacketCtrl := []

structure SlottedAlohaNcc where
  superFrameCounter : Nat
  categories : SortedMap Nat TerminalCategorySaloha
  terminals : SortedMap Nat SalohaTerminal
  record : SalohaNccRecord

/-- The resolution of the DSA algorithm: the packets alone in their slot, each once. -/
def dsaRemoveCollisions : List (Nat × SalohaId) → SalohaSlots → List SlottedAlohaPacketData
  | _, [] => []
  | accepted, (_, [packet]) :: slots =>
      if packet.key ∈ accepted then dsaRemoveCollisions accepted slots
      else packet :: dsaRemoveCollisions (accepted ++ [packet.key]) slots
  | accepted, _ :: slots => dsaRemoveCollisions accepted slots

namespace SlottedAlohaNcc

/-! ### Received frames -/

/-- Put a packet in its slot, in the category of its terminal. Packets of unknown terminals
and of slots that do not exist are skipped; a category that does not exist is a null pointer. -/
def receivePacket (ncc : SlottedAlohaNcc) (packet : SlottedAlohaPacketData) :
    Option SlottedAlohaNcc :=
  match ncc.terminals.lookup packet.srcTalId with
  | none => some ncc
  | some terminal =>
      (ncc.categories.lookup terminal.currentCategory).map fun category =>
        if category.slots.any fun slot => slot.1 = packet.ts.toNat then
          { ncc with categories := ncc.categories.modify terminal.currentCategory fun category =>
            { receivedPacketsNbr := addW 32 category.receivedPacketsNbr 1
              slots := category.slots.map fun slot =>
                if slot.1 = packet.ts.toNat then (slot.1, slot.2 ++ [packet]) else slot } }
        else ncc

def receivePackets (ncc : SlottedAlohaNcc) : List SlottedAlohaPacketData → Option SlottedAlohaNcc
  | [] => some ncc
  | packet :: packets => (ncc.receivePacket packet).bind fun ncc => receivePackets ncc packets

/-- A frame of data, from its bytes. -/
def onRcvFrame (config : SlottedAlohaNccConfig) (ncc : SlottedAlohaNcc) (content : Bytes.Data) :
    Option SlottedAlohaNcc :=
  (recoveredPackets config.handler content).toOption.bind ncc.receivePackets

/-! ### Acknowledgements and PDUs -/

/-- `sizeof(saloha_ctrl_hdr_t)`. -/
def salohaCtrlHdrLength : Nat := 5

/-- The frames of control packets: the complete ones and the last one. -/
structure AckFrames where
  complete : List (List SalohaPacketCtrl)
  frame : List SalohaPacketCtrl

def ackLength (ack : SalohaPacketCtrl) : Nat := salohaCtrlHdrLength + ack.id.length

/-- The room left in a frame of control packets. -/
def ackSpace (frame : List SalohaPacketCtrl) : Nat :=
  MSG_SALOHA_SIZE_MAX - salohaHeaderLength - (frame.map ackLength).sum

/-- Add an acknowledgement, in a new frame if the last one has no room for it. An
acknowledgement is far shorter than a frame. -/
def AckFrames.add (frames : AckFrames) (ack : SalohaPacketCtrl) : AckFrames :=
  if ackSpace frames.frame < ackLength ack then
    ⟨frames.complete ++ [frames.frame], [ack]⟩
  else { frames with frame := frames.frame ++ [ack] }

/-- The frames to send. -/
def AckFrames.all (frames : AckFrames) : List (List SalohaPacketCtrl) :=
  if frames.frame = [] then frames.complete else frames.complete ++ [frames.frame]

def ackOf (packet : SlottedAlohaPacketData) : SalohaPacketCtrl :=
  ⟨SALOHA_CTRL_ACK, .ofNat packet.srcTalId, packet.getUniqueId⟩

/-- The packet is of a terminal that is known in the category, and not of a simulated one. -/
def known (terminals : SortedMap Nat SalohaTerminal) (label : Nat)
    (packet : SlottedAlohaPacketData) : Bool :=
  packet.srcTalId ≤ BROADCAST_TAL_ID &&
    (terminals.lookup packet.srcTalId).any fun terminal => terminal.currentCategory = label

/-- What handling the accepted packets of a category changes. -/
structure Propagation where
  terminals : SortedMap Nat SalohaTerminal
  acks : AckFrames
  completed : List (List SlottedAlohaPacketData)

/-- Acknowledge one accepted packet and reassemble. -/
def propagatePacket (oracle : ScheduleOracle) (label : Nat) (state : Propagation)
    (packet : SlottedAlohaPacketData) : Option Propagation :=
  if BROADCAST_TAL_ID < packet.srcTalId then some state
  else
    match state.terminals.lookup packet.srcTalId with
    | none => some state
    | some terminal =>
        if terminal.currentCategory ≠ label then some state
        else
          (terminal.context.addPacket (oracle.unspecified packet) packet).map
            fun (propagate, pdu, context) =>
              { terminals := state.terminals.modify packet.srcTalId fun terminal =>
                  { terminal with context := context }
                acks := state.acks.add (ackOf packet)
                completed := match propagate with
                  | .noPropagation => state.completed
                  | .propagation => state.completed ++ [pdu] }

def propagate (oracle : ScheduleOracle) (label : Nat) :
    Propagation → List SlottedAlohaPacketData → Option Propagation
  | state, [] => some state
  | state, packet :: packets =>
      (propagatePacket oracle label state packet).bind fun state =>
        propagate oracle label state packets

/-- The packets of a PDU without their Slotted Aloha headers. -/
def removeSalohaHeader (config : SlottedAlohaNccConfig) (packet : SlottedAlohaPacketData) :
    NetPacket := config.build packet.payload

/-! ### Schedules -/

/-- What a schedule hands back: the burst, if one was made, and the frames to send. -/
structure Output where
  burst : Option (List NetPacket)
  ackFrames : List (List SalohaPacketCtrl)

/-- One category. -/
def scheduleCategory (config : SlottedAlohaNccConfig) (oracle : ScheduleOracle) (label : Nat)
    (ncc : SlottedAlohaNcc) (output : Output) : Option (SlottedAlohaNcc × Output) :=
  match ncc.categories.lookup label with
  | none => none
  | some category =>
      if category.receivedPacketsNbr = 0 then some (ncc, output)
      else
        (config.removeCollisions label (oracle.simulated label category.slots)).bind fun accepted =>
          (propagate oracle label ⟨ncc.terminals, ⟨[], []⟩, []⟩ accepted).map fun state =>
            ({ ncc with
               categories := ncc.categories.modify label fun category =>
                 ⟨0, category.slots.map fun slot => (slot.1, [])⟩
               terminals := state.terminals
               record := { ncc.record with
                 accepted := ncc.record.accepted ++ accepted.map (label, ·)
                 completed := ncc.record.completed ++ state.completed } },
             -- the former burst is not kept
             { burst := some (state.completed.flatten.map (removeSalohaHeader config))
               ackFrames := output.ackFrames ++ state.acks.all })

def scheduleCategories (config : SlottedAlohaNccConfig) (oracle : ScheduleOracle) :
    List Nat → SlottedAlohaNcc → Output → Option (SlottedAlohaNcc × Output)
  | [], ncc, output => some (ncc, output)
  | label :: labels, ncc, output =>
      (scheduleCategory config oracle label ncc output).bind fun (ncc, output) =>
        scheduleCategories config oracle labels ncc output

/-- The labels of the categories, in the order of their map. -/
def labels (ncc : SlottedAlohaNcc) : List Nat := ncc.categories.entries.map Prod.fst

def isSalohaFrameTick (config : SlottedAlohaNccConfig) (ncc : SlottedAlohaNcc) : Bool :=
  ncc.superFrameCounter % config.sfPerSaframe = 0

def schedule (config : SlottedAlohaNccConfig) (oracle : ScheduleOracle) (ncc : SlottedAlohaNcc) :
    Option (SlottedAlohaNcc × Output) :=
  if ncc.isSalohaFrameTick config then
    scheduleCategories config oracle ncc.labels ncc ⟨none, []⟩
  else some (ncc, ⟨none, []⟩)

/-! ### Messages -/

/-- The messages of Slotted Aloha at the gateway, with what the schedule they trigger
meets. -/
inductive NccMessage where
  | sof (sfNumber : Nat) (oracle : ScheduleOracle)
  | salohaData (content : Bytes.Data) (oracle : ScheduleOracle)

def NccMessage.oracle : NccMessage → ScheduleOracle
  | .sof _ oracle => oracle
  | .salohaData _ oracle => oracle

/-- The gateway when the schedule of a message comes. -/
def beforeSchedule (config : SlottedAlohaNccConfig) (ncc : SlottedAlohaNcc) :
    NccMessage → Option SlottedAlohaNcc
  | .sof sfNumber _ => some { ncc with superFrameCounter := sfNumber }
  | .salohaData content _ => ncc.onRcvFrame config content

/-- The handlers: the burst and the acknowledgements of a schedule triggered by a start of
frame are enqueued; those of a schedule triggered by data are not. -/
def step (config : SlottedAlohaNccConfig) (ncc : SlottedAlohaNcc) (message : NccMessage) :
    Option SlottedAlohaNcc :=
  (ncc.beforeSchedule config message).bind fun ncc =>
    (ncc.schedule config message.oracle).map fun (ncc, output) =>
      match message with
      | .sof _ _ => { ncc with record := { ncc.record with
          handed := ncc.record.handed ++ output.burst.getD []
          acks := ncc.record.acks ++ output.ackFrames.flatten } }
      | .salohaData _ _ => ncc

/-- A gateway before any message. -/
def new (superFrameCounter : Nat) (categories : SortedMap Nat TerminalCategorySaloha)
    (terminals : SortedMap Nat SalohaTerminal) : SlottedAlohaNcc :=
  ⟨superFrameCounter, categories, terminals, {}⟩

/-- Every completed PDU was handed to the encapsulation layer, once and in fragment order,
and every accepted packet was acknowledged. -/
structure Propagated (config : SlottedAlohaNccConfig) (ncc : SlottedAlohaNcc) : Prop where
  handed : ncc.record.handed =
    ncc.record.completed.flatten.map (removeSalohaHeader config)
  ordered : ∀ pdu ∈ ncc.record.completed, pdu.Pairwise fun a b => a.seq ≤ b.seq
  acks : ncc.record.acks = ncc.record.accepted.map fun entry => ackOf entry.2

end SlottedAlohaNcc

end OpenSand
