import OpenSand.Common.NetPacket
import OpenSand.Lan.SarpTable

/-!
The LAN adaptation block of an entity (`PacketSwitch`, `BlockLanAdaptation`).

Frames read on the local interface go down to the satellite, frames received from the
satellite go up to the local interface. Both channels learn the source MAC addresses in the
SARP table of the packet switch, with the terminal identifier of the packet. The switch of
the entity decides for a frame received whether it is written on the local interface and
whether it is handed back to be forwarded.
-/

namespace OpenSand

open Bytes (Data)

/-! ### Packet switches -/

namespace Ethernet

def getDstMac (data : Data) : MacAddress :=
  if data.length < 6 then .ofBytes fun _ => 0 else .ofBytes fun i => data.getD i 0

def getSrcMac (data : Data) : MacAddress :=
  if data.length < 12 then .ofBytes fun _ => 0 else .ofBytes fun i => data.getD (6 + i) 0

/-- The address of a frame has no generic byte. -/
theorem getSrcMac_eq_ofBytes (data : Data) : ∃ mac, getSrcMac data = .ofBytes mac := by
  unfold getSrcMac
  split
  · exact ⟨_, rfl⟩
  · exact ⟨_, rfl⟩

theorem ofStr_str_getSrcMac (data : Data) :
    MacAddress.ofStr (getSrcMac data).str = getSrcMac data := by
  obtain ⟨mac, plain⟩ := getSrcMac_eq_ofBytes data
  rw [plain, MacAddress.ofStr_str]
  rfl

end Ethernet

structure PacketSwitch where
  talId : Nat
  sarpTable : SarpTable

/-- Learn the source address of a frame. -/
def PacketSwitch.learn (switch : PacketSwitch) (packet : Data) (srcId : Nat) :
    Bool × PacketSwitch :=
  let added := switch.sarpTable.add (.ofStr (Ethernet.getSrcMac packet).str) srcId
  (added.1, { switch with sarpTable := added.2 })

theorem PacketSwitch.learn_snd {switch : PacketSwitch} {packet : Data} {srcId : Nat} :
    (switch.learn packet srcId).2 = { switch with
      sarpTable := (switch.sarpTable.add (Ethernet.getSrcMac packet) srcId).2 } := by
  simp only [PacketSwitch.learn, Ethernet.ofStr_str_getSrcMac]

/-- Whether a frame is for the entity and whether it is to be forwarded, given what the caller
assumes of the latter. -/
abbrev IsPacketForMe := PacketSwitch → Data → Bool → Bool × Bool

def TerminalPacketSwitch.isPacketForMe : IsPacketForMe := fun _ _ _ => (true, false)

def GatewayPacketSwitch.isPacketForMe : IsPacketForMe := fun switch packet forward =>
  let found := switch.sarpTable.getTalByMac (Ethernet.getDstMac packet)
  if !found.1 then (false, forward)
  else (found.2 = BROADCAST_TAL_ID ∨ found.2 = switch.talId, true)

def SatellitePacketSwitch.isPacketForMe (islEnabled : Bool) (islEntities : List Nat) :
    IsPacketForMe := fun switch packet forward =>
  if !islEnabled then (false, true)
  else
    let found := switch.sarpTable.getTalByMac (Ethernet.getDstMac packet)
    if !found.1 then (false, forward)
    else (found.2 = BROADCAST_TAL_ID ∨ found.2 ∈ islEntities,
      found.2 = BROADCAST_TAL_ID ∨ found.2 ∉ islEntities)

/-! ### Frames received from the satellite -/

/-- The LAN contexts of the block. -/
structure LanContexts where
  deencapsulate : List NetPacket → Option (List NetPacket)
  encapsulate : List NetPacket → Option (List NetPacket)
  getLanHeader : Nat → NetPacket → UInt8

def TUNTAP_FLAGS_LEN : Nat := 4

/-- The upward channel. The frames given to the local interface are kept, whether or not it
took them, and so is the burst handed back. -/
structure Upward where
  talId : Nat
  packetSwitch : PacketSwitch
  delay : Nat
  delayFifo : List (Nat × Data)
  maxSizePkt : Nat
  success : Bool
  written : List Data
  forwardBurst : List NetPacket

/-- A frame received, and whether a write of it on the local interface would succeed. -/
structure Received where
  packet : NetPacket
  writable : Bool

/-- A network packet made of raw data has default fields. -/
def NetPacket.ofData (data : Data) : NetPacket where
  data := data
  qos := 0
  srcTalId := 0
  dstTalId := 0

namespace Upward

variable (lan : LanContexts) (isPacketForMe : IsPacketForMe) (currentTime : Nat)

/-- Learn the source address of a frame that the entity did not send itself. -/
def learned (upward : Upward) (packet : NetPacket) : PacketSwitch :=
  (upward.packetSwitch.learn packet.data packet.srcTalId).2

/-- The local interface takes a frame: at once, or in the delay FIFO. -/
def takes (upward : Upward) (writable : Bool) : Bool :=
  if upward.delay = 0 then writable else upward.delayFifo.length < upward.maxSizePkt

/-- Write a frame on the local interface, or delay it. -/
def writeOrDelay (upward : Upward) (packet : Data) : Upward :=
  let upward := { upward with written := upward.written ++ [packet] }
  if upward.delay = 0 then upward
  else if upward.delayFifo.length < upward.maxSizePkt then
    { upward with delayFifo := upward.delayFifo ++ [(currentTime + upward.delay, packet)] }
  else upward

/-- The frame with its TAP header. -/
def withLanHeader (packet : NetPacket) : Data :=
  (List.range TUNTAP_FLAGS_LEN).map (lan.getLanHeader · packet) ++ packet.data

/-- Treat a frame of a burst. -/
def treat (upward : Upward) (received : Received) : Upward :=
  let packet := received.packet
  if packet.srcTalId = upward.talId then upward
  else
    let upward := { upward with packetSwitch := upward.learned packet }
    let (forMe, forward) := isPacketForMe upward.packetSwitch packet.data false
    if forMe && !upward.takes received.writable then
      -- the frame is left in the burst, and is not forwarded either
      { upward.writeOrDelay currentTime (withLanHeader lan packet) with
        success := false }
    else
      let upward := if forMe then
          upward.writeOrDelay currentTime (withLanHeader lan packet)
        else upward
      if forward then { upward with forwardBurst := upward.forwardBurst ++ [packet] } else upward

def step (upward : Upward) (received : Received) : Option Upward :=
  some (upward.treat lan isPacketForMe currentTime received)

/-- No frame of a burst is treated yet. -/
def start (upward : Upward) : Upward := { upward with success := true, forwardBurst := [] }

/-- The frames of a burst and the outcomes of their writes. -/
def receivedBurst (frames : List NetPacket) (writable : Nat → Bool) : List Received :=
  frames.zipIdx.map fun (packet, i) => ⟨packet, writable i⟩

/-- Receive a burst: its frames are treated in order, and those to forward are given to the
opposite channel. -/
def onMsgFromDown (upward : Upward) (burst : List NetPacket) (writable : Nat → Bool)
    (shareMessage : Bool) : Bool × Upward :=
  match lan.deencapsulate burst with
  | none => (false, upward)
  | some frames =>
      let upward := (receivedBurst frames writable).foldl (treat lan isPacketForMe currentTime)
        upward.start
      if upward.forwardBurst = [] then (upward.success, upward)
      else
        match lan.encapsulate upward.forwardBurst with
        | none => (false, upward)
        | some _ => (upward.success && shareMessage, upward)

variable {lan isPacketForMe currentTime} {upward : Upward} {received : Received}

/-! ### What treating a frame does -/

/-- What the switch of the entity decides for a frame, once its source is learned. -/
def verdict (isPacketForMe : IsPacketForMe) (upward : Upward) (packet : NetPacket) :
    Bool × Bool :=
  isPacketForMe (upward.learned packet) packet.data false

/-- Writing a frame, or delaying it, changes the frames written and the delay FIFO only. -/
theorem writeOrDelay_eq (currentTime : Nat) (upward : Upward) (packet : Data) :
    ∃ fifo, upward.writeOrDelay currentTime packet = { upward with
      written := upward.written ++ [packet], delayFifo := fifo } := by
  unfold writeOrDelay
  dsimp only
  split
  · exact ⟨_, rfl⟩
  · split
    · exact ⟨_, rfl⟩
    · exact ⟨_, rfl⟩

theorem treat_own (own : received.packet.srcTalId = upward.talId) :
    upward.treat lan isPacketForMe currentTime received = upward := by
  unfold treat
  exact if_pos own

/-- A frame of another entity is learned, written when it is for this one, and forwarded when
it is to be, unless the write fails. -/
theorem treat_other (lan : LanContexts) (isPacketForMe : IsPacketForMe) (currentTime : Nat)
    (other : received.packet.srcTalId ≠ upward.talId) :
    ∃ fifo success, upward.treat lan isPacketForMe currentTime received = { upward with
      packetSwitch := upward.learned received.packet
      delayFifo := fifo
      success := success
      written := upward.written ++
        if (upward.verdict isPacketForMe received.packet).1 then
          [withLanHeader lan received.packet] else []
      forwardBurst := upward.forwardBurst ++
        if (upward.verdict isPacketForMe received.packet).2 ∧
            ((upward.verdict isPacketForMe received.packet).1 → upward.takes received.writable) then
          [received.packet] else [] } := by
  obtain ⟨fifo, written⟩ := writeOrDelay_eq currentTime
    { upward with packetSwitch := upward.learned received.packet }
    (withLanHeader lan received.packet)
  have takes : takes { upward with packetSwitch := upward.learned received.packet }
      received.writable = upward.takes received.writable := rfl
  unfold treat
  simp only [if_neg other, takes]
  rw [written]
  unfold verdict
  cases isPacketForMe (upward.learned received.packet) received.packet.data false with
  | mk forMe forward =>
      cases forMe with
      | false =>
          refine ⟨upward.delayFifo, upward.success, ?_⟩
          cases forward with
          | false => simp
          | true => simp
      | true =>
          cases taken : upward.takes received.writable with
          | false => exact ⟨fifo, false, by simp⟩
          | true =>
              refine ⟨fifo, upward.success, ?_⟩
              cases forward with
              | false => simp
              | true => simp

end Upward

/-! ### Frames read on the local interface -/

/-- A frame read on the local interface, behind its TAP header: its source address is learned
and it is given to the contexts, then to the lower layer. -/
def Downward.onMsgFromUp (lan : LanContexts) (packetSwitch : PacketSwitch) (readData : Data)
    (enqueueMessage : Bool) : Bool × PacketSwitch :=
  let packet := NetPacket.ofData (readData.drop TUNTAP_FLAGS_LEN)
  let packetSwitch := (packetSwitch.learn packet.data packet.srcTalId).2
  match lan.encapsulate [packet] with
  | none => (false, packetSwitch)
  | some _ => (enqueueMessage, packetSwitch)

/-- The table after a frame read on the local interface. -/
theorem Downward.onMsgFromUp_snd {lan : LanContexts} {packetSwitch : PacketSwitch}
    {readData : Data} {enqueueMessage : Bool} :
    (onMsgFromUp lan packetSwitch readData enqueueMessage).2 = { packetSwitch with
      sarpTable := (packetSwitch.sarpTable.add
        (Ethernet.getSrcMac (readData.drop TUNTAP_FLAGS_LEN)) 0).2 } := by
  unfold onMsgFromUp
  dsimp only
  rw [PacketSwitch.learn_snd]
  split
  · rfl
  · rfl

end OpenSand
