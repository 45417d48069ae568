import OpenSand.Lan.EthernetFrame
import Mathlib.Tactic.ByContra

/-!
The LAN adaptation of Ethernet frames (`Ethernet::Context`), without an upper protocol.

A frame read on the LAN goes to the satellite under the frame type of the satellite, and comes
back under the one of the LAN. Tags that are missing come from the virtual connection (EVC) of
the flow. `preserves_iff` says when the frame comes back with its addresses, its payload and
its metadata. The destination of a frame that comes back is never set: it is whatever the
variable held.
-/

namespace OpenSand

open Bytes (Data substr)

namespace Ethernet

/-! ### Virtual connections -/

structure Evc where
  macSrc : MacAddress
  macDst : MacAddress
  qTci : UInt16
  adTci : UInt16
  etherType : UInt16

/-- The virtual connection matches a flow; the tags that a frame type does not have do not
count. -/
def Evc.Matches (evc : Evc) (frameType : FrameType) (srcMac dstMac : MacAddress)
    (qTci adTci etherType : UInt16) : Prop :=
  evc.macSrc.Matches srcMac ∧ evc.macDst.Matches dstMac ∧
    (frameType ≠ .eth → evc.qTci = qTci) ∧ (frameType = .ieee8021AD → evc.adTci = adTci) ∧
    evc.etherType = etherType

instance (evc : Evc) (frameType : FrameType) (srcMac dstMac : MacAddress)
    (qTci adTci etherType : UInt16) :
    Decidable (evc.Matches frameType srcMac dstMac qTci adTci etherType) :=
  inferInstanceAs (Decidable (_ ∧ _ ∧ (_ → _) ∧ (_ → _) ∧ _))

/-! ### Contexts -/

/-- The destination of a frame: whether it is known, its source and its destination. -/
abbrev GetPacketDestination := PacketSwitch → Data → Bool × Nat × Nat

def TerminalPacketSwitch.getPacketDestination (gwId : Nat) : GetPacketDestination :=
  fun switch packet =>
    let found := switch.sarpTable.getTalByMac (getDstMac packet)
    (true, switch.talId, if found.1 then found.2 else gwId)

def GatewayPacketSwitch.getPacketDestination : GetPacketDestination := fun switch packet =>
  let found := switch.sarpTable.getTalByMac (getDstMac packet)
  (found.1, switch.talId, found.2)

/-- The source is not looked for when the destination is not known. -/
def SatellitePacketSwitch.getPacketDestination : GetPacketDestination := fun switch packet =>
  let found := switch.sarpTable.getTalByMac (getDstMac packet)
  if !found.1 then (false, 255, found.2)
  else
    let foundSrc := switch.sarpTable.getTalByMac (getSrcMac packet)
    (foundSrc.1, foundSrc.2, found.2)

/-- `categoryMap` gives the queue of a PCP, `evcMap` the virtual connections in the order of
their identifiers. -/
structure Context where
  packetSwitch : PacketSwitch
  getPacketDestination : GetPacketDestination
  lanFrameType : FrameType
  satFrameType : FrameType
  evcMap : List Evc
  categoryMap : Nat → Option Nat
  defaultCategory : Nat

namespace Context

variable (context : Context)

def getEvc (frameType : FrameType) (srcMac dstMac : MacAddress)
    (qTci adTci etherType : UInt16) : Option Evc :=
  context.evcMap.find? fun evc => evc.Matches frameType srcMac dstMac qTci adTci etherType

/-- Build a packet; the type of its frame is read, and its fields are on eight bits. -/
def createPacket (data : Data) (qos srcTalId dstTalId : Nat) : Except Fault NetPacket := do
  let _ ← getFrameType data
  return ⟨data, qos % 256, srcTalId % 256, dstTalId % 256⟩

/-- The header of a frame type; two tags have 0x8100 in front of both. -/
def header (frameType : FrameType) (srcMac dstMac : MacAddress)
    (etherType qTci adTci : UInt16) : Data :=
  List.ofFn dstMac.mac ++ List.ofFn srcMac.mac ++
    (match frameType with
      | .eth => word etherType
      | .ieee8021Q => word IEEE_802_1Q ++ word qTci ++ word etherType
      | .ieee8021AD => word IEEE_802_1Q ++ word adTci ++ word IEEE_802_1Q ++ word qTci ++
          word etherType)

def createEthFrameData (data : Data) (srcMac dstMac : MacAddress)
    (etherType qTci adTci : UInt16) (qos srcTalId dstTalId : Nat)
    (desiredFrameType : FrameType) : Except Fault NetPacket :=
  createPacket (header desiredFrameType srcMac dstMac etherType qTci adTci ++ data) qos
    srcTalId dstTalId

/-- The queue of a frame. A PCP without category is dereferenced all the same, for a log. -/
def qosOf (frameType : FrameType) (pcp : Nat) : Except Fault Nat :=
  if frameType ≠ .eth then (context.categoryMap pcp).elim (.error .outside) .ok
  else .ok context.defaultCategory

/-- The PCP of a virtual connection, compared instead of shifted. -/
def pcpOfEvc (evc : Evc) : Nat := if evc.qTci &&& 0xe000 > 13 then 1 else 0

/-- The frame for the satellite, with what the virtual connection gives if its type changes. -/
def toSatellite (data : Data) (frameType : FrameType) (evc : Option Evc) (srcMac dstMac : MacAddress)
    (etherType qTci adTci : UInt16) (qos src dst : Nat) : Except Fault NetPacket :=
  if frameType ≠ context.satFrameType then do
    let (qTci, adTci, qos) := match evc with
      | some evc => (evc.qTci, evc.adTci,
          (context.categoryMap (pcpOfEvc evc)).getD context.defaultCategory)
      | none => (qTci, adTci, qos)
    let payload ← substr (headSize frameType) data.length data
    createEthFrameData payload srcMac dstMac etherType qTci adTci qos src dst context.satFrameType
  else createPacket data qos src dst

/-- A frame of the LAN goes to the satellite, or is dropped. -/
def encapsulatePacket (packet : NetPacket) : Except Fault (Option NetPacket) := do
  let etherType ← getPayloadEtherType packet.data
  let frameType ← getFrameType packet.data
  let srcMac := getSrcMac packet.data
  let dstMac := getDstMac packet.data
  let qTci ← getQTci packet.data
  let adTci ← getAdTci packet.data
  let pcp := ((qTci &&& 0xe000) >>> 13).toNat
  let (found, src, dst) := context.getPacketDestination context.packetSwitch packet.data
  if !found ∧ BROADCAST_TAL_ID < dst then return none
  match frameType with
  | none => return none
  | some frameType =>
      let evc := context.getEvc frameType srcMac dstMac qTci adTci etherType
      let qos ← context.qosOf frameType pcp
      let ethFrame ← context.toSatellite packet.data frameType evc srcMac dstMac etherType qTci
        adTci qos src dst
      return some ethFrame

/-- A frame of the satellite comes back to the LAN. Nothing sets the destination `dst`. -/
def deencapsulatePacket (dst : Nat) (packet : NetPacket) : Except Fault (Option NetPacket) := do
  let dstMac := getDstMac packet.data
  let srcMac := getSrcMac packet.data
  let qTci ← getQTci packet.data
  let adTci ← getAdTci packet.data
  let etherType ← getPayloadEtherType packet.data
  let frameType ← getFrameType packet.data
  match frameType with
  | none => return none
  | some frameType =>
      let evc := context.getEvc frameType srcMac dstMac qTci adTci etherType
      if frameType ≠ context.lanFrameType then
        let (qTci, adTci) := match evc with
          | some evc => (evc.qTci, evc.adTci)
          | none => (qTci, adTci)
        let payload ← substr (headSize frameType) packet.data.length packet.data
        let deencPacket ← createEthFrameData payload srcMac dstMac etherType qTci adTci packet.qos
          packet.srcTalId dst context.lanFrameType
        return some deencPacket
      else
        let deencPacket ← createPacket packet.data packet.qos packet.srcTalId dst
        return some deencPacket

/-- No burst is returned instead of an empty one. -/
def encapsulate (burst : List NetPacket) : Except Fault (Option (List NetPacket)) := do
  let ethFrames ← burst.mapM context.encapsulatePacket
  return if ethFrames.reduceOption = [] then none else some ethFrames.reduceOption

/-- Each packet of the burst with what `dst` holds when it is treated. -/
def deencapsulate (burst : List (NetPacket × Nat)) : Except Fault (Option (List NetPacket)) :=
  if burst = [] then .ok none
  else do
    let netPackets ← burst.mapM fun (packet, dst) => context.deencapsulatePacket dst packet
    return some netPackets.reduceOption

/-! ### Frames that come back -/

/-- The satellite frame `sat` came back as `lan`. -/
structure Restores (sender receiver : Context) (frame : Frame) (sat lan : NetPacket) : Prop where
  content : ∃ frame' : Frame, lan.data = frame'.bytes ∧ frame'.dst = frame.dst ∧
    frame'.src = frame.src ∧ frame'.etherType = frame.etherType ∧ frame'.payload = frame.payload
  qos : lan.qos = sat.qos
  srcTalId : lan.srcTalId = sat.srcTalId
  dstTalId : lan.dstTalId = sat.dstTalId
  same : sender.satFrameType = frame.frameType → receiver.lanFrameType = frame.frameType →
    lan.data = frame.bytes

/-- A frame of the LAN does no harm, and comes back if it is sent; `dst` is what the variable
holds at the receiver. -/
def Preserves (sender receiver : Context) (frame : Frame) (dst : Nat) : Prop :=
  ∃ sent, sender.encapsulate [.ofData frame.bytes] = .ok sent ∧
    ∀ burst, sent = some burst → ∃ sat lan, burst = [sat] ∧
      receiver.deencapsulate [(sat, dst)] = .ok (some [lan]) ∧
      Restores sender receiver frame sat lan

/-- The frame is not dropped. -/
def Sends (sender : Context) (frame : Frame) : Prop :=
  (sender.getPacketDestination sender.packetSwitch frame.bytes).1 = true ∨
    (sender.getPacketDestination sender.packetSwitch frame.bytes).2.2 ≤ BROADCAST_TAL_ID

instance (sender : Context) (frame : Frame) : Decidable (sender.Sends frame) :=
  inferInstanceAs (Decidable (_ ∨ _))

def pcp (frame : Frame) : Nat := ((frame.tags.qTci &&& 0xe000) >>> 13).toNat

/-- Where a frame is plain it has four bytes of payload, the PCP of a tagged frame that is sent
has a category, and the variable holds the destination. -/
structure Clear (sender receiver : Context) (frame : Frame) (dst : Nat) : Prop where
  lanLong : frame.frameType = .eth → 4 ≤ frame.payload.length
  category : sender.Sends frame → frame.frameType ≠ .eth →
    (sender.categoryMap (pcp frame)).isSome
  satLong : sender.Sends frame → sender.satFrameType = .eth ∨ receiver.lanFrameType = .eth →
    4 ≤ frame.payload.length
  held : sender.Sends frame → dst % 256 =
    (sender.getPacketDestination sender.packetSwitch frame.bytes).2.2 % 256

/-! ### Frames under another type -/

def tagsOf (qTci adTci : UInt16) : FrameType → Tags
  | .eth => .none
  | .ieee8021Q => .q qTci
  | .ieee8021AD => .doubleQ adTci qTci

def evcOf (frame : Frame) : Option Evc :=
  context.getEvc frame.frameType (.ofBytes frame.src) (.ofBytes frame.dst) frame.tags.qTci
    frame.tags.adTci frame.etherType

/-- The frame under a type: the same if it has the type, else with tags of the virtual
connection or with its own. -/
def converted (frameType : FrameType) (frame : Frame) : Frame :=
  if frame.frameType ≠ frameType then
    { frame with tags := match context.evcOf frame with
        | some evc => tagsOf evc.qTci evc.adTci frameType
        | none => tagsOf frame.tags.qTci frame.tags.adTci frameType }
  else frame

variable {context} {frame : Frame} {frameType : FrameType}

theorem tagsOf_frameType (qTci adTci : UInt16) (frameType : FrameType) :
    (tagsOf qTci adTci frameType).frameType = frameType := by
  cases frameType <;> rfl

theorem converted_frameType : (context.converted frameType frame).frameType = frameType := by
  rw [converted]
  split
  · rw [Frame.frameType]
    dsimp only
    split <;> exact tagsOf_frameType _ _ _
  case isFalse same => exact not_not.mp same

theorem converted_content :
    (context.converted frameType frame).dst = frame.dst ∧
      (context.converted frameType frame).src = frame.src ∧
      (context.converted frameType frame).etherType = frame.etherType ∧
      (context.converted frameType frame).payload = frame.payload := by
  rw [converted]
  split <;> exact ⟨rfl, rfl, rfl, rfl⟩

theorem header_append (qTci adTci : UInt16) (frameType : FrameType) (frame : Frame) :
    header frameType (.ofBytes frame.src) (.ofBytes frame.dst) frame.etherType qTci adTci ++
        frame.payload =
      ({ frame with tags := tagsOf qTci adTci frameType } : Frame).bytes := by
  cases frameType <;>
    simp [header, Frame.bytes, Frame.addresses, tagsOf, Tags.bytes, MacAddress.ofBytes]

theorem substr_headSize (frame : Frame) :
    substr (headSize frame.frameType) frame.bytes.length frame.bytes = .ok frame.payload := by
  have total := frame.bytes_length
  rw [substr, if_pos (by omega), drop_headSize, List.take_of_length_le (by omega)]

/-- What a frame becomes is built without fault when it has eighteen bytes. -/
theorem createPacket_bytes (qos srcTalId dstTalId : Nat) (frame : Frame) :
    createPacket frame.bytes qos srcTalId dstTalId =
      if 18 ≤ frame.bytes.length then .ok ⟨frame.bytes, qos % 256, srcTalId % 256, dstTalId % 256⟩
      else .error .outOfRange := by
  rw [createPacket]
  split
  case isTrue long =>
    rw [(read_frame long).frameType]
    rfl
  case isFalse short =>
    rw [getFrameType_short (head_le_bytes frame) (by omega)]
    rfl

theorem createEthFrameData_converted (qos srcTalId dstTalId : Nat) (qTci adTci : UInt16) :
    createEthFrameData frame.payload (.ofBytes frame.src) (.ofBytes frame.dst) frame.etherType qTci
        adTci qos srcTalId dstTalId frameType =
      createPacket ({ frame with tags := tagsOf qTci adTci frameType } : Frame).bytes qos srcTalId
        dstTalId := by
  rw [createEthFrameData, header_append]

/-- A frame of eighteen bytes or more comes back under the frame type of the LAN. -/
theorem deencapsulatePacket_frame (long : 18 ≤ frame.bytes.length) (dst : Nat)
    {packet : NetPacket} (data : packet.data = frame.bytes) :
    context.deencapsulatePacket dst packet =
      (createPacket (context.converted context.lanFrameType frame).bytes packet.qos packet.srcTalId
        dst).map some := by
  obtain ⟨type, etherType, qTci, adTci⟩ := read_frame long
  rw [deencapsulatePacket, data, getDstMac_bytes, getSrcMac_bytes, type, etherType, qTci, adTci]
  simp only [bind, Except.bind, pure, Except.pure]
  by_cases apart : frame.frameType ≠ context.lanFrameType
  · rw [if_pos apart, substr_headSize, converted, if_pos apart, evcOf]
    dsimp only
    cases context.getEvc frame.frameType (.ofBytes frame.src) (.ofBytes frame.dst) frame.tags.qTci
      frame.tags.adTci frame.etherType with
    | none =>
        dsimp only
        rw [createEthFrameData_converted]
        rfl
    | some evc =>
        dsimp only
        rw [createEthFrameData_converted]
        rfl
  · rw [if_neg apart, converted, if_neg apart]
    rfl

/-- A shorter frame ends the program. -/
theorem encapsulatePacket_short (short : frame.bytes.length < 18) :
    context.encapsulatePacket (.ofData frame.bytes) = .error .outOfRange := by
  have plain : frame.tags = .none := by
    have total := frame.bytes_length
    rw [Frame.frameType] at total
    cases tags : frame.tags <;> simp_all [Tags.frameType, headSize] <;> omega
  obtain ⟨notQ, notAd⟩ := frame.not_tag
  have head := head_le_bytes frame
  have etherType : getPayloadEtherType frame.bytes = .ok frame.etherType := by
    rw [getPayloadEtherType, if_neg (by omega), wordAt_plain plain]
    simp [bind, Except.bind, pure, Except.pure, notQ, notAd]
  rw [encapsulatePacket, NetPacket.ofData, etherType, getFrameType_short head short]
  rfl

theorem toSatellite_frame (frame : Frame) (qos src dst : Nat) :
    ∃ qos', context.toSatellite frame.bytes frame.frameType (context.evcOf frame)
        (.ofBytes frame.src) (.ofBytes frame.dst) frame.etherType frame.tags.qTci frame.tags.adTci
        qos src dst =
      createPacket (context.converted context.satFrameType frame).bytes qos' src dst := by
  unfold toSatellite converted
  by_cases apart : frame.frameType ≠ context.satFrameType
  · rw [if_pos apart, if_pos apart, substr_headSize]
    cases context.evcOf frame with
    | none => exact ⟨qos, createEthFrameData_converted ..⟩
    | some evc => exact ⟨_, createEthFrameData_converted ..⟩
  · rw [if_neg apart, if_neg apart]
    exact ⟨qos, rfl⟩

theorem encapsulatePacket_dropped (long : 18 ≤ frame.bytes.length)
    (dropped : ¬ context.Sends frame) :
    context.encapsulatePacket (.ofData frame.bytes) = .ok none := by
  obtain ⟨type, etherType, qTci, adTci⟩ := read_frame long
  obtain ⟨unknown, large⟩ := not_or.mp dropped
  rw [encapsulatePacket, NetPacket.ofData, type, etherType, qTci, adTci]
  simp only [bind, Except.bind, pure, Except.pure]
  exact if_pos ⟨by simpa using unknown, Nat.lt_of_not_le large⟩

/-- What becomes of a frame that is not dropped. -/
theorem encapsulatePacket_sent (long : 18 ≤ frame.bytes.length) (sends : context.Sends frame) :
    context.encapsulatePacket (.ofData frame.bytes) =
      (context.qosOf frame.frameType (pcp frame)).bind fun qos =>
        (context.toSatellite frame.bytes frame.frameType (context.evcOf frame) (.ofBytes frame.src)
          (.ofBytes frame.dst) frame.etherType frame.tags.qTci frame.tags.adTci qos
          (context.getPacketDestination context.packetSwitch frame.bytes).2.1
          (context.getPacketDestination context.packetSwitch frame.bytes).2.2).map some := by
  obtain ⟨type, etherType, qTci, adTci⟩ := read_frame long
  have kept : ¬ ((!(context.getPacketDestination context.packetSwitch frame.bytes).1) = true ∧
      BROADCAST_TAL_ID < (context.getPacketDestination context.packetSwitch frame.bytes).2.2) := by
    rcases sends with known | small
    · simp [known]
    · exact fun dropped => absurd dropped.2 (Nat.not_lt.mpr small)
  rw [encapsulatePacket, NetPacket.ofData, getDstMac_bytes, getSrcMac_bytes, type, etherType, qTci,
    adTci]
  simp only [bind, Except.bind, pure, Except.pure]
  rw [if_neg kept]
  rw [show ((frame.tags.qTci &&& 0xe000) >>> 13).toNat = pcp frame from rfl]
  cases context.qosOf frame.frameType (pcp frame) with
  | error fault => rfl
  | ok qos =>
      dsimp only
      rfl

/-! ### Single frames -/

theorem encapsulate_singleton (packet : NetPacket) :
    context.encapsulate [packet] =
      (context.encapsulatePacket packet).map (Option.map fun ethFrame => [ethFrame]) := by
  rw [encapsulate, List.mapM_cons, List.mapM_nil]
  cases context.encapsulatePacket packet with
  | error fault => rfl
  | ok ethFrame => cases ethFrame <;> rfl

theorem deencapsulate_singleton (packet : NetPacket) (dst : Nat) :
    context.deencapsulate [(packet, dst)] =
      (context.deencapsulatePacket dst packet).map fun lan => some lan.toList := by
  rw [deencapsulate, if_neg (List.cons_ne_nil _ _), List.mapM_cons, List.mapM_nil]
  dsimp only
  cases context.deencapsulatePacket dst packet with
  | error fault => rfl
  | ok lan => cases lan <;> rfl

/-- Eighteen bytes are there except where a plain frame has less than four bytes of payload. -/
theorem long_iff : 18 ≤ frame.bytes.length ↔ (frame.frameType = .eth → 4 ≤ frame.payload.length) := by
  rw [frame.bytes_length]
  cases frame.frameType <;> simp [headSize] <;> omega

theorem long_converted_iff : 18 ≤ (context.converted frameType frame).bytes.length ↔
    (frameType = .eth → 4 ≤ frame.payload.length) := by
  rw [long_iff, converted_frameType, converted_content.2.2.2]

/-- A frame that is sent, as the satellite carries it. -/
theorem encapsulate_frame (long : 18 ≤ frame.bytes.length) (sends : context.Sends frame)
    (category : frame.frameType ≠ .eth → (context.categoryMap (pcp frame)).isSome) :
    ∃ qos, context.encapsulate [.ofData frame.bytes] =
      if 18 ≤ (context.converted context.satFrameType frame).bytes.length then
        .ok (some [⟨(context.converted context.satFrameType frame).bytes, qos % 256,
          (context.getPacketDestination context.packetSwitch frame.bytes).2.1 % 256,
          (context.getPacketDestination context.packetSwitch frame.bytes).2.2 % 256⟩])
      else .error .outOfRange := by
  obtain ⟨first, found⟩ : ∃ first, context.qosOf frame.frameType (pcp frame) = .ok first := by
    rw [qosOf]
    by_cases tagged : frame.frameType ≠ .eth
    · obtain ⟨queue, found⟩ := Option.isSome_iff_exists.mp (category tagged)
      rw [if_pos tagged, found]
      exact ⟨queue, rfl⟩
    · rw [if_neg tagged]
      exact ⟨_, rfl⟩
  obtain ⟨qos, carried⟩ := toSatellite_frame frame first
    (context.getPacketDestination context.packetSwitch frame.bytes).2.1
    (context.getPacketDestination context.packetSwitch frame.bytes).2.2
  refine ⟨qos, ?_⟩
  rw [encapsulate_singleton, encapsulatePacket_sent long sends, found]
  dsimp only [Except.bind]
  rw [carried, createPacket_bytes]
  split <;> rfl

/-- A frame of the satellite, as it comes back. -/
theorem deencapsulate_frame (long : 18 ≤ frame.bytes.length) (dst qos srcTalId dstTalId : Nat) :
    context.deencapsulate [(⟨frame.bytes, qos, srcTalId, dstTalId⟩, dst)] =
      if 18 ≤ (context.converted context.lanFrameType frame).bytes.length then
        .ok (some [⟨(context.converted context.lanFrameType frame).bytes, qos % 256, srcTalId % 256,
          dst % 256⟩])
      else .error .outOfRange := by
  rw [deencapsulate_singleton, deencapsulatePacket_frame long dst rfl, createPacket_bytes]
  split <;> rfl

/-! ### Main result -/

variable {sender receiver : Context} {dst : Nat}

/-- What is sent of a frame comes back as it was exactly when it is long enough under both types
and the variable holds its destination. -/
theorem comesBack_iff (long : 18 ≤ frame.bytes.length) (sends : sender.Sends frame)
    (category : frame.frameType ≠ .eth → (sender.categoryMap (pcp frame)).isSome) :
    Preserves sender receiver frame dst ↔
      (sender.satFrameType = .eth → 4 ≤ frame.payload.length) ∧
        (receiver.lanFrameType = .eth → 4 ≤ frame.payload.length) ∧
        dst % 256 = (sender.getPacketDestination sender.packetSwitch frame.bytes).2.2 % 256 := by
  obtain ⟨qos, encapsulated⟩ := encapsulate_frame long sends category
  let satFrame := sender.converted sender.satFrameType frame
  let lanFrame := receiver.converted receiver.lanFrameType satFrame
  have satLong : 18 ≤ satFrame.bytes.length ↔
      (sender.satFrameType = .eth → 4 ≤ frame.payload.length) := long_converted_iff
  have lanLong : 18 ≤ lanFrame.bytes.length ↔
      (receiver.lanFrameType = .eth → 4 ≤ frame.payload.length) := by
    rw [long_converted_iff, converted_content.2.2.2]
  rw [← satLong, ← lanLong]
  constructor
  · rintro ⟨sent, result, comesBack⟩
    rw [encapsulated] at result
    by_cases satFits : 18 ≤ satFrame.bytes.length
    · rw [if_pos satFits] at result
      cases result
      obtain ⟨sat, lan, eq, deencapsulated, restores⟩ := comesBack _ rfl
      cases eq
      rw [deencapsulate_frame satFits] at deencapsulated
      by_cases lanFits : 18 ≤ lanFrame.bytes.length
      · rw [if_pos lanFits] at deencapsulated
        cases deencapsulated
        exact ⟨satFits, lanFits, restores.dstTalId⟩
      · rw [if_neg lanFits] at deencapsulated
        cases deencapsulated
    · rw [if_neg satFits] at result
      cases result
  · rintro ⟨satFits, lanFits, held⟩
    rw [if_pos satFits] at encapsulated
    refine ⟨_, encapsulated, ?_⟩
    rintro burst ⟨⟩
    refine ⟨_, _, rfl, (deencapsulate_frame satFits ..).trans (if_pos lanFits), ?_⟩
    constructor
    · obtain ⟨dstSat, srcSat, etherTypeSat, payloadSat⟩ :=
        @converted_content sender frame sender.satFrameType
      obtain ⟨dstLan, srcLan, etherTypeLan, payloadLan⟩ :=
        @converted_content receiver satFrame receiver.lanFrameType
      exact ⟨lanFrame, rfl, dstLan.trans dstSat, srcLan.trans srcSat,
        etherTypeLan.trans etherTypeSat, payloadLan.trans payloadSat⟩
    · exact Nat.mod_mod _ _
    · exact Nat.mod_mod _ _
    · exact held
    · intro satSame lanSame
      have satFrame_eq : satFrame = frame := if_neg (not_not.mpr satSame.symm)
      have lanFrame_eq : lanFrame = satFrame :=
        if_neg (not_not.mpr (by rw [satFrame_eq, lanSame]))
      exact congrArg Frame.bytes (lanFrame_eq.trans satFrame_eq)

theorem category_of_preserves (long : 18 ≤ frame.bytes.length) (sends : sender.Sends frame)
    (preserves : Preserves sender receiver frame dst) (tagged : frame.frameType ≠ .eth) :
    (sender.categoryMap (pcp frame)).isSome := by
  obtain ⟨sent, encapsulated, -⟩ := preserves
  rw [Option.isSome_iff_ne_none]
  intro absent
  rw [encapsulate_singleton, encapsulatePacket_sent long sends, qosOf, if_pos tagged, absent]
    at encapsulated
  cases encapsulated

theorem preserves_iff (sender receiver : Context) (frame : Frame) (dst : Nat) :
    Preserves sender receiver frame dst ↔ Clear sender receiver frame dst := by
  by_cases long : 18 ≤ frame.bytes.length
  · by_cases sends : sender.Sends frame
    · constructor
      · intro preserves
        have category := category_of_preserves long sends preserves
        obtain ⟨satLong, lanLong, held⟩ := (comesBack_iff long sends category).mp preserves
        exact ⟨long_iff.mp long, fun _ => category, fun _ types => types.elim satLong lanLong,
          fun _ => held⟩
      · intro clear
        refine (comesBack_iff long sends (clear.category sends)).mpr ⟨?_, ?_, clear.held sends⟩
        · exact fun plain => clear.satLong sends (.inl plain)
        · exact fun plain => clear.satLong sends (.inr plain)
    · refine iff_of_true ⟨none, ?_, ?_⟩ ⟨long_iff.mp long, ?_, ?_, ?_⟩
      · rw [encapsulate_singleton, encapsulatePacket_dropped long sends]
        rfl
      · exact fun _ sent => nomatch sent
      all_goals exact fun sent => absurd sent sends
  · refine iff_of_false ?_ fun clear => long (long_iff.mpr clear.lanLong)
    rintro ⟨sent, encapsulated, -⟩
    rw [encapsulate_singleton, encapsulatePacket_short (Nat.lt_of_not_le long)] at encapsulated
    cases encapsulated

/-- A terminal whose frames all go to the gateway 0. -/
def terminal : Context where
  packetSwitch := ⟨1, ⟨10, [], 0⟩⟩
  getPacketDestination := TerminalPacketSwitch.getPacketDestination 0
  lanFrameType := .eth
  satFrameType := .eth
  evcMap := []
  categoryMap _ := none
  defaultCategory := 0

/-- A plain frame between terminals comes back with the destination that the variable held. -/
theorem destination_not_set :
    ¬ ∀ (sender receiver : Context) (frame : Frame) (dst : Nat),
      Preserves sender receiver frame dst := by
  intro claim
  let frame : Frame := ⟨fun _ => 1, fun _ => 2, .none, 0x0800, [1, 2, 3, 4], by decide⟩
  have preserves := claim terminal terminal frame 7
  have sends : terminal.Sends frame := by decide
  have long : 18 ≤ frame.bytes.length := by decide
  have held := ((comesBack_iff long sends (category_of_preserves long sends preserves)).mp
    preserves).2.2
  exact absurd held (by decide)

end Context

end Ethernet

end OpenSand
