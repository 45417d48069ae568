import Mathlib.Algebra.Order.BigOperators.Group.List
import Mathlib.Algebra.Group.Nat.Defs
import OpenSand.Saloha.PacketBytes

/-!
Slotted Aloha data frames, as the terminal fills them and the gateway walks them.

A frame is a header of 5 bytes, with the message length and the number of packets,
and the packets one after the other. The gateway takes each packet from the bytes
left in the frame, finds the next one by the total length that the packet claims,
and overwrites its quality of service by that of the encapsulated packet.
-/

namespace OpenSand

open OpenSand.Bytes OpenSand.Word

/-- `sizeof(T_DVB_SALOHA)`. -/
def salohaHeaderLength : Nat := 5

def MSG_SALOHA_SIZE_MAX : Nat := 1204

/-- `EmulatedMessageType::SalohaData`. -/
def salohaDataMessageType : UInt8 := 14

/-- The header of a frame of data (`T_DVB_SALOHA`). -/
structure SalohaHdr where
  msgLength : UInt16
  dataLength : UInt16

namespace SalohaHdr

def fields (header : SalohaHdr) : List Data :=
  [toBE 2 header.msgLength.toNat, [salohaDataMessageType], toBE 2 header.dataLength.toNat]

def put (header : SalohaHdr) (rest : Data) : Data := header.fields.flatten ++ rest

end SalohaHdr

/-- A frame under construction. -/
structure SlottedAlohaFrame where
  data : Data
  maxSize : Nat
  numPackets : Nat
deriving DecidableEq, Repr

namespace SlottedAlohaFrame

def new : SlottedAlohaFrame :=
  ⟨SalohaHdr.put ⟨.ofNat salohaHeaderLength, 0⟩ [], MSG_SALOHA_SIZE_MAX, 0⟩

def getMessageLength (data : Data) : Except Fault Nat := (read 0 2 data).map ofBE

def getDataLength (data : Data) : Except Fault Nat := (read 3 2 data).map ofBE

def getFreeSpace (frame : SlottedAlohaFrame) : Nat := subW 64 frame.maxSize frame.data.length

/-- Append a packet when the length it claims fits in the free space. -/
def addPacket (frame : SlottedAlohaFrame) (packet : SalohaDataBytes) :
    Except Fault (Bool × SlottedAlohaFrame) := do
  let totalLength ← SalohaDataBytes.getTotalLength packet.data
  if frame.getFreeSpace < totalLength then .ok (false, frame)
  else do
    let data := frame.data ++ packet.data
    let numPackets := addW 32 frame.numPackets 1
    let msgLength ← getMessageLength data
    let data ← write 0 (toBE 2 (UInt16.ofNat (msgLength + totalLength)).toNat) data
    let data ← write 3 (toBE 2 (UInt16.ofNat numPackets).toNat) data
    .ok (true, { frame with data := data, numPackets := numPackets })

/-- Build packets and add them to a frame, as long as they are accepted. -/
def addPackets (stack : SalohaDataBytes.Stack) (frame : SlottedAlohaFrame) :
    List SlottedAlohaPacketData → Except Fault (Bool × SlottedAlohaFrame)
  | [] => .ok (true, frame)
  | packet :: packets => do
      let sent ← packet.build stack
      let (added, frame) ← frame.addPacket sent
      if added then addPackets stack frame packets else .ok (false, frame)

end SlottedAlohaFrame

/-- What the gateway asks the packet handler about an encapsulated packet. -/
structure EncapPacketReader where
  getSrc : Data → Nat
  getQos : Data → UInt8

/-- A received frame, with the length of what follows its message. -/
structure SalohaRcvFrame where
  data : Data
  trailerLength : Nat

namespace SalohaRcvFrame

def ofData (data : Data) : Except Fault SalohaRcvFrame := do
  let msgLength ← SlottedAlohaFrame.getMessageLength data
  .ok ⟨data, subW 64 data.length msgLength⟩

def getPayloadLength (frame : SalohaRcvFrame) : Nat :=
  subW 64 (subW 64 frame.data.length salohaHeaderLength) frame.trailerLength

/-- `getPayload(pos)`: as many bytes as the whole payload has, from a position in it. -/
def getPayload (frame : SalohaRcvFrame) (pos : Nat) : Except Fault Data :=
  substr (salohaHeaderLength + pos) frame.getPayloadLength frame.data

/-- The loop of `onRcvFrame` over the packets, from a position in the payload. -/
def walk (handler : EncapPacketReader) (frame : SalohaRcvFrame) :
    Nat → Nat → Except Fault (List SalohaDataBytes)
  | 0, _ => .ok []
  | count + 1, previousLength => do
      let payload ← frame.getPayload previousLength
      let currentLength ← SalohaDataBytes.getPacketLength payload
      let packet := SalohaDataBytes.ofData payload currentLength
      let encap ← SalohaDataBytes.getPayload packet.data
      let packet := { packet with srcTalId := handler.getSrc encap }
      let packet ← packet.setQos (handler.getQos encap)
      let packets ← walk handler frame count (previousLength + currentLength)
      .ok (packet :: packets)

end SalohaRcvFrame

/-- The packets that the gateway takes from the bytes of a frame. -/
def receivedPackets (handler : EncapPacketReader) (content : Data) :
    Except Fault (List SalohaDataBytes) := do
  let frame ← SalohaRcvFrame.ofData content
  let dataLength ← SlottedAlohaFrame.getDataLength content
  frame.walk handler dataLength 0

/-! ### Filling a frame -/

namespace SalohaHdr

variable (header : SalohaHdr) (rest : Data)

theorem fields_length : header.fields.flatten.length = salohaHeaderLength := by
  simp [fields, salohaHeaderLength]

@[simp] theorem put_length : (header.put rest).length = salohaHeaderLength + rest.length := by
  rw [put, List.length_append, fields_length]

theorem put_append (more : Data) : header.put rest ++ more = header.put (rest ++ more) :=
  List.append_assoc ..

@[simp] theorem getMessageLength_put :
    SlottedAlohaFrame.getMessageLength (header.put rest) = .ok header.msgLength.toNat := by
  rw [SlottedAlohaFrame.getMessageLength, put, read_field (i := 0) rfl (by simp)
    (toBE_length 2 _)]
  exact congrArg Except.ok (ofBE_toBE header.msgLength.toNat_lt)

@[simp] theorem getDataLength_put :
    SlottedAlohaFrame.getDataLength (header.put rest) = .ok header.dataLength.toNat := by
  rw [SlottedAlohaFrame.getDataLength, put, read_field (i := 2) rfl (by simp [fields])
    (toBE_length 2 _)]
  exact congrArg Except.ok (ofBE_toBE header.dataLength.toNat_lt)

theorem write_msgLength (msgLength : UInt16) :
    write 0 (toBE 2 msgLength.toNat) (header.put rest) =
      .ok ({ header with msgLength := msgLength }.put rest) :=
  write_field (i := 0) rfl (by simp) (by simp)

theorem write_dataLength (dataLength : UInt16) :
    write 3 (toBE 2 dataLength.toNat) (header.put rest) =
      .ok ({ header with dataLength := dataLength }.put rest) :=
  write_field (i := 2) rfl (by simp [fields]) (by simp)

theorem drop_put (n : Nat) : (header.put rest).drop (salohaHeaderLength + n) = rest.drop n := by
  rw [put, List.drop_append, fields_length, List.drop_eq_nil_of_le]
  · simp
  · rw [fields_length]
    omega

end SalohaHdr

namespace SlottedAlohaFrame

/-- The bytes of packets one after the other. -/
def payloadLength (packets : List SlottedAlohaPacketData) : Nat :=
  (packets.map SlottedAlohaPacketData.length).sum

/-- The packets fit in a frame. -/
def Fits (packets : List SlottedAlohaPacketData) : Prop :=
  salohaHeaderLength + payloadLength packets ≤ MSG_SALOHA_SIZE_MAX

instance (packets : List SlottedAlohaPacketData) : Decidable (Fits packets) :=
  inferInstanceAs (Decidable (_ ≤ _))

/-- The frame that holds packets. -/
def holding (packets : List SlottedAlohaPacketData) : SlottedAlohaFrame where
  data := SalohaHdr.put ⟨.ofNat (salohaHeaderLength + payloadLength packets),
    .ofNat packets.length⟩ (packets.flatMap SlottedAlohaPacketData.bytes)
  maxSize := MSG_SALOHA_SIZE_MAX
  numPackets := packets.length

variable {packets : List SlottedAlohaPacketData} {packet : SlottedAlohaPacketData}

theorem flatMap_bytes_length :
    (packets.flatMap SlottedAlohaPacketData.bytes).length = payloadLength packets := by
  induction packets with
  | nil => rfl
  | cons packet packets ih =>
      rw [List.flatMap_cons, List.length_append, ih, packet.bytes_length]
      rfl

theorem payloadLength_append (packets more : List SlottedAlohaPacketData) :
    payloadLength (packets ++ more) = payloadLength packets + payloadLength more := by
  simp [payloadLength]

/-- Every packet has a header, so that few of them fit. -/
theorem length_le_payloadLength : packets.length ≤ payloadLength packets := by
  induction packets with
  | nil => exact Nat.zero_le _
  | cons packet packets ih =>
      have header : 1 ≤ packet.length := by
        simp only [SlottedAlohaPacketData.length, salohaDataHdrLength]
        omega
      simp only [payloadLength, List.map_cons, List.sum_cons, List.length_cons] at ih ⊢
      omega

/-- A packet that fits behind those of a frame is accepted and comes last. -/
theorem addPacket_holding {sent : SalohaDataBytes} (bytes : sent.data = packet.bytes)
    (fits : Fits (packets ++ [packet])) :
    (holding packets).addPacket sent = .ok (true, holding (packets ++ [packet])) := by
  have total : payloadLength (packets ++ [packet]) = payloadLength packets + packet.length := by
    rw [payloadLength_append]
    simp [payloadLength]
  have room := fits
  simp only [Fits, total, MSG_SALOHA_SIZE_MAX, salohaHeaderLength] at room
  have few : packets.length ≤ payloadLength packets := length_le_payloadLength
  have claimed : SalohaDataBytes.getTotalLength packet.bytes = .ok packet.length := by
    rw [SlottedAlohaPacketData.bytes, SalohaDataHdr.getTotalLength_put]
    exact congrArg Except.ok (UInt16.toNat_ofNat_of_lt' (show packet.length < 2 ^ 16 by omega))
  have free : ¬ (holding packets).getFreeSpace < packet.length := by
    simp only [getFreeSpace, holding, SalohaHdr.put_length, flatMap_bytes_length,
      MSG_SALOHA_SIZE_MAX, salohaHeaderLength]
    rw [subW_of_le (by omega) (by omega)]
    omega
  have short : salohaHeaderLength + payloadLength packets < 2 ^ 16 := by
    simp only [salohaHeaderLength]
    omega
  have message : (UInt16.ofNat (salohaHeaderLength + payloadLength packets)).toNat =
      salohaHeaderLength + payloadLength packets :=
    UInt16.toNat_ofNat_of_lt' short
  have counted : addW 32 packets.length 1 = packets.length + 1 := addW_of_lt (by omega)
  simp only [addPacket, bytes, claimed, free, if_false, bind, Except.bind]
  simp only [holding, SalohaHdr.put_append, SalohaHdr.getMessageLength_put,
    SalohaHdr.write_msgLength, SalohaHdr.write_dataLength, message, counted, total,
    List.flatMap_append, List.flatMap_singleton, List.length_append, List.length_singleton,
    Nat.add_assoc]

theorem addPackets_holding (stack : SalohaDataBytes.Stack) (done : List SlottedAlohaPacketData)
    (fits : Fits (done ++ packets)) :
    addPackets stack (holding done) packets = .ok (true, holding (done ++ packets)) := by
  induction packets generalizing done with
  | nil => rw [List.append_nil]; rfl
  | cons packet packets ih =>
      have split : done ++ packet :: packets = (done ++ [packet]) ++ packets := by simp
      rw [split] at fits ⊢
      have first : Fits (done ++ [packet]) := by
        simp only [Fits, payloadLength_append] at fits ⊢
        omega
      have few : packet.replicas.length < 2 ^ 16 := by
        simp [Fits, payloadLength, SlottedAlohaPacketData.length, MSG_SALOHA_SIZE_MAX] at first
        omega
      have added : (holding done).addPacket ⟨packet.bytes,
          salohaDataHdrLength + packet.replicas.length * 2, packet.srcTalId⟩ =
            .ok (true, holding (done ++ [packet])) := addPacket_holding rfl first
      simp only [addPackets, SlottedAlohaPacketData.build_eq stack few, bind, Except.bind, added,
        if_true]
      exact ih _ fits

/-- Packets that fit are all accepted by an empty frame. -/
theorem addPackets_new (stack : SalohaDataBytes.Stack) (fits : Fits packets) :
    addPackets stack new packets = .ok (true, holding packets) :=
  addPackets_holding stack [] fits

end SlottedAlohaFrame

/-! ### Walking a filled frame -/

/-- What the physical layer appends to a message, if it is there (`T_DVB_PHY`). -/
def phyBytes (phy : Option UInt32) : Data := phy.elim [] fun cn => toBE 4 cn.toNat

/-- The packet as the gateway hears of it: its quality of service and its source
are those the packet handler reads in the encapsulated packet. -/
def EncapPacketReader.reads (handler : EncapPacketReader) (packet : SlottedAlohaPacketData) :
    SlottedAlohaPacketData :=
  { packet with
    qos := handler.getQos packet.payload
    srcTalId := handler.getSrc packet.payload }

namespace SalohaRcvFrame

open SlottedAlohaFrame

variable {packets : List SlottedAlohaPacketData} {packet : SlottedAlohaPacketData}

/-- The bytes of a packet followed by others: the packet is taken out of them. -/
theorem takes_packet (more : Data)
    (short : packet.length < 2 ^ 16) :
    SalohaDataBytes.getPacketLength (packet.bytes ++ more) = .ok packet.length ∧
      SalohaDataBytes.ofData (packet.bytes ++ more) packet.length =
        ⟨packet.bytes, salohaDataHdrLength, 0⟩ := by
  constructor
  · rw [SalohaDataBytes.getPacketLength, SlottedAlohaPacketData.bytes, SalohaDataHdr.put,
      List.append_assoc]
    change SalohaDataBytes.getTotalLength (packet.header.put _) = _
    rw [SalohaDataHdr.getTotalLength_put]
    exact congrArg Except.ok (UInt16.toNat_ofNat_of_lt' short)
  · rw [SalohaDataBytes.ofData, ← packet.bytes_length, List.take_left]

/-- The walk from behind the packets already taken. -/
theorem walk_packets (handler : EncapPacketReader) {frame : SalohaRcvFrame} {header : SalohaHdr}
    (done : List SlottedAlohaPacketData) (trailer : Data)
    (content : frame.data = header.put
      ((done ++ packets).flatMap SlottedAlohaPacketData.bytes ++ trailer))
    (payload : frame.getPayloadLength = payloadLength (done ++ packets))
    (fits : Fits (done ++ packets)) :
    frame.walk handler packets.length (payloadLength done) =
      .ok (packets.map fun packet =>
        ⟨(handler.reads packet).bytes, salohaDataHdrLength, handler.getSrc packet.payload⟩) := by
  induction packets generalizing done with
  | nil => rfl
  | cons packet packets ih =>
      have split : done ++ packet :: packets = (done ++ [packet]) ++ packets := by simp
      have total : payloadLength (done ++ packet :: packets) =
          payloadLength done + (packet.length + payloadLength packets) := by
        simp [payloadLength]
      have short : packet.length < 2 ^ 16 := by
        simp only [Fits, total, MSG_SALOHA_SIZE_MAX] at fits
        omega
      have next : payloadLength (done ++ [packet]) = payloadLength done + packet.length := by
        simp [payloadLength]
      obtain ⟨more, got⟩ : ∃ more, frame.getPayload (payloadLength done) =
          .ok (packet.bytes ++ more) := by
        refine ⟨(packets.flatMap SlottedAlohaPacketData.bytes ++ trailer).take
          (payloadLength (done ++ packet :: packets) - packet.length), ?_⟩
        have inside : salohaHeaderLength + payloadLength done ≤ frame.data.length := by
          rw [content, SalohaHdr.put_length, List.length_append, flatMap_bytes_length, total]
          omega
        rw [getPayload, substr, if_pos inside, content, SalohaHdr.drop_put, payload,
          List.flatMap_append, List.append_assoc,
          List.drop_append_of_le_length (by rw [flatMap_bytes_length]),
          List.drop_eq_nil_of_le (by rw [flatMap_bytes_length]), List.flatMap_cons,
          List.nil_append, List.append_assoc, List.take_append,
          List.take_of_length_le (by rw [packet.bytes_length, total]; omega), packet.bytes_length]
      obtain ⟨claimed, taken⟩ := takes_packet more short
      have rest := ih (done ++ [packet]) (by rw [← split]; exact content)
        (by rw [← split]; exact payload) (by rw [← split]; exact fits)
      rw [next] at rest
      simp only [List.length_cons, walk, got, claimed, taken, bind, Except.bind,
        SlottedAlohaPacketData.getPayload_bytes short, SalohaDataBytes.setQos, Except.map, rest]
      simp only [SlottedAlohaPacketData.bytes, SalohaDataHdr.write_qos]
      rfl

theorem receivedPackets_holding (handler : EncapPacketReader) (phy : Option UInt32)
    (fits : Fits packets) :
    receivedPackets handler ((holding packets).data ++ phyBytes phy) =
      .ok (packets.map fun packet =>
        ⟨(handler.reads packet).bytes, salohaDataHdrLength, handler.getSrc packet.payload⟩) := by
  have room := fits
  simp only [Fits, MSG_SALOHA_SIZE_MAX, salohaHeaderLength] at room
  have few : packets.length ≤ payloadLength packets := length_le_payloadLength
  have trailer : (phyBytes phy).length ≤ 4 := by
    cases phy <;> simp [phyBytes]
  have message : (UInt16.ofNat (salohaHeaderLength + payloadLength packets)).toNat =
      salohaHeaderLength + payloadLength packets :=
    UInt16.toNat_ofNat_of_lt' (show salohaHeaderLength + _ < 2 ^ 16 by
      simp only [salohaHeaderLength]
      omega)
  have count : (UInt16.ofNat packets.length).toNat = packets.length :=
    UInt16.toNat_ofNat_of_lt' (show packets.length < 2 ^ 16 by omega)
  rw [receivedPackets, ofData, holding, SalohaHdr.put_append]
  simp only [SalohaHdr.getMessageLength_put, SalohaHdr.getDataLength_put, bind, Except.bind,
    message, count]
  refine walk_packets handler [] (phyBytes phy) rfl ?_ fits
  simp only [getPayloadLength, SalohaHdr.put_length, List.length_append, flatMap_bytes_length,
    List.nil_append, salohaHeaderLength]
  rw [subW_of_le (a := 5 + _) (b := 5) (by omega) (by omega),
    subW_of_le (a := 5 + _) (by omega) (by omega), subW_of_le (by omega) (by omega)]
  omega

/-! ### Walking any content -/

/-- The bytes given to the walk from a position. -/
def left (frame : SalohaRcvFrame) (pos : Nat) : Data :=
  (frame.data.drop (salohaHeaderLength + pos)).take frame.getPayloadLength

/-- The total length and the number of replicas claimed by bytes. -/
def claimedLength (bytes : Data) : Nat := ofBE ((bytes.drop 13).take 2)
def claimedReplicas (bytes : Data) : Nat := ofBE ((bytes.drop 10).take 2)

/-- Each packet that the walk comes to has its header in the bytes left and claims
at least its length, up to the first packet that starts beyond the end of the frame
or whose replicas do not lie in it. -/
def HeadersInside (frame : SalohaRcvFrame) : Nat → Nat → Prop
  | 0, _ => True
  | count + 1, pos =>
      let bytes := frame.left pos
      frame.data.length < salohaHeaderLength + pos ∨
        salohaDataHdrLength ≤ bytes.length ∧ salohaDataHdrLength ≤ claimedLength bytes ∧
          (min (claimedLength bytes) bytes.length <
              salohaDataHdrLength + 2 * claimedReplicas bytes ∨
            HeadersInside frame count (pos + claimedLength bytes))

theorem getPacketLength_of_le {bytes : Data} (header : salohaDataHdrLength ≤ bytes.length) :
    SalohaDataBytes.getPacketLength bytes = .ok (claimedLength bytes) := by
  rw [SalohaDataBytes.getPacketLength, SalohaDataBytes.getTotalLength, read_of_le header]
  rfl

theorem getPacketLength_of_lt {bytes : Data} (short : bytes.length < salohaDataHdrLength) :
    SalohaDataBytes.getPacketLength bytes = .error .outside := by
  rw [SalohaDataBytes.getPacketLength, SalohaDataBytes.getTotalLength, read_of_lt short]
  rfl

theorem getNbReplicas_of_le {bytes : Data} (header : salohaDataHdrLength ≤ bytes.length) :
    SalohaDataBytes.getNbReplicas bytes = .ok (claimedReplicas bytes) := by
  rw [SalohaDataBytes.getNbReplicas, read_of_le (by simp only [salohaDataHdrLength] at header; omega)]
  rfl

/-- The payload of bytes without a whole header is not reached. -/
theorem getPayload_of_lt {bytes : Data} (short : bytes.length < salohaDataHdrLength) :
    SalohaDataBytes.getPayload bytes = .error .outside := by
  have total := getPacketLength_of_lt short
  rw [SalohaDataBytes.getPacketLength] at total
  by_cases replicas : 10 + 2 ≤ bytes.length
  · simp only [SalohaDataBytes.getPayload, SalohaDataBytes.getReplicasLength,
      SalohaDataBytes.getNbReplicas, read_of_le replicas, SalohaDataBytes.getPayloadLength, total,
      bind, Except.bind, Except.map]
  · simp only [SalohaDataBytes.getPayload, SalohaDataBytes.getReplicasLength,
      SalohaDataBytes.getNbReplicas, read_of_lt (Nat.not_le.mp replicas), bind, Except.bind,
      Except.map]

/-- Behind a whole header, the payload is there or the position is found beyond the end. -/
theorem getPayload_of_le {bytes : Data} (header : salohaDataHdrLength ≤ bytes.length) :
    (bytes.length < salohaDataHdrLength + 2 * claimedReplicas bytes ∧
        SalohaDataBytes.getPayload bytes = .error .outOfRange) ∨
      (salohaDataHdrLength + 2 * claimedReplicas bytes ≤ bytes.length ∧
        ∃ encap, SalohaDataBytes.getPayload bytes = .ok encap) := by
  have total := getPacketLength_of_le header
  rw [SalohaDataBytes.getPacketLength] at total
  simp only [SalohaDataBytes.getPayload, SalohaDataBytes.getReplicasLength,
    SalohaDataBytes.getPayloadLength, getNbReplicas_of_le header, total, bind, Except.bind,
    Except.map, substr]
  by_cases inside : salohaDataHdrLength + 2 * claimedReplicas bytes ≤ bytes.length
  · exact .inr ⟨inside, _, if_pos inside⟩
  · exact .inl ⟨Nat.not_le.mp inside, if_neg inside⟩

theorem claimedReplicas_take {bytes : Data} {n : Nat} (header : salohaDataHdrLength ≤ n) :
    claimedReplicas (bytes.take n) = claimedReplicas bytes := by
  have enough : 2 ≤ n - 10 := by
    simp only [salohaDataHdrLength] at header
    omega
  rw [claimedReplicas, claimedReplicas, List.drop_take, List.take_take, Nat.min_eq_left enough]

theorem setQos_of_le {data : Data} (headerLength srcTalId : Nat) (qos : UInt8)
    (header : salohaDataHdrLength ≤ data.length) :
    ∃ packet, SalohaDataBytes.setQos qos ⟨data, headerLength, srcTalId⟩ = .ok packet := by
  have inside : 12 + (toBE 1 qos.toNat).length ≤ data.length := by
    simp only [toBE_length, salohaDataHdrLength] at header ⊢
    omega
  rw [SalohaDataBytes.setQos, write, patch, if_pos inside]
  exact ⟨_, rfl⟩

theorem getPayload_of_le_length {frame : SalohaRcvFrame} {pos : Nat}
    (inside : salohaHeaderLength + pos ≤ frame.data.length) :
    frame.getPayload pos = .ok (frame.left pos) := by
  rw [SalohaRcvFrame.getPayload, substr, if_pos inside, left]

/-- The walk stays in the bytes exactly when the headers do. -/
theorem walk_outside_iff (handler : EncapPacketReader) (frame : SalohaRcvFrame) (count pos : Nat) :
    frame.walk handler count pos ≠ .error .outside ↔ frame.HeadersInside count pos := by
  induction count generalizing pos with
  | zero => simp [walk, HeadersInside]
  | succ count ih =>
      simp only [HeadersInside]
      by_cases beyond : frame.data.length < salohaHeaderLength + pos
      · simp [walk, getPayload, substr, Nat.not_le.mpr beyond, beyond, bind, Except.bind]
      have got := getPayload_of_le_length (Nat.not_lt.mp beyond)
      obtain ⟨bytes, rest⟩ : ∃ bytes, frame.left pos = bytes := ⟨_, rfl⟩
      rw [rest] at got ⊢
      by_cases header : salohaDataHdrLength ≤ bytes.length
      case neg =>
        simp [walk, got, getPacketLength_of_lt (Nat.not_le.mp header), beyond, header, bind,
          Except.bind]
      have claimed := getPacketLength_of_le header
      have length : (bytes.take (claimedLength bytes)).length =
          min (claimedLength bytes) bytes.length := List.length_take ..
      by_cases enough : salohaDataHdrLength ≤ claimedLength bytes
      case neg =>
        have short : (bytes.take (claimedLength bytes)).length < salohaDataHdrLength := by omega
        simp [walk, got, claimed, SalohaDataBytes.ofData, getPayload_of_lt short, beyond, enough,
          bind, Except.bind]
      have whole : salohaDataHdrLength ≤ (bytes.take (claimedLength bytes)).length := by omega
      have replicas : claimedReplicas (bytes.take (claimedLength bytes)) = claimedReplicas bytes :=
        claimedReplicas_take enough
      rcases getPayload_of_le whole with ⟨past, thrown⟩ | ⟨inside, encap, found⟩
      · rw [replicas, length] at past
        simp [walk, got, claimed, SalohaDataBytes.ofData, thrown, beyond, header, enough, past,
          bind, Except.bind]
      · rw [replicas, length] at inside
        obtain ⟨packet, wrote⟩ := setQos_of_le salohaDataHdrLength (handler.getSrc encap)
          (handler.getQos encap) whole
        rw [← ih (pos + claimedLength bytes)]
        simp only [walk, got, claimed, SalohaDataBytes.ofData, found, wrote, beyond, header,
          enough, Nat.not_lt.mpr inside, bind, Except.bind, false_or, true_and]
        cases frame.walk handler count (pos + claimedLength bytes) with
        | error fault => simp
        | ok packets => simp

end SalohaRcvFrame

/-- The content is read without a step outside of it: it has a frame header, and
the headers of its packets lie in it. -/
def WalkInside (content : Data) : Prop :=
  salohaHeaderLength ≤ content.length ∧
    SalohaRcvFrame.HeadersInside
      ⟨content, subW 64 content.length (ofBE (content.take 2))⟩
      (ofBE ((content.drop 3).take 2)) 0

theorem receivedPackets_outside_iff (handler : EncapPacketReader) (content : Data) :
    receivedPackets handler content ≠ .error .outside ↔ WalkInside content := by
  by_cases message : 0 + 2 ≤ content.length
  case neg =>
    have short : ¬ salohaHeaderLength ≤ content.length := by
      simp only [salohaHeaderLength]
      omega
    simp [receivedPackets, SalohaRcvFrame.ofData, SlottedAlohaFrame.getMessageLength,
      read_of_lt (Nat.not_le.mp message), WalkInside, short, Except.map, bind, Except.bind]
  by_cases header : 3 + 2 ≤ content.length
  case neg =>
    simp [receivedPackets, SalohaRcvFrame.ofData, SlottedAlohaFrame.getMessageLength,
      SlottedAlohaFrame.getDataLength, read_of_le message, read_of_lt (Nat.not_le.mp header),
      WalkInside, salohaHeaderLength, header, Except.map, bind, Except.bind]
  simp only [receivedPackets, SalohaRcvFrame.ofData, SlottedAlohaFrame.getMessageLength,
    SlottedAlohaFrame.getDataLength, read_of_le message, read_of_le header, Except.map, bind,
    Except.bind, WalkInside, salohaHeaderLength, List.drop_zero]
  rw [SalohaRcvFrame.walk_outside_iff]
  exact (and_iff_right header).symm

/-- The packets of a frame with their fields read back. -/
def recoveredPackets (handler : EncapPacketReader) (content : Data) :
    Except Fault (List SlottedAlohaPacketData) := do
  let packets ← receivedPackets handler content
  packets.mapM SlottedAlohaPacketData.ofBytes

theorem recoveredPackets_holding (handler : EncapPacketReader) (phy : Option UInt32)
    {packets : List SlottedAlohaPacketData} (fits : SlottedAlohaFrame.Fits packets) :
    recoveredPackets handler ((SlottedAlohaFrame.holding packets).data ++ phyBytes phy) =
      .ok (packets.map handler.reads) := by
  have each : ∀ packet ∈ packets, packet.length < 2 ^ 16 := by
    intro packet mem
    have part : packet.length ≤ SlottedAlohaFrame.payloadLength packets :=
      List.single_le_sum (fun _ _ => Nat.zero_le _) _ (List.mem_map_of_mem mem)
    simp only [SlottedAlohaFrame.Fits, MSG_SALOHA_SIZE_MAX] at fits
    omega
  have back : (packets.map fun packet : SlottedAlohaPacketData => (⟨(handler.reads packet).bytes,
        salohaDataHdrLength, handler.getSrc packet.payload⟩ : SalohaDataBytes)).mapM
          SlottedAlohaPacketData.ofBytes = .ok (packets.map handler.reads) := by
    clear fits
    induction packets with
    | nil => rfl
    | cons packet packets ih =>
        have short : (handler.reads packet).length < 2 ^ 16 := each packet List.mem_cons_self
        rw [List.map_cons, List.mapM_cons, SlottedAlohaPacketData.ofBytes_bytes _ _ short,
          ih fun other mem => each other (List.mem_cons_of_mem _ mem)]
        rfl
  simp only [recoveredPackets, SalohaRcvFrame.receivedPackets_holding handler phy fits, bind,
    Except.bind]
  exact back

/-- Packets that fit are all accepted by a frame and all recovered from it, with the
quality of service that the packet handler reads; and the walk of any content goes
outside of it exactly when a header does. -/
theorem frame_recovered_iff (handler : EncapPacketReader) (stack : SalohaDataBytes.Stack)
    (phy : Option UInt32) (content : Data) {packets : List SlottedAlohaPacketData}
    (fits : SlottedAlohaFrame.Fits packets) :
    (∃ frame, SlottedAlohaFrame.addPackets stack .new packets = .ok (true, frame) ∧
      (recoveredPackets handler (frame.data ++ phyBytes phy) =
          .ok (packets.map fun packet => { packet with srcTalId := handler.getSrc packet.payload }) ↔
        ∀ packet ∈ packets, handler.getQos packet.payload = packet.qos)) ∧
    (receivedPackets handler content ≠ .error .outside ↔ WalkInside content) := by
  refine ⟨⟨_, SlottedAlohaFrame.addPackets_new stack fits, ?_⟩,
    receivedPackets_outside_iff handler content⟩
  rw [recoveredPackets_holding handler phy fits, Except.ok.injEq, List.map_inj_left]
  constructor
  · intro same packet mem
    exact congrArg SlottedAlohaPacketData.qos (same packet mem)
  · intro qos packet mem
    rw [EncapPacketReader.reads, qos packet mem]

/-- Two packets of a fragmented PDU, and a content without its packet. -/
theorem frame_recovered_two :
    (∃ frame, SlottedAlohaFrame.addPackets ⟨0, 0⟩ .new
        [⟨7, 4, 0, 2, 5, [4, 9], [1, 2, 3], 1⟩, ⟨7, 6, 1, 2, 5, [6, 8], [], 1⟩] = .ok (true, frame) ∧
      recoveredPackets ⟨fun _ => 1, fun _ => 5⟩ (frame.data ++ phyBytes none) =
        .ok [⟨7, 4, 0, 2, 5, [4, 9], [1, 2, 3], 1⟩, ⟨7, 6, 1, 2, 5, [6, 8], [], 1⟩]) ∧
    ¬ WalkInside [0, 5, 14, 0, 1] := by
  obtain ⟨⟨frame, added, recovered⟩, outside⟩ := frame_recovered_iff
    ⟨fun _ => 1, fun _ => 5⟩ ⟨0, 0⟩ none [0, 5, 14, 0, 1]
    (show SlottedAlohaFrame.Fits
      [⟨7, 4, 0, 2, 5, [4, 9], [1, 2, 3], 1⟩, ⟨7, 6, 1, 2, 5, [6, 8], [], 1⟩] by decide)
  refine ⟨⟨frame, added, recovered.mpr (by decide)⟩, fun inside => outside.mpr inside ?_⟩
  decide

/-- A frame that announces a packet and ends behind its header makes the walk read
the length of the packet beyond the end. -/
theorem receivedPackets_outside :
    ¬ ∀ (handler : EncapPacketReader) (content : Data),
      receivedPackets handler content ≠ .error .outside := by
  intro inside
  exact inside ⟨fun _ => 0, fun _ => 0⟩ [0, 5, 14, 0, 1] (by decide)

end OpenSand
