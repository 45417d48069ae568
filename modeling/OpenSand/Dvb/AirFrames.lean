import OpenSand.Encap.FramePayload
import OpenSand.Sched.BBFrames
import OpenSand.Spot.CniExtension

/-!
BB frames from the scheduler of a gateway to the encapsulation of a terminal (`BBFrame`,
`BlockPhysicalLayer`, `AttenuationHandler`, `DvbS2Std`, `BlockDvbTal::Upward`).

The bytes of a frame are those of its packets behind a header. The physical layers put the
C/N behind them and mark the frames that their MODCOD does not protect enough; the terminal
takes the C/N for its current MODCOD before it looks into the frame. `hears_spec` says which
frames give their packets back.
-/

namespace OpenSand

open OpenSand.EncapPlugin OpenSand.Word
open OpenSand.Bytes (Data toBE ofBE read write)

/-! ### Messages -/

def bbFrameMessageType : UInt8 := 13
def dvbBurstMessageType : UInt8 := 12

/-- A start of frame has no C/N. -/
def isCnCapableFrame (messageType : UInt8) : Bool := messageType ≠ 1

/-- BB frames, bursts, frames of Slotted Aloha, SACs and TTPs. -/
def isAttenuatedFrame (messageType : UInt8) : Bool := messageType ∈ [13, 12, 14, 15, 10, 21]

/-- From the carried value to the C/N. -/
def ncntoh (cn : Nat) : ℚ := ((cn : Int).bmod (2 ^ 16) : Int) / 100

namespace EncapPlugin.DvbFrame

variable (frame : DvbFrame)

def getMessageLength : Except Fault Nat := (read 0 2 frame.data).map ofBE

def setMessageLength (length : Nat) : Except Fault DvbFrame :=
  (write 0 (toBE 2 length) frame.data).map fun data => { frame with data }

/-- The type is in the low bits of a byte whose high bit tells a corrupted frame. -/
def getMessageType : Except Fault UInt8 :=
  (read 2 1 frame.data).map fun byte => .ofNat (ofBE byte % 128)

def isCorrupted : Except Fault Bool := (read 2 1 frame.data).map fun byte => 128 ≤ ofBE byte

def setCorrupted : Except Fault DvbFrame := do
  let byte ← read 2 1 frame.data
  let data ← write 2 (toBE 1 (ofBE byte % 128 + 128)) frame.data
  return { frame with data }

/-- The C/N behind the message, as it is carried. -/
def getCn : Except Fault ℚ := do
  let messageLength ← frame.getMessageLength
  let phy ← Bytes.substr messageLength (sizeSub frame.getTotalLength messageLength) frame.data
  let cn ← read 0 4 (phy ++ [0])
  return ncntoh (ofBE cn)

def setCnValue (cn : ℚ) : Except Fault DvbFrame := do
  let messageLength ← frame.getMessageLength
  frame.setCn messageLength (toBE 4 (hcnton cn))

/-- A frame built from the bytes of a carrier: what is behind the message is its trailer. -/
def received (data : Data) : Except Fault DvbFrame := do
  let frame : DvbFrame := ⟨data, 3, 0, 3, 0⟩
  let messageLength ← frame.getMessageLength
  return { frame with trailerLength := sizeSub frame.getTotalLength messageLength }

/-! ### BB frames -/

/-- A BB frame without packets. -/
def newBBFrame : DvbFrame :=
  .new (toBE 2 bbframeHeaderLength ++ (bbFrameMessageType :: (toBE 2 0 ++ [0]))) 8104

/-- The conversion of a frame. -/
def toBBFrame : DvbFrame := { frame with headerLength := bbframeHeaderLength }

def getModcodId : Except Fault UInt8 := (read 5 1 frame.data).map fun byte => .ofNat (ofBE byte)

def setModcodId (modcodId : UInt8) : Except Fault DvbFrame :=
  (write 5 [modcodId] frame.data).map fun data => { frame with data }

/-- The number of packets. -/
def getDataLength : Except Fault Nat := (read 3 2 frame.data).map ofBE

def setDataLength (count : Nat) : Except Fault DvbFrame :=
  (write 3 (toBE 2 count) frame.data).map fun data => { frame with data }

def addBBPacket (packet : NetPacket) : Except Fault (Bool × DvbFrame) :=
  match frame.addPacket packet with
  | (false, frame) => .ok (false, frame)
  | (true, frame) => do
      let messageLength ← frame.getMessageLength
      let frame ← frame.setMessageLength (messageLength + packet.data.length)
      let frame ← frame.setDataLength frame.numPackets
      return (true, frame)

end EncapPlugin.DvbFrame

/-! ### The physical layers -/

/-- The plugins of the minimal condition: a constant threshold, or the one of the MODCOD of the
last frame. -/
structure MinimalCondition where
  acmLoop : Bool
  minimalCn : ℚ

def MinimalCondition.updateThreshold (tables : ModcodDef → FmtDefinitionTable)
    (minimal : MinimalCondition) (modcodId messageType : UInt8) : MinimalCondition :=
  if minimal.acmLoop = false then minimal
  else { minimal with minimalCn :=
    if messageType = dvbBurstMessageType then (tables .rcs2).getRequiredEsN0 modcodId
    else (tables .s2).getRequiredEsN0 modcodId }

/-- The plugin `Gate`. -/
def isToBeModifiedPacket (cnTotal thresholdQef : ℚ) : Bool := cnTotal < thresholdQef

namespace MinimalCondition

variable (tables : ModcodDef → FmtDefinitionTable)

/-- `AttenuationHandler::process`: the frames with a MODCOD, which is at the same place in both
kinds, are marked below the threshold. -/
def process (minimal : MinimalCondition) (frame : DvbFrame) (cnTotal : ℚ) :
    Except Fault (MinimalCondition × DvbFrame) := do
  let messageType ← frame.getMessageType
  if messageType = bbFrameMessageType ∨ messageType = dvbBurstMessageType then
    let modcodId ← frame.getModcodId
    let minimal := minimal.updateThreshold tables modcodId messageType
    if isToBeModifiedPacket cnTotal minimal.minimalCn then
      let frame ← frame.setCorrupted
      return (minimal, frame)
    else return (minimal, frame)
  else return (minimal, frame)

/-- `BlockPhysicalLayer::Upward::forwardPacket`, for a total and a current C/N. -/
def forwardPacket (computeTotalCn : ℚ → ℚ → ℚ) (currentCn : ℚ) (minimal : MinimalCondition)
    (frame : DvbFrame) : Except Fault (MinimalCondition × DvbFrame) := do
  let messageType ← frame.getMessageType
  let frame ← if isCnCapableFrame messageType then do
      let cn ← frame.getCn
      frame.setCnValue (computeTotalCn cn currentCn)
    else pure frame
  if isAttenuatedFrame messageType then
    let cn ← frame.getCn
    minimal.process tables frame cn
  else return (minimal, frame)

end MinimalCondition

/-- `BlockPhysicalLayer::Downward::preparePacket`. -/
def preparePacket (currentCn : ℚ) (frame : DvbFrame) : Except Fault DvbFrame := do
  let messageType ← frame.getMessageType
  if isCnCapableFrame messageType then frame.setCnValue currentCn else return frame

/-! ### The reception -/

structure DvbS2Std where
  realModcod : UInt8
  receivedModcod : UInt8
  isScpc : Bool

/-- The status, the burst of the packets of the frame, if there is one, and the standard. -/
def DvbS2Std.onRcvFrame (handler : EncapPlugin.EncapPacketHandler)
    (modcodDef : FmtDefinitionTable) (isGw : Nat → Bool) (std : DvbS2Std) (frame : DvbFrame)
    (talId : Nat) : Except Fault (Bool × Option (List (Option NetPacket)) × DvbS2Std) := do
  let messageType ← frame.getMessageType
  if messageType ≠ bbFrameMessageType then return (false, none, std)
  let frame := frame.toBBFrame
  let burstLength ← frame.getDataLength
  let receivedModcod ← frame.getModcodId
  let std := { std with receivedModcod }
  let corrupted ← frame.isCorrupted
  if corrupted then return (true, none, std)
  -- the MODCOD is not robust enough for this terminal
  if isGw talId = false ∧ std.isScpc = false ∧
      modcodDef.getRequiredEsN0 std.realModcod < modcodDef.getRequiredEsN0 receivedModcod then
    return (true, none, std)
  if burstLength = 0 then return (true, none, std)
  let (packets, _) ← handler.getEncapsulatedPackets frame burstLength 0
  match packets with
  | none => return (false, none, std)
  | some packets => return (true, some packets, std)

/-- What a terminal, not a SCPC one, keeps to receive BB frames, and the bursts that it sent to
its encapsulation. -/
structure BBReception where
  running : Bool
  inputSts : StFmtSimuMap
  minimal : MinimalCondition
  std : DvbS2Std
  bursts : List (List NetPacket)

/-- What a terminal is built with. -/
structure TalRadio where
  talId : Nat
  isGw : Nat → Bool
  tables : ModcodDef → FmtDefinitionTable
  acmLoopMarginDb : ℚ
  minimal : MinimalCondition
  computeTotalCn : ℚ → ℚ → ℚ
  handler : EncapPlugin.EncapPacketHandler

/-- How a frame is heard: not at all, or with the C/N of each link. -/
inductive Air where
  | lost
  | heard (up down : ℚ)

/-- The C/N that a terminal reads in a frame. -/
def totalCn (computeTotalCn : ℚ → ℚ → ℚ) (up down : ℚ) : ℚ :=
  ncntoh (hcnton (computeTotalCn (ncntoh (hcnton up)) down))

namespace TalRadio

variable (radio : TalRadio)

/-- The MODCOD that a terminal takes for a C/N. -/
def realModcod (cn : ℚ) : UInt8 := (radio.tables .s2).getRequiredModcod (cn - radio.acmLoopMarginDb)

/-- A MODCOD is as robust as another one. -/
def supports (real modcodId : UInt8) : Bool :=
  (radio.tables .s2).getRequiredEsN0 modcodId ≤ (radio.tables .s2).getRequiredEsN0 real

/-- Whether a frame of a MODCOD reaches the threshold of the physical layer and requires no more
than the MODCOD that the terminal takes. -/
def decodes (modcodId : UInt8) : Air → Bool
  | .lost => false
  | .heard up down =>
      let cn := totalCn radio.computeTotalCn up down
      let minimal := radio.minimal.updateThreshold radio.tables modcodId bbFrameMessageType
      !isToBeModifiedPacket cn minimal.minimalCn && radio.supports (radio.realModcod cn) modcodId

end TalRadio

namespace BBReception

variable (radio : TalRadio) (tal : BBReception)

/-- A terminal that is not logged on. -/
def start : BBReception where
  running := false
  inputSts := .new radio.acmLoopMarginDb
  minimal := radio.minimal
  std := ⟨28, 28, false⟩
  bursts := []

/-- A logon response for the terminal. -/
def onRcvLogonResp : BBReception :=
  { tal with
    running := true
    inputSts := tal.inputSts.addTerminal radio.talId (radio.tables .s2).getMaxId .s2 }

/-- 0 for a terminal that is not in the list. -/
def currentModcodId : UInt8 := (tal.inputSts.sts.lookup radio.talId).elim 0 (·.currentModcodId)

/-- `BlockDvbTal::Upward::onRcvDvbFrame` for a BB frame: the status and the terminal. All the
packets of a burst are looked into. -/
def onRcvBBFrame (frame : DvbFrame) : Except Fault (Bool × BBReception) := do
  if tal.running = false then return (true, tal)
  let cn ← frame.getCn
  let tal := { tal with inputSts := tal.inputSts.setRequiredCni radio.tables radio.talId cn }
  let std := { tal.std with realModcod := tal.currentModcodId radio }
  let (ok, burst, std) ←
    std.onRcvFrame radio.handler (radio.tables .s2) radio.isGw frame radio.talId
  let tal := { tal with std }
  if ok = false then return (false, tal)
  match burst with
  | none => return (true, tal)
  | some packets =>
      match packets.mapM id with
      | none => throw .outside
      | some packets => return (true, { tal with bursts := tal.bursts ++ [packets] })

/-- A frame on its way from the scheduler of the gateway. -/
def hears (frame : DvbFrame) : Air → Except Fault BBReception
  | .lost => return tal
  | .heard up down => do
      let sent ← preparePacket up frame
      let arrived ← DvbFrame.received sent.data
      let (minimal, arrived) ←
        tal.minimal.forwardPacket radio.tables radio.computeTotalCn down arrived
      let (_, tal) ← { tal with minimal }.onRcvBBFrame radio arrived
      return tal

end BBReception

/-! ### The bytes of a frame -/

namespace BBFrame

def typeByte (corrupted : Bool) : Nat := if corrupted then 141 else 13

/-- The fields of the header. -/
def fields (messageLength : Nat) (corrupted : Bool) (count : Nat) (modcodId : UInt8) : List Data :=
  [toBE 2 messageLength, toBE 1 (typeByte corrupted), toBE 2 count, [modcodId]]

variable (frame : BBFrame)

def payload : Data := frame.packets.flatMap NetPacket.data

def header (corrupted : Bool) : Data :=
  (fields frame.getTotalLength corrupted (frame.packets.length % 2 ^ 16) frame.modcodId).flatten

/-- The bytes with a trailer. -/
def bytes (corrupted : Bool) (trailer : Data) : Data :=
  frame.header corrupted ++ (frame.payload ++ trailer)

/-- The frame of the program. -/
def dvb : DvbFrame where
  data := frame.bytes false []
  headerLength := bbframeHeaderLength
  trailerLength := 0
  maxSize := frame.maxSize
  numPackets := frame.packets.length % 2 ^ 16

/-- The packets of a frame that is decoded, if it has some. -/
def burst (decoded : Bool) : Option (List NetPacket) :=
  if decoded = true ∧ frame.packets ≠ [] then some frame.packets else none

/-- The frame of the program as it is made: its MODCOD and its size are set, then its packets are
added. -/
def built : Except Fault DvbFrame := do
  let new ← DvbFrame.newBBFrame.setModcodId frame.modcodId
  frame.packets.foldlM (fun dvb packet => (dvb.addBBPacket packet).map Prod.snd)
    { new with maxSize := frame.maxSize }

/-- A frame that came with a trailer. -/
def arrived (corrupted : Bool) (trailer : Data) : DvbFrame where
  data := frame.bytes corrupted trailer
  headerLength := 3
  trailerLength := trailer.length
  maxSize := 3
  numPackets := 0

theorem typeByte_lt (corrupted : Bool) : typeByte corrupted < 256 := by
  cases corrupted <;> decide

theorem fields_length (messageLength : Nat) (corrupted : Bool) (count : Nat) (modcodId : UInt8) :
    (fields messageLength corrupted count modcodId).flatten.length = bbframeHeaderLength := by
  simp [fields, bbframeHeaderLength]

theorem getTotalLength_eq : frame.getTotalLength = bbframeHeaderLength + frame.payload.length := by
  rw [getTotalLength, payload, List.length_flatMap]
  rfl

variable {frame}

theorem message_length (corrupted : Bool) :
    (frame.header corrupted ++ frame.payload).length = frame.getTotalLength := by
  rw [List.length_append, header, fields_length, getTotalLength_eq]

theorem bytes_length (corrupted : Bool) (trailer : Data) :
    (frame.bytes corrupted trailer).length = frame.getTotalLength + trailer.length := by
  rw [bytes, ← List.append_assoc, List.length_append, message_length]

theorem take_bytes (corrupted : Bool) (trailer : Data) :
    (frame.bytes corrupted trailer).take frame.getTotalLength =
      frame.header corrupted ++ frame.payload := by
  rw [bytes, ← List.append_assoc, ← @message_length frame corrupted, List.take_left]

/-- What is behind the message is the trailer. -/
theorem substr_bytes (corrupted : Bool) (trailer : Data) {n : Nat} (enough : trailer.length ≤ n) :
    Bytes.substr frame.getTotalLength n (frame.bytes corrupted trailer) = .ok trailer := by
  have message := @message_length frame corrupted
  rw [Bytes.substr, bytes_length, if_pos (Nat.le_add_right _ _), bytes, ← List.append_assoc,
    ← message, List.drop_left, List.take_of_length_le enough]

end BBFrame

/-! ### Accesses to the header -/

section Header

open BBFrame

variable {frame : DvbFrame} {messageLength count : Nat} {corrupted : Bool} {modcodId : UInt8}
  {rest : Data}

theorem getMessageLength_of (small : messageLength < 2 ^ 16)
    (data : frame.data = (fields messageLength corrupted count modcodId).flatten ++ rest) :
    frame.getMessageLength = .ok messageLength := by
  rw [DvbFrame.getMessageLength, data,
    @Bytes.read_field _ (toBE 2 messageLength) rest 0 0 2 rfl rfl (Bytes.toBE_length _ _)]
  exact congrArg _ (Bytes.ofBE_toBE small)

theorem setMessageLength_of (length : Nat)
    (data : frame.data = (fields messageLength corrupted count modcodId).flatten ++ rest) :
    frame.setMessageLength length = .ok { frame with
      data := (fields length corrupted count modcodId).flatten ++ rest } := by
  rw [DvbFrame.setMessageLength, data,
    @Bytes.write_field _ (toBE 2 messageLength) rest 0 0 (toBE 2 length) rfl rfl (by simp)]
  rfl

theorem setDataLength_of (length : Nat)
    (data : frame.data = (fields messageLength corrupted count modcodId).flatten ++ rest) :
    frame.setDataLength length = .ok { frame with
      data := (fields messageLength corrupted length modcodId).flatten ++ rest } := by
  rw [DvbFrame.setDataLength, data,
    @Bytes.write_field _ (toBE 2 count) rest 2 3 (toBE 2 length) rfl (by simp [fields]) (by simp)]
  rfl

theorem getMessageType_of
    (data : frame.data = (fields messageLength corrupted count modcodId).flatten ++ rest) :
    frame.getMessageType = .ok bbFrameMessageType := by
  rw [DvbFrame.getMessageType, data, @Bytes.read_field _ (toBE 1 (typeByte corrupted)) rest 1 2 1
    rfl (by simp [fields]) (Bytes.toBE_length _ _)]
  cases corrupted <;> rfl

theorem isCorrupted_of
    (data : frame.data = (fields messageLength corrupted count modcodId).flatten ++ rest) :
    frame.isCorrupted = .ok corrupted := by
  rw [DvbFrame.isCorrupted, data, @Bytes.read_field _ (toBE 1 (typeByte corrupted)) rest 1 2 1
    rfl (by simp [fields]) (Bytes.toBE_length _ _)]
  cases corrupted <;> rfl

theorem setCorrupted_of
    (data : frame.data = (fields messageLength corrupted count modcodId).flatten ++ rest) :
    frame.setCorrupted = .ok { frame with
      data := (fields messageLength true count modcodId).flatten ++ rest } := by
  have byte : toBE 1 (ofBE (toBE 1 (typeByte corrupted)) % 128 + 128) = toBE 1 (typeByte true) := by
    cases corrupted <;> rfl
  have fetched : read 2 1 frame.data = .ok (toBE 1 (typeByte corrupted)) := by
    rw [data]
    exact @Bytes.read_field _ (toBE 1 (typeByte corrupted)) rest 1 2 1 rfl (by simp [fields])
      (Bytes.toBE_length _ _)
  have wrote : write 2 (toBE 1 (ofBE (toBE 1 (typeByte corrupted)) % 128 + 128)) frame.data =
      .ok ((fields messageLength true count modcodId).flatten ++ rest) := by
    rw [data, byte]
    exact @Bytes.write_field _ (toBE 1 (typeByte corrupted)) rest 1 2 _ rfl (by simp [fields])
      (by simp)
  exact Bytes.bind_eq_ok.mpr ⟨_, fetched, Bytes.bind_eq_ok.mpr ⟨_, wrote, rfl⟩⟩

theorem getDataLength_of (small : count < 2 ^ 16)
    (data : frame.data = (fields messageLength corrupted count modcodId).flatten ++ rest) :
    frame.getDataLength = .ok count := by
  rw [DvbFrame.getDataLength, data,
    @Bytes.read_field _ (toBE 2 count) rest 2 3 2 rfl (by simp [fields]) (Bytes.toBE_length _ _)]
  exact congrArg _ (Bytes.ofBE_toBE small)

theorem getModcodId_of
    (data : frame.data = (fields messageLength corrupted count modcodId).flatten ++ rest) :
    frame.getModcodId = .ok modcodId := by
  rw [DvbFrame.getModcodId, data,
    @Bytes.read_field _ [modcodId] rest 3 5 1 rfl (by simp [fields]) rfl]
  simp [Except.map, ofBE, Bytes.ofLE]

end Header

/-! ### The frames of the scheduler are the ones of the program -/

section Built

open BBFrame

variable {frame : BBFrame} {packet : NetPacket}

theorem dvb_getTotalLength : frame.dvb.getTotalLength = frame.getTotalLength := by
  rw [DvbFrame.getTotalLength, dvb, bytes_length]
  rfl

theorem getTotalLength_append (packets later : List NetPacket) :
    BBFrame.getTotalLength { frame with packets := packets ++ later } =
      BBFrame.getTotalLength { frame with packets := packets } +
        (later.map NetContainer.getTotalLength).sum := by
  rw [BBFrame.getTotalLength, BBFrame.getTotalLength, List.map_append, List.sum_append,
    Nat.add_assoc]

/-- A packet is added to the bytes of a frame when it is added to the frame. -/
theorem addBBPacket_dvb (fits : frame.getTotalLength ≤ frame.maxSize)
    (small : frame.maxSize < 2 ^ 16) : frame.dvb.addBBPacket packet = .ok
      (match frame.addPacket packet with
      | none => (false, frame.dvb)
      | some frame => (true, frame.dvb)) := by
  have space : frame.dvb.getFreeSpace = frame.getFreeSpace := by
    rw [DvbFrame.getFreeSpace, dvb_getTotalLength, BBFrame.getFreeSpace, sizeSub]
    exact if_pos fits
  have length : NetContainer.getTotalLength packet = packet.data.length := rfl
  rw [DvbFrame.addBBPacket, DvbFrame.addPacket, space, BBFrame.addPacket, length]
  by_cases full : frame.getFreeSpace < packet.data.length
  · rw [if_pos full, if_pos full]
  · rw [if_neg full, if_neg full]
    have total : frame.getTotalLength + packet.data.length =
        BBFrame.getTotalLength { frame with packets := frame.packets ++ [packet] } := by
      rw [getTotalLength_append]
      rfl
    have count : (frame.dvb.numPackets + 1) % 2 ^ 16 =
        (frame.packets ++ [packet]).length % 2 ^ 16 := by
      rw [dvb, List.length_append, Nat.mod_add_mod]
      rfl
    have data : frame.dvb.data ++ packet.data = (fields frame.getTotalLength false
        (frame.packets.length % 2 ^ 16) frame.modcodId).flatten ++
        (BBFrame.payload { frame with packets := frame.packets ++ [packet] } ++ []) := by
      simp [dvb, bytes, header, BBFrame.payload]
    have lt : frame.getTotalLength < 2 ^ 16 := fits.trans_lt small
    refine Bytes.bind_eq_ok.mpr ⟨_, getMessageLength_of lt data, Bytes.bind_eq_ok.mpr
      ⟨_, setMessageLength_of _ data, Bytes.bind_eq_ok.mpr ⟨_, setDataLength_of _ rfl, ?_⟩⟩⟩
    rw [total, count]
    rfl

theorem addBBPackets_dvb (small : frame.maxSize < 2 ^ 16) (later packets : List NetPacket)
    (fits : BBFrame.getTotalLength { frame with packets := packets ++ later } ≤ frame.maxSize) :
    later.foldlM (fun dvb packet => (dvb.addBBPacket packet).map Prod.snd)
        (BBFrame.dvb { frame with packets := packets }) =
      .ok (BBFrame.dvb { frame with packets := packets ++ later }) := by
  induction later generalizing packets with
  | nil =>
      rw [List.append_nil]
      rfl
  | cons packet later ih =>
      rw [List.append_cons] at fits ⊢
      have room : BBFrame.getTotalLength { frame with packets := packets } +
          NetContainer.getTotalLength packet ≤ frame.maxSize := by
        refine le_trans ?_ fits
        rw [getTotalLength_append, getTotalLength_append]
        exact Nat.le_add_right _ _
      have added := @addBBPacket_dvb { frame with packets := packets } packet
        (le_of_add_le_left room) small
      have space : ¬ BBFrame.getFreeSpace { frame with packets := packets } <
          NetContainer.getTotalLength packet := not_lt.mpr (Nat.le_sub_of_add_le' room)
      rw [BBFrame.addPacket, if_neg space] at added
      rw [List.foldlM_cons, added]
      exact ih _ fits

/-- The bytes of a frame whose packets fit in it. -/
theorem built_eq (fits : frame.getTotalLength ≤ frame.maxSize) (small : frame.maxSize < 2 ^ 16) :
    frame.built = .ok frame.dvb :=
  addBBPackets_dvb small frame.packets [] fits

end Built

/-! ### The physical layers -/

section Physical

open BBFrame

variable {frame : BBFrame} {corrupted : Bool} {trailer phy : Data}

/-- The C/N, as it is carried. -/
def carriedCn (cn : ℚ) : Data := toBE 4 (hcnton cn)

theorem hcnton_lt (cn : ℚ) : hcnton cn < 2 ^ 32 := by
  unfold hcnton
  have lt := Int.emod_lt_of_pos ((roundHalfAway (cn * 100)).bmod (2 ^ 16))
    (show (0 : Int) < 2 ^ 32 by decide)
  omega

theorem preparePacket_dvb (small : frame.getTotalLength < 2 ^ 16) (up : ℚ) :
    preparePacket up frame.dvb = .ok { frame.dvb with
      data := frame.bytes false (carriedCn up), trailerLength := 4 } := by
  have type := @getMessageType_of frame.dvb _ _ _ _ _ rfl
  refine Bytes.bind_eq_ok.mpr ⟨_, type, ?_⟩
  have capable : isCnCapableFrame bbFrameMessageType = true := rfl
  rw [if_pos capable]
  refine Bytes.bind_eq_ok.mpr ⟨_, getMessageLength_of small rfl, ?_⟩
  have none : frame.dvb.trailerLength = 0 := rfl
  have data : frame.dvb.data ++ carriedCn up = frame.bytes false (carriedCn up) := by
    rw [dvb, bytes, bytes, List.append_nil, List.append_assoc]
  have length : (carriedCn up).length = 4 := Bytes.toBE_length _ _
  rw [← carriedCn, DvbFrame.setCn, if_pos none, data, length]

theorem received_bytes (small : frame.getTotalLength < 2 ^ 16) :
    DvbFrame.received (frame.bytes corrupted trailer) = .ok (frame.arrived corrupted trailer) := by
  refine Bytes.bind_eq_ok.mpr ⟨_, getMessageLength_of small rfl, ?_⟩
  have length : sizeSub (DvbFrame.getTotalLength ⟨frame.bytes corrupted trailer, 3, 0, 3, 0⟩)
      frame.getTotalLength = trailer.length := by
    rw [DvbFrame.getTotalLength, bytes_length, sizeSub, if_pos (Nat.le_add_right _ _),
      Nat.add_sub_cancel_left]
  rw [length]
  rfl

theorem getCn_arrived (small : frame.getTotalLength < 2 ^ 16) (cn : ℚ) :
    (frame.arrived corrupted (carriedCn cn)).getCn = .ok (ncntoh (hcnton cn)) := by
  have length : sizeSub (frame.arrived corrupted (carriedCn cn)).getTotalLength
      frame.getTotalLength = (carriedCn cn).length := by
    rw [DvbFrame.getTotalLength, arrived, bytes_length, sizeSub, if_pos (Nat.le_add_right _ _),
      Nat.add_sub_cancel_left]
  have field : read 0 4 (carriedCn cn ++ [0]) = .ok (carriedCn cn) := rfl
  refine Bytes.bind_eq_ok.mpr ⟨_, getMessageLength_of small rfl, ?_⟩
  refine Bytes.bind_eq_ok.mpr ⟨_, substr_bytes corrupted _ length.ge, ?_⟩
  refine Bytes.bind_eq_ok.mpr ⟨_, field, ?_⟩
  rw [carriedCn, Bytes.ofBE_toBE (hcnton_lt cn)]
  rfl

theorem setCnValue_arrived (small : frame.getTotalLength < 2 ^ 16) (cn cn' : ℚ) :
    (frame.arrived corrupted (carriedCn cn)).setCnValue cn' =
      .ok (frame.arrived corrupted (carriedCn cn')) := by
  have some_ : (frame.arrived corrupted (carriedCn cn)).trailerLength ≠ 0 := by
    rw [arrived]
    exact Nat.succ_ne_zero 3
  have field : read 0 (carriedCn cn).length (carriedCn cn') = .ok (carriedCn cn') := rfl
  have after : (carriedCn cn).length ≤ (frame.bytes corrupted (carriedCn cn)).length := by
    rw [bytes_length]
    exact Nat.le_add_left _ _
  refine Bytes.bind_eq_ok.mpr ⟨_, getMessageLength_of small rfl, ?_⟩
  rw [← carriedCn, DvbFrame.setCn, if_neg some_]
  refine Bytes.bind_eq_ok.mpr ⟨_, field, Bytes.bind_eq_ok.mpr ⟨_, substr_bytes _ _ after, ?_⟩⟩
  have data : (frame.arrived corrupted (carriedCn cn)).data.take frame.getTotalLength ++
      carriedCn cn' ++ (carriedCn cn).drop (frame.arrived corrupted (carriedCn cn)).trailerLength =
      frame.bytes corrupted (carriedCn cn') := by
    rw [arrived, take_bytes, List.drop_length, List.append_nil, bytes, List.append_assoc]
  rw [data]
  rfl

/-- The threshold for a frame is updated before it is compared. -/
theorem process_arrived (tables : ModcodDef → FmtDefinitionTable) (minimal : MinimalCondition)
    (trailer : Data) (cn : ℚ) :
    minimal.process tables (frame.arrived false trailer) cn =
      let minimal := minimal.updateThreshold tables frame.modcodId bbFrameMessageType
      .ok (minimal, frame.arrived (isToBeModifiedPacket cn minimal.minimalCn) trailer) := by
  have type := @getMessageType_of (frame.arrived false trailer) _ _ _ _ _ rfl
  have modcod := @getModcodId_of (frame.arrived false trailer) _ _ _ _ _ rfl
  refine Bytes.bind_eq_ok.mpr ⟨_, type, ?_⟩
  rw [if_pos (.inl rfl)]
  refine Bytes.bind_eq_ok.mpr ⟨_, modcod, ?_⟩
  have corrupted := @setCorrupted_of (frame.arrived false trailer) _ _ _ _ _ rfl
  dsimp only
  split
  next below => rw [below]; exact Bytes.bind_eq_ok.mpr ⟨_, corrupted, rfl⟩
  next above => rw [Bool.not_eq_true] at above; rw [above]; rfl

theorem forwardPacket_arrived (small : frame.getTotalLength < 2 ^ 16)
    (tables : ModcodDef → FmtDefinitionTable) (computeTotalCn : ℚ → ℚ → ℚ) (up down : ℚ)
    (minimal : MinimalCondition) :
    minimal.forwardPacket tables computeTotalCn down (frame.arrived false (carriedCn up)) =
      let minimal := minimal.updateThreshold tables frame.modcodId bbFrameMessageType
      let corrupted := isToBeModifiedPacket (totalCn computeTotalCn up down) minimal.minimalCn
      .ok (minimal, frame.arrived corrupted
        (carriedCn (computeTotalCn (ncntoh (hcnton up)) down))) := by
  have type := @getMessageType_of (frame.arrived false (carriedCn up)) _ _ _ _ _ rfl
  refine Bytes.bind_eq_ok.mpr ⟨_, type, ?_⟩
  refine Bytes.bind_eq_ok.mpr ⟨_, getCn_arrived small up, ?_⟩
  refine Bytes.bind_eq_ok.mpr ⟨_, setCnValue_arrived small up _, ?_⟩
  exact Bytes.bind_eq_ok.mpr ⟨_, getCn_arrived small _, process_arrived tables minimal _ _⟩

end Physical

/-! ### The terminal -/

section Terminal

open BBFrame

variable {frame : BBFrame} {corrupted : Bool} {trailer : Data}

theorem length_le_payload {handler : EncapPlugin.EncapPacketHandler}
    (own : ∀ packet ∈ frame.packets, handler.Own packet) :
    frame.packets.length ≤ frame.payload.length := by
  have each : ∀ n ∈ frame.packets.map (·.data.length), 1 ≤ n := by
    intro n mem
    obtain ⟨packet, among, rfl⟩ := List.mem_map.mp mem
    exact List.length_pos_iff.mpr (own packet among).nonempty
  have sum := List.length_le_sum_of_one_le _ each
  rwa [List.length_map, ← List.length_flatMap] at sum

/-- A frame that is not corrupted and robust enough gives its packets, if it has some. -/
theorem onRcvFrame_arrived {radio : TalRadio} {std : DvbS2Std}
    (small : frame.getTotalLength < 2 ^ 16)
    (own : ∀ packet ∈ frame.packets, radio.handler.Own packet)
    (terminal : radio.isGw radio.talId = false) (acm : std.isScpc = false) :
    std.onRcvFrame radio.handler (radio.tables .s2) radio.isGw (frame.arrived corrupted trailer)
        radio.talId =
      .ok (true, (frame.burst (!corrupted && radio.supports std.realModcod frame.modcodId)).map
        (·.map some), { std with receivedModcod := frame.modcodId }) := by
  have data : (frame.arrived corrupted trailer).toBBFrame.data = frame.bytes corrupted trailer :=
    rfl
  have few : frame.packets.length % 2 ^ 16 = frame.packets.length := by
    refine Nat.mod_eq_of_lt ((length_le_payload own).trans_lt ?_)
    rw [getTotalLength_eq] at small
    omega
  have burstLength := getDataLength_of (Nat.mod_lt _ (by decide)) data
  have modcod := getModcodId_of data
  have mark := isCorrupted_of data
  refine Bytes.bind_eq_ok.mpr ⟨_, getMessageType_of rfl, ?_⟩
  rw [if_neg (not_not.mpr rfl)]
  refine Bytes.bind_eq_ok.mpr ⟨_, burstLength, Bytes.bind_eq_ok.mpr ⟨_, modcod,
    Bytes.bind_eq_ok.mpr ⟨_, mark, ?_⟩⟩⟩
  dsimp only
  rw [few]
  cases corrupted with
  | true => rfl
  | false =>
      rw [if_neg Bool.false_ne_true, Bool.not_false, Bool.true_and]
      by_cases robust : (radio.tables .s2).getRequiredEsN0 frame.modcodId ≤
          (radio.tables .s2).getRequiredEsN0 std.realModcod
      · have supported : radio.supports std.realModcod frame.modcodId = true :=
          decide_eq_true robust
        rw [if_neg fun weak => weak.2.2.not_ge robust, supported]
        by_cases empty : frame.packets = []
        · rw [if_pos (List.length_eq_zero_iff.mpr empty), burst,
            if_neg fun decoded => decoded.2 empty]
          rfl
        · have filled : frame.packets.length ≠ 0 := fun zero =>
            empty (List.length_eq_zero_iff.mp zero)
          have got := EncapPlugin.EncapPacketHandler.getPayload_eq data rfl rfl
          obtain ⟨looked, split, -⟩ := EncapPlugin.EncapPacketHandler.gives own got
          rw [if_neg filled, burst, if_pos ⟨rfl, empty⟩]
          exact Bytes.bind_eq_ok.mpr ⟨_, split, rfl⟩
      · have rejected : radio.supports std.realModcod frame.modcodId = false :=
          decide_eq_false robust
        rw [if_pos ⟨terminal, acm, lt_of_not_ge robust⟩, rejected, burst,
          if_neg fun decoded => Bool.false_ne_true decoded.1]
        rfl

/-- What a terminal keeps from its start on. -/
structure BBReception.Ready (radio : TalRadio) (tal : BBReception) : Prop where
  margin : tal.inputSts.acmLoopMarginDb = radio.acmLoopMarginDb
  minimal : ∀ modcodId messageType, tal.minimal.updateThreshold radio.tables modcodId messageType =
    radio.minimal.updateThreshold radio.tables modcodId messageType
  acm : tal.std.isScpc = false
  registered : tal.running = true →
    ∃ st, tal.inputSts.sts.lookup radio.talId = some st ∧ st.modcodDef = .s2

theorem MinimalCondition.updateThreshold_updateThreshold (tables : ModcodDef → FmtDefinitionTable)
    (minimal : MinimalCondition) (modcodId modcodId' messageType messageType' : UInt8) :
    (minimal.updateThreshold tables modcodId messageType).updateThreshold tables modcodId'
      messageType' = minimal.updateThreshold tables modcodId' messageType' := by
  obtain ⟨acmLoop, minimalCn⟩ := minimal
  cases acmLoop <;> rfl

namespace BBReception

variable {radio : TalRadio} {tal : BBReception}

theorem start_ready (radio : TalRadio) : (start radio).Ready radio where
  margin := rfl
  minimal _ _ := rfl
  acm := rfl
  registered running := absurd running Bool.false_ne_true

theorem onRcvLogonResp_ready (ready : tal.Ready radio) :
    (tal.onRcvLogonResp radio).Ready radio where
  margin := by
    rw [← ready.margin, onRcvLogonResp, StFmtSimuMap.addTerminal]
    dsimp only
    split
    · unfold StFmtSimuMap.delTerminal
      split <;> rfl
    · rfl
  minimal := ready.minimal
  acm := ready.acm
  registered _ := by
    refine ⟨StFmtSimu.new (radio.tables .s2).getMaxId .s2, ?_, rfl⟩
    exact (StFmtSimuMap.addTerminal_lookup _ _ _ _).trans (if_pos rfl)

theorem currentModcodId_setRequiredCni (ready : tal.Ready radio) (running : tal.running = true)
    (cn : ℚ) : currentModcodId radio { tal with
        inputSts := tal.inputSts.setRequiredCni radio.tables radio.talId cn } =
      radio.realModcod cn := by
  obtain ⟨st, found, s2⟩ := ready.registered running
  rw [currentModcodId, StFmtSimuMap.setRequiredCni_lookup, found, Option.map_some, if_pos rfl,
    ready.margin, TalRadio.realModcod, ← s2]
  rfl

theorem setRequiredCni_ready (ready : tal.Ready radio) (cn : ℚ) (std : DvbS2Std)
    (acm : std.isScpc = false) (bursts : List (List NetPacket)) :
    BBReception.Ready radio { tal with
      inputSts := tal.inputSts.setRequiredCni radio.tables radio.talId cn
      std := std
      bursts := bursts } where
  margin := ready.margin
  minimal := ready.minimal
  acm := acm
  registered running := by
    obtain ⟨st, found, s2⟩ := ready.registered running
    refine ⟨st.updateCni radio.tables cn tal.inputSts.acmLoopMarginDb, ?_, s2⟩
    rw [StFmtSimuMap.setRequiredCni_lookup, found, Option.map_some, if_pos rfl]

theorem mapM_id_map_some (packets : List NetPacket) :
    (packets.map some).mapM id = some packets := by
  induction packets with
  | nil => rfl
  | cons packet packets ih => rw [List.map_cons, List.mapM_cons, ih]; rfl

/-- A terminal that is logged on takes the C/N, then it sends the packets that it gets. -/
theorem onRcvBBFrame_running (ready : tal.Ready radio) (running : tal.running = true)
    (terminal : radio.isGw radio.talId = false) (small : frame.getTotalLength < 2 ^ 16)
    (own : ∀ packet ∈ frame.packets, radio.handler.Own packet) (cn : ℚ) :
    tal.onRcvBBFrame radio (frame.arrived corrupted (carriedCn cn)) = .ok (true, { tal with
      inputSts := tal.inputSts.setRequiredCni radio.tables radio.talId (ncntoh (hcnton cn))
      std := { tal.std with
        realModcod := radio.realModcod (ncntoh (hcnton cn))
        receivedModcod := frame.modcodId }
      bursts := tal.bursts ++ (frame.burst (!corrupted &&
        radio.supports (radio.realModcod (ncntoh (hcnton cn))) frame.modcodId)).toList }) := by
  have current := currentModcodId_setRequiredCni ready running (ncntoh (hcnton cn))
  have heard := @onRcvFrame_arrived frame corrupted (carriedCn cn) radio
    { tal.std with realModcod := radio.realModcod (ncntoh (hcnton cn)) } small own terminal
    ready.acm
  have on : ¬ tal.running = false := by
    rw [running]
    exact Bool.noConfusion
  dsimp only at heard
  rw [onRcvBBFrame, if_neg on]
  refine Bytes.bind_eq_ok.mpr ⟨_, getCn_arrived small cn, ?_⟩
  dsimp only
  rw [current]
  refine Bytes.bind_eq_ok.mpr ⟨_, heard, ?_⟩
  cases frame.burst (!corrupted &&
      radio.supports (radio.realModcod (ncntoh (hcnton cn))) frame.modcodId) with
  | none =>
      rw [Option.toList_none, List.append_nil]
      rfl
  | some packets =>
      dsimp only [Option.map_some]
      rw [mapM_id_map_some]
      rfl

theorem onRcvBBFrame_idle (idle : tal.running = false) (frame : DvbFrame) :
    tal.onRcvBBFrame radio frame = .ok (true, tal) := by
  rw [onRcvBBFrame, if_pos idle]
  rfl

/-- The threshold for the MODCOD of a frame. -/
def withThreshold (radio : TalRadio) (tal : BBReception) (modcodId : UInt8) : BBReception :=
  { tal with minimal := radio.minimal.updateThreshold radio.tables modcodId bbFrameMessageType }

theorem withThreshold_ready (ready : tal.Ready radio) (modcodId : UInt8) :
    (tal.withThreshold radio modcodId).Ready radio where
  margin := ready.margin
  minimal _ _ := MinimalCondition.updateThreshold_updateThreshold _ _ _ _ _ _
  acm := ready.acm
  registered := ready.registered

/-- The physical layers give the terminal the frame with the total C/N. -/
theorem hears_heard (ready : tal.Ready radio) (small : frame.getTotalLength < 2 ^ 16)
    (up down : ℚ) : tal.hears radio frame.dvb (.heard up down) =
      ((tal.withThreshold radio frame.modcodId).onRcvBBFrame radio
        (frame.arrived (isToBeModifiedPacket (totalCn radio.computeTotalCn up down)
          (tal.withThreshold radio frame.modcodId).minimal.minimalCn)
          (carriedCn (radio.computeTotalCn (ncntoh (hcnton up)) down)))).map Prod.snd := by
  have forwarded := forwardPacket_arrived small radio.tables radio.computeTotalCn up down
    tal.minimal
  rw [ready.minimal frame.modcodId bbFrameMessageType] at forwarded
  have received := @received_bytes frame false (carriedCn up) small
  rw [hears, preparePacket_dvb small up, Bytes.ok_bind]
  dsimp only
  rw [received, Bytes.ok_bind, forwarded, Bytes.ok_bind]
  dsimp only
  exact Bytes.bind_pure_eq_map _ Prod.snd

/-- A terminal hears any frame of the scheduler and stays ready. It sends the packets of the
frame as a burst exactly when it is logged on and decodes a frame that has some. -/
theorem hears_spec (ready : tal.Ready radio) (terminal : radio.isGw radio.talId = false)
    (small : frame.getTotalLength < 2 ^ 16)
    (own : ∀ packet ∈ frame.packets, radio.handler.Own packet) (air : Air) :
    ∃ tal', tal.hears radio frame.dvb air = .ok tal' ∧ tal'.Ready radio ∧
      tal'.running = tal.running ∧ tal'.bursts = tal.bursts ++
        (frame.burst (tal.running && radio.decodes frame.modcodId air)).toList := by
  cases air with
  | lost =>
      refine ⟨tal, rfl, ready, rfl, ?_⟩
      rw [TalRadio.decodes, Bool.and_false, burst, if_neg fun decoded => by cases decoded.1]
      exact (List.append_nil _).symm
  | heard up down =>
      have updated := withThreshold_ready ready frame.modcodId
      rw [hears_heard ready small]
      cases running : tal.running with
      | false =>
          have idle : (tal.withThreshold radio frame.modcodId).running = false := running
          rw [onRcvBBFrame_idle idle]
          refine ⟨_, rfl, updated, running, ?_⟩
          rw [Bool.false_and, burst, if_neg fun decoded => by cases decoded.1]
          exact (List.append_nil _).symm
      | true =>
          have cn : ncntoh (hcnton (radio.computeTotalCn (ncntoh (hcnton up)) down)) =
              totalCn radio.computeTotalCn up down := rfl
          rw [onRcvBBFrame_running updated running terminal small own, cn, Bool.true_and]
          have ready' := setRequiredCni_ready updated (totalCn radio.computeTotalCn up down)
            { tal.std with
              realModcod := radio.realModcod (totalCn radio.computeTotalCn up down)
              receivedModcod := frame.modcodId } ready.acm
          exact ⟨_, rfl, ready' _, running, rfl⟩

end BBReception

end Terminal

end OpenSand
