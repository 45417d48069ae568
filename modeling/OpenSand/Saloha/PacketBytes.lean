import OpenSand.Lib.ByteAccess
import OpenSand.Lib.Word
import OpenSand.Saloha.PacketData

/-!
Slotted Aloha data packets as bytes (`saloha_data_hdr_t`).

A packet is a header of 15 bytes, its replicas on 2 bytes each and its payload,
with all numbers in network order. The getters of the source cast the bytes to a
header without a look at their length, so that each of them can reach beyond the
bytes. `substr` checks where it starts and clips what it takes.
-/

namespace OpenSand

open OpenSand.Bytes OpenSand.Word

/-- `sizeof(saloha_data_hdr_t)`. -/
def salohaDataHdrLength : Nat := 15

/-- The fields of the header (`saloha_data_hdr_t`), replicas apart. -/
structure SalohaDataHdr where
  id : UInt32
  ts : UInt16
  seq : UInt16
  pduNb : UInt16
  nbReplicas : UInt16
  qos : UInt8
  totalLength : UInt16
deriving DecidableEq, Repr

namespace SalohaDataHdr

def fields (header : SalohaDataHdr) : List Data :=
  [toBE 4 header.id.toNat, toBE 2 header.ts.toNat, toBE 2 header.seq.toNat,
    toBE 2 header.pduNb.toNat, toBE 2 header.nbReplicas.toNat, toBE 1 header.qos.toNat,
    toBE 2 header.totalLength.toNat]

/-- A header in front of other bytes. -/
def put (header : SalohaDataHdr) (rest : Data) : Data := header.fields.flatten ++ rest

end SalohaDataHdr

/-- The object of a data packet. -/
structure SalohaDataBytes where
  data : Data
  headerLength : Nat
  srcTalId : Nat
deriving DecidableEq, Repr

namespace SalohaDataBytes

def getId (data : Data) : Except Fault Nat := (read 0 4 data).map ofBE
def getTs (data : Data) : Except Fault Nat := (read 4 2 data).map ofBE
def getSeq (data : Data) : Except Fault Nat := (read 6 2 data).map ofBE
def getPduNb (data : Data) : Except Fault Nat := (read 8 2 data).map ofBE
def getNbReplicas (data : Data) : Except Fault Nat := (read 10 2 data).map ofBE
def getQos (data : Data) : Except Fault Nat := (read 12 1 data).map ofBE
def getTotalLength (data : Data) : Except Fault Nat := (read 13 2 data).map ofBE

/-- `getPacketLength`, on the bytes that start with a packet. -/
def getPacketLength (data : Data) : Except Fault Nat := getTotalLength data

/-- The test lets the position after the last replica through. -/
def getReplica (pos : Nat) (data : Data) : Except Fault Nat := do
  let nbReplicas ← getNbReplicas data
  if nbReplicas < pos then .ok 0
  else (read (salohaDataHdrLength + 2 * pos) 2 data).map ofBE

def getReplicasLength (data : Data) : Except Fault Nat := (getNbReplicas data).map (2 * ·)

/-- The length left by the header and the replicas, on 64 bits. -/
def getPayloadLength (data : Data) : Except Fault Nat := do
  let totalLength ← getTotalLength data
  let replicasLength ← getReplicasLength data
  .ok (subW 64 (subW 64 totalLength salohaDataHdrLength) replicasLength)

def getPayload (data : Data) : Except Fault Data := do
  let replicasLength ← getReplicasLength data
  let payloadLength ← getPayloadLength data
  substr (salohaDataHdrLength + replicasLength) payloadLength data

def setTs (ts : UInt16) (packet : SalohaDataBytes) : Except Fault SalohaDataBytes :=
  (write 4 (toBE 2 ts.toNat) packet.data).map fun data => { packet with data := data }

def setQos (qos : UInt8) (packet : SalohaDataBytes) : Except Fault SalohaDataBytes :=
  (write 12 (toBE 1 qos.toNat) packet.data).map fun data => { packet with data := data }

/-- The replicas written one after the other from a position. -/
def writeReplicas : Nat → List UInt16 → Data → Except Fault Data
  | _, [], data => .ok data
  | pos, replica :: replicas, data => do
      let data ← write (salohaDataHdrLength + 2 * pos) (toBE 2 replica.toNat) data
      writeReplicas (pos + 1) replicas data

/-- Make room for `nbReplicas` replicas behind the header. Fewer replicas than
before erase twice their bytes. -/
def adjustReplicas (headerLength former nbReplicas : Nat) (data : Data) : Except Fault Data :=
  if former < nbReplicas then
    insert headerLength (List.replicate ((nbReplicas - former) * 2) 0) data
  else if nbReplicas < former then erase headerLength ((former - nbReplicas) * 2 * 2) data
  else .ok data

/-- Write `nbReplicas` replicas, or only make room for them. The total length is
left alone. -/
def setReplicas (replicas : Option (List UInt16)) (nbReplicas : Nat) (packet : SalohaDataBytes) :
    Except Fault SalohaDataBytes := do
  let former ← getNbReplicas packet.data
  let data ← adjustReplicas packet.headerLength former nbReplicas packet.data
  let data ← write 10 (toBE 2 (UInt16.ofNat nbReplicas).toNat) data
  let data ← writeReplicas 0 (replicas.getD []) data
  .ok { packet with data := data }

/-- What the header on the stack holds before it is filled. -/
structure Stack where
  qos : UInt8
  totalLength : UInt16

/-- The constructor from a payload. -/
def new (stack : Stack) (payload : Data) (id : UInt32) (ts seq pduNb nbReplicas : UInt16)
    (srcTalId : Nat) : Except Fault SalohaDataBytes := do
  let header : SalohaDataHdr := ⟨id, ts, seq, pduNb, 0, stack.qos, stack.totalLength⟩
  let packet : SalohaDataBytes := ⟨header.put payload, salohaDataHdrLength, srcTalId⟩
  let packet ← packet.setReplicas none nbReplicas.toNat
  let data ← write 13 (toBE 2 (UInt16.ofNat packet.data.length).toNat) packet.data
  .ok { packet with
    data := data
    headerLength := salohaDataHdrLength + nbReplicas.toNat * 2 }

/-- The constructor from received bytes that start with a packet. -/
def ofData (data : Data) (length : Nat) : SalohaDataBytes :=
  ⟨data.take length, salohaDataHdrLength, 0⟩

end SalohaDataBytes

/-! ### Packets as they are meant to lie in memory -/

namespace SlottedAlohaPacketData

/-- The length of a packet with its header and replicas. -/
def length (packet : SlottedAlohaPacketData) : Nat :=
  salohaDataHdrLength + 2 * packet.replicas.length + packet.payload.length

def header (packet : SlottedAlohaPacketData) : SalohaDataHdr where
  id := packet.id
  ts := packet.ts
  seq := packet.seq
  pduNb := packet.pduNb
  nbReplicas := .ofNat packet.replicas.length
  qos := packet.qos
  totalLength := .ofNat packet.length

def replicasBytes (replicas : List UInt16) : Data :=
  replicas.flatMap fun replica => toBE 2 replica.toNat

def bytes (packet : SlottedAlohaPacketData) : Data :=
  packet.header.put (replicasBytes packet.replicas ++ packet.payload)

/-- The packet the terminal builds: the constructor, the quality of service, then
the replicas and the slot of one of the copies. -/
def build (stack : SalohaDataBytes.Stack) (packet : SlottedAlohaPacketData) :
    Except Fault SalohaDataBytes := do
  let sent ← SalohaDataBytes.new stack packet.payload packet.id 0 packet.seq packet.pduNb
    (UInt16.ofNat packet.replicas.length) packet.srcTalId
  let sent ← sent.setQos packet.qos
  let sent ← sent.setReplicas (some packet.replicas) packet.replicas.length
  sent.setTs packet.ts

/-- The packet read back from its bytes. -/
def ofBytes (received : SalohaDataBytes) : Except Fault SlottedAlohaPacketData := do
  let data := received.data
  let id ← SalohaDataBytes.getId data
  let ts ← SalohaDataBytes.getTs data
  let seq ← SalohaDataBytes.getSeq data
  let pduNb ← SalohaDataBytes.getPduNb data
  let qos ← SalohaDataBytes.getQos data
  let nbReplicas ← SalohaDataBytes.getNbReplicas data
  let replicas ← (List.range nbReplicas).mapM fun pos => SalohaDataBytes.getReplica pos data
  let payload ← SalohaDataBytes.getPayload data
  .ok {
    id := .ofNat id
    ts := .ofNat ts
    seq := .ofNat seq
    pduNb := .ofNat pduNb
    qos := .ofNat qos
    replicas := replicas.map .ofNat
    payload := payload
    srcTalId := received.srcTalId }

end SlottedAlohaPacketData

/-! ### A header in front of other bytes -/

namespace SalohaDataHdr

variable (header : SalohaDataHdr) (rest : Data)

theorem fields_length : header.fields.flatten.length = salohaDataHdrLength := by
  simp [fields, salohaDataHdrLength]

@[simp] theorem put_length : (header.put rest).length = salohaDataHdrLength + rest.length := by
  rw [put, List.length_append, fields_length]

@[simp] theorem getId_put : SalohaDataBytes.getId (header.put rest) = .ok header.id.toNat := by
  rw [SalohaDataBytes.getId, put, read_field (i := 0) rfl (by simp) (toBE_length 4 _)]
  exact congrArg Except.ok (ofBE_toBE header.id.toNat_lt)

@[simp] theorem getTs_put : SalohaDataBytes.getTs (header.put rest) = .ok header.ts.toNat := by
  rw [SalohaDataBytes.getTs, put, read_field (i := 1) rfl (by simp [fields]) (toBE_length 2 _)]
  exact congrArg Except.ok (ofBE_toBE header.ts.toNat_lt)

@[simp] theorem getSeq_put : SalohaDataBytes.getSeq (header.put rest) = .ok header.seq.toNat := by
  rw [SalohaDataBytes.getSeq, put, read_field (i := 2) rfl (by simp [fields]) (toBE_length 2 _)]
  exact congrArg Except.ok (ofBE_toBE header.seq.toNat_lt)

@[simp] theorem getPduNb_put :
    SalohaDataBytes.getPduNb (header.put rest) = .ok header.pduNb.toNat := by
  rw [SalohaDataBytes.getPduNb, put, read_field (i := 3) rfl (by simp [fields]) (toBE_length 2 _)]
  exact congrArg Except.ok (ofBE_toBE header.pduNb.toNat_lt)

@[simp] theorem getNbReplicas_put :
    SalohaDataBytes.getNbReplicas (header.put rest) = .ok header.nbReplicas.toNat := by
  rw [SalohaDataBytes.getNbReplicas, put,
    read_field (i := 4) rfl (by simp [fields]) (toBE_length 2 _)]
  exact congrArg Except.ok (ofBE_toBE header.nbReplicas.toNat_lt)

@[simp] theorem getQos_put : SalohaDataBytes.getQos (header.put rest) = .ok header.qos.toNat := by
  rw [SalohaDataBytes.getQos, put, read_field (i := 5) rfl (by simp [fields]) (toBE_length 1 _)]
  exact congrArg Except.ok (ofBE_toBE header.qos.toNat_lt)

@[simp] theorem getTotalLength_put :
    SalohaDataBytes.getTotalLength (header.put rest) = .ok header.totalLength.toNat := by
  rw [SalohaDataBytes.getTotalLength, put,
    read_field (i := 6) rfl (by simp [fields]) (toBE_length 2 _)]
  exact congrArg Except.ok (ofBE_toBE header.totalLength.toNat_lt)

theorem write_ts (ts : UInt16) :
    write 4 (toBE 2 ts.toNat) (header.put rest) = .ok ({ header with ts := ts }.put rest) :=
  write_field (i := 1) rfl (by simp [fields]) (by simp)

theorem write_nbReplicas (nbReplicas : UInt16) :
    write 10 (toBE 2 nbReplicas.toNat) (header.put rest) =
      .ok ({ header with nbReplicas := nbReplicas }.put rest) :=
  write_field (i := 4) rfl (by simp [fields]) (by simp)

theorem write_qos (qos : UInt8) :
    write 12 (toBE 1 qos.toNat) (header.put rest) = .ok ({ header with qos := qos }.put rest) :=
  write_field (i := 5) rfl (by simp [fields]) (by simp)

theorem write_totalLength (totalLength : UInt16) :
    write 13 (toBE 2 totalLength.toNat) (header.put rest) =
      .ok ({ header with totalLength := totalLength }.put rest) :=
  write_field (i := 6) rfl (by simp [fields]) (by simp)

theorem drop_put (n : Nat) : (header.put rest).drop (salohaDataHdrLength + n) = rest.drop n := by
  rw [put, List.drop_append, fields_length, List.drop_eq_nil_of_le]
  · simp
  · rw [fields_length]
    omega

theorem take_put (n : Nat) :
    (header.put rest).take (salohaDataHdrLength + n) = header.put (rest.take n) := by
  rw [put, put, List.take_append, fields_length, List.take_of_length_le]
  · simp
  · rw [fields_length]
    omega

end SalohaDataHdr

/-! ### What the terminal builds and what is read back -/

namespace SalohaDataBytes

variable {header : SalohaDataHdr} {rest : Data}

theorem insert_put (bytes : Data) :
    insert salohaDataHdrLength bytes (header.put rest) = .ok (header.put (bytes ++ rest)) := by
  have taken := header.take_put rest 0
  have dropped := header.drop_put rest 0
  simp only [Nat.add_zero, List.take_zero, List.drop_zero] at taken dropped
  rw [Bytes.insert, if_pos (by simp), taken, dropped]
  simp [SalohaDataHdr.put]

/-- The replicas fill the room behind those already written. -/
theorem writeReplicas_put (replicas : List UInt16) {written room : Data} {pos : Nat}
    (behind : written.length = 2 * pos) (enough : room.length = 2 * replicas.length) :
    writeReplicas pos replicas (header.put (written ++ (room ++ rest))) =
      .ok (header.put (written ++ (SlottedAlohaPacketData.replicasBytes replicas ++ rest))) := by
  induction replicas generalizing written room pos with
  | nil =>
      have : room = [] := List.length_eq_zero_iff.mp enough
      subst this
      rfl
  | cons replica replicas ih =>
      have first : (room.take 2).length = (toBE 2 replica.toNat).length := by
        rw [toBE_length, List.length_take, enough, List.length_cons]
        omega
      have parts : header.put (written ++ (room ++ rest)) =
          (header.fields.flatten ++ written) ++ (room.take 2 ++ (room.drop 2 ++ rest)) := by
        rw [← List.append_assoc (room.take 2), List.take_append_drop, List.append_assoc]
        rfl
      have wrote : write (salohaDataHdrLength + 2 * pos) (toBE 2 replica.toNat)
          (header.put (written ++ (room ++ rest))) =
            .ok (header.put ((written ++ toBE 2 replica.toNat) ++ (room.drop 2 ++ rest))) := by
        rw [parts, write_append (by rw [List.length_append, SalohaDataHdr.fields_length, behind])
          first]
        simp only [SalohaDataHdr.put, List.append_assoc]
      rw [writeReplicas, wrote]
      change writeReplicas (pos + 1) replicas _ = _
      rw [ih (by simp [behind]; omega) (by simp [enough]; omega)]
      simp [SlottedAlohaPacketData.replicasBytes, List.append_assoc]

end SalohaDataBytes

namespace SlottedAlohaPacketData

open SalohaDataBytes

theorem replicasBytes_length (replicas : List UInt16) :
    (replicasBytes replicas).length = 2 * replicas.length := by
  simp [replicasBytes, Nat.mul_comm]

theorem bytes_length (packet : SlottedAlohaPacketData) : packet.bytes.length = packet.length := by
  simp only [bytes, SalohaDataHdr.put_length, List.length_append, replicasBytes_length, length]
  omega

variable {packet : SlottedAlohaPacketData}

/-- Room is made for the replicas of a packet that has none. -/
theorem setReplicas_none (header : SalohaDataHdr) (rest : Data) (nbReplicas : UInt16)
    (srcTalId : Nat) (no_replicas : header.nbReplicas = 0) :
    SalohaDataBytes.setReplicas none nbReplicas.toNat
        ⟨header.put rest, salohaDataHdrLength, srcTalId⟩ =
      .ok ⟨{ header with nbReplicas := nbReplicas }.put
          (List.replicate (2 * nbReplicas.toNat) 0 ++ rest), salohaDataHdrLength, srcTalId⟩ := by
  have former : getNbReplicas (header.put rest) = .ok 0 := by
    rw [SalohaDataHdr.getNbReplicas_put, no_replicas]
    rfl
  have count : UInt16.ofNat nbReplicas.toNat = nbReplicas := UInt16.ofNat_toNat
  have room : adjustReplicas salohaDataHdrLength 0 nbReplicas.toNat (header.put rest) =
      .ok (header.put (List.replicate (2 * nbReplicas.toNat) 0 ++ rest)) := by
    rw [adjustReplicas]
    split
    · rw [insert_put, Nat.sub_zero, Nat.mul_comm]
    · have none_asked : nbReplicas.toNat = 0 := by omega
      simp [none_asked]
  simp only [SalohaDataBytes.setReplicas, former, room, count, bind, Except.bind,
    SalohaDataHdr.write_nbReplicas, Option.getD_none, writeReplicas]

/-- The replicas take the place of those of a packet that has as many. -/
theorem setReplicas_some (header : SalohaDataHdr) (room rest : Data) (replicas : List UInt16)
    (headerLength srcTalId : Nat) (count : header.nbReplicas.toNat = replicas.length)
    (enough : room.length = 2 * replicas.length) :
    SalohaDataBytes.setReplicas (some replicas) replicas.length
        ⟨header.put (room ++ rest), headerLength, srcTalId⟩ =
      .ok ⟨header.put (replicasBytes replicas ++ rest), headerLength, srcTalId⟩ := by
  have same : UInt16.ofNat replicas.length = header.nbReplicas := by
    rw [← count, UInt16.ofNat_toNat]
  have wrote : writeReplicas 0 replicas (header.put ([] ++ (room ++ rest))) =
      .ok (header.put ([] ++ (replicasBytes replicas ++ rest))) :=
    writeReplicas_put replicas rfl enough
  rw [List.nil_append, List.nil_append] at wrote
  have kept := header.write_nbReplicas (room ++ rest) header.nbReplicas
  rw [count] at kept
  simp only [SalohaDataBytes.setReplicas, adjustReplicas, SalohaDataHdr.getNbReplicas_put, count,
    same, bind, Except.bind, Nat.lt_irrefl, if_false, kept, Option.getD_some]
  rw [wrote]

theorem new_eq (stack : Stack) (payload : Data) (id : UInt32) (ts seq pduNb nbReplicas : UInt16)
    (srcTalId : Nat) :
    SalohaDataBytes.new stack payload id ts seq pduNb nbReplicas srcTalId =
      .ok {
        data := SalohaDataHdr.put ⟨id, ts, seq, pduNb, nbReplicas, stack.qos,
            .ofNat (salohaDataHdrLength + 2 * nbReplicas.toNat + payload.length)⟩
          (List.replicate (2 * nbReplicas.toNat) 0 ++ payload)
        headerLength := salohaDataHdrLength + nbReplicas.toNat * 2
        srcTalId := srcTalId } := by
  simp only [SalohaDataBytes.new, setReplicas_none, bind, Except.bind,
    SalohaDataHdr.write_totalLength, SalohaDataHdr.put_length, List.length_append,
    List.length_replicate, Nat.add_assoc]

/-- The packet built is laid out as it is meant to be, its length taken on 16 bits. -/
theorem build_eq (stack : Stack) (few : packet.replicas.length < 2 ^ 16) :
    packet.build stack =
      .ok ⟨packet.bytes, salohaDataHdrLength + packet.replicas.length * 2, packet.srcTalId⟩ := by
  have count : (UInt16.ofNat packet.replicas.length).toNat = packet.replicas.length :=
    UInt16.toNat_ofNat_of_lt' few
  simp only [build, new_eq, bind, Except.bind, SalohaDataBytes.setQos, Except.map,
    SalohaDataHdr.write_qos, count]
  rw [setReplicas_some _ _ _ _ _ _ count (List.length_replicate ..)]
  simp only [SalohaDataBytes.setTs, SalohaDataHdr.write_ts, Except.map]
  rfl

/-! ### Reading back -/

theorem mapM_ok {α β : Type} {f : α → Except Fault β} {g : α → β} {items : List α}
    (each : ∀ item ∈ items, f item = .ok (g item)) : items.mapM f = .ok (items.map g) := by
  induction items with
  | nil => rfl
  | cons item items ih =>
      rw [List.mapM_cons, each item List.mem_cons_self,
        ih fun other mem => each other (List.mem_cons_of_mem _ mem)]
      rfl

theorem getReplica_put (header : SalohaDataHdr) (rest : Data) {replicas : List UInt16} {pos : Nat}
    (count : header.nbReplicas.toNat = replicas.length) (below : pos < replicas.length) :
    getReplica pos (header.put (replicasBytes replicas ++ rest)) = .ok replicas[pos].toNat := by
  have split : replicas = replicas.take pos ++ replicas[pos] :: replicas.drop (pos + 1) := by
    rw [← List.drop_eq_getElem_cons below, List.take_append_drop]
  have parts : header.put (replicasBytes replicas ++ rest) =
      (header.fields.flatten ++ replicasBytes (replicas.take pos)) ++
        (toBE 2 replicas[pos].toNat ++ (replicasBytes (replicas.drop (pos + 1)) ++ rest)) := by
    conv_lhs => rw [split]
    simp only [SalohaDataHdr.put, replicasBytes, List.flatMap_append, List.flatMap_cons,
      List.append_assoc]
  have before : (header.fields.flatten ++ replicasBytes (replicas.take pos)).length =
      salohaDataHdrLength + 2 * pos := by
    rw [List.length_append, SalohaDataHdr.fields_length, replicasBytes_length, List.length_take,
      Nat.min_eq_left below.le]
  simp only [getReplica, SalohaDataHdr.getNbReplicas_put, bind, Except.bind, count,
    Nat.not_lt.mpr below.le, if_false]
  rw [parts, read_append before (toBE_length ..)]
  exact congrArg Except.ok (ofBE_toBE replicas[pos].toNat_lt)

/-- The payload is read from behind the replicas, as far as the total length tells. -/
theorem getPayload_put (header : SalohaDataHdr) (payload : Data) {replicas : List UInt16}
    (count : header.nbReplicas.toNat = replicas.length)
    (total : header.totalLength.toNat =
      salohaDataHdrLength + 2 * replicas.length + payload.length) :
    getPayload (header.put (replicasBytes replicas ++ payload)) = .ok payload := by
  have short : salohaDataHdrLength + 2 * replicas.length + payload.length < 2 ^ 16 :=
    total ▸ header.totalLength.toNat_lt
  have left : subW 64 (subW 64 (salohaDataHdrLength + 2 * replicas.length + payload.length)
      salohaDataHdrLength) (2 * replicas.length) = payload.length := by
    rw [subW_of_le (a := salohaDataHdrLength + _ + _) (by omega) (by omega),
      subW_of_le (by omega) (by omega)]
    omega
  simp only [getPayload, getReplicasLength, getPayloadLength,
    SalohaDataHdr.getNbReplicas_put, SalohaDataHdr.getTotalLength_put, Except.map, bind,
    Except.bind, count, total, left]
  have parts : header.put (replicasBytes replicas ++ payload) =
      (header.fields.flatten ++ replicasBytes replicas) ++ (payload ++ []) := by
    rw [SalohaDataHdr.put, List.append_assoc, List.append_nil]
  rw [parts]
  refine substr_append ?_ rfl
  rw [List.length_append, SalohaDataHdr.fields_length, replicasBytes_length]

theorem getPayload_bytes (short : packet.length < 2 ^ 16) :
    getPayload packet.bytes = .ok packet.payload := by
  have few : packet.replicas.length < 2 ^ 16 := by
    simp only [length] at short
    omega
  exact getPayload_put packet.header packet.payload (UInt16.toNat_ofNat_of_lt' few)
    (UInt16.toNat_ofNat_of_lt' short)

/-- A packet that is shorter than its length field can tell is read back as it was. -/
theorem ofBytes_bytes (headerLength srcTalId : Nat) (short : packet.length < 2 ^ 16) :
    ofBytes ⟨packet.bytes, headerLength, srcTalId⟩ = .ok { packet with srcTalId := srcTalId } := by
  have few : packet.replicas.length < 2 ^ 16 := by
    simp only [length] at short
    omega
  have count : packet.header.nbReplicas.toNat = packet.replicas.length :=
    UInt16.toNat_ofNat_of_lt' few
  have replicas : (List.range packet.replicas.length).mapM (fun pos => getReplica pos packet.bytes) =
      .ok (packet.replicas.map UInt16.toNat) := by
    rw [mapM_ok (g := fun pos => (packet.replicas.map UInt16.toNat)[pos]?.getD 0)]
    · congr 1
      refine List.ext_getElem (by simp) fun pos _ below => ?_
      rw [List.length_map] at below
      simp [below]
    · intro pos mem
      have below := List.mem_range.mp mem
      rw [bytes, getReplica_put _ _ count below]
      simp [below]
  have payload := getPayload_bytes short
  simp only [ofBytes, bind, Except.bind, payload, replicas, bytes, SalohaDataHdr.getId_put,
    SalohaDataHdr.getTs_put, SalohaDataHdr.getSeq_put, SalohaDataHdr.getPduNb_put,
    SalohaDataHdr.getQos_put, SalohaDataHdr.getNbReplicas_put, count] at replicas payload ⊢
  simp [header, Function.comp_def]

end SlottedAlohaPacketData

end OpenSand
