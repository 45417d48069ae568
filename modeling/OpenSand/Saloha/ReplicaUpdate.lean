import OpenSand.Saloha.PacketBytes

/-!
New replicas for a data packet (`setReplicas`).

The room for the replicas is made at the end of the header, which a packet built around
its payload takes to be behind its replicas and a received one before them. It is counted
in bytes, and in bytes again when there are fewer replicas than before. The length of the
packet that its header tells is not written again.
-/

namespace OpenSand

open OpenSand.Bytes OpenSand.Word

/-! ### Packet objects -/

/-- How a packet object came to be: around a payload, or from received bytes. -/
inductive PacketOrigin where
  | built | received
deriving DecidableEq, Repr

namespace PacketOrigin

/-- The length of the header that the object keeps. -/
def headerLength (origin : PacketOrigin) (packet : SlottedAlohaPacketData) : Nat :=
  match origin with
  | built => salohaDataHdrLength + packet.replicas.length * 2
  | received => salohaDataHdrLength

/-- The number of replicas of a built packet is given on 16 bits. A received one is as long
as its header tells. -/
def Fits (origin : PacketOrigin) (packet : SlottedAlohaPacketData) : Prop :=
  match origin with
  | built => packet.replicas.length < 2 ^ 16
  | received => packet.length < 2 ^ 16

instance (origin : PacketOrigin) (packet : SlottedAlohaPacketData) :
    Decidable (origin.Fits packet) := by
  unfold Fits
  cases origin <;> infer_instance

end PacketOrigin

/-- A packet object whose bytes are those of a packet. -/
structure DataPacket where
  packet : SlottedAlohaPacketData
  origin : PacketOrigin
  fits : origin.Fits packet

namespace DataPacket

def object (sent : DataPacket) : SalohaDataBytes :=
  ⟨sent.packet.bytes, sent.origin.headerLength sent.packet, sent.packet.srcTalId⟩

/-- What new replicas are to change: they are read back with their number, the header tells the
length of the packet, and the payload is what it was. -/
def ReplicasSet (sent : DataPacket) (replicas : List UInt16) : Prop :=
  ∃ updated, sent.object.setReplicas (some replicas) replicas.length = .ok updated ∧
    (∀ (pos : Nat) (below : pos < replicas.length),
      SalohaDataBytes.getReplica pos updated.data = .ok (replicas.get ⟨pos, below⟩).toNat) ∧
    SalohaDataBytes.getNbReplicas updated.data = .ok replicas.length ∧
    SalohaDataBytes.getTotalLength updated.data = .ok updated.data.length ∧
    SalohaDataBytes.getPayload updated.data = .ok sent.packet.payload

variable {sent : DataPacket}

theorem few (sent : DataPacket) : sent.packet.replicas.length < 2 ^ 16 := by
  have fits := sent.fits
  unfold PacketOrigin.Fits at fits
  split at fits
  · exact fits
  · simp only [SlottedAlohaPacketData.length] at fits
    omega

/-- What the terminal builds is such an object. -/
theorem build_eq_object (packet : SlottedAlohaPacketData) (stack : SalohaDataBytes.Stack)
    (few : packet.replicas.length < 2 ^ 16) :
    packet.build stack = .ok (object ⟨packet, .built, few⟩) :=
  SlottedAlohaPacketData.build_eq stack few

/-- And so is what is received, among other bytes, up to the terminal it comes from. -/
theorem ofData_eq_object (packet : SlottedAlohaPacketData) (rest : Data)
    (short : packet.length < 2 ^ 16) :
    { SalohaDataBytes.ofData (packet.bytes ++ rest) packet.length with
      srcTalId := packet.srcTalId } = object ⟨packet, .received, short⟩ := by
  rw [SalohaDataBytes.ofData, ← packet.bytes_length, List.take_left]
  rfl

end DataPacket

/-! ### Room for the replicas -/

namespace SalohaDataBytes

variable {header : SalohaDataHdr} {rest : Data}

/-- The replicas do not change the length of the bytes, and stay within them. -/
theorem writeReplicas_length {replicas : List UInt16} {pos : Nat} {data written : Data}
    (wrote : writeReplicas pos replicas data = .ok written) :
    replicas = [] ∨ salohaDataHdrLength + 2 * (pos + replicas.length) ≤ data.length := by
  induction replicas generalizing pos data with
  | nil => exact .inl rfl
  | cons replica replicas ih =>
      refine .inr ?_
      rw [writeReplicas] at wrote
      cases first : write (salohaDataHdrLength + 2 * pos) (toBE 2 replica.toNat) data with
      | error fault =>
          rw [first] at wrote
          cases wrote
      | ok data' =>
          obtain ⟨inside, length⟩ := write_eq_ok first
          rw [toBE_length] at inside
          rw [first] at wrote
          rcases ih wrote with rfl | inside'
          · simp only [List.length_cons, List.length_nil]
            omega
          · rw [List.length_cons]
            omega

/-- The replicas are set where there is room for them behind the header, and only there. -/
theorem setReplicas_adjusted {replicas : List UInt16} {headerLength srcTalId : Nat} {former : Data}
    (adjusted : adjustReplicas headerLength header.nbReplicas.toNat replicas.length
      (header.put former) = .ok (header.put rest)) {updated : SalohaDataBytes} :
    setReplicas (some replicas) replicas.length ⟨header.put former, headerLength, srcTalId⟩ =
        .ok updated ↔
      2 * replicas.length ≤ rest.length ∧
        updated = ⟨{ header with nbReplicas := .ofNat replicas.length }.put
          (SlottedAlohaPacketData.replicasBytes replicas ++ rest.drop (2 * replicas.length)),
          headerLength, srcTalId⟩ := by
  simp only [setReplicas, SalohaDataHdr.getNbReplicas_put, bind, Except.bind, adjusted,
    SalohaDataHdr.write_nbReplicas, Option.getD_some]
  by_cases room : 2 * replicas.length ≤ rest.length
  · have wrote : writeReplicas 0 replicas
        ({ header with nbReplicas := .ofNat replicas.length }.put
          ([] ++ (rest.take (2 * replicas.length) ++ rest.drop (2 * replicas.length)))) = _ :=
      writeReplicas_put replicas rfl (List.length_take_of_le room)
    rw [List.nil_append, List.nil_append, List.take_append_drop] at wrote
    rw [wrote]
    simp [room, eq_comm]
  · refine iff_of_false (fun ran => ?_) fun ran => room ran.1
    cases wrote : writeReplicas 0 replicas
        ({ header with nbReplicas := .ofNat replicas.length }.put rest) with
    | error fault =>
        rw [wrote] at ran
        cases ran
    | ok written =>
        rcases writeReplicas_length wrote with rfl | inside
        · exact room (Nat.zero_le _)
        · rw [SalohaDataHdr.put_length] at inside
          omega

/-- Room is made, or taken away twice, from `pos` on in what follows the header. -/
theorem adjustReplicas_put (header : SalohaDataHdr) {former : Data} {pos : Nat}
    (inside : pos ≤ former.length) (nbReplicas : Nat) :
    ∃ rest, adjustReplicas (salohaDataHdrLength + pos) header.nbReplicas.toNat nbReplicas
        (header.put former) = .ok (header.put rest) ∧
      (header.nbReplicas.toNat = nbReplicas → rest = former) ∧
      (header.nbReplicas.toNat < nbReplicas →
        rest.length = former.length + 2 * (nbReplicas - header.nbReplicas.toNat)) ∧
      (nbReplicas < header.nbReplicas.toNat →
        rest.length =
          former.length - min (former.length - pos) (4 * (header.nbReplicas.toNat - nbReplicas))) := by
  have within : salohaDataHdrLength + pos ≤ (header.put former).length := by
    rw [SalohaDataHdr.put_length]
    omega
  unfold adjustReplicas
  by_cases more : header.nbReplicas.toNat < nbReplicas
  · refine ⟨former.take pos ++
      List.replicate ((nbReplicas - header.nbReplicas.toNat) * 2) 0 ++ former.drop pos,
      ?_, fun same => absurd same more.ne, fun _ => ?_, fun less => absurd less more.asymm⟩
    · rw [if_pos more, Bytes.insert, if_pos within, SalohaDataHdr.take_put, SalohaDataHdr.drop_put]
      simp only [SalohaDataHdr.put, List.append_assoc]
    · simp only [List.length_append, List.length_take, List.length_replicate, List.length_drop]
      omega
  by_cases less : nbReplicas < header.nbReplicas.toNat
  · refine ⟨former.take pos ++ former.drop (pos + (header.nbReplicas.toNat - nbReplicas) * 2 * 2),
      ?_, fun same => absurd same less.ne', fun more' => absurd more' more, fun _ => ?_⟩
    · rw [if_neg more, if_pos less, Bytes.erase, if_pos within, SalohaDataHdr.take_put,
        Nat.add_assoc, SalohaDataHdr.drop_put]
      simp only [SalohaDataHdr.put, List.append_assoc]
    · simp only [List.length_append, List.length_take, List.length_drop]
      omega
  · exact ⟨former, by rw [if_neg more, if_neg less], fun _ => rfl, fun more' => absurd more' more,
      fun less' => absurd less' less⟩

end SalohaDataBytes

namespace DataPacket

open SalohaDataBytes SlottedAlohaPacketData

variable {sent : DataPacket} {replicas : List UInt16}

/-- The header that the object keeps ends behind the replicas or before them. -/
theorem headerLength_cases (sent : DataPacket) :
    ∃ pos, sent.object.headerLength = salohaDataHdrLength + pos ∧
      (pos = 2 * sent.packet.replicas.length ∨ pos = 0 ∧ sent.packet.length < 2 ^ 16) := by
  obtain ⟨packet, origin, fits⟩ := sent
  cases origin with
  | built => exact ⟨packet.replicas.length * 2, rfl, .inl (Nat.mul_comm ..)⟩
  | received => exact ⟨0, rfl, .inr ⟨rfl, fits⟩⟩

theorem header_nbReplicas (sent : DataPacket) :
    sent.packet.header.nbReplicas.toNat = sent.packet.replicas.length :=
  UInt16.toNat_ofNat_of_lt' sent.few

/-- New replicas that are set leave as many bytes as before, and few enough to be told. -/
theorem same_of_replicasSet (set : sent.ReplicasSet replicas) :
    replicas.length = sent.packet.replicas.length ∧ sent.packet.length < 2 ^ 16 := by
  obtain ⟨updated, ran, -, number, told, payload⟩ := set
  obtain ⟨pos, header, place⟩ := sent.headerLength_cases
  have former : (replicasBytes sent.packet.replicas ++ sent.packet.payload).length =
      2 * sent.packet.replicas.length + sent.packet.payload.length := by
    rw [List.length_append, replicasBytes_length]
  have inside : pos ≤ (replicasBytes sent.packet.replicas ++ sent.packet.payload).length := by
    omega
  obtain ⟨rest, adjusted, same, more, less⟩ :=
    adjustReplicas_put sent.packet.header inside replicas.length
  rw [← header] at adjusted
  obtain ⟨room, rfl⟩ := (setReplicas_adjusted adjusted).mp ran
  rw [SalohaDataHdr.getNbReplicas_put] at number
  have number := Except.ok.inj number
  rw [SalohaDataHdr.getTotalLength_put, SalohaDataHdr.put_length, List.length_append,
    replicasBytes_length, List.length_drop] at told
  have told : sent.packet.header.totalLength.toNat = _ := Except.ok.inj told
  rw [getPayload_put _ _ number (by rw [List.length_drop]; exact told.trans (Nat.add_assoc ..).symm)]
    at payload
  have kept := congrArg List.length (Except.ok.inj payload)
  rw [List.length_drop] at kept
  have total : sent.packet.header.totalLength.toNat = sent.packet.length % 2 ^ 16 :=
    UInt16.toNat_ofNat'
  rw [header_nbReplicas] at same more less
  rw [former] at more less
  have few := sent.few
  simp only [SlottedAlohaPacketData.length, salohaDataHdrLength] at total told place ⊢
  rcases Nat.lt_trichotomy sent.packet.replicas.length replicas.length with grow | equal | shrink
  · have := more grow
    omega
  · rw [same equal, former] at told
    omega
  · have := less shrink
    omega

/-- As many replicas as before take their place. -/
theorem replicasSet_of_same (same : replicas.length = sent.packet.replicas.length)
    (short : sent.packet.length < 2 ^ 16) : sent.ReplicasSet replicas := by
  have count : sent.packet.header.nbReplicas.toNat = replicas.length :=
    sent.header_nbReplicas.trans same.symm
  have total : sent.packet.header.totalLength.toNat = sent.packet.length :=
    UInt16.toNat_ofNat_of_lt' short
  refine ⟨_, setReplicas_some sent.packet.header _ sent.packet.payload replicas _ _ count
    (by rw [replicasBytes_length, same]), fun pos below => getReplica_put _ _ count below, ?_, ?_, ?_⟩
  · rw [SalohaDataHdr.getNbReplicas_put, count]
  · rw [SalohaDataHdr.getTotalLength_put, SalohaDataHdr.put_length, List.length_append,
      replicasBytes_length, total, SlottedAlohaPacketData.length, same, Nat.add_assoc]
  · refine getPayload_put _ _ count ?_
    rw [total, SlottedAlohaPacketData.length, same]

/-- Every data packet and all new replicas. -/
theorem replicasSet_iff (sent : DataPacket) (replicas : List UInt16) :
    sent.ReplicasSet replicas ↔
      replicas.length = sent.packet.replicas.length ∧ sent.packet.length < 2 ^ 16 :=
  ⟨same_of_replicasSet, fun ⟨same, short⟩ => replicasSet_of_same same short⟩

/-- A packet that is built with two replicas and a payload of six bytes. -/
def twoReplicas : DataPacket where
  packet := {
    id := 7
    ts := 0
    seq := 0
    pduNb := 1
    qos := 0
    replicas := [3, 9]
    payload := [1, 2, 3, 4, 5, 6]
    srcTalId := 5 }
  origin := .built
  fits := by decide

/-- With one replica instead of two, its header still tells 25 bytes; of the payload only the
last two are left, behind the replica that should have gone. -/
theorem twoReplicas_oneReplica_not_set : ¬ twoReplicas.ReplicasSet [3] := by
  rintro ⟨updated, ran, -, -, told, -⟩
  have bytes : twoReplicas.object.setReplicas (some [3]) 1 = .ok ⟨[0, 0, 0, 7, 0, 0, 0, 0, 0, 1, 0, 1,
    0, 0, 25, 0, 3, 0, 9, 5, 6], 19, 5⟩ := by decide
  obtain rfl := Except.ok.inj (bytes.symm.trans ran)
  exact absurd told (by decide)

end DataPacket

end OpenSand
