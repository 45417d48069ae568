import OpenSand.Encap.SimpleRle
import OpenSand.Encap.RleRoundTrip
import OpenSand.Lib.Run

/-!
Packets in memory and the record of the partially sent ones (`Rle::PacketHandler`, `sent_packets`).

A packet that comes back is known again by its address, which outlives it when the scheduler drops
the packet or when its fragmentation fails. A packet allocated there later is taken for the one
before and never given to the library. `Recorded` is what the record should hold, and `Safe` the
steps that keep it so.

A fragment identifier of a transmitter holds one packet, the last one that was accepted.
-/

namespace OpenSand

open Run

/-- What the library tells of its queues: an accepted packet is queued under its identifier, and
neither that nor fragmenting changes the other queues. -/
structure Librle.Queues (lib : Librle) : Prop where
  new : ∀ fragId, lib.queueSize lib.newTransmitter fragId = 0
  encapsulate : ∀ transmitter sdu fragId transmitter',
    lib.encapsulate transmitter sdu fragId = some transmitter' →
      0 < lib.queueSize transmitter' fragId ∧
        ∀ other, other ≠ fragId → lib.queueSize transmitter' other = lib.queueSize transmitter other
  burstTooSmall : ∀ transmitter fragId length transmitter',
    lib.fragment transmitter fragId length = .burstTooSmall transmitter' →
      ∀ other, lib.queueSize transmitter' other = lib.queueSize transmitter other
  ppdu : ∀ transmitter fragId length bytes transmitter',
    lib.fragment transmitter fragId length = .ppdu bytes transmitter' →
      ∀ other, other ≠ fragId → lib.queueSize transmitter' other = lib.queueSize transmitter other

namespace Rle

variable {lib : Librle}

/-- The fields of a packet fit in a label. -/
def Fits (packet : NetPacket) : Prop :=
  packet.srcTalId &&& 0x1F = packet.srcTalId ∧ packet.dstTalId &&& 0x1F = packet.dstTalId ∧
    packet.qos &&& 0x07 = packet.qos

instance (packet : NetPacket) : Decidable (Fits packet) := inferInstanceAs (Decidable (_ ∧ _))

/-- The addresses recorded for a source and a destination. -/
def PacketHandler.sent (handler : PacketHandler lib) (identifier : RleIdentifier) : List Nat :=
  (handler.context identifier).2

/-- The handler, the packets in memory by address, each with its serial number, the last packet
that the library accepted under each fragment identifier, and how often each was given to it. -/
structure Memory (lib : Librle) where
  handler : PacketHandler lib
  live : Nat → Option (Nat × NetPacket)
  allocated : Nat
  owner : RleIdentifier × Nat → Option Nat
  given : Nat → Nat

/-- A packet is allocated, given to `encapNextPacket` or dropped by its owner. -/
inductive MemoryEvent where
  | alloc (address : Nat) (packet : NetPacket)
  | encap (address : Nat) (remainingLength : UInt64) (newBurst : Bool)
  | drop (address : Nat)

namespace Memory

def start (lib : Librle) : Memory lib :=
  ⟨⟨fun _ => none⟩, fun _ => none, 0, fun _ => none, fun _ => 0⟩

/-- A packet at an address is given to the library. -/
def Gives (memory : Memory lib) (address : Nat) (packet : NetPacket) : Prop :=
  Fits packet ∧ address ∉ memory.handler.sent (identifierOf packet)

instance (memory : Memory lib) (address : Nat) (packet : NetPacket) :
    Decidable (memory.Gives address packet) := inferInstanceAs (Decidable (_ ∧ _))

/-- The library accepts it. -/
def Accepts (memory : Memory lib) (address : Nat) (packet : NetPacket) : Prop :=
  memory.Gives address packet ∧ (lib.encapsulate (memory.handler.context (identifierOf packet)).1
    packet.data packet.qos).isSome

instance (memory : Memory lib) (address : Nat) (packet : NetPacket) :
    Decidable (memory.Accepts address packet) := inferInstanceAs (Decidable (_ ∧ _))

/-- A call; the packet is destroyed unless it comes back. -/
def encap (memory : Memory lib) (address serial : Nat) (packet : NetPacket)
    (remainingLength : UInt64) (newBurst : Bool) : Memory lib :=
  let result := encapNextPacket memory.handler address packet remainingLength newBurst
  { memory with
    handler := result.handler
    live := if result.remainingData then memory.live else Function.update memory.live address none
    owner := if memory.Accepts address packet then
      Function.update memory.owner (identifierOf packet, packet.qos) (some serial) else memory.owner
    given := if memory.Gives address packet then
      Function.update memory.given serial (memory.given serial + 1) else memory.given }

def alloc (memory : Memory lib) (address : Nat) (packet : NetPacket) : Memory lib :=
  { memory with
    live := Function.update memory.live address (some (memory.allocated, packet))
    allocated := memory.allocated + 1 }

def drop (memory : Memory lib) (address : Nat) : Memory lib :=
  { memory with live := Function.update memory.live address none }

/-- Only packets in memory are given or dropped, and an address is not allocated twice. -/
def step (memory : Memory lib) : MemoryEvent → Option (Memory lib)
  | .alloc address packet =>
      if (memory.live address).isSome then none else some (memory.alloc address packet)
  | .encap address remainingLength newBurst =>
      (memory.live address).map fun (serial, packet) =>
        memory.encap address serial packet remainingLength newBurst
  | .drop address => (memory.live address).map fun _ => memory.drop address

/-- A packet has fragments to send: the library holds it and its queue is not empty. -/
def Pending (memory : Memory lib) (serial : Nat) (packet : NetPacket) : Prop :=
  memory.owner (identifierOf packet, packet.qos) = some serial ∧
    0 < lib.queueSize (memory.handler.context (identifierOf packet)).1 packet.qos

/-- The record holds the packets in memory with fragments to send, and no packet was given to the
library twice. -/
structure Recorded (memory : Memory lib) : Prop where
  record : ∀ identifier address, address ∈ memory.handler.sent identifier ↔
    ∃ serial packet, memory.live address = some (serial, packet) ∧
      identifierOf packet = identifier ∧ memory.Pending serial packet
  once : ∀ serial, memory.given serial ≤ 1

/-- A packet whose fragment is emitted was given to the library. -/
def GivenBefore (memory : Memory lib) (event : MemoryEvent) (memory' : Memory lib) : Prop :=
  ∀ address remainingLength newBurst, event = .encap address remainingLength newBurst →
    ∀ serial packet, memory.live address = some (serial, packet) →
      (encapNextPacket memory.handler address packet remainingLength newBurst).encapPacket ≠ none →
        memory'.given serial = 1

/-- The fragmentation of a packet fails. -/
def Fails (memory : Memory lib) (packet : NetPacket) (remainingLength : UInt64) (newBurst : Bool) :
    Prop :=
  lib.fragment (memory.handler.context (identifierOf packet)).1 packet.qos
    (behindLabel remainingLength newBurst).toNat = .error

/-- A recorded packet is not dropped and its fragmentation does not fail, and the library does not
accept a packet under the fragment identifier of a recorded one. -/
def Safe (memory : Memory lib) : MemoryEvent → Prop
  | .alloc _ _ => True
  | .encap address remainingLength newBurst =>
      ∀ serial packet, memory.live address = some (serial, packet) → Fits packet →
        (address ∈ memory.handler.sent (identifierOf packet) →
          ¬ memory.Fails packet remainingLength newBurst) ∧
        (memory.Accepts address packet → ∀ other ∈ memory.handler.sent (identifierOf packet),
          ∀ serial' packet', memory.live other = some (serial', packet') →
            packet'.qos ≠ packet.qos)
  | .drop address => ∀ serial packet, memory.live address = some (serial, packet) →
      address ∉ memory.handler.sent (identifierOf packet)

end Memory

/-! ### One call of `encapNextPacket` -/

section Call

variable {handler : PacketHandler lib} {address other : Nat} {packet : NetPacket}
  {remainingLength : UInt64} {newBurst : Bool} {sent : List Nat}

theorem encapNextPacket_of_not_fits (large : ¬ Fits packet) :
    encapNextPacket handler address packet remainingLength newBurst =
      ⟨false, handler, none, false⟩ := by
  rw [encapNextPacket, if_pos]
  simp only [Fits, not_and_or] at large
  exact large

theorem encapNextPacket_of_refused (fits : Fits packet)
    (refused : handler.encapsulated address packet = none) :
    encapNextPacket handler address packet remainingLength newBurst =
      ⟨false, handler.store (identifierOf packet) (handler.context (identifierOf packet)), none,
        false⟩ := by
  obtain ⟨src, dst, qos⟩ := fits
  rw [encapNextPacket, if_neg (by simp [src, dst, qos]), refused]
  rfl

/-- A packet that the library holds: its fragmentation fails, it comes back with fragments to send
or it is finished. -/
theorem encapNextPacket_of_taken (queues : lib.Queues) (fits : Fits packet)
    {transmitter : lib.Transmitter}
    (taken : handler.encapsulated address packet = some transmitter)
    (queued : 0 < lib.queueSize transmitter packet.qos) :
    ∃ transmitter',
      (∀ fragId, fragId ≠ packet.qos →
        lib.queueSize transmitter' fragId = lib.queueSize transmitter fragId) ∧
      (lib.fragment transmitter packet.qos (behindLabel remainingLength newBurst).toNat = .error ∧
          encapNextPacket handler address packet remainingLength newBurst =
            ⟨false, handler.store (identifierOf packet)
              (transmitter', handler.sent (identifierOf packet)), none, false⟩ ∨
        lib.fragment transmitter packet.qos (behindLabel remainingLength newBurst).toNat ≠ .error ∧
          ∃ encapPacket back, (back = true → 0 < lib.queueSize transmitter' packet.qos) ∧
            encapNextPacket handler address packet remainingLength newBurst =
              ⟨true, handler.store (identifierOf packet) (transmitter',
                  updateSent (handler.sent (identifierOf packet)) address back),
                encapPacket, back⟩) := by
  obtain ⟨src, dst, qos⟩ := fits
  rw [encapNextPacket, if_neg (by simp [src, dst, qos]), taken]
  dsimp only
  cases fragmented : lib.fragment transmitter packet.qos
      (behindLabel remainingLength newBurst).toNat with
  | error => exact ⟨transmitter, fun _ _ => rfl, .inl ⟨rfl, rfl⟩⟩
  | burstTooSmall transmitter' =>
      have same := queues.burstTooSmall _ _ _ _ fragmented
      refine ⟨transmitter', fun fragId _ => same fragId, .inr ⟨by simp, none, true, ?_, rfl⟩⟩
      exact fun _ => (same packet.qos).symm ▸ queued
  | ppdu ppdu transmitter' =>
      refine ⟨transmitter', queues.ppdu _ _ _ _ _ fragmented, .inr ⟨by simp, _, _, ?_, rfl⟩⟩
      exact of_decide_eq_true

theorem mem_updateSent (ne : other ≠ address) (back : Bool) :
    other ∈ updateSent sent address back ↔ other ∈ sent := by
  rw [updateSent]
  split
  · simp [ne]
  · split
    · exact List.mem_erase_of_ne ne
    · exact Iff.rfl

theorem address_mem_updateSent (nodup : sent.Nodup) (back : Bool) :
    address ∈ updateSent sent address back ↔ back = true := by
  rw [updateSent]
  cases back <;> by_cases mem : address ∈ sent <;> simp [mem, nodup.mem_erase_iff]

theorem nodup_updateSent (nodup : sent.Nodup) (back : Bool) :
    (updateSent sent address back).Nodup := by
  rw [updateSent]
  split
  next fresh => exact List.concat_eq_append ▸ nodup.concat fresh.1
  next =>
    split
    · exact nodup.erase _
    · exact nodup

end Call

/-! ### What a step leaves alone -/

namespace Memory

variable {memory memory' : Memory lib} {address serial : Nat} {packet : NetPacket}

/-- What every line of the memory keeps. -/
structure Kept (memory : Memory lib) : Prop extends Recorded memory where
  nodup : ∀ identifier, (memory.handler.sent identifier).Nodup
  young : ∀ address serial packet, memory.live address = some (serial, packet) →
    serial < memory.allocated
  single : ∀ address address' serial packet packet', memory.live address = some (serial, packet) →
    memory.live address' = some (serial, packet') → address = address'
  owned : ∀ key serial, memory.owner key = some serial → serial < memory.allocated ∧
    ∀ address packet, memory.live address = some (serial, packet) →
      (identifierOf packet, packet.qos) = key ∧ Fits packet
  counted : ∀ address serial packet, memory.live address = some (serial, packet) →
    memory.given serial = if address ∈ memory.handler.sent (identifierOf packet) then 1 else 0
  unborn : ∀ serial, memory.allocated ≤ serial → memory.given serial = 0

/-- The packet of a step is the only one that it concerns. -/
structure Concerns (memory memory' : Memory lib) (address : Nat) (packet : NetPacket) : Prop where
  sent : ∀ identifier other, other ≠ address →
    (other ∈ memory'.handler.sent identifier ↔ other ∈ memory.handler.sent identifier)
  live : ∀ other, other ≠ address → memory'.live other = memory.live other
  owner : ∀ key, key ≠ (identifierOf packet, packet.qos) → memory'.owner key = memory.owner key
  queue : ∀ identifier fragId, (identifier, fragId) ≠ (identifierOf packet, packet.qos) →
    lib.queueSize (memory'.handler.context identifier).1 fragId =
      lib.queueSize (memory.handler.context identifier).1 fragId

theorem Concerns.pending (concerns : Concerns memory memory' address packet) {packet' : NetPacket}
    (other : (identifierOf packet', packet'.qos) ≠ (identifierOf packet, packet.qos)) :
    memory'.Pending serial packet' ↔ memory.Pending serial packet' := by
  rw [Pending, Pending, concerns.owner _ other, concerns.queue _ _ other]

/-- The record stays right when it is right for the packet of the step and for those of the same
queue. -/
theorem Concerns.record (concerns : Concerns memory memory' address packet)
    (recorded : memory.Recorded)
    (same : ∀ other serial' packet', other ≠ address → memory.live other = some (serial', packet') →
      (identifierOf packet', packet'.qos) = (identifierOf packet, packet.qos) →
      (memory'.Pending serial' packet' ↔ memory.Pending serial' packet'))
    (here : ∀ identifier, address ∈ memory'.handler.sent identifier ↔
      ∃ serial packet, memory'.live address = some (serial, packet) ∧
        identifierOf packet = identifier ∧ memory'.Pending serial packet)
    (identifier : RleIdentifier) (other : Nat) :
    other ∈ memory'.handler.sent identifier ↔ ∃ serial packet,
      memory'.live other = some (serial, packet) ∧ identifierOf packet = identifier ∧
        memory'.Pending serial packet := by
  by_cases eq : other = address
  · subst eq
    exact here identifier
  rw [concerns.sent identifier other eq, concerns.live other eq, recorded.record]
  refine exists_congr fun serial' => exists_congr fun packet' =>
    and_congr_right fun found => and_congr_right fun _ => ?_
  by_cases key : (identifierOf packet', packet'.qos) = (identifierOf packet, packet.qos)
  · exact (same other serial' packet' eq found key).symm
  · exact (concerns.pending key).symm

end Memory

end Rle

end OpenSand
