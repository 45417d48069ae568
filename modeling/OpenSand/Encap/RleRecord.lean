import OpenSand.Encap.RleMemory

/-!
When the record of partially sent packets is right.

A call gives its packet to the library, when the packet is not recorded, and records it as long
as it comes back. `encap_cases` tells what a call does, and `recorded_iff` says which runs keep
the record right.
-/

namespace OpenSand

open Run

namespace Rle

variable {lib : Librle}

namespace Memory

variable {memory memory' : Memory lib} {address serial : Nat} {packet : NetPacket}

/-! ### One event -/

variable {remainingLength : UInt64} {newBurst : Bool}

/-- What a call makes of the transmitter of its packet, and whether the packet comes back. -/
structure Called (memory memory' : Memory lib) (address : Nat) (packet : NetPacket)
    (transmitter : lib.Transmitter) (sent : List Nat) (back : Bool) : Prop where
  live : memory'.live = if back then memory.live else Function.update memory.live address none
  context : ∀ identifier, memory'.handler.context identifier =
    if identifier = identifierOf packet then (transmitter, sent)
    else memory.handler.context identifier
  queue : ∀ fragId, fragId ≠ packet.qos → lib.queueSize transmitter fragId =
    lib.queueSize (memory.handler.context (identifierOf packet)).1 fragId
  before : ∀ other, other ≠ address →
    (other ∈ sent ↔ other ∈ memory.handler.sent (identifierOf packet))
  nodup : sent.Nodup

/-- A packet that the library holds was recorded, or is accepted now. -/
theorem taken_cases (queues : lib.Queues) (kept : memory.Kept)
    (found : memory.live address = some (serial, packet)) (fits : Fits packet)
    {transmitter : lib.Transmitter}
    (taken : memory.handler.encapsulated address packet = some transmitter) :
    0 < lib.queueSize transmitter packet.qos ∧
      (∀ fragId, fragId ≠ packet.qos → lib.queueSize transmitter fragId =
        lib.queueSize (memory.handler.context (identifierOf packet)).1 fragId) ∧
      (address ∈ memory.handler.sent (identifierOf packet) →
        transmitter = (memory.handler.context (identifierOf packet)).1) ∧
      (address ∉ memory.handler.sent (identifierOf packet) → memory.Accepts address packet) := by
  have asked : (if address ∈ memory.handler.sent (identifierOf packet) then
        some (memory.handler.context (identifierOf packet)).1
      else lib.encapsulate (memory.handler.context (identifierOf packet)).1 packet.data
        packet.qos) = some transmitter := taken
  by_cases mem : address ∈ memory.handler.sent (identifierOf packet)
  · rw [if_pos mem, Option.some.injEq] at asked
    subst asked
    obtain ⟨serial', packet', found', -, -, queued⟩ := (kept.record _ _).mp mem
    cases found.symm.trans found'
    exact ⟨queued, fun _ _ => rfl, fun _ => rfl, fun unrecorded => absurd mem unrecorded⟩
  · rw [if_neg mem] at asked
    obtain ⟨queued, others⟩ := queues.encapsulate _ _ _ _ asked
    exact ⟨queued, others, fun recorded => absurd recorded mem,
      fun _ => ⟨⟨fits, mem⟩, Option.isSome_iff_exists.mpr ⟨_, asked⟩⟩⟩

/-- No field of the packet is written in a label, or the library takes none of it. -/
def Unfed (memory : Memory lib) (address : Nat) (packet : NetPacket) : Prop :=
  ¬ Fits packet ∨ memory.handler.encapsulated address packet = none

theorem Unfed.fresh (unfed : memory.Unfed address packet) (kept : memory.Kept)
    (found : memory.live address = some (serial, packet)) :
    address ∉ memory.handler.sent (identifierOf packet) := by
  intro mem
  rcases unfed with large | refused
  · obtain ⟨serial', packet', found', -, owner, -⟩ := (kept.record _ _).mp mem
    cases found.symm.trans found'
    exact large ((kept.owned _ _ owner).2 _ _ found).2
  · simp [PacketHandler.encapsulated, PacketHandler.sent, identifierOf] at refused mem
    simp [mem] at refused

/-- Such a call leaves all contexts as they were. -/
theorem Unfed.result (unfed : memory.Unfed address packet) :
    ∃ handler, encapNextPacket memory.handler address packet remainingLength newBurst =
        ⟨false, handler, none, false⟩ ∧
      ∀ identifier, handler.context identifier = memory.handler.context identifier := by
  by_cases fits : Fits packet
  · have refused := unfed.resolve_left (not_not_intro fits)
    refine ⟨_, encapNextPacket_of_refused fits refused, fun identifier => ?_⟩
    rw [PacketHandler.context_store]
    split
    next eq => rw [eq]
    next => rfl
  · exact ⟨_, encapNextPacket_of_not_fits fits, fun _ => rfl⟩

/-- What a call makes is read off its result. -/
theorem Called.of_result {success : Bool} {handler : PacketHandler lib}
    {encapPacket : Option (List UInt8)} {back : Bool} {transmitter : lib.Transmitter}
    {sent : List Nat}
    (result : encapNextPacket memory.handler address packet remainingLength newBurst =
      ⟨success, handler, encapPacket, back⟩)
    (context : ∀ identifier, handler.context identifier =
      if identifier = identifierOf packet then (transmitter, sent)
      else memory.handler.context identifier)
    (queue : ∀ fragId, fragId ≠ packet.qos → lib.queueSize transmitter fragId =
      lib.queueSize (memory.handler.context (identifierOf packet)).1 fragId)
    (before : ∀ other, other ≠ address →
      (other ∈ sent ↔ other ∈ memory.handler.sent (identifierOf packet)))
    (nodup : sent.Nodup) :
    Called memory (memory.encap address serial packet remainingLength newBurst) address packet
      transmitter sent back where
  live := by simp only [encap, result]
  context := by simpa only [encap, result] using context
  queue := queue
  before := before
  nodup := nodup

/-- A packet that is not recorded is refused, or a recorded one is lost; or the library holds the
packet, which is lost at once, or recorded as long as it comes back. -/
theorem encap_cases (queues : lib.Queues) (kept : memory.Kept)
    (found : memory.live address = some (serial, packet)) :
    ∃ transmitter sent back,
      Called memory (memory.encap address serial packet remainingLength newBurst) address packet
        transmitter sent back ∧
      (back = false ∧ sent = memory.handler.sent (identifierOf packet) ∧
          (encapNextPacket memory.handler address packet remainingLength newBurst).encapPacket =
            none ∧
          (address ∈ sent → Fits packet ∧ memory.Fails packet remainingLength newBurst) ∧
          (address ∉ sent → ¬ memory.Accepts address packet →
            lib.queueSize transmitter packet.qos =
              lib.queueSize (memory.handler.context (identifierOf packet)).1 packet.qos) ∨
        (address ∈ sent ↔ back = true) ∧ (back = true → 0 < lib.queueSize transmitter packet.qos) ∧
          (address ∈ memory.handler.sent (identifierOf packet) →
            ¬ memory.Fails packet remainingLength newBurst) ∧
          (address ∉ memory.handler.sent (identifierOf packet) →
            memory.Accepts address packet)) := by
  have nodup := kept.nodup (identifierOf packet)
  by_cases unfed : memory.Unfed address packet
  · have fresh := unfed.fresh kept found
    obtain ⟨handler, result, same⟩ := @Unfed.result _ _ _ _ remainingLength newBurst unfed
    refine ⟨_, _, false, .of_result result (fun identifier => ?_) (fun _ _ => rfl)
      (fun _ _ => Iff.rfl) nodup,
      .inl ⟨rfl, rfl, ?_, fun mem => absurd mem fresh, fun _ _ => rfl⟩⟩
    · rw [same]
      split
      next eq => rw [eq, PacketHandler.sent]
      next => rfl
    · rw [result]
  obtain ⟨fits, taken⟩ := not_or.mp unfed
  obtain ⟨transmitter, taken⟩ := Option.ne_none_iff_exists'.mp taken
  obtain ⟨queued, others, recorded, fresh⟩ := taken_cases queues kept found (not_not.mp fits) taken
  obtain ⟨transmitter', same, ⟨fails, result⟩ | ⟨sends, encapPacket, back, backed, result⟩⟩ :=
    @encapNextPacket_of_taken _ _ _ _ remainingLength newBurst queues (not_not.mp fits) _ taken
      queued
  · -- the record stays as it was, for a packet that is lost
    refine ⟨transmitter', memory.handler.sent (identifierOf packet), false,
      .of_result result (fun _ => PacketHandler.context_store ..)
        (fun fragId ne => (same fragId ne).trans (others fragId ne)) (fun _ _ => Iff.rfl) nodup,
      .inl ⟨rfl, rfl, ?_, fun mem => ?_, ?_⟩⟩
    · rw [result]
    · rw [Fails, ← recorded mem]
      exact ⟨not_not.mp fits, fails⟩
    · exact fun unrecorded refused => absurd (fresh unrecorded) refused
  · refine ⟨transmitter', updateSent (memory.handler.sent (identifierOf packet)) address back,
      back, .of_result result (fun _ => PacketHandler.context_store ..)
        (fun fragId ne => (same fragId ne).trans (others fragId ne))
        (fun _ ne => mem_updateSent ne back) (nodup_updateSent nodup back),
      .inr ⟨address_mem_updateSent nodup back, backed, ?_, fresh⟩⟩
    exact fun mem fails => sends (recorded mem ▸ fails)

section Encap

variable {transmitter : lib.Transmitter} {sent : List Nat} {back : Bool}

theorem Called.sent_here {memory' : Memory lib}
    (called : Called memory memory' address packet transmitter sent back) :
    memory'.handler.sent (identifierOf packet) = sent := by
  rw [PacketHandler.sent, called.context, if_pos rfl]

theorem Called.context_other {memory' : Memory lib}
    (called : Called memory memory' address packet transmitter sent back)
    {identifier : RleIdentifier} (other : identifier ≠ identifierOf packet) :
    memory'.handler.context identifier = memory.handler.context identifier := by
  rw [called.context, if_neg other]

theorem Called.concerns
    (called : Called memory (memory.encap address serial packet remainingLength newBurst) address
      packet transmitter sent back) :
    Concerns memory (memory.encap address serial packet remainingLength newBurst) address
      packet where
  sent := by
    intro identifier other ne
    by_cases eq : identifier = identifierOf packet
    · subst eq
      rw [called.sent_here]
      exact called.before other ne
    · rw [PacketHandler.sent, PacketHandler.sent, called.context_other eq]
  live := by
    intro other ne
    rw [called.live]
    split
    · rfl
    · exact Function.update_of_ne ne _ _
  owner := by
    intro key ne
    simp only [encap]
    split
    · exact Function.update_of_ne ne _ _
    · rfl
  queue := by
    intro identifier fragId ne
    by_cases eq : identifier = identifierOf packet
    · subst eq
      have other : fragId ≠ packet.qos := fun same => ne (by rw [same])
      rw [called.context, if_pos rfl, called.queue fragId other]
    · rw [called.context_other eq]

theorem Kept.serial_ne (kept : memory.Kept) (found : memory.live address = some (serial, packet))
    {other serial' : Nat} {packet' : NetPacket} (ne : other ≠ address)
    (found' : memory.live other = some (serial', packet')) : serial' ≠ serial := by
  rintro rfl
  exact ne (kept.single _ _ _ _ _ found' found)

theorem Kept.owner_of_mem (kept : memory.Kept)
    (found : memory.live address = some (serial, packet))
    (mem : address ∈ memory.handler.sent (identifierOf packet)) :
    memory.owner (identifierOf packet, packet.qos) = some serial := by
  obtain ⟨serial', packet', found', -, owner, -⟩ := (kept.record _ _).mp mem
  cases found.symm.trans found'
  exact owner

/-- The library holds a packet that was recorded or that it accepts. -/
theorem Kept.owner_encap (kept : memory.Kept)
    (found : memory.live address = some (serial, packet))
    (holds : address ∉ memory.handler.sent (identifierOf packet) →
      memory.Accepts address packet) :
    (memory.encap address serial packet remainingLength newBurst).owner
      (identifierOf packet, packet.qos) = some serial := by
  simp only [encap]
  by_cases accepts : memory.Accepts address packet
  · rw [if_pos accepts, Function.update_self]
  · rw [if_neg accepts]
    exact kept.owner_of_mem found (of_not_not fun fresh => accepts (holds fresh))

theorem Kept.given_of_gives (kept : memory.Kept)
    (found : memory.live address = some (serial, packet)) (gives : memory.Gives address packet) :
    memory.given serial = 0 := by
  rw [kept.counted _ _ _ found, if_neg gives.2]

/-- A packet that is given to the library was not given before. -/
theorem once_encap (kept : memory.Kept) (found : memory.live address = some (serial, packet))
    (serial' : Nat) :
    (memory.encap address serial packet remainingLength newBurst).given serial' ≤ 1 := by
  simp only [encap]
  split
  next gives =>
    by_cases eq : serial' = serial
    · subst eq
      rw [Function.update_self, kept.given_of_gives found gives]
    · rw [Function.update_of_ne eq]
      exact kept.once serial'
  next => exact kept.once serial'

/-- The packets under the fragment identifier of the packet of a call have as much to send as
before, when the library accepts none of them over another. -/
theorem pending_encap_iff (kept : memory.Kept)
    (found : memory.live address = some (serial, packet))
    (called : Called memory (memory.encap address serial packet remainingLength newBurst) address
      packet transmitter sent back)
    (idle : ¬ memory.Accepts address packet →
      address ∉ memory.handler.sent (identifierOf packet) →
        lib.queueSize transmitter packet.qos =
          lib.queueSize (memory.handler.context (identifierOf packet)).1 packet.qos)
    (alone : memory.Accepts address packet → ∀ other ∈ memory.handler.sent (identifierOf packet),
      ∀ serial' packet', memory.live other = some (serial', packet') → packet'.qos ≠ packet.qos)
    {other serial' : Nat} {packet' : NetPacket} (ne : other ≠ address)
    (found' : memory.live other = some (serial', packet'))
    (here : identifierOf packet' = identifierOf packet) (same : packet'.qos = packet.qos) :
    (memory.encap address serial packet remainingLength newBurst).Pending serial' packet' ↔
      memory.Pending serial' packet' := by
  have no : some serial ≠ some serial' :=
    fun eq => kept.serial_ne found ne found' (Option.some.inj eq).symm
  rw [Pending, Pending, here, same]
  by_cases accepts : memory.Accepts address packet
  · rw [kept.owner_encap found fun _ => accepts]
    refine iff_of_false (fun pending => no pending.1) fun pending => ?_
    have mem := (kept.record _ other).mpr ⟨serial', packet', found', here, ?_⟩
    · exact alone accepts other mem serial' packet' found' same
    · rw [Pending, here, same]
      exact pending
  by_cases mem : address ∈ memory.handler.sent (identifierOf packet)
  · rw [kept.owner_encap found fun fresh => absurd mem fresh, kept.owner_of_mem found mem]
    exact iff_of_false (fun pending => no pending.1) fun pending => no pending.1
  · rw [called.context, if_pos rfl, idle accepts mem]
    simp only [encap, if_neg accepts]

theorem Kept.not_mem_other (kept : memory.Kept)
    (found : memory.live address = some (serial, packet)) {identifier : RleIdentifier}
    (other : identifier ≠ identifierOf packet) : address ∉ memory.handler.sent identifier := by
  intro mem
  obtain ⟨_, _, found', here, -⟩ := (kept.record _ _).mp mem
  cases found.symm.trans found'
  exact other here.symm

/-- After a call its packet is neither recorded nor in memory. -/
theorem record_lost (kept : memory.Kept) (found : memory.live address = some (serial, packet))
    {memory' : Memory lib} (called : Called memory memory' address packet transmitter sent false)
    (fresh : address ∉ sent) (identifier : RleIdentifier) :
    address ∈ memory'.handler.sent identifier ↔ ∃ serial packet,
      memory'.live address = some (serial, packet) ∧ identifierOf packet = identifier ∧
        memory'.Pending serial packet := by
  have gone : memory'.live address = none := by
    rw [called.live, if_neg Bool.false_ne_true, Function.update_self]
  refine iff_of_false ?_ (by simp [gone])
  by_cases eq : identifier = identifierOf packet
  · subst eq
    rw [called.sent_here]
    exact fresh
  · rw [PacketHandler.sent, called.context_other eq]
    exact kept.not_mem_other found eq

/-- After a call its packet, held by the library, is recorded when it comes back. -/
theorem record_held (kept : memory.Kept) (found : memory.live address = some (serial, packet))
    {memory' : Memory lib} (called : Called memory memory' address packet transmitter sent back)
    (owner : memory'.owner (identifierOf packet, packet.qos) = some serial)
    (mem : address ∈ sent ↔ back = true)
    (queued : back = true → 0 < lib.queueSize transmitter packet.qos)
    (identifier : RleIdentifier) :
    address ∈ memory'.handler.sent identifier ↔ ∃ serial packet,
      memory'.live address = some (serial, packet) ∧ identifierOf packet = identifier ∧
        memory'.Pending serial packet := by
  have live : memory'.live address = if back then some (serial, packet) else none := by
    rw [called.live]
    split
    · exact found
    · exact Function.update_self _ _ _
  by_cases eq : identifier = identifierOf packet
  · subst eq
    rw [called.sent_here, mem]
    constructor
    · rintro rfl
      refine ⟨serial, packet, live, rfl, owner, ?_⟩
      rw [called.context, if_pos rfl]
      exact queued rfl
    · rintro ⟨_, _, found', -⟩
      rw [live] at found'
      by_contra gone
      rw [if_neg gone] at found'
      cases found'
  · rw [PacketHandler.sent, called.context_other eq]
    refine iff_of_false (kept.not_mem_other found eq) ?_
    rintro ⟨_, _, found', here, -⟩
    rw [live] at found'
    split at found'
    · cases found'
      exact eq here.symm
    · cases found'

/-- When a call keeps the record right. -/
theorem recorded_encap_iff (queues : lib.Queues) (kept : memory.Kept)
    (found : memory.live address = some (serial, packet)) :
    (memory.encap address serial packet remainingLength newBurst).Recorded ↔
      (Fits packet →
        (address ∈ memory.handler.sent (identifierOf packet) →
          ¬ memory.Fails packet remainingLength newBurst) ∧
        (memory.Accepts address packet → ∀ other ∈ memory.handler.sent (identifierOf packet),
          ∀ serial' packet', memory.live other = some (serial', packet') →
            packet'.qos ≠ packet.qos)) := by
  obtain ⟨transmitter, sent, back, called, cases⟩ :=
    @encap_cases _ _ _ _ _ remainingLength newBurst queues kept found
  have concerns := called.concerns
  constructor
  · intro recorded fits
    refine ⟨fun mem fails => ?_, fun accepts other mem serial' packet' found' same => ?_⟩
    · obtain ⟨rfl, rfl, -⟩ | ⟨-, -, sends, -⟩ := cases
      · -- the entry stays for a packet that is no more in memory
        rw [← called.sent_here] at mem
        obtain ⟨serial', packet', found', -⟩ := (recorded.record _ _).mp mem
        rw [called.live, if_neg Bool.false_ne_true, Function.update_self] at found'
        cases found'
      · exact sends mem fails
    · -- the packet takes the place of another
      have ne : other ≠ address := fun eq => accepts.1.2 (eq ▸ mem)
      have mem' := (concerns.sent _ other ne).mpr mem
      obtain ⟨_, _, found'', here, owner, -⟩ := (recorded.record _ _).mp mem'
      rw [concerns.live other ne, found'] at found''
      cases found''
      rw [here, same, kept.owner_encap found fun _ => accepts, Option.some.injEq] at owner
      exact kept.serial_ne found ne found' owner.symm
  · intro safe
    refine ⟨concerns.record kept.toRecorded ?_ ?_, once_encap kept found⟩
    · intro other serial' packet' ne found' key
      obtain ⟨here, same⟩ := Prod.ext_iff.mp key
      refine pending_encap_iff kept found called (fun refused fresh => ?_)
        (fun accepts => (safe accepts.1.1).2 accepts) ne found' here same
      obtain ⟨-, rfl, -, -, idle⟩ | ⟨-, -, -, accepts⟩ := cases
      · exact idle fresh refused
      · exact absurd (accepts fresh) refused
    · obtain ⟨rfl, rfl, -, lost, -⟩ | ⟨mem, queued, -, accepts⟩ := cases
      · refine record_lost kept found called fun mem => ?_
        exact (safe (lost mem).1).1 mem (lost mem).2
      · exact record_held kept found called (kept.owner_encap found accepts) mem queued

/-- The library was given once the packets that it holds. -/
theorem given_encap (kept : memory.Kept) (found : memory.live address = some (serial, packet))
    (holds : address ∉ memory.handler.sent (identifierOf packet) →
      memory.Accepts address packet) :
    (memory.encap address serial packet remainingLength newBurst).given serial = 1 := by
  simp only [encap]
  split
  next gives => rw [Function.update_self, kept.given_of_gives found gives]
  next gives =>
    have mem : address ∈ memory.handler.sent (identifierOf packet) :=
      of_not_not fun fresh => gives (holds fresh).1
    rw [kept.counted _ _ _ found, if_pos mem]

theorem given_encap_of_ne {serial' : Nat} (ne : serial' ≠ serial) :
    (memory.encap address serial packet remainingLength newBurst).given serial' =
      memory.given serial' := by
  simp only [encap]
  split
  · exact Function.update_of_ne ne _ _
  · rfl

/-- A call allocates nothing. -/
theorem Called.live_of {memory' : Memory lib}
    (called : Called memory memory' address packet transmitter sent back) {other : Nat}
    {entry : Nat × NetPacket} (found : memory'.live other = some entry) :
    memory.live other = some entry ∧ (other = address → back = true) := by
  rw [called.live] at found
  split at found
  next comes => exact ⟨found, fun _ => comes⟩
  next =>
    by_cases eq : other = address
    · rw [eq, Function.update_self] at found
      cases found
    · rw [Function.update_of_ne eq] at found
      exact ⟨found, fun here => absurd here eq⟩

theorem kept_encap (queues : lib.Queues) (kept : memory.Kept)
    (found : memory.live address = some (serial, packet))
    (recorded : (memory.encap address serial packet remainingLength newBurst).Recorded) :
    (memory.encap address serial packet remainingLength newBurst).Kept := by
  obtain ⟨transmitter, sent, back, called, cases⟩ :=
    @encap_cases _ _ _ _ _ remainingLength newBurst queues kept found
  refine ⟨recorded, ?nodup, ?young, ?single, ?owned, ?counted, ?unborn⟩
  case nodup =>
    intro identifier
    by_cases eq : identifier = identifierOf packet
    · subst eq
      rw [called.sent_here]
      exact called.nodup
    · rw [PacketHandler.sent, called.context_other eq]
      exact kept.nodup identifier
  case young =>
    exact fun other serial' packet' found' => kept.young _ _ _ (called.live_of found').1
  case single =>
    exact fun _ _ _ _ _ one two =>
      kept.single _ _ _ _ _ (called.live_of one).1 (called.live_of two).1
  case owned =>
    intro key serial' owner
    have before : memory.owner key = some serial' → serial' < memory.allocated ∧
        ∀ other packet', (memory.encap address serial packet remainingLength newBurst).live other =
          some (serial', packet') → (identifierOf packet', packet'.qos) = key ∧ Fits packet' :=
      fun owner => ⟨(kept.owned _ _ owner).1,
        fun _ _ found' => (kept.owned _ _ owner).2 _ _ (called.live_of found').1⟩
    simp only [encap] at owner
    split at owner
    next accepts =>
      by_cases eq : key = (identifierOf packet, packet.qos)
      · rw [eq, Function.update_self, Option.some.injEq] at owner
        subst owner
        refine ⟨kept.young _ _ _ found, fun other packet' found' => ?_⟩
        have here := (called.live_of found').1
        cases kept.single _ _ _ _ _ here found
        cases here.symm.trans found
        exact ⟨eq.symm, accepts.1.1⟩
      · rw [Function.update_of_ne eq] at owner
        exact before owner
    next => exact before owner
  case counted =>
    intro other serial' packet' found'
    obtain ⟨before, comes⟩ := called.live_of found'
    by_cases eq : other = address
    · subst eq
      cases before.symm.trans found
      obtain ⟨rfl, -⟩ | ⟨mem, -, -, holds⟩ := cases
      · exact absurd (comes rfl) Bool.false_ne_true
      · rw [given_encap kept found holds, called.sent_here, if_pos (mem.mpr (comes rfl))]
    · rw [given_encap_of_ne (kept.serial_ne found eq before), kept.counted _ _ _ before]
      exact if_congr (called.concerns.sent _ other eq).symm rfl rfl
  case unborn =>
    intro serial' old
    have young := kept.young _ _ _ found
    have ne : serial' ≠ serial := fun eq => absurd (eq ▸ old) (Nat.not_le.mpr young)
    rw [given_encap_of_ne ne]
    exact kept.unborn serial' old

end Encap

/-! ### Packets that are allocated or dropped -/

theorem live_alloc (packet : NetPacket) :
    (memory.alloc address packet).live address = some (memory.allocated, packet) :=
  Function.update_self _ _ _

theorem live_alloc_of_ne (packet : NetPacket) {other : Nat} (ne : other ≠ address) :
    (memory.alloc address packet).live other = memory.live other :=
  Function.update_of_ne ne _ _

theorem live_drop : (memory.drop address).live address = none :=
  Function.update_self _ _ _

theorem live_drop_of_ne {other : Nat} (ne : other ≠ address) :
    (memory.drop address).live other = memory.live other :=
  Function.update_of_ne ne _ _

theorem Kept.not_mem_of_free (kept : memory.Kept) (free : memory.live address = none)
    (identifier : RleIdentifier) : address ∉ memory.handler.sent identifier := by
  intro mem
  obtain ⟨_, _, found, -⟩ := (kept.record _ _).mp mem
  cases free.symm.trans found

/-- A new packet has no fragments to send. -/
theorem recorded_alloc (kept : memory.Kept) (free : memory.live address = none)
    (packet : NetPacket) : (memory.alloc address packet).Recorded where
  record := by
    have concerns : Concerns memory (memory.alloc address packet) address packet :=
      ⟨fun _ _ _ => Iff.rfl, fun _ => live_alloc_of_ne packet, fun _ _ => rfl, fun _ _ _ => rfl⟩
    refine concerns.record kept.toRecorded (fun _ _ _ _ _ _ => Iff.rfl) fun identifier => ?_
    refine iff_of_false (kept.not_mem_of_free free identifier) ?_
    rintro ⟨serial, packet', found, -, owner, -⟩
    cases (live_alloc packet).symm.trans found
    exact Nat.lt_irrefl _ (kept.owned _ _ owner).1
  once := kept.once

theorem kept_alloc (kept : memory.Kept) (free : memory.live address = none)
    (packet : NetPacket) : (memory.alloc address packet).Kept where
  toRecorded := recorded_alloc kept free packet
  nodup := kept.nodup
  young := by
    intro other serial packet' found
    by_cases eq : other = address
    · subst eq
      cases (live_alloc packet).symm.trans found
      exact Nat.lt_succ_self _
    · rw [live_alloc_of_ne packet eq] at found
      exact Nat.lt_succ_of_lt (kept.young _ _ _ found)
  single := by
    have fresh : ∀ {one two serial packet' packet''}, one = address → two ≠ address →
        (memory.alloc address packet).live one = some (serial, packet') →
        (memory.alloc address packet).live two = some (serial, packet'') → False := by
      rintro one two serial packet' packet'' rfl ne found found'
      cases (live_alloc packet).symm.trans found
      rw [live_alloc_of_ne packet ne] at found'
      exact Nat.lt_irrefl _ (kept.young _ _ _ found')
    intro one two serial packet' packet'' found found'
    by_cases eq : one = address <;> by_cases eq' : two = address
    · rw [eq, eq']
    · exact (fresh eq eq' found found').elim
    · exact (fresh eq' eq found' found).elim
    · rw [live_alloc_of_ne packet eq] at found
      rw [live_alloc_of_ne packet eq'] at found'
      exact kept.single _ _ _ _ _ found found'
  owned := by
    intro key serial owner
    obtain ⟨young, held⟩ := kept.owned _ _ owner
    refine ⟨Nat.lt_succ_of_lt young, fun other packet' found => ?_⟩
    by_cases eq : other = address
    · subst eq
      cases (live_alloc packet).symm.trans found
      exact absurd young (Nat.lt_irrefl _)
    · rw [live_alloc_of_ne packet eq] at found
      exact held _ _ found
  counted := by
    intro other serial packet' found
    by_cases eq : other = address
    · subst eq
      cases (live_alloc packet).symm.trans found
      exact (kept.unborn _ le_rfl).trans (if_neg (kept.not_mem_of_free free _)).symm
    · rw [live_alloc_of_ne packet eq] at found
      exact kept.counted _ _ _ found
  unborn serial old := kept.unborn serial (Nat.le_of_succ_le old)

theorem live_of_live_drop {other : Nat} {entry : Nat × NetPacket}
    (found : (memory.drop address).live other = some entry) : memory.live other = some entry := by
  by_cases eq : other = address
  · subst eq
    cases live_drop.symm.trans found
  · rwa [live_drop_of_ne eq] at found

/-- A packet may be dropped when it is not recorded. -/
theorem recorded_drop_iff (kept : memory.Kept)
    (found : memory.live address = some (serial, packet)) :
    (memory.drop address).Recorded ↔ address ∉ memory.handler.sent (identifierOf packet) := by
  constructor
  · intro recorded mem
    obtain ⟨_, _, found', -⟩ := (recorded.record (identifierOf packet) address).mp mem
    cases live_drop.symm.trans found'
  · intro fresh
    have concerns : Concerns memory (memory.drop address) address packet :=
      ⟨fun _ _ _ => Iff.rfl, fun _ => live_drop_of_ne, fun _ _ => rfl, fun _ _ _ => rfl⟩
    refine ⟨concerns.record kept.toRecorded (fun _ _ _ _ _ _ => Iff.rfl) fun identifier => ?_,
      kept.once⟩
    refine iff_of_false (fun mem => ?_) (by simp [live_drop])
    obtain ⟨_, _, found', here, -⟩ := (kept.record identifier address).mp mem
    cases found.symm.trans found'
    exact fresh (here ▸ mem)

theorem kept_drop (kept : memory.Kept) (recorded : (memory.drop address).Recorded) :
    (memory.drop address).Kept where
  toRecorded := recorded
  nodup := kept.nodup
  young _ _ _ found := kept.young _ _ _ (live_of_live_drop found)
  single _ _ _ _ _ found found' :=
    kept.single _ _ _ _ _ (live_of_live_drop found) (live_of_live_drop found')
  owned key serial owner := by
    obtain ⟨young, held⟩ := kept.owned key serial owner
    exact ⟨young, fun _ _ found => held _ _ (live_of_live_drop found)⟩
  counted _ _ _ found := kept.counted _ _ _ (live_of_live_drop found)
  unborn := kept.unborn

/-! ### Runs -/

/-- What a step needs to keep the record right and give its packet to the library. -/
theorem step_iff (queues : lib.Queues) (kept : memory.Kept) {event : MemoryEvent}
    (taken : memory.step event = some memory') :
    (memory'.Recorded ∧ memory.GivenBefore event memory' ↔ memory.Safe event) ∧
      (memory'.Recorded → memory'.Kept) := by
  cases event with
  | alloc address packet =>
      simp only [step] at taken
      split at taken
      · cases taken
      next free =>
        cases taken
        have free : memory.live address = none := by simpa using free
        refine ⟨iff_of_true ⟨recorded_alloc kept free packet, ?_⟩ trivial,
          fun _ => kept_alloc kept free packet⟩
        intro _ _ _ eq
        cases eq
  | encap address remainingLength newBurst =>
      obtain ⟨⟨serial, packet⟩, found, rfl⟩ := Option.map_eq_some_iff.mp taken
      refine ⟨?_, kept_encap queues kept found⟩
      have exact_call := @recorded_encap_iff _ _ _ _ _ remainingLength newBurst queues kept found
      have given : memory.GivenBefore (.encap address remainingLength newBurst)
          (memory.encap address serial packet remainingLength newBurst) := by
        rintro _ _ _ ⟨⟩ serial' packet' found' emits
        cases found.symm.trans found'
        obtain ⟨_, _, _, -, ⟨-, -, none, -⟩ | ⟨-, -, -, holds⟩⟩ :=
          @encap_cases _ _ _ _ _ remainingLength newBurst queues kept found
        · exact absurd none emits
        · exact given_encap kept found holds
      rw [and_iff_left given, exact_call]
      constructor
      · intro safe serial' packet' found'
        cases found.symm.trans found'
        exact safe
      · exact fun safe => safe serial packet found
  | drop address =>
      obtain ⟨⟨serial, packet⟩, found, rfl⟩ := Option.map_eq_some_iff.mp taken
      refine ⟨?_, kept_drop kept⟩
      have given : memory.GivenBefore (.drop address) (memory.drop address) := by
        intro _ _ _ eq
        cases eq
      rw [and_iff_left given, recorded_drop_iff kept found]
      constructor
      · intro fresh serial' packet' found'
        cases found.symm.trans found'
        exact fresh
      · exact fun safe => safe serial packet found

theorem kept_start (lib : Librle) : (start lib).Kept where
  record identifier address := by
    refine iff_of_false List.not_mem_nil ?_
    rintro ⟨_, _, found, -⟩
    cases found
  once _ := Nat.zero_le _
  nodup _ := List.nodup_nil
  young _ _ _ found := by cases found
  single _ _ _ _ _ found := by cases found
  owned _ _ owner := by cases owner
  counted _ _ _ found := by cases found
  unborn _ _ := rfl

/-- The record is right all along, and packets are given to the library once and before their
first fragment, when no recorded packet is dropped or lost and none takes the place of another. -/
theorem recorded_iff (queues : lib.Queues) (events : List MemoryEvent) :
    (AllStates step Recorded (start lib) events ∧
        AllMoves step GivenBefore (start lib) events) ↔
      AllSteps step Safe (start lib) events := by
  rw [← allMoves_and_iff (kept_start lib).toRecorded]
  exact allMoves_iff_allSteps (kept_start lib)
    (fun _ _ _ kept taken => (step_iff queues kept taken).1)
    (fun _ _ _ kept taken good => (step_iff queues kept taken).2 good.1)

end Memory

/-! ### A packet at the address of another -/

namespace Simple

open Memory

theorem queueSize_update (transmitter : Nat → Option (Fragment.Cut UInt8)) (fragId : Nat)
    (cut : Option (Fragment.Cut UInt8)) {other : Nat} (ne : other ≠ fragId) :
    librle.queueSize (Function.update transmitter fragId cut) other =
      librle.queueSize transmitter other := by
  simp [librle, ne]

theorem queueSize_update_self (transmitter : Nat → Option (Fragment.Cut UInt8)) (fragId : Nat)
    (cut : Fragment.Cut UInt8) :
    0 < librle.queueSize (Function.update transmitter fragId (some cut)) fragId := by
  simp [librle]

theorem queues : librle.Queues where
  new _ := rfl
  encapsulate transmitter sdu fragId transmitter' taken := by
    simp only [librle, encapsulate] at taken
    split at taken
    · cases taken
    · cases taken
      exact ⟨queueSize_update_self _ _ _, fun _ => queueSize_update _ _ _⟩
  burstTooSmall transmitter fragId length transmitter' small := by
    simp only [librle, fragment] at small
    split at small
    · cases small
    · split at small
      · cases small
        exact fun _ => rfl
      · cases small
  ppdu transmitter fragId length bytes transmitter' produced := by
    simp only [librle, fragment] at produced
    split at produced
    · cases produced
    · split at produced
      · cases produced
      · cases produced
        exact fun _ => queueSize_update _ _ _

def packet : NetPacket := ⟨[1, 2, 3, 4, 5, 6, 7, 8], 0, 1, 2⟩

/-- A packet sent in two bursts. -/
def twoBursts : List MemoryEvent := [.alloc 0 packet, .encap 0 10 true, .encap 0 100 true]

theorem recorded_twoBursts : AllStates step Recorded (start librle) twoBursts ∧
    AllMoves step GivenBefore (start librle) twoBursts := by
  refine (recorded_iff queues twoBursts).mpr ?_
  rintro _ ⟨⟩
  refine ⟨trivial, ?_⟩
  rintro _ ⟨⟩
  constructor
  · rintro _ _ ⟨⟩ -
    exact ⟨fun mem => absurd mem (by decide), fun _ _ mem => absurd mem List.not_mem_nil⟩
  rintro _ ⟨⟩
  refine ⟨?_, trivial⟩
  rintro _ _ ⟨⟩ -
  constructor
  · intro _ fails
    cases fails
  · exact fun accepts => absurd accepts.1.2 (by decide)

/-- A packet is dropped after its first burst, and another is allocated at its address. -/
def reused : List MemoryEvent :=
  [.alloc 0 packet, .encap 0 10 true, .drop 0, .alloc 0 packet, .encap 0 10 true]

theorem never_given : ¬ (AllStates step Recorded (start librle) reused ∧
    AllMoves step GivenBefore (start librle) reused) := by
  rintro ⟨-, moves⟩
  obtain ⟨-, moves⟩ := moves _ rfl
  obtain ⟨-, moves⟩ := moves _ rfl
  obtain ⟨-, moves⟩ := moves _ rfl
  obtain ⟨-, moves⟩ := moves _ rfl
  obtain ⟨given, -⟩ := moves _ rfl
  have once := given 0 10 true rfl 1 packet rfl (by decide)
  exact absurd once (by decide)

end Simple

end Rle

end OpenSand
