import OpenSand.Saloha.Crdsa
import Mathlib.Data.List.Nodup

/-!
Collision resolution by DSA (`SlottedAlohaAlgoDsa::removeCollisions`).

One pass over the slots accepts the packets that are alone in theirs, each once, and clears every
slot. What it accepts is peeled first by collision resolution; the code of CRDSA, though, only
survives the slots in which no packet is alone, and there DSA accepts nothing.
-/

namespace OpenSand.Dsa

open OpenSand.Crdsa OpenSand.Peeling

/-- A packet that is alone is kept unless it was already received on another slot. -/
def accept (accepted : Accepted) (packet : Packet) : Accepted :=
  if (accepted.ids packet.srcTalId).contains packet.getUniqueId then accepted
  else accepted.add packet

/-- One slot, with the packets that it adds to the collisions. -/
def visitSlot (accepted : Accepted) : Slot → Option (Accepted × Nat)
  | [] => some (accepted, 0)
  | [none] => none
  | [some packet] => some (accept accepted packet, 0)
  | slot => some (accepted, slot.length)

/-- The number of collisions is a 16-bit word. -/
def removeCollisions : Accepted → Nat → Slots → Option (Nat × Slots × Accepted)
  | accepted, collisions, [] => some (collisions, [], accepted)
  | accepted, collisions, (id, slot) :: rest =>
      (visitSlot accepted slot).bind fun (accepted', more) =>
        (removeCollisions accepted' ((collisions + more) % 2 ^ 16) rest).map
          fun (collisions', rest', accepted'') => (collisions', (id, []) :: rest', accepted'')

/-- The packet is alone in a slot. -/
def Alone (assignment : Assignment) (packet : Packet) : Prop :=
  ∃ slot ∈ assignment, slot.2 = [packet]

/-- The packets of the slots with several ones. -/
def collided (assignment : Assignment) : Nat :=
  (assignment.map fun slot => if 1 < slot.2.length then slot.2.length else 0).sum

/-- What DSA is for: it accepts one copy of each packet that is alone in a slot, and what it
accepts CRDSA accepts as well. -/
def Resolves (assignment : Assignment) : Prop :=
  ∃ slots accepted,
    removeCollisions .empty 0 (load assignment) = some (collided assignment, slots, accepted) ∧
    (∀ packet ∈ accepted.packets, Alone assignment packet) ∧
    (∀ packet, Alone assignment packet → packet.key ∈ accepted.packets.map (·.key)) ∧
    (accepted.packets.map (·.key)).Nodup ∧
    (∀ slot ∈ slots, slot.2 = []) ∧
    ∃ fuel collisions slots' accepted',
      Crdsa.removeCollisions fuel .empty (load assignment) =
          .finished collisions slots' accepted' ∧
        ∀ key ∈ accepted.packets.map (·.key), key ∈ accepted'.map (·.key)

/-! ### The accepted packets -/

/-- The identifiers by terminal are the keys of the packets. -/
def Tracks (accepted : Accepted) : Prop :=
  ∀ talId id, id ∈ accepted.ids talId ↔ (talId, id) ∈ accepted.packets.map (·.key)

variable {accepted : Accepted} {packet : Packet} {assignment : Assignment}

theorem tracks_empty : Tracks .empty := fun _ _ => iff_of_false List.not_mem_nil List.not_mem_nil

theorem tracks_add (tracks : Tracks accepted) (packet : Packet) : Tracks (accepted.add packet) := by
  intro talId id
  rw [Accepted.add, List.map_append, List.mem_append, ← tracks talId id, List.map_singleton,
    List.mem_singleton]
  by_cases own : talId = packet.srcTalId
  · subst own
    dsimp only
    rw [Function.update_self, List.mem_append, List.mem_singleton]
    exact or_congr_right ⟨fun same => same ▸ rfl, fun same => congrArg Prod.snd same⟩
  · dsimp only
    rw [Function.update_of_ne own]
    exact (or_iff_left fun same => own (congrArg Prod.fst same)).symm

/-- One more packet is accepted, at most once. -/
theorem accept_spec (packet : Packet) (tracks : Tracks accepted)
    (nodup : (accepted.packets.map (·.key)).Nodup) :
    Tracks (accept accepted packet) ∧ ((accept accepted packet).packets.map (·.key)).Nodup ∧
      (∀ other ∈ (accept accepted packet).packets, other ∈ accepted.packets ∨ other = packet) ∧
      ∀ key, key ∈ (accept accepted packet).packets.map (·.key) ↔
        key ∈ accepted.packets.map (·.key) ∨ key = packet.key := by
  unfold accept
  have known : (accepted.ids packet.srcTalId).contains packet.getUniqueId ↔
      packet.key ∈ accepted.packets.map (·.key) := List.contains_iff_mem.trans (tracks _ _)
  split
  next again =>
    refine ⟨tracks, nodup, fun other mem => .inl mem, fun key => ?_⟩
    exact ⟨Or.inl, Or.rec id fun same => same ▸ known.mp again⟩
  next fresh =>
    refine ⟨tracks_add tracks packet, ?_, fun other mem => ?_, fun key => ?_⟩
    · rw [Accepted.add, List.map_append, List.map_singleton, List.nodup_append]
      refine ⟨nodup, List.nodup_singleton _, fun key mem key' mem' same => ?_⟩
      rw [List.mem_singleton.mp mem'] at same
      exact fresh (known.mpr (same ▸ mem))
    · exact (List.mem_append.mp mem).imp_right List.mem_singleton.mp
    · rw [Accepted.add, List.map_append, List.mem_append, List.map_singleton, List.mem_singleton]

theorem alone_cons {slot : Nat × List Packet} : Alone (slot :: assignment) packet ↔
    slot.2 = [packet] ∨ Alone assignment packet := by
  simp [Alone]

/-- One pass: the packets alone in their slots are added to the accepted ones. -/
theorem removeCollisions_spec (assignment : Assignment) (tracks : Tracks accepted)
    (nodup : (accepted.packets.map (·.key)).Nodup) (collisions : Nat) :
    ∃ accepted', removeCollisions accepted (collisions % 2 ^ 16) (load assignment) =
        some ((collisions + collided assignment) % 2 ^ 16,
          assignment.map fun slot => (slot.1, []), accepted') ∧
      (accepted'.packets.map (·.key)).Nodup ∧
      (∀ packet ∈ accepted'.packets, packet ∈ accepted.packets ∨ Alone assignment packet) ∧
      ∀ key, key ∈ accepted'.packets.map (·.key) ↔
        key ∈ accepted.packets.map (·.key) ∨ ∃ packet, Alone assignment packet ∧ packet.key = key := by
  induction assignment generalizing accepted collisions with
  | nil =>
      refine ⟨accepted, rfl, nodup, fun packet mem => .inl mem, fun key => ?_⟩
      simp [Alone]
  | cons slot rest ih =>
      obtain ⟨id, packets⟩ := slot
      rcases packets with _ | ⟨packet, _ | ⟨second, others⟩⟩
      · obtain ⟨accepted', ran, nodup', alone, keys⟩ := ih tracks nodup collisions
        refine ⟨accepted', ?_, nodup', fun packet mem => ?_, fun key => ?_⟩
        · simpa [removeCollisions, load, visitSlot, collided] using ran
        · exact (alone packet mem).imp_right fun alone => alone_cons.mpr (.inr alone)
        · rw [keys key]
          simp [alone_cons]
      · obtain ⟨tracks', nodup', from', keys'⟩ := accept_spec packet tracks nodup
        obtain ⟨accepted', ran, nodup'', alone, keys⟩ := ih tracks' nodup' collisions
        refine ⟨accepted', ?_, nodup'', fun other mem => ?_, fun key => ?_⟩
        · simpa [removeCollisions, load, visitSlot, collided] using ran
        · rcases alone other mem with mem | alone
          · refine (from' other mem).imp_right ?_
            rintro rfl
            exact alone_cons.mpr (.inl rfl)
          · exact .inr (alone_cons.mpr (.inr alone))
        · rw [keys key, keys' key, or_assoc]
          simp [alone_cons, or_and_right, exists_or, eq_comm]
      · obtain ⟨accepted', ran, nodup', alone, keys⟩ :=
          ih tracks nodup (collisions + (others.length + 2))
        refine ⟨accepted', ?_, nodup', fun packet mem => ?_, fun key => ?_⟩
        · simpa [removeCollisions, load, visitSlot, collided, Nat.add_assoc] using ran
        · exact (alone packet mem).imp_right fun alone => alone_cons.mpr (.inr alone)
        · rw [keys key]
          simp [alone_cons]

/-- A packet that is alone in a slot is peeled. -/
theorem peels_of_alone (alone : Alone assignment packet) : Peels (checks assignment) packet.key := by
  obtain ⟨slot, mem, single⟩ := alone
  refine @Peels.alone _ _ [] _ [] (List.mem_map.mpr ⟨slot, mem, ?_⟩) fun _ mem => by cases mem
  rw [single]
  rfl

/-- DSA accepts one copy of each packet that is alone, which all are peeled, and clears the slots;
its count of the collisions is a word. -/
theorem removeCollisions_accepts (assignment : Assignment) :
    ∃ accepted, removeCollisions .empty 0 (load assignment) =
        some (collided assignment % 2 ^ 16, assignment.map fun slot => (slot.1, []), accepted) ∧
      (∀ packet ∈ accepted.packets, Alone assignment packet) ∧
      (∀ packet, Alone assignment packet → packet.key ∈ accepted.packets.map (·.key)) ∧
      (accepted.packets.map (·.key)).Nodup ∧
      ∀ key ∈ accepted.packets.map (·.key), Peels (checks assignment) key := by
  obtain ⟨accepted, ran, nodup, alone, keys⟩ :=
    removeCollisions_spec assignment tracks_empty List.nodup_nil 0
  rw [Nat.zero_add] at ran
  have alone' : ∀ packet ∈ accepted.packets, Alone assignment packet :=
    fun packet mem => (alone packet mem).resolve_left List.not_mem_nil
  refine ⟨accepted, ran, alone', fun packet alone => ?_, nodup, fun key mem => ?_⟩
  · exact (keys _).mpr (.inr ⟨packet, alone, rfl⟩)
  · obtain ⟨packet, mem', rfl⟩ := List.mem_map.mp mem
    exact peels_of_alone (alone' packet mem')

/-- Every assignment of packets to slots. -/
theorem resolves_iff (assignment : Assignment) :
    Resolves assignment ↔
      (∀ slot ∈ assignment, slot.2.length ≠ 1) ∧ collided assignment < 2 ^ 16 := by
  obtain ⟨accepted, ran, alone, covered, nodup, -⟩ := removeCollisions_accepts assignment
  constructor
  · rintro ⟨slots, accepted', ran', -, -, -, -, fuel, collisions, slots', accepted'', finished, -⟩
    rw [ran, Option.some.injEq, Prod.mk.injEq] at ran'
    refine ⟨fun slot mem one => ?_, ?_⟩
    · exact removeCollisions_single ⟨slot, mem, one⟩ fuel collisions slots' accepted'' finished
    · rw [← ran'.1]
      exact Nat.mod_lt _ (Nat.two_pow_pos 16)
  · rintro ⟨many, word⟩
    rw [Nat.mod_eq_of_lt word] at ran
    obtain ⟨collisions, slots', finished, -⟩ := removeCollisions_of_no_single many
    have nothing : accepted.packets = [] := by
      refine List.eq_nil_iff_forall_not_mem.mpr fun packet mem => ?_
      obtain ⟨slot, mem', single⟩ := alone packet mem
      exact many slot mem' (by rw [single, List.length_singleton])
    refine ⟨_, accepted, ran, alone, covered, nodup, fun slot mem => ?_, 1, collisions, slots',
      [], finished, fun key mem => ?_⟩
    · obtain ⟨slot', -, rfl⟩ := List.mem_map.mp mem
      rfl
    · rw [nothing] at mem
      cases mem

/-- The lone packet is accepted by DSA; CRDSA does not survive it. -/
theorem lonePacket_not_included : ¬ Resolves lonePacket := by
  rintro ⟨slots, accepted, -, -, -, -, -, fuel, collisions, slots', accepted', finished, -⟩
  exact removeCollisions_single ⟨_, List.mem_cons_self, rfl⟩ fuel collisions slots' accepted' finished

end OpenSand.Dsa
