import Mathlib.Algebra.GroupWithZero.Nat
import OpenSand.Lib.Peeling
import OpenSand.Saloha.PacketData

/-!
Collision resolution by CRDSA (`SlottedAlohaAlgoCrdsa::removeCollisions`).

A slot is a vector of unique pointers. The packet that is alone in a slot is
moved to the accepted packets, which leaves its pointer in the slot, null; the
slots are then swept again, and a sweep reads the terminal of every packet of a
non-empty slot. Reading through a null pointer is not survived.

`Peels` on the keys of the slots is what collision resolution is for;
`removeCollisions_resolves_iff` says on which slots the code achieves it.
-/

namespace OpenSand.Crdsa

open OpenSand.Peeling

abbrev Packet := SlottedAlohaPacketData

/-- The pointers of a slot, null where the packet was moved out. -/
abbrev Slot := List (Option Packet)

/-- The slots of a category by slot id (`std::map`). -/
abbrev Slots := List (Nat × Slot)

/-- What is accepted so far: the identifiers by terminal and the packets. -/
structure Accepted where
  ids : Nat → List SalohaId
  packets : List Packet

def Accepted.empty : Accepted := ⟨fun _ => [], []⟩

@[simp] theorem Accepted.empty_ids (talId : Nat) : Accepted.empty.ids talId = [] := rfl

def Accepted.add (accepted : Accepted) (packet : Packet) : Accepted where
  ids := Function.update accepted.ids packet.srcTalId
    (accepted.ids packet.srcTalId ++ [packet.getUniqueId])
  packets := accepted.packets ++ [packet]

/-- Remove from a slot the packets accepted on another one. Every pointer of the
slot is read. -/
def suppressSignal (ids : Nat → List SalohaId) : Slot → Option Slot
  | [] => some []
  | none :: _ => none
  | some packet :: rest =>
      (suppressSignal ids rest).map fun rest' =>
        if packet.getUniqueId ∈ ids packet.srcTalId then rest' else some packet :: rest'

/-- One slot of a sweep; the status is false when a packet is decoded. -/
def visitSlot (accepted : Accepted) (slot : Slot) : Option (Slot × Accepted × Bool) :=
  if slot = [] then some (slot, accepted, true)
  else
    (suppressSignal accepted.ids slot).map fun slot' =>
      match slot' with
      | [some packet] => ([none], accepted.add packet, false)
      | slot' => (slot', accepted, true)

/-- One sweep over the slots; the status is false when another one is needed. -/
def sweep : Accepted → Slots → Option (Slots × Accepted × Bool)
  | accepted, [] => some ([], accepted, true)
  | accepted, (id, slot) :: rest =>
      (visitSlot accepted slot).bind fun (slot', accepted', stop) =>
        (sweep accepted' rest).map fun (rest', accepted'', stop') =>
          ((id, slot') :: rest', accepted'', stop && stop')

/-- The number of packets still in collision, as a 16-bit word. -/
def nbrCollisions (slots : Slots) : Nat :=
  ((slots.map fun slot => if 1 < slot.2.length then slot.2.length else 0).sum) % 2 ^ 16

inductive Outcome where
  | crashed
  | unfinished
  | finished (collisions : Nat) (slots : Slots) (accepted : List Packet)

/-- The sweeps, `fuel` of them at most, and the final clearing of the slots. -/
def removeCollisions : Nat → Accepted → Slots → Outcome
  | 0, _, _ => .unfinished
  | fuel + 1, accepted, slots =>
      match sweep accepted slots with
      | none => .crashed
      | some (slots', accepted', true) =>
          .finished (nbrCollisions slots') (slots'.map fun slot => (slot.1, []))
            accepted'.packets
      | some (slots', accepted', false) => removeCollisions fuel accepted' slots'

/-- An assignment of packets to slots, as received: every pointer is live. -/
abbrev Assignment := List (Nat × List Packet)

def load (assignment : Assignment) : Slots :=
  assignment.map fun slot => (slot.1, slot.2.map some)

/-- The checks of an assignment: the packet keys in each slot. -/
def checks (assignment : Assignment) : List (List (Nat × SalohaId)) :=
  assignment.map fun slot => slot.2.map (·.key)

/-- Collision resolution as it should be: it ends without reading a moved-out
packet, accepts the peeled packets, each once, and leaves the slots empty. -/
def Resolves (assignment : Assignment) : Prop :=
  ∃ fuel collisions slots accepted,
    removeCollisions fuel .empty (load assignment) = .finished collisions slots accepted ∧
    (∀ key, key ∈ accepted.map (·.key) ↔ Peels (checks assignment) key) ∧
    (accepted.map (·.key)).Nodup ∧ ∀ slot ∈ slots, slot.2 = []

/-! ### Sweeps without a packet alone -/

theorem suppressSignal_empty (packets : List Packet) :
    suppressSignal Accepted.empty.ids (packets.map some) = some (packets.map some) := by
  induction packets with
  | nil => rfl
  | cons packet rest ih => simp [suppressSignal, ih]

/-- Before anything is accepted, a slot changes only if its packet is alone. -/
theorem visitSlot_empty {packets : List Packet} (many : packets.length ≠ 1) :
    visitSlot .empty (packets.map some) = some (packets.map some, .empty, true) := by
  unfold visitSlot
  split
  · rfl
  · rw [suppressSignal_empty, Option.map_some]
    split
    · rename_i single
      simp only [List.map_eq_singleton_iff] at single
      obtain ⟨packet, rfl, _⟩ := single
      exact absurd rfl many
    · rfl

theorem visitSlot_single (packet : Packet) :
    visitSlot .empty [some packet] = some ([none], Accepted.empty.add packet, false) := by
  simp [visitSlot, suppressSignal]

theorem sweep_empty {assignment : Assignment} (many : ∀ slot ∈ assignment, slot.2.length ≠ 1) :
    sweep .empty (load assignment) = some (load assignment, .empty, true) := by
  induction assignment with
  | nil => rfl
  | cons slot rest ih =>
      have here := visitSlot_empty (many slot List.mem_cons_self)
      have later := ih fun slot' mem => many slot' (List.mem_cons_of_mem _ mem)
      simp only [load, List.map_cons] at later ⊢
      simp [sweep, here, later]

/-! ### The null pointer of a decoded packet -/

/-- A slot whose only pointer is null stops the next sweep. -/
theorem sweep_null {accepted : Accepted} {slots : Slots} (null : ∃ slot ∈ slots, slot.2 = [none]) :
    sweep accepted slots = none := by
  induction slots generalizing accepted with
  | nil =>
      obtain ⟨slot, mem, _⟩ := null
      exact absurd mem List.not_mem_nil
  | cons slot rest ih =>
      obtain ⟨slot', mem, hnull⟩ := null
      rcases List.mem_cons.mp mem with rfl | mem
      · obtain ⟨id, _⟩ := slot'
        cases hnull
        simp [sweep, visitSlot, suppressSignal]
      · have later := fun accepted' => @ih accepted' ⟨slot', mem, hnull⟩
        simp [sweep, later]

/-- The first sweep moves a packet out of a slot as soon as one is alone. -/
theorem sweep_single {assignment : Assignment} (single : ∃ slot ∈ assignment, slot.2.length = 1) :
    ∀ out, sweep .empty (load assignment) = some out →
      out.2.2 = false ∧ ∃ slot ∈ out.1, slot.2 = [none] := by
  induction assignment with
  | nil =>
      obtain ⟨slot, mem, _⟩ := single
      exact absurd mem List.not_mem_nil
  | cons slot rest ih =>
      intro out swept
      simp only [load, List.map_cons, sweep, Option.bind_eq_some_iff, Option.map_eq_some_iff]
        at swept
      obtain ⟨visited, hvisit, later, hlater, rfl⟩ := swept
      by_cases here : slot.2.length = 1
      · obtain ⟨packet, hpacket⟩ := List.length_eq_one_iff.mp here
        rw [hpacket, List.map_singleton, visitSlot_single] at hvisit
        cases hvisit
        exact ⟨by simp, _, List.mem_cons_self, rfl⟩
      · rw [visitSlot_empty here] at hvisit
        cases hvisit
        obtain ⟨slot', mem, hslot'⟩ := single
        rcases List.mem_cons.mp mem with rfl | mem
        · exact absurd hslot' here
        · obtain ⟨again, slot'', mem'', hnull⟩ := ih ⟨slot', mem, hslot'⟩ later hlater
          exact ⟨by simp [again], slot'', List.mem_cons_of_mem _ mem'', hnull⟩

/-- With a packet alone in a slot the resolution never finishes: the first sweep
asks for a second one, which reads the packet moved out. -/
theorem removeCollisions_single {assignment : Assignment}
    (single : ∃ slot ∈ assignment, slot.2.length = 1) (fuel collisions : Nat) (slots : Slots)
    (accepted : List Packet) :
    removeCollisions fuel .empty (load assignment) ≠ .finished collisions slots accepted := by
  intro finished
  cases fuel with
  | zero => cases finished
  | succ fuel =>
      simp only [removeCollisions] at finished
      cases hsweep : sweep .empty (load assignment) with
      | none =>
          rw [hsweep] at finished
          cases finished
      | some out =>
          obtain ⟨again, null⟩ := sweep_single single out hsweep
          obtain ⟨slots', accepted', stop⟩ := out
          cases again
          rw [hsweep] at finished
          cases fuel with
          | zero => cases finished
          | succ fuel =>
              simp only [removeCollisions, sweep_null null] at finished
              cases finished

/-! ### Where collision resolution works -/

/-- Without a lone packet one sweep ends the resolution, and nothing is decoded. -/
theorem removeCollisions_of_no_single (many : ∀ slot ∈ assignment, slot.2.length ≠ 1) :
    ∃ collisions slots, removeCollisions 1 .empty (load assignment) =
        .finished collisions slots [] ∧ ∀ slot ∈ slots, slot.2 = [] := by
  refine ⟨_, _, by simp only [removeCollisions, sweep_empty many]; rfl, fun slot mem => ?_⟩
  obtain ⟨slot', _, rfl⟩ := List.mem_map.mp mem
  rfl

/-- **CRDSA resolves exactly the slots without a lone packet.** When some slot
holds exactly one packet, the sweep after the one that decodes it reads the
pointer it left; when none does, there is nothing to decode. -/
theorem removeCollisions_resolves_iff (assignment : Assignment) :
    Resolves assignment ↔ ∀ slot ∈ assignment, slot.2.length ≠ 1 := by
  constructor
  · rintro ⟨fuel, collisions, slots, accepted, finished, _⟩ slot mem alone
    exact removeCollisions_single ⟨slot, mem, alone⟩ fuel collisions slots accepted finished
  · intro many
    obtain ⟨collisions, slots, finished, cleared⟩ := removeCollisions_of_no_single many
    refine ⟨1, collisions, slots, [], finished, ?_, by simp, cleared⟩
    intro key
    have none : ¬ Peels (checks assignment) key := by
      apply not_peels_of_no_single
      intro check mem
      obtain ⟨slot, hslot, rfl⟩ := List.mem_map.mp mem
      rw [List.length_map]
      exact many slot hslot
    simp [none]

/-- One terminal sends one packet in one slot, and nobody else sends. -/
def lonePacket : Assignment := [(0, [⟨0, 0, 0, 1, 0, [0], [0xAA], 1⟩])]

theorem lonePacket_not_resolved : ¬ Resolves lonePacket := by
  rintro ⟨fuel, collisions, slots, accepted, finished, _⟩
  exact removeCollisions_single ⟨_, List.mem_cons_self, rfl⟩ fuel collisions slots accepted finished

end OpenSand.Crdsa
