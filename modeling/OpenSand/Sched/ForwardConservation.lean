import OpenSand.Sched.Conservation
import OpenSand.Sched.ForwardMoves

/-!
Conservation of the data of the forward link.

A run is a list of superframes: packets arrive on the FIFOs, then the scheduling is
called with the current terminals. Its frames stay each in one container whatever
the calls report; the packets are accounted for as long as no error was reported.
-/

namespace OpenSand

open OpenSand.Run

/-- What happens in a superframe: arrivals on the FIFOs and a call of the scheduling,
with a bound on the turns of its loops. -/
structure Superframe where
  arrivals : List (Nat × FifoElement NetPacket)
  call : SchedCall
  fuel : Nat

/-- The scheduling with what arrived on its FIFOs, and whether it reported an error. -/
structure ForwardWorld where
  sched : ForwardSchedulingS2
  arrived : Nat → List (FifoElement NetPacket)
  failed : Bool

namespace ForwardWorld

variable (handler : EncapPacketHandler) (table : FmtDefinitionTable)

/-- No frame is allocated; the FIFOs and the carriers are any ones. -/
def start (fifos : List (DvbFifo NetPacket)) (carriersGroups : List (List CarriersGroupDama)) :
    ForwardWorld where
  sched := ⟨.empty, fifos, carriersGroups, [], 0⟩
  arrived := queueAt fifos
  failed := false

/-- The scheduler with the FIFOs after the arrivals. -/
def receive (world : ForwardWorld) (fifos : List (DvbFifo NetPacket)) : ForwardSchedulingS2 :=
  { world.sched with fifos := fifos, remainingAllocation := 0 }

def step (world : ForwardWorld) (superframe : Superframe) : Option ForwardWorld :=
  (superframe.arrivals.foldlM Arrivals.push ⟨world.sched.fifos, world.arrived⟩).bind fun state =>
    ((world.receive state.fifos).schedule handler table superframe.fuel superframe.call).map
      fun (ok, sched) => ⟨sched, state.arrived, world.failed || !ok⟩

end ForwardWorld

/-! ### A call of the scheduling -/

/-- A licence for everything but what is asked. -/
def Licence.any (lose : Prop) : Licence where
  serves := fun _ => True
  lose := lose
  refill := False
  forget := False

namespace ForwardSchedulingS2

variable {handler : EncapPacketHandler} {table : FmtDefinitionTable} {call : SchedCall}
  {sched sched' : ForwardSchedulingS2} {fuel : Nat} {ok : Bool}

theorem serve_filed {position : Nat × Nat} (filed : sched.bbframes.Filed table)
    (h : serve handler table fuel call sched position = some (ok, sched')) :
    sched'.bbframes.Filed table := by
  obtain ⟨_, carriers, s, -, rfl, -, evolves⟩ := serve_evolves filed.linked h
  have moved := evolves (.any (ok = false)) id (fun _ _ => trivial) (fun _ _ _ _ => trivial)
  exact moved.filed id filed

theorem serve_packed {position : Nat × Nat} {arrived : Nat → List (FifoElement NetPacket)}
    (filed : sched.bbframes.Filed table)
    (packed : Packed (link handler table) arrived sched.bbframes sched.fifos sched.popped)
    (h : serve handler table fuel call sched position = some (true, sched')) :
    Packed (link handler table) arrived sched'.bbframes sched'.fifos sched'.popped := by
  obtain ⟨_, carriers, s, -, rfl, -, evolves⟩ := serve_evolves filed.linked h
  have moved := evolves (.any False) nofun (fun _ _ => trivial) (fun _ _ _ _ => trivial)
  exact moved.packed id filed.linked packed

/-- The containers stay consistent, whatever the call reports. -/
theorem schedule_filed (filed : sched.bbframes.Filed table)
    (h : sched.schedule handler table fuel call = some (ok, sched')) :
    sched'.bbframes.Filed table := by
  obtain ⟨⟨done, mid⟩, looped, eq⟩ := Option.map_eq_some_iff.mp h
  have kept : mid.bbframes.Filed table := by
    refine forEach_keeps (P := fun sched => sched.bbframes.Filed table) ?_ filed looped
    intro s position out _ filed served
    exact serve_filed filed served
  cases done with
  | true =>
      cases eq
      exact kept
  | false =>
      cases eq
      exact kept

/-- A call that reports no error keeps track of the packets. -/
theorem schedule_packed {arrived : Nat → List (FifoElement NetPacket)}
    (filed : sched.bbframes.Filed table)
    (packed : Packed (link handler table) arrived sched.bbframes sched.fifos sched.popped)
    (h : sched.schedule handler table fuel call = some (true, sched')) :
    Packed (link handler table) arrived sched'.bbframes sched'.fifos sched'.popped := by
  obtain ⟨⟨done, mid⟩, looped, eq⟩ := Option.map_eq_some_iff.mp h
  cases done with
  | false => cases eq
  | true =>
      cases eq
      refine (forEach_keeps_of_true (P := fun sched => sched.bbframes.Filed table ∧
        Packed (link handler table) arrived sched.bbframes sched.fifos sched.popped)
          ?_ ⟨filed, packed⟩ looped).2
      rintro s position s' _ ⟨filed, packed⟩ served
      exact ⟨serve_filed filed served, serve_packed filed packed served⟩

end ForwardSchedulingS2

/-! ### Runs -/

namespace ForwardWorld

open ForwardSchedulingS2

variable {handler : EncapPacketHandler} {table : FmtDefinitionTable}

theorem step_filed {world world' : ForwardWorld} {superframe : Superframe}
    (filed : world.sched.bbframes.Filed table)
    (h : world.step handler table superframe = some world') :
    world'.sched.bbframes.Filed table := by
  obtain ⟨state, -, h⟩ := Option.bind_eq_some_iff.mp h
  obtain ⟨⟨ok, sched⟩, called, rfl⟩ := Option.map_eq_some_iff.mp h
  have received : (world.receive state.fifos).bbframes.Filed table := filed
  exact schedule_filed received called

/-- What holds between two superframes. -/
structure Sound (handler : EncapPacketHandler) (table : FmtDefinitionTable)
    (world : ForwardWorld) : Prop where
  filed : world.sched.bbframes.Filed table
  packed : world.failed = false →
    Packed (link handler table) world.arrived world.sched.bbframes world.sched.fifos
      world.sched.popped

theorem start_sound (fifos : List (DvbFifo NetPacket))
    (carriersGroups : List (List CarriersGroupDama)) :
    (start fifos carriersGroups).Sound handler table where
  filed := BBFrames.empty_filed table
  packed _ := Packed.initial (link handler table) fifos

theorem step_sound {world world' : ForwardWorld} {superframe : Superframe}
    (sound : world.Sound handler table)
    (h : world.step handler table superframe = some world') : world'.Sound handler table := by
  obtain ⟨state, pushed, h⟩ := Option.bind_eq_some_iff.mp h
  obtain ⟨⟨ok, sched⟩, called, rfl⟩ := Option.map_eq_some_iff.mp h
  have filed : (world.receive state.fifos).bbframes.Filed table := sound.filed
  refine ⟨schedule_filed filed called, ?_⟩
  intro safe
  rw [Bool.or_eq_false_iff, Bool.not_eq_false'] at safe
  obtain ⟨before, rfl⟩ := safe
  have arrived : Packed (link handler table) state.arrived world.sched.bbframes state.fifos
      world.sched.popped := (sound.packed before).pushes pushed
  have packed : Packed (link handler table) state.arrived (world.receive state.fifos).bbframes
      (world.receive state.fifos).fifos (world.receive state.fifos).popped := arrived
  exact schedule_packed filed packed called

theorem allStates_sound (fifos : List (DvbFifo NetPacket))
    (carriersGroups : List (List CarriersGroupDama)) (superframes : List Superframe) :
    AllStates (step handler table) (Sound handler table) (start fifos carriersGroups)
      superframes :=
  allStates_of_step (start_sound fifos carriersGroups) fun _ _ _ => step_sound

/-- Every frame is in one of the complete list, the pending list and the incomplete
set; the incomplete map and list hold the same frames, under their MODCODs; and unless
an error was reported, every packet taken out of a FIFO is explained, its data are in
the frame of its MODCOD and what remains of it is at the head of its FIFO, so that
what arrived is in the FIFOs, in the frames, or skipped for want of a MODCOD. The
last holds for any amount that the encapsulation shares between its two parts. -/
structure Conserved {M : Type*} [AddCommMonoid M] (handler : EncapPacketHandler)
    (table : FmtDefinitionTable) (payload : NetPacket → M) (world : ForwardWorld) : Prop where
  placed : (world.sched.bbframes.complete.map (·.frame) ++ world.sched.bbframes.pending ++
    world.sched.bbframes.incompleteOrdered).Perm (List.range world.sched.bbframes.allocated)
  mirrored : ∀ modcodId f, world.sched.bbframes.incomplete[modcodId]? = some f ↔
    f ∈ world.sched.bbframes.incompleteOrdered ∧ world.sched.bbframes.modcod f = modcodId
  packed : world.failed = false →
    Packed (link handler table) world.arrived world.sched.bbframes world.sched.fifos
      world.sched.popped
  conserved : handler.Conserves payload → world.failed = false →
    ∑ k ∈ Finset.range world.sched.fifos.length, queuePayload payload (world.arrived k) =
      ∑ k ∈ Finset.range world.sched.fifos.length,
        queuePayload payload (queueAt world.sched.fifos k) +
        ((world.sched.popped.map (Popped.skippedPayload payload)).sum +
          ∑ f ∈ Finset.range world.sched.bbframes.allocated,
            ((world.sched.bbframes.frame f).packets.map payload).sum)

/-- **The forward scheduling conserves data**, in every state of every run. -/
theorem allStates_conserved {M : Type*} [AddCommMonoid M] (payload : NetPacket → M)
    (fifos : List (DvbFifo NetPacket)) (carriersGroups : List (List CarriersGroupDama))
    (superframes : List Superframe) :
    AllStates (step handler table) (Conserved handler table payload)
      (start fifos carriersGroups) superframes := by
  refine (allStates_sound fifos carriersGroups superframes).mono fun world sound => ?_
  refine ⟨sound.filed.placed, sound.filed.mirrored, sound.packed, fun conserves safe => ?_⟩
  exact (sound.packed safe).payload_eq conserves

end ForwardWorld

end OpenSand
