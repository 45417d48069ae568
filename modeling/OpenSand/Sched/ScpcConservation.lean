import OpenSand.Sched.Conservation
import OpenSand.Sched.ForwardConservation
import OpenSand.Sched.ScpcMoves

/-!
Conservation of the frames and of the data of an SCPC terminal.

A pending frame is given a second chance for every FIFO of the same superframe, with the
capacity that the previous FIFO left, and it is forgotten when it does not fit. As long
as the pending frames fit whenever they are tried, nothing is lost.
-/

namespace OpenSand

open OpenSand.Run

namespace ScpcScheduling

/-- The pending frames fit for every FIFO on a carriers group. -/
def PendingFit (handler : EncapPacketHandler) (table : FmtDefinitionTable) (gwId fuel : Nat)
    (call : SchedCall) (sched : ScpcScheduling) (g : Nat) : Prop :=
  ∀ carriers, sched.carriersGroups[g]? = some carriers →
    EachCall (Serving.scpcEncapPackets (link handler table gwId) call (g, 0) fuel)
      (Serving.PendingFit table call) (sched.serving carriers) (List.range sched.fifos.length)

variable {handler : EncapPacketHandler} {table : FmtDefinitionTable} {gwId fuel : Nat}
  {call : SchedCall} {sched sched' : ScpcScheduling} {ok : Bool}

instance (g : Nat) : Decidable (sched.PendingFit handler table gwId fuel call g) :=
  match found : sched.carriersGroups[g]? with
  | none => isTrue fun carriers found' => by simp [found] at found'
  | some carriers =>
      decidable_of_iff (EachCall
        (Serving.scpcEncapPackets (link handler table gwId) call (g, 0) fuel)
        (Serving.PendingFit table call) (sched.serving carriers)
        (List.range sched.fifos.length)) (by simp [PendingFit, found])

/-- A licence to lose a packet, when the call reports an error, and to read the capacity. -/
def licence (lose : Prop) : Licence where
  serves := fun _ => True
  lose := lose
  refill := True
  forget := False

/-- A call on a carriers group is a sequence of moves when the pending frames fit. -/
theorem serve_evolves {g : Nat} (filed : sched.bbframes.Filed table)
    (fit : sched.PendingFit handler table gwId fuel call g)
    (h : serve handler table gwId fuel call sched g = some (ok, sched')) :
    ∃ carriers s', sched.carriersGroups[g]? = some carriers ∧ sched' = sched.store g s' ∧
      Evolves (link handler table gwId) (g, 0) (licence (ok = false)) (sched.serving carriers)
        s' := by
  obtain ⟨carriers, found, h⟩ := Option.bind_eq_some_iff.mp h
  obtain ⟨⟨done, s⟩, called, h⟩ := Option.map_eq_some_iff.mp h
  have filed' : (sched.serving carriers).bbframes.Filed table := filed
  have moved : ∀ lose : Prop, (done = false → lose) →
      Evolves (link handler table gwId) (g, 0) (licence lose) (sched.serving carriers) s := by
    intro lose lost
    refine forEach_keeps_of_eachCall (P := Evolves (link handler table gwId) (g, 0)
      (licence lose) (sched.serving carriers)) ?_ (.refl _) (fit carriers found) called
    intro s k mid _ before fits encapsulated stopped
    have started : Evolves (link handler table gwId) (g, 0) (licence lose) s
        { s with capacitySym := (s.scpcCapacities call).2 } := Move.evolves (.capacity (.inl trivial))
    exact before.trans (started.trans (scpcEncapPackets_evolves (fun _ _ => trivial)
      (fun _ _ _ => trivial) (fun fails => lost (stopped fails)) (before.linked filed'.linked)
      (.inr fits) encapsulated))
  dsimp only at h
  cases done with
  | false =>
      obtain ⟨rfl, rfl⟩ := Prod.mk.inj h
      exact ⟨carriers, s, found, rfl, moved _ id⟩
  | true =>
      obtain ⟨rfl, rfl⟩ := Prod.mk.inj h
      have started : ∀ lose : Prop, Evolves (link handler table gwId) (g, 0) (licence lose) s
          { s with capacitySym := s.carriers.remainingCapacity } :=
        fun _ => Move.evolves (.capacity (.inl trivial))
      refine ⟨carriers, _, found, rfl, (moved _ ?_).trans ((started _).trans (scpcFlush_evolves
        ((moved False nofun).linked filed'.linked) fun _ _ => trivial))⟩
      exact nofun

theorem serve_filed {g : Nat} (filed : sched.bbframes.Filed table)
    (fit : sched.PendingFit handler table gwId fuel call g)
    (h : serve handler table gwId fuel call sched g = some (ok, sched')) :
    sched'.bbframes.Filed table := by
  obtain ⟨carriers, s, -, rfl, moved⟩ := serve_evolves filed fit h
  exact moved.filed id filed

theorem serve_packed {g : Nat} {arrived : Nat → List (FifoElement NetPacket)}
    (filed : sched.bbframes.Filed table)
    (packed : Packed (link handler table gwId) arrived sched.bbframes sched.fifos sched.popped)
    (fit : sched.PendingFit handler table gwId fuel call g)
    (h : serve handler table gwId fuel call sched g = some (true, sched')) :
    Packed (link handler table gwId) arrived sched'.bbframes sched'.fifos sched'.popped := by
  obtain ⟨carriers, s, -, rfl, moved⟩ := serve_evolves filed fit h
  exact moved.packed nofun filed.linked packed

/-- The pending frames fit for every FIFO on every carriers group. -/
def AllPendingFit (handler : EncapPacketHandler) (table : FmtDefinitionTable) (gwId fuel : Nat)
    (call : SchedCall) (sched : ScpcScheduling) : Prop :=
  EachCall (serve handler table gwId fuel call) (PendingFit handler table gwId fuel call) sched
    (List.range sched.carriersGroups.length)

theorem schedule_filed (filed : sched.bbframes.Filed table)
    (fit : sched.AllPendingFit handler table gwId fuel call)
    (h : sched.schedule handler table gwId fuel call = some (ok, sched')) :
    sched'.bbframes.Filed table := by
  obtain ⟨⟨done, mid⟩, looped, eq⟩ := Option.map_eq_some_iff.mp h
  have kept : mid.bbframes.Filed table := by
    refine forEach_keeps_of_eachCall (P := fun sched => sched.bbframes.Filed table) ?_ filed fit
      looped
    intro s g out _ filed fits served _
    exact serve_filed filed fits served
  cases done with
  | true =>
      cases eq
      exact kept
  | false =>
      cases eq
      exact kept

theorem schedule_packed {arrived : Nat → List (FifoElement NetPacket)}
    (filed : sched.bbframes.Filed table)
    (packed : Packed (link handler table gwId) arrived sched.bbframes sched.fifos sched.popped)
    (fit : sched.AllPendingFit handler table gwId fuel call)
    (h : sched.schedule handler table gwId fuel call = some (true, sched')) :
    Packed (link handler table gwId) arrived sched'.bbframes sched'.fifos sched'.popped := by
  obtain ⟨⟨done, mid⟩, looped, eq⟩ := Option.map_eq_some_iff.mp h
  cases done with
  | false => cases eq
  | true =>
      cases eq
      refine (forEach_keeps_of_eachCall (P := fun sched => sched.bbframes.Filed table ∧
        Packed (link handler table gwId) arrived sched.bbframes sched.fifos sched.popped)
          ?_ ⟨filed, packed⟩ fit looped).2
      rintro s g ⟨status, s'⟩ _ ⟨filed, packed⟩ fits served went
      cases status with
      | false => cases went rfl
      | true => exact ⟨serve_filed filed fits served, serve_packed filed packed fits served⟩

end ScpcScheduling

/-! ### Runs -/

/-- The scheduling with what arrived on its FIFOs, and whether it reported an error. -/
structure ScpcWorld where
  sched : ScpcScheduling
  arrived : Nat → List (FifoElement NetPacket)
  failed : Bool

namespace ScpcWorld

open ScpcScheduling

/-- No frame is allocated; the FIFOs and the carriers are any ones. -/
def start (fifos : List (DvbFifo NetPacket)) (carriersGroups : List CarriersGroupDama) :
    ScpcWorld where
  sched := ⟨.empty, fifos, carriersGroups, [], 0⟩
  arrived := queueAt fifos
  failed := false

section Step

variable (handler : EncapPacketHandler) (table : FmtDefinitionTable) (gwId : Nat)

/-- The scheduler with the FIFOs after the arrivals. -/
def receive (world : ScpcWorld) (fifos : List (DvbFifo NetPacket)) : ScpcScheduling :=
  { world.sched with fifos := fifos, remainingAllocation := 0 }

def step (world : ScpcWorld) (superframe : Superframe) : Option ScpcWorld :=
  (superframe.arrivals.foldlM Arrivals.push ⟨world.sched.fifos, world.arrived⟩).bind fun state =>
    ((world.receive state.fifos).schedule handler table gwId superframe.fuel
        superframe.call).map
      fun (ok, sched) => ⟨sched, state.arrived, world.failed || !ok⟩

/-- Whenever pending frames are tried in a superframe, those that the carriers support
take together at most the capacity that the carriers have then. -/
def StepFits (world : ScpcWorld) (superframe : Superframe) : Prop :=
  ∀ state,
    superframe.arrivals.foldlM Arrivals.push ⟨world.sched.fifos, world.arrived⟩ = some state →
      (world.receive state.fifos).AllPendingFit handler table gwId superframe.fuel superframe.call

end Step

variable {handler : EncapPacketHandler} {table : FmtDefinitionTable} {gwId : Nat}

instance (world : ScpcWorld) (superframe : Superframe) :
    Decidable (world.StepFits handler table gwId superframe) :=
  match pushed : superframe.arrivals.foldlM Arrivals.push ⟨world.sched.fifos, world.arrived⟩ with
  | none => isTrue fun state pushed' => by simp [pushed] at pushed'
  | some state =>
      decidable_of_iff (EachCall (serve handler table gwId superframe.fuel superframe.call)
        (PendingFit handler table gwId superframe.fuel superframe.call)
        (world.receive state.fifos) (List.range (world.receive state.fifos).carriersGroups.length))
        (by simp [StepFits, AllPendingFit, pushed])

/-- What holds between two superframes. -/
structure Sound (handler : EncapPacketHandler) (table : FmtDefinitionTable) (gwId : Nat)
    (world : ScpcWorld) : Prop where
  filed : world.sched.bbframes.Filed table
  packed : world.failed = false →
    Packed (link handler table gwId) world.arrived world.sched.bbframes world.sched.fifos
      world.sched.popped

theorem start_sound (fifos : List (DvbFifo NetPacket)) (carriersGroups : List CarriersGroupDama) :
    (start fifos carriersGroups).Sound handler table gwId where
  filed := BBFrames.empty_filed table
  packed _ := Packed.initial (link handler table gwId) fifos

theorem step_sound {world world' : ScpcWorld} {superframe : Superframe}
    (sound : world.Sound handler table gwId) (fit : world.StepFits handler table gwId superframe)
    (h : world.step handler table gwId superframe = some world') :
    world'.Sound handler table gwId := by
  obtain ⟨state, pushed, h⟩ := Option.bind_eq_some_iff.mp h
  obtain ⟨⟨ok, sched⟩, called, rfl⟩ := Option.map_eq_some_iff.mp h
  have filed : (world.receive state.fifos).bbframes.Filed table := sound.filed
  refine ⟨schedule_filed filed (fit state pushed) called, ?_⟩
  intro safe
  rw [Bool.or_eq_false_iff, Bool.not_eq_false'] at safe
  obtain ⟨before, rfl⟩ := safe
  have packed : Packed (link handler table gwId) state.arrived
      (world.receive state.fifos).bbframes (world.receive state.fifos).fifos
      (world.receive state.fifos).popped := (sound.packed before).pushes pushed
  exact schedule_packed filed packed (fit state pushed) called

/-- Every frame is in one of the complete list, the pending list and the incomplete
set, where the map and the list hold the same frames; and unless an error was reported,
every packet taken out of a FIFO was put in a frame, up to what remains of it at the head
of its FIFO. The last holds for any amount that the encapsulation shares between its two
parts. -/
structure Conserved {M : Type*} [AddCommMonoid M] (handler : EncapPacketHandler)
    (table : FmtDefinitionTable) (gwId : Nat) (payload : NetPacket → M) (world : ScpcWorld) :
    Prop where
  placed : (world.sched.bbframes.complete.map (·.frame) ++ world.sched.bbframes.pending ++
    world.sched.bbframes.incompleteOrdered).Perm (List.range world.sched.bbframes.allocated)
  mirrored : ∀ modcodId f, world.sched.bbframes.incomplete[modcodId]? = some f ↔
    f ∈ world.sched.bbframes.incompleteOrdered ∧ world.sched.bbframes.modcod f = modcodId
  packed : world.failed = false →
    Packed (link handler table gwId) world.arrived world.sched.bbframes world.sched.fifos
      world.sched.popped
  framed : world.failed = false → ∀ popped ∈ world.sched.popped,
    ∃ f data remaining, popped.outcome = .framed f data remaining
  conserved : handler.Conserves payload → world.failed = false →
    ∑ k ∈ Finset.range world.sched.fifos.length, queuePayload payload (world.arrived k) =
      ∑ k ∈ Finset.range world.sched.fifos.length,
        queuePayload payload (queueAt world.sched.fifos k) +
          ∑ f ∈ Finset.range world.sched.bbframes.allocated,
            ((world.sched.bbframes.frame f).packets.map payload).sum

/-- Every packet taken out of a FIFO was put in a frame. -/
theorem Sound.framed {world : ScpcWorld} (sound : world.Sound handler table gwId)
    (safe : world.failed = false) :
    ∀ popped ∈ world.sched.popped, ∃ f data remaining,
      popped.outcome = .framed f data remaining := by
  intro popped mem
  obtain ⟨-, packet, -, why⟩ := (sound.packed safe).explained popped mem
  cases outcome : popped.outcome with
  | skipped =>
      obtain ⟨modcodId, selected⟩ := select_eq gwId table popped.sts popped.fmtGroup packet
      rw [outcome] at why
      exact absurd (selected.symm.trans why) nofun
  | framed f data remaining => exact ⟨f, data, remaining, rfl⟩

/-- **The SCPC scheduling conserves frames and data** in every state of a run in whose
superframes the pending frames fit whenever they are tried. -/
theorem allStates_conserved_of_fit {M : Type*} [AddCommMonoid M] (payload : NetPacket → M)
    (fifos : List (DvbFifo NetPacket)) (carriersGroups : List CarriersGroupDama)
    (superframes : List Superframe)
    (fit : AllSteps (step handler table gwId) (StepFits handler table gwId)
      (start fifos carriersGroups) superframes) :
    AllStates (step handler table gwId) (Conserved handler table gwId payload)
      (start fifos carriersGroups) superframes := by
  have sound : AllStates (step handler table gwId) (Sound handler table gwId)
      (start fifos carriersGroups) superframes :=
    allStates_of_allSteps (start_sound fifos carriersGroups)
      (fun _ _ _ sound fits taken => step_sound sound fits taken) fit
  refine sound.mono fun world sound => ?_
  refine ⟨sound.filed.placed, sound.filed.mirrored, sound.packed, sound.framed, ?_⟩
  intro conserves safe
  have total := (sound.packed safe).payload_eq conserves
  have nothing : (world.sched.popped.map (Popped.skippedPayload payload)).sum = 0 := by
    refine List.sum_eq_zero fun amount mem => ?_
    obtain ⟨popped, popped_mem, rfl⟩ := List.mem_map.mp mem
    obtain ⟨f, data, remaining, outcome⟩ := sound.framed safe popped popped_mem
    rw [Popped.skippedPayload, outcome]
  rw [nothing, zero_add] at total
  exact total

/-- With one FIFO, the second frame waits for the next superframe. -/
theorem oneFifo_conserved :
    AllStates (step .fragmenting sampleFmts 0)
      (Conserved .fragmenting sampleFmts 0 fun packet => (packet.data : Multiset UInt8))
      (start [.new (.forward .acm) 0 100] [sampleCarriers [2] 16108])
      [⟨[(0, sampleElement 0 3990)], ⟨0, 0, [(0, 2)]⟩, 10⟩, ⟨[], ⟨1, 0, [(0, 2)]⟩, 10⟩] :=
  allStates_conserved_of_fit _ _ _ _ (by decide +kernel)

/-- With two FIFOs, it is lost for the second one, whose capacity is exhausted. -/
theorem pendingFrame_not_conserved :
    ¬ AllStates (step .fragmenting sampleFmts 0)
      (Conserved .fragmenting sampleFmts 0 fun packet => (packet.data : Multiset UInt8))
      (start [.new (.forward .acm) 0 100, .new (.forward .acm) 0 100]
        [sampleCarriers [2] 16108])
      [⟨[(0, sampleElement 0 3990)], ⟨0, 0, [(0, 2)]⟩, 10⟩] := by
  intro states
  have survived : (run (step .fragmenting sampleFmts 0)
      (start [.new (.forward .acm) 0 100, .new (.forward .acm) 0 100]
        [sampleCarriers [2] 16108])
      [⟨[(0, sampleElement 0 3990)], ⟨0, 0, [(0, 2)]⟩, 10⟩]).any (fun world =>
        (world.sched.bbframes.complete.map (·.frame) ++ world.sched.bbframes.pending ++
          world.sched.bbframes.incompleteOrdered).length ≠ world.sched.bbframes.allocated) =
      true := by
    decide +kernel
  obtain ⟨world, ends, missing⟩ := (Option.any_eq_true _ _).mp survived
  have placed := (states.last ends).placed.length_eq
  rw [List.length_range] at placed
  exact of_decide_eq_true missing placed

end ScpcWorld

end OpenSand
