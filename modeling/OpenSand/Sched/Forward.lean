import OpenSand.Lib.Grid
import OpenSand.Sched.PacketLoop

/-!
The scheduling of the forward link (`ForwardSchedulingS2`).

A call serves the VCM carriers of each carriers group in turn. On each of them the
FIFOs that can emit there are served by priority, then the incomplete frames are
used to fill the capacity left; what is not used is carried to the next superframe.
-/

namespace OpenSand

open OpenSand.Word

namespace ForwardSchedulingS2

/-- The MODCOD of the frame for a packet, from its terminal or for a broadcast packet
the terminal with the lowest MODCOD (`getIncompleteBBFrame`). -/
def select (sts : StFmtSimuList) (fmtGroup : FmtGroup) (packet : NetPacket) : Selection :=
  let talId := if packet.dstTalId = BROADCAST_TAL_ID then sts.getTalIdWithLowerModcod
    else packet.dstTalId
  if packet.dstTalId = BROADCAST_TAL_ID ∧ talId = 65535 then .failed
  else if sts.isStPresent talId = false then .skipped
  else if sts.getCurrentModcodId talId = 0 then .skipped
  else if fmtGroup.getNearest (sts.getCurrentModcodId talId) = 0 then .skipped
  else .modcod (fmtGroup.getNearest (sts.getCurrentModcodId talId))

def link (handler : EncapPacketHandler) (fwdModcodDef : FmtDefinitionTable) : S2Link where
  handler := handler
  modcodDef := fwdModcodDef
  select := select
  assertChunk := false
  capacityWhenFull := id
  capacityWhenFull_le := fun _ => le_rfl

end ForwardSchedulingS2

namespace Serving

variable (link : S2Link) (call : SchedCall) (position : Nat × Nat)

/-- The pending frames, then the packets of the FIFO; the previous capacity is not for
them when there is no incomplete frame. -/
def forwardEncapPackets (fuel initCapa : Nat) (s : Serving) (k : Nat) :
    Option (Bool × Serving) :=
  s.fifos[k]?.bind fun fifo =>
    if fifo.getCurrentSize = 0 ∧ s.bbframes.pending = [] then some (true, s)
    else
      let (bbframes, capacitySym) := schedulePendingFrom true link.modcodDef position
        s.carriers.getFmtIds [] s.bbframes.pending s.bbframes s.capacitySym
      let capacitySym := if bbframes.incomplete.isEmpty then min initCapa capacitySym
        else capacitySym
      let s := { s with bbframes := bbframes, capacitySym := capacitySym }
      if fifo.getCurrentSize = 0 then some (true, s) else s.packetLoop link call position k fuel

/-- A FIFO can emit on the only carriers of a group when it is ACM, and on one of its
VCM carriers when it is the VCM one for it. -/
def canEmit (vcmCarriers : Nat) (vcmId : Nat) (fifo : DvbFifo NetPacket) : Bool :=
  if vcmCarriers ≤ 1 then fifo.accessType.same (.forward .acm)
  else fifo.accessType.same (.forward .vcm) && fifo.vcmId = vcmId

/-- The FIFOs by priority, up to the first one with packets left. -/
def forwardFifos (fuel initCapa vcmCarriers : Nat) : List Nat → Serving → Option (Bool × Serving)
  | [], s => some (true, s)
  | k :: rest, s =>
      s.fifos[k]?.bind fun fifo =>
        if canEmit vcmCarriers position.2 fifo = false then
          forwardFifos fuel initCapa vcmCarriers rest s
        else
          (s.forwardEncapPackets link call position fuel initCapa k).bind fun (ok, s) =>
            if ok = false then some (false, s)
            else if (s.fifos[k]?).any (0 < ·.getCurrentSize) then some (true, s)
            else forwardFifos fuel initCapa vcmCarriers rest s

/-- The incomplete frames; the capacity left is also kept as the remaining one. -/
def forwardFlush (initCapa : Nat) (s : Serving) : Bool × Serving :=
  let carriers := s.carriers.setPreviousCapacity s.capacitySym (call.superframe + 1)
  match flushIncomplete link.modcodDef position s.bbframes.incompleteOrdered s.bbframes
      s.capacitySym with
  | (.error, bbframes, capacitySym) =>
      (false, { s with bbframes := bbframes, capacitySym := capacitySym, carriers := carriers })
  | (.full, bbframes, capacitySym) =>
      (true, { s with
        bbframes := bbframes
        capacitySym := capacitySym
        carriers := (carriers.setPreviousCapacity (min capacitySym initCapa)
          (call.superframe + 1)).setRemainingCapacity (min capacitySym initCapa) })
  | (.ok, bbframes, capacitySym) =>
      (true, { s with
        bbframes := bbframes
        capacitySym := capacitySym
        carriers := carriers.setRemainingCapacity (min capacitySym initCapa) })

end Serving

/-- The state of the scheduler and what it works on. -/
structure ForwardSchedulingS2 where
  bbframes : BBFrames
  fifos : List (DvbFifo NetPacket)
  carriersGroups : List (List CarriersGroupDama)
  popped : List Popped
  remainingAllocation : Nat

namespace ForwardSchedulingS2

variable (handler : EncapPacketHandler) (fwdModcodDef : FmtDefinitionTable)
  (fuel : Nat) (call : SchedCall)

/-- The VCM carriers, by the positions of their group and of them in it. -/
def positions (sched : ForwardSchedulingS2) : List (Nat × Nat) :=
  Grid.positions (sched.carriersGroups.map (·.length))

/-- The carriers at a position, with the number of VCM carriers in their group. -/
def vcm (sched : ForwardSchedulingS2) (position : Nat × Nat) :
    Option (Nat × CarriersGroupDama) := do
  let vcmCarriers ← sched.carriersGroups[position.1]?
  let carriers ← vcmCarriers[position.2]?
  some (vcmCarriers.length, carriers)

/-- The capacities the carriers start the superframe with: the initial capacity, and
the one that includes what was carried from the previous superframe. -/
def initialCapacities (carriers : CarriersGroupDama) : Nat × Nat :=
  let initCapa := addW 32 carriers.getTotalCapacity carriers.remainingCapacity
  (initCapa, addW 32 initCapa (carriers.getPreviousCapacity call.superframe))

def serving (sched : ForwardSchedulingS2) (carriers : CarriersGroupDama) : Serving where
  bbframes := sched.bbframes
  fifos := sched.fifos
  carriers := carriers.setRemainingCapacity (initialCapacities call carriers).1
  capacitySym := (initialCapacities call carriers).2
  popped := sched.popped

def store (sched : ForwardSchedulingS2) (position : Nat × Nat) (s : Serving) :
    ForwardSchedulingS2 :=
  { sched with
    bbframes := s.bbframes
    fifos := s.fifos
    carriersGroups := sched.carriersGroups.modify position.1 (·.set position.2 s.carriers)
    popped := s.popped }

/-- The FIFOs on some VCM carriers. -/
def fifosOn (sched : ForwardSchedulingS2) (position : Nat × Nat) (vcmCarriers : Nat)
    (carriers : CarriersGroupDama) : Option (Bool × Serving) :=
  (sched.serving call carriers).forwardFifos (link handler fwdModcodDef) call position fuel
    (initialCapacities call carriers).1 vcmCarriers (List.range sched.fifos.length)

/-- The carriers at a position. -/
def serve (sched : ForwardSchedulingS2) (position : Nat × Nat) :
    Option (Bool × ForwardSchedulingS2) :=
  (sched.vcm position).bind fun (vcmCarriers, carriers) =>
    (sched.fifosOn handler fwdModcodDef fuel call position vcmCarriers carriers).map
      fun (ok, s) =>
        if ok = false then (false, sched.store position s)
        else
          let (ok, s) := s.forwardFlush (link handler fwdModcodDef) call position
            (initialCapacities call carriers).1
          (ok, sched.store position s)

/-- The remaining capacity is what is carried to the next superframe. -/
def resetRemaining (sched : ForwardSchedulingS2) : ForwardSchedulingS2 :=
  { sched with
    remainingAllocation := (sched.carriersGroups.flatten.map (·.remainingCapacity)).foldl
      (addW 32) sched.remainingAllocation
    carriersGroups := sched.carriersGroups.map fun vcmCarriers =>
      vcmCarriers.map fun carriers =>
        (carriers.setPreviousCapacity carriers.remainingCapacity
          (call.superframe + 1)).setRemainingCapacity 0 }

def schedule (sched : ForwardSchedulingS2) : Option (Bool × ForwardSchedulingS2) :=
  (Run.forEach (serve handler fwdModcodDef fuel call) sched sched.positions).map
    fun (ok, sched) => if ok then (true, sched.resetRemaining call) else (false, sched)

/-! ### The carriers at a position -/

section Carriers

variable {call : SchedCall} {sched : ForwardSchedulingS2} {position : Nat × Nat}
  {vcmCarriers : Nat} {carriers : CarriersGroupDama}

theorem vcm_eq_some_iff : sched.vcm position = some (vcmCarriers, carriers) ↔
    ∃ group, sched.carriersGroups[position.1]? = some group ∧ group.length = vcmCarriers ∧
      group[position.2]? = some carriers := by
  simp only [vcm, Option.bind_eq_bind, Option.bind_eq_some_iff, Option.some.injEq,
    Prod.mk.injEq]
  constructor
  · rintro ⟨group, groupAt, c, carriersAt, rfl, rfl⟩
    exact ⟨group, groupAt, rfl, carriersAt⟩
  · rintro ⟨group, groupAt, rfl, carriersAt⟩
    exact ⟨group, groupAt, carriers, carriersAt, rfl, rfl⟩

theorem mem_positions (found : sched.vcm position = some (vcmCarriers, carriers)) :
    position ∈ sched.positions := by
  obtain ⟨group, groupAt, -, carriersAt⟩ := vcm_eq_some_iff.mp found
  refine Grid.mem_positions ?_ (List.getElem?_eq_some_iff.mp carriersAt).1
  rw [List.getElem?_map, groupAt]
  rfl

/-- The carriers that were served are stored at their position. -/
theorem store_vcm_self (found : sched.vcm position = some (vcmCarriers, carriers))
    (s : Serving) : (sched.store position s).vcm position = some (vcmCarriers, s.carriers) := by
  obtain ⟨group, groupAt, length, carriersAt⟩ := vcm_eq_some_iff.mp found
  refine vcm_eq_some_iff.mpr ⟨group.set position.2 s.carriers, ?_, ?_, ?_⟩
  · rw [store, List.getElem?_modify_eq, groupAt]
    rfl
  · rw [List.length_set]
    exact length
  · exact List.getElem?_set_self (List.getElem?_eq_some_iff.mp carriersAt).1

theorem store_vcm_of_ne {p : Nat × Nat} (other : p ≠ position) (s : Serving) :
    (sched.store position s).vcm p = sched.vcm p := by
  unfold vcm store
  dsimp only
  by_cases group : position.1 = p.1
  · have index : position.2 ≠ p.2 := fun same => other (Prod.ext group.symm same.symm)
    rw [group, List.getElem?_modify_eq]
    cases sched.carriersGroups[p.1]? with
    | none => rfl
    | some group => simp [List.getElem?_set_ne index]
  · rw [List.getElem?_modify_ne _ _ group]

theorem resetRemaining_vcm : (sched.resetRemaining call).vcm position =
    (sched.vcm position).map fun (vcmCarriers, carriers) => (vcmCarriers,
      (carriers.setPreviousCapacity carriers.remainingCapacity
        (call.superframe + 1)).setRemainingCapacity 0) := by
  unfold vcm resetRemaining
  simp only [Option.bind_eq_bind, List.getElem?_map]
  cases sched.carriersGroups[position.1]? with
  | none => rfl
  | some group =>
      simp only [Option.map_some, Option.bind_some, List.getElem?_map, List.length_map]
      cases group[position.2]? with
      | none => rfl
      | some carriers => rfl

end Carriers

end ForwardSchedulingS2

end OpenSand
