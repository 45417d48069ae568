import OpenSand.Fmt.GroupSelection
import OpenSand.Sched.ForwardConservation

/-!
The frames of the broadcast packets of the forward link.

A broadcast packet goes in a frame of the MODCOD found for the terminal with the lowest MODCOD
identifier. The identifiers say nothing of the Es/N0 that is required, so every terminal can
decode the frame exactly when no FMT of the group is within reach of that terminal and out of
reach of another one.
-/

namespace OpenSand

open OpenSand.Run

/-! ### The terminal with the lowest MODCOD -/

namespace StFmtSimuList

/-- The search keeps the first of the lowest MODCODs. -/
theorem lower_spec (sts : StFmtSimuList) (lower found : UInt8 × Nat)
    (searched : sts.foldl (fun lower st => if st.2 < lower.1 then (st.2, st.1) else lower) lower =
      found) :
    found.1 ≤ lower.1 ∧ (∀ st ∈ sts, found.1 ≤ st.2) ∧
      (found = lower ∨ (found.2, found.1) ∈ sts) := by
  induction sts generalizing lower with
  | nil =>
      subst searched
      exact ⟨UInt8.le_refl _, nofun, .inl rfl⟩
  | cons st sts ih =>
      rw [List.foldl_cons] at searched
      split at searched
      · rename_i less
        obtain ⟨le, least, among⟩ := ih (st.2, st.1) searched
        refine ⟨UInt8.le_trans le (UInt8.le_of_lt less), ?_, ?_⟩
        · intro other mem
          rcases List.mem_cons.mp mem with rfl | later
          · exact le
          · exact least other later
        · right
          rcases among with rfl | later
          · exact List.mem_cons_self
          · exact List.mem_cons_of_mem _ later
      · rename_i more
        obtain ⟨le, least, among⟩ := ih lower searched
        refine ⟨le, ?_, among.imp_right (List.mem_cons_of_mem _)⟩
        intro other mem
        rcases List.mem_cons.mp mem with rfl | later
        · exact UInt8.le_trans le (UInt8.not_lt.mp more)
        · exact least other later

/-- The terminals with the lowest MODCOD identifier. -/
def Lowest (sts : StFmtSimuList) (low : Nat × UInt8) : Prop :=
  low ∈ sts ∧ ∀ st ∈ sts, low.2 ≤ st.2

theorem getTalIdWithLowerModcod_lowest {sts : StFmtSimuList}
    (found : sts.getTalIdWithLowerModcod ≠ 65535) :
    ∃ low, sts.Lowest low ∧ low.1 = sts.getTalIdWithLowerModcod := by
  obtain ⟨-, least, same | mem⟩ := sts.lower_spec (255, 65535) _ rfl
  · exact absurd (congrArg Prod.snd same) found
  · exact ⟨_, ⟨mem, least⟩, rfl⟩

theorem getCurrentModcodId_of_mem {sts : StFmtSimuList} {st : Nat × UInt8}
    (keys : (sts.map Prod.fst).Nodup) (mem : st ∈ sts) :
    sts.getCurrentModcodId st.1 = st.2 := by
  unfold getCurrentModcodId
  induction sts with
  | nil => exact absurd mem List.not_mem_nil
  | cons first sts ih =>
      rw [List.map_cons, List.nodup_cons] at keys
      rcases List.mem_cons.mp mem with rfl | later
      · simp
      · have other : first.1 ≠ st.1 := by
          intro same
          apply keys.1
          rw [same]
          exact List.mem_map_of_mem later
        rw [List.find?_cons_of_neg (by simpa using other)]
        exact ih keys.2 later

end StFmtSimuList

/-! ### The MODCOD of a broadcast packet -/

section Selection

variable {table : FmtDefinitionTable} {sts : StFmtSimuList} {fmtGroup : FmtGroup}
  {packet : NetPacket} {modcodId : UInt8}

/-- The MODCOD is the nearest one of the group for a terminal with the lowest identifier. -/
theorem ForwardSchedulingS2.select_broadcast (keys : (sts.map Prod.fst).Nodup)
    (broadcast : packet.dstTalId = BROADCAST_TAL_ID)
    (selected : select sts fmtGroup packet = .modcod modcodId) :
    ∃ low, sts.Lowest low ∧ fmtGroup.getNearest low.2 = modcodId ∧ modcodId ≠ 0 := by
  unfold select at selected
  rw [if_pos broadcast] at selected
  dsimp only at selected
  split at selected
  · cases selected
  · rename_i found
    have exists_low : sts.getTalIdWithLowerModcod ≠ 65535 := fun none => found ⟨broadcast, none⟩
    obtain ⟨low, lowest, tal⟩ := StFmtSimuList.getTalIdWithLowerModcod_lowest exists_low
    rw [← tal, StFmtSimuList.getCurrentModcodId_of_mem keys lowest.1] at selected
    split at selected
    · cases selected
    · split at selected
      · cases selected
      · split at selected
        · cases selected
        · rename_i known
          cases selected
          exact ⟨low, lowest, rfl, known⟩

/-- Every terminal can decode a frame of a MODCOD with its current one. -/
def Decodable (table : FmtDefinitionTable) (sts : StFmtSimuList) (modcodId : UInt8) : Prop :=
  ∀ st ∈ sts, table.getRequiredEsN0 modcodId ≤ table.getRequiredEsN0 st.2

/-- Every terminal is served by the FMTs that serve one with the lowest identifier. -/
def LowestProtects (table : FmtDefinitionTable) (sts : StFmtSimuList) (fmtGroup : FmtGroup) :
    Prop :=
  ∀ low, sts.Lowest low → ∀ fmtId ∈ fmtGroup.fmtIds, fmtId.esN0 ≤ table.getRequiredEsN0 low.2 →
    ∀ st ∈ sts, fmtId.esN0 ≤ table.getRequiredEsN0 st.2

/-- The frame is decodable exactly when the lowest identifier protects every terminal. -/
theorem decodable_iff (keys : (sts.map Prod.fst).Nodup)
    (parsed : ∃ text, fmtGroup = FmtGroup.parse table text)
    (broadcast : packet.dstTalId = BROADCAST_TAL_ID)
    (selected : ForwardSchedulingS2.select sts fmtGroup packet = .modcod modcodId) :
    Decodable table sts modcodId ↔ LowestProtects table sts fmtGroup := by
  obtain ⟨text, same⟩ := parsed
  have ordered := FmtGroup.parse_ordered table text
  have modcodDef : fmtGroup.modcodDef = table := by
    rw [same]
    rfl
  rw [← same] at ordered
  obtain ⟨low, lowest, rfl, known⟩ := ForwardSchedulingS2.select_broadcast keys broadcast selected
  obtain ⟨fmtId, mem, own, le, best⟩ := ordered.getNearest_greatest known
  have esN0 := ordered.esN0 fmtId mem
  rw [modcodDef] at esN0 le best
  rw [own] at esN0
  unfold Decodable LowestProtects
  rw [← esN0]
  constructor
  · intro decodable other lowest' fmtId' mem' le' st stMem
    have same : other.2 = low.2 :=
      UInt8.le_antisymm (lowest'.2 low lowest.1) (lowest.2 other lowest'.1)
    rw [same] at le'
    exact (best fmtId' mem' le').trans (decodable st stMem)
  · intro protects st stMem
    exact protects low lowest fmtId mem le st stMem

end Selection

/-! ### Where the records come from -/

namespace Serving

/-- What is recorded has the terminals of the call and the group of the carriers. -/
structure Adds (call : SchedCall) (s s' : Serving) : Prop where
  fmtGroup : s'.carriers.fmtGroup = s.carriers.fmtGroup
  popped : ∀ record ∈ s'.popped, record ∈ s.popped ∨
    record.sts = call.sts ∧ record.fmtGroup = s.carriers.fmtGroup

variable {link : S2Link} {call : SchedCall} {position : Nat × Nat} {s s' s'' : Serving}
  {k fuel initCapa : Nat} {ok : Bool} {status : LoopStatus}

theorem Adds.of_eq (fmtGroup : s'.carriers.fmtGroup = s.carriers.fmtGroup)
    (popped : s'.popped = s.popped) : s.Adds call s' where
  fmtGroup := fmtGroup
  popped _ mem := .inl (popped ▸ mem)

theorem Adds.trans (h : s.Adds call s') (h' : s'.Adds call s'') : s.Adds call s'' where
  fmtGroup := h'.fmtGroup.trans h.fmtGroup
  popped := by
    intro record mem
    rcases h'.popped record mem with before | ⟨sts, fmtGroup⟩
    · exact h.popped record before
    · exact .inr ⟨sts, fmtGroup.trans h.fmtGroup⟩

theorem record_adds (elem : FifoElement NetPacket) (outcome : Outcome) :
    s.Adds call (s.record call k elem outcome) where
  fmtGroup := rfl
  popped := by
    intro record mem
    refine (List.mem_append.mp mem).imp_right fun new => ?_
    rw [List.mem_singleton.mp new]
    exact ⟨rfl, rfl⟩

theorem closeFrame_adds (f : Nat) : s.Adds call (s.closeFrame link call position f).2 := by
  unfold closeFrame
  split
  · exact .of_eq rfl rfl
  · exact .of_eq rfl rfl
  · apply Adds.of_eq
    · exact (CarriersGroupDama.SameGroup.setPreviousCapacity _ _ _).fmtGroup
    · rfl

theorem encapsulate_adds {fifo : DvbFifo NetPacket} {elem : FifoElement NetPacket}
    {packet : NetPacket} {modcodId : UInt8}
    (h : s.encapsulate link call position k fifo elem packet modcodId = some (status, s')) :
    s.Adds call s' := by
  unfold encapsulate at h
  revert h
  generalize s.bbframes.getIncompleteBBFrame link.modcodDef modcodId = opened
  obtain ⟨f, bbframes⟩ := opened
  intro h
  obtain ⟨⟨data, remaining⟩, -, h⟩ := Option.bind_eq_some_iff.mp h
  dsimp only at h
  split at h
  · cases h
  · split at h
    · cases h
      exact .of_eq rfl rfl
    · obtain ⟨fifo', -, h⟩ := Option.map_eq_some_iff.mp h
      have taken : s.Adds call (s.setFifo k fifo') := .of_eq rfl rfl
      have recorded := taken.trans
        (record_adds (k := k) elem (.framed f data remaining))
      split at h
      · have closed := congrArg Prod.snd h
        dsimp only at closed
        rw [← closed]
        refine recorded.trans (Adds.trans ?_ (closeFrame_adds f))
        exact .of_eq rfl rfl
      · cases h
        exact recorded.trans (.of_eq rfl rfl)

theorem packetStep_adds {fifo : DvbFifo NetPacket}
    (h : s.packetStep link call position k fifo = some (status, s')) : s.Adds call s' := by
  obtain ⟨⟨popped, fifo'⟩, -, h⟩ := Option.bind_eq_some_iff.mp h
  obtain ⟨elem, -, h⟩ := Option.bind_eq_some_iff.mp h
  split at h
  · cases h
    exact .of_eq rfl rfl
  · split at h
    · cases h
      exact .of_eq rfl rfl
    · cases h
      have first : s.Adds call (s.setFifo k fifo') := .of_eq rfl rfl
      exact first.trans (record_adds elem .skipped)
    · exact encapsulate_adds h

theorem packetLoop_adds (h : s.packetLoop link call position k fuel = some (ok, s')) :
    s.Adds call s' := by
  induction fuel generalizing s with
  | zero => cases h
  | succ fuel ih =>
      obtain ⟨fifo, -, h⟩ := Option.bind_eq_some_iff.mp h
      split at h
      · cases h
        exact .of_eq rfl rfl
      · obtain ⟨⟨status, mid⟩, stepped, h⟩ := Option.bind_eq_some_iff.mp h
        have first := packetStep_adds stepped
        cases status with
        | again => exact first.trans (ih h)
        | finished =>
            cases h
            exact first
        | failed =>
            cases h
            exact first

theorem forwardEncapPackets_adds
    (h : s.forwardEncapPackets link call position fuel initCapa k = some (ok, s')) :
    s.Adds call s' := by
  obtain ⟨fifo, -, h⟩ := Option.bind_eq_some_iff.mp h
  split at h
  · cases h
    exact .of_eq rfl rfl
  · revert h
    generalize schedulePendingFrom true link.modcodDef position s.carriers.getFmtIds []
      s.bbframes.pending s.bbframes s.capacitySym = left
    obtain ⟨bbframes, capacitySym⟩ := left
    intro h
    dsimp only at h
    split at h
    · cases h
      exact .of_eq rfl rfl
    · refine Adds.trans ?_ (packetLoop_adds h)
      exact .of_eq rfl rfl

theorem forwardFifos_adds {vcmCarriers : Nat} {ks : List Nat}
    (h : s.forwardFifos link call position fuel initCapa vcmCarriers ks = some (ok, s')) :
    s.Adds call s' := by
  induction ks generalizing s with
  | nil =>
      cases h
      exact .of_eq rfl rfl
  | cons k ks ih =>
      obtain ⟨fifo, -, h⟩ := Option.bind_eq_some_iff.mp h
      split at h
      · exact ih h
      · obtain ⟨⟨done, mid⟩, called, h⟩ := Option.bind_eq_some_iff.mp h
        have first := forwardEncapPackets_adds called
        dsimp only at h
        split at h
        · cases h
          exact first
        · split at h
          · cases h
            exact first
          · exact first.trans (ih h)

theorem forwardFlush_adds {handler : EncapPacketHandler} {table : FmtDefinitionTable} :
    s.Adds call (s.forwardFlush (ForwardSchedulingS2.link handler table) call position
      initCapa).2 := by
  obtain ⟨carriers, same, eq⟩ := @forwardFlush_eq handler table call position s initCapa
  rw [eq]
  exact .of_eq same.fmtGroup rfl

end Serving

/-! ### Runs -/

namespace ForwardSchedulingS2

variable {handler : EncapPacketHandler} {table : FmtDefinitionTable} {call : SchedCall}
  {sched sched' : ForwardSchedulingS2} {fuel : Nat} {ok : Bool}
  {sent : StFmtSimuList → Prop} {offered : FmtGroup → Prop}

/-- Every record is explained, by terminals that were given to the scheduling and a group of its
carriers. -/
structure Recorded (handler : EncapPacketHandler) (table : FmtDefinitionTable)
    (sent : StFmtSimuList → Prop) (offered : FmtGroup → Prop) (sched : ForwardSchedulingS2) :
    Prop where
  filed : sched.bbframes.Filed table
  groups : ∀ position vcmCarriers carriers, sched.vcm position = some (vcmCarriers, carriers) →
    offered carriers.fmtGroup
  records : ∀ record ∈ sched.popped, record.Explained (link handler table) sched.bbframes ∧
    sent record.sts ∧ offered record.fmtGroup

theorem serve_adds {position : Nat × Nat}
    (h : serve handler table fuel call sched position = some (ok, sched')) :
    ∃ vcmCarriers carriers s', sched.vcm position = some (vcmCarriers, carriers) ∧
      sched' = sched.store position s' ∧ (sched.serving call carriers).Adds call s' := by
  obtain ⟨⟨vcmCarriers, carriers⟩, found, h⟩ := Option.bind_eq_some_iff.mp h
  obtain ⟨⟨done, s⟩, called, h⟩ := Option.map_eq_some_iff.mp h
  have first := Serving.forwardFifos_adds called
  dsimp only at h
  split at h
  · cases h
    exact ⟨vcmCarriers, carriers, s, found, rfl, first⟩
  · cases h
    exact ⟨vcmCarriers, carriers, _, found, rfl, first.trans Serving.forwardFlush_adds⟩

theorem serve_explained {position : Nat × Nat} (filed : sched.bbframes.Filed table)
    (explained : ∀ record ∈ sched.popped, record.Explained (link handler table) sched.bbframes)
    (h : serve handler table fuel call sched position = some (ok, sched')) :
    ∀ record ∈ sched'.popped, record.Explained (link handler table) sched'.bbframes := by
  obtain ⟨_, carriers, s, -, rfl, -, evolves⟩ := serve_evolves filed.linked h
  have moved := evolves (.any True) (fun _ => trivial) (fun _ _ => trivial) (fun _ _ _ _ => trivial)
  refine (moved.keeps (P := fun s => s.bbframes.Linked table ∧
    ∀ record ∈ s.popped, record.Explained (link handler table) s.bbframes) ?_
    ⟨filed.linked, explained⟩).2
  rintro s s' ⟨linked, explained⟩ move
  exact ⟨move.linked linked, move.explained linked explained⟩

theorem serve_recorded {position : Nat × Nat} (recorded : sched.Recorded handler table sent offered)
    (given : sent call.sts)
    (h : serve handler table fuel call sched position = some (ok, sched')) :
    sched'.Recorded handler table sent offered := by
  have explained := serve_explained recorded.filed (fun record mem =>
    (recorded.records record mem).1) h
  have filed := serve_filed recorded.filed h
  obtain ⟨vcmCarriers, carriers, s, found, rfl, adds⟩ := serve_adds h
  have group : offered carriers.fmtGroup := recorded.groups position vcmCarriers carriers found
  refine ⟨filed, ?_, fun record mem => ⟨explained record mem, ?_⟩⟩
  · intro p n c at_p
    by_cases own : p = position
    · subst own
      rw [store_vcm_self found] at at_p
      cases at_p
      rw [adds.fmtGroup]
      exact group
    · rw [store_vcm_of_ne own] at at_p
      exact recorded.groups p n c at_p
  · rcases adds.popped record mem with before | ⟨sts, fmtGroup⟩
    · exact (recorded.records record before).2
    · rw [sts, fmtGroup]
      exact ⟨given, group⟩

theorem schedule_recorded (recorded : sched.Recorded handler table sent offered)
    (given : sent call.sts)
    (h : sched.schedule handler table fuel call = some (ok, sched')) :
    sched'.Recorded handler table sent offered := by
  obtain ⟨⟨done, mid⟩, looped, eq⟩ := Option.map_eq_some_iff.mp h
  have kept : mid.Recorded handler table sent offered := by
    refine forEach_keeps (P := Recorded handler table sent offered) ?_ recorded looped
    intro s position out _ recorded served
    exact serve_recorded recorded given served
  cases done with
  | false =>
      cases eq
      exact kept
  | true =>
      cases eq
      refine ⟨kept.filed, ?_, kept.records⟩
      intro position n carriers at_p
      rw [resetRemaining_vcm] at at_p
      obtain ⟨⟨vcmCarriers, before⟩, found, eq⟩ := Option.map_eq_some_iff.mp at_p
      cases eq
      exact kept.groups position _ before found

end ForwardSchedulingS2

namespace ForwardWorld

open ForwardSchedulingS2

variable {handler : EncapPacketHandler} {table : FmtDefinitionTable}

theorem start_recorded {sent : StFmtSimuList → Prop} {offered : FmtGroup → Prop}
    (fifos : List (DvbFifo NetPacket)) (carriersGroups : List (List CarriersGroupDama))
    (groups : ∀ carriers ∈ carriersGroups.flatten, offered carriers.fmtGroup) :
    (start fifos carriersGroups).sched.Recorded handler table sent offered where
  filed := BBFrames.empty_filed table
  groups := by
    intro position n carriers found
    obtain ⟨group, groupAt, -, carriersAt⟩ := vcm_eq_some_iff.mp found
    apply groups
    exact List.mem_flatten_of_mem (List.mem_of_getElem? groupAt) (List.mem_of_getElem? carriersAt)
  records := nofun

theorem step_recorded {sent : StFmtSimuList → Prop} {offered : FmtGroup → Prop}
    {world world' : ForwardWorld} {superframe : Superframe} (given : sent superframe.call.sts)
    (recorded : world.sched.Recorded handler table sent offered)
    (h : world.step handler table superframe = some world') :
    world'.sched.Recorded handler table sent offered := by
  obtain ⟨state, -, h⟩ := Option.bind_eq_some_iff.mp h
  obtain ⟨⟨ok, sched⟩, called, rfl⟩ := Option.map_eq_some_iff.mp h
  have received : (world.receive state.fifos).Recorded handler table sent offered :=
    ⟨recorded.filed, recorded.groups, recorded.records⟩
  exact schedule_recorded received given called

theorem allStates_recorded {sent : StFmtSimuList → Prop} {offered : FmtGroup → Prop}
    (fifos : List (DvbFifo NetPacket)) (carriersGroups : List (List CarriersGroupDama))
    (superframes : List Superframe)
    (groups : ∀ carriers ∈ carriersGroups.flatten, offered carriers.fmtGroup)
    (given : ∀ superframe ∈ superframes, sent superframe.call.sts) :
    AllStates (step handler table)
      (fun world => world.sched.Recorded handler table sent offered)
      (start fifos carriersGroups) superframes := by
  apply allStates_of_allSteps (C := fun _ superframe => sent superframe.call.sts)
  · exact start_recorded fifos carriersGroups groups
  · intro world superframe world' recorded given h
    exact step_recorded given recorded h
  · exact allSteps_of_inputs fun superframe mem _ => given superframe mem

/-- **Broadcast packets.** In every state of every run, the frame that a broadcast packet was put
in can be decoded by every terminal that was registered then exactly when the FMTs of the group
within reach of a terminal with the lowest MODCOD identifier are within reach of all of them. -/
theorem allStates_decodable_iff (fifos : List (DvbFifo NetPacket))
    (carriersGroups : List (List CarriersGroupDama)) (superframes : List Superframe)
    (parsed : ∀ carriers ∈ carriersGroups.flatten,
      ∃ text, carriers.fmtGroup = FmtGroup.parse table text)
    (keys : ∀ superframe ∈ superframes, (superframe.call.sts.map Prod.fst).Nodup) :
    AllStates (step handler table)
      (fun world => ∀ record ∈ world.sched.popped, ∀ packet f data remaining,
        record.elem.elem = some packet → packet.dstTalId = BROADCAST_TAL_ID →
        record.outcome = .framed f data remaining →
          (∃ superframe ∈ superframes, record.sts = superframe.call.sts) ∧
          (∃ carriers ∈ carriersGroups.flatten, record.fmtGroup = carriers.fmtGroup) ∧
          (Decodable table record.sts (world.sched.bbframes.modcod f) ↔
            LowestProtects table record.sts record.fmtGroup))
      (start fifos carriersGroups) superframes := by
  refine (@allStates_recorded handler table
    (fun sts => ∃ superframe ∈ superframes, sts = superframe.call.sts)
    (fun fmtGroup => ∃ carriers ∈ carriersGroups.flatten, fmtGroup = carriers.fmtGroup)
    fifos carriersGroups superframes (fun carriers mem => ⟨carriers, mem, rfl⟩)
    (fun superframe mem => ⟨superframe, mem, rfl⟩)).mono fun world recorded => ?_
  intro record mem packet f data remaining elem broadcast outcome
  obtain ⟨⟨packet', elem', why⟩, sent, offered⟩ := recorded.records record mem
  refine ⟨sent, offered, ?_⟩
  rw [elem] at elem'
  cases elem'
  rw [outcome] at why
  obtain ⟨superframe, among, sts⟩ := sent
  obtain ⟨carriers, mem, group⟩ := offered
  apply decodable_iff
  · rw [sts]
    exact keys superframe among
  · rw [group]
    exact parsed carriers mem
  · exact broadcast
  · exact why.2.1

/-! ### A terminal that cannot decode a broadcast packet -/

/-- The MODCOD 1 requires more than the MODCOD 2. -/
def reversedFmts : FmtDefinitionTable :=
  (Std.TreeMap.empty.insert 1 { sampleFmt 1 "" with requiredEsN0 := 10 }).insert 2
    { sampleFmt 2 "1/4" with requiredEsN0 := 5 }

def reversedCarriers : CarriersGroupDama :=
  { sampleCarriers [] 100000 with fmtGroup := FmtGroup.parse reversedFmts ['1'] }

/-- A broadcast packet for a terminal with the MODCOD 1 and one with the MODCOD 2. -/
def broadcastSuperframe : Superframe :=
  ⟨[(0, sampleElement BROADCAST_TAL_ID 10)], ⟨0, 0, [(1, 1), (2, 2)]⟩, 10⟩

theorem reversedCarriers_fmtGroup : reversedCarriers.fmtGroup = ⟨[⟨1, 10⟩], reversedFmts⟩ := by
  have one : FmtGroup.parseItems reversedFmts ['1'] = ⟨[⟨1, 10⟩], false⟩ := rfl
  simp [reversedCarriers, FmtGroup.parse, one]

theorem reversedCarriers_decodable_iff :
    AllStates (step .fragmenting reversedFmts)
      (fun world => ∀ record ∈ world.sched.popped, ∀ packet f data remaining,
        record.elem.elem = some packet → packet.dstTalId = BROADCAST_TAL_ID →
        record.outcome = .framed f data remaining →
          (∃ superframe ∈ [broadcastSuperframe], record.sts = superframe.call.sts) ∧
          (∃ carriers ∈ [[reversedCarriers]].flatten, record.fmtGroup = carriers.fmtGroup) ∧
          (Decodable reversedFmts record.sts (world.sched.bbframes.modcod f) ↔
            LowestProtects reversedFmts record.sts record.fmtGroup))
      (start [.new (.forward .acm) 0 100] [[reversedCarriers]]) [broadcastSuperframe] := by
  apply allStates_decodable_iff
  · intro carriers mem
    rw [List.mem_singleton.mp mem]
    exact ⟨_, rfl⟩
  · intro superframe mem
    rw [List.mem_singleton.mp mem]
    decide

/-- The packet is put in a frame of the MODCOD 1, which the second terminal cannot decode. -/
theorem reversedCarriers_not_decodable :
    ¬ AllStates (step .fragmenting reversedFmts)
      (fun world => ∀ record ∈ world.sched.popped, ∀ packet f data remaining,
        record.elem.elem = some packet → packet.dstTalId = BROADCAST_TAL_ID →
        record.outcome = .framed f data remaining →
          Decodable reversedFmts record.sts (world.sched.bbframes.modcod f))
      (start [.new (.forward .acm) 0 100] [[reversedCarriers]]) [broadcastSuperframe] := by
  intro states
  have parsed : reversedCarriers =
      { sampleCarriers [] 100000 with fmtGroup := ⟨[⟨1, 10⟩], reversedFmts⟩ } := by
    rw [← reversedCarriers_fmtGroup]
    rfl
  rw [parsed] at states
  have survived : (run (step .fragmenting reversedFmts)
      (start [.new (.forward .acm) 0 100]
        [[{ sampleCarriers [] 100000 with fmtGroup := ⟨[⟨1, 10⟩], reversedFmts⟩ }]])
      [broadcastSuperframe]).any (fun world => world.sched.popped.any fun record =>
        record.elem.elem.any (·.dstTalId = BROADCAST_TAL_ID) &&
          match record.outcome with
          | .framed f _ _ => record.sts.any fun st => decide (¬ reversedFmts.getRequiredEsN0
              (world.sched.bbframes.modcod f) ≤ reversedFmts.getRequiredEsN0 st.2)
          | .skipped => false) = true := by
    decide +kernel
  obtain ⟨world, ends, lost⟩ := (Option.any_eq_true _ _).mp survived
  obtain ⟨record, mem, lost⟩ := List.any_eq_true.mp lost
  obtain ⟨elem, lost⟩ := Bool.and_eq_true_iff.mp lost
  obtain ⟨packet, held, broadcast⟩ := (Option.any_eq_true _ _).mp elem
  cases outcome : record.outcome with
  | skipped =>
      rw [outcome] at lost
      cases lost
  | framed f data remaining =>
      rw [outcome] at lost
      obtain ⟨st, stMem, above⟩ := List.any_eq_true.mp lost
      have decodable := states.last ends record mem packet f data remaining held
        (of_decide_eq_true broadcast) outcome
      exact of_decide_eq_true above (decodable st stMem)

end ForwardWorld

end OpenSand
