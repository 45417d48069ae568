import OpenSand.Dama.Agent
import OpenSand.Dama.UnitConverter
import OpenSand.Dvb.TtpPlans
import OpenSand.Lib.Run

/-!
The allocation of a terminal, from its TTPs to the superframe that uses it
(`DamaAgentRcs2::hereIsSOF`, `processOnFrameTick`, `hereIsTTP`).

A TTP clears the allocation kept for the next superframe before its group and its plans
are looked at. `delivery_iff` says which runs deliver what their TTPs carry all the same.
-/

namespace OpenSand

open OpenSand.Word

/-- The agent with what the reception of a TTP and of a start of frame use. -/
structure DamaAgentAllocation extends DamaAgentRcs2 where
  groupId : Nat
  talId : UInt16
  currentSuperframeSf : Nat
  allocatedKb : Nat
  dynamicAllocationKb : Nat
  remainingAllocationB : Nat
  burstLengthB : Nat
  modcodId : UInt8
  converter : UnitConverterFixedSymbolLength
  retModcodDef : FmtDefinitionTable

namespace DamaAgentAllocation

/-- The allocation received during the last superframe is the one of this superframe. -/
def hereIsSOF (agent : DamaAgentAllocation) (superframeNumberSf : Nat) : DamaAgentAllocation :=
  { agent with
    currentSuperframeSf := superframeNumberSf
    rbdcTimerSf := addW 16 agent.rbdcTimerSf 1
    dynamicAllocationKb := agent.allocatedKb
    allocatedKb := 0 }

/-- The start of a superframe; the status tells that the MODCOD has a definition. -/
def processOnFrameTick (agent : DamaAgentAllocation) : Bool × DamaAgentAllocation :=
  let agent := { agent with
    remainingAllocationB := agent.dynamicAllocationKb * 1000
    burstLengthB := agent.converter.getPacketBitLength }
  match agent.retModcodDef[agent.modcodId]? with
  | none => (false, agent)
  | some fmt => (true, { agent with burstLengthB := ceilW 32 (agent.burstLengthB * fmt.codingRate) })

/-- Add the assignment of a plan when its MODCOD has a definition. -/
def assign (agent : DamaAgentAllocation) (tp : EmuTp) : DamaAgentAllocation :=
  let agent := { agent with modcodId := tp.fmtId }
  match agent.retModcodDef[tp.fmtId]? with
  | none => { agent with converter := agent.converter.setModulationEfficiency 0 }
  | some fmt => { agent with
      converter := agent.converter.setModulationEfficiency fmt.modulationEfficiency
      allocatedKb := addW 16 agent.allocatedKb (Bytes.ofLE tp.assignmentCount) }

def hereIsTTP (agent : DamaAgentAllocation) (ttp : Bytes.Data) : Option DamaAgentAllocation :=
  -- the allocation is cleared before the checks
  let agent := { agent with allocatedKb := 0 }
  (Ttp.getGroupId ttp).bind fun groupId =>
    if agent.groupId ≠ groupId then some agent
    else
      (Ttp.getTp agent.talId ttp).map fun (ok, tps, _) =>
        if ok then (tps.toList.map Prod.snd).foldl assign { agent with allocatedKb := 0 }
        else agent

end DamaAgentAllocation

/-! ### Runs -/

inductive AllocationEvent where
  | sof (superframeNumberSf : Nat)
  | ttp (ttp : Bytes.Data)

/-- The assignments that a TTP carries for a terminal. -/
def Ttp.assigned (talId : UInt16) (ttp : Bytes.Data) : Nat :=
  ((Ttp.carried talId ttp).map fun tp => Bytes.ofBE tp.assignmentCount).sum

/-- The agent beside what it was assigned in this superframe and in the last one. -/
structure AllocationDelivery where
  agent : DamaAgentAllocation
  received : Nat
  due : Nat

namespace AllocationDelivery

/-- The TTP is for the group of the agent. -/
def Own (delivery : AllocationDelivery) (ttp : Bytes.Data) : Prop :=
  Ttp.getGroupId ttp = some delivery.agent.groupId

instance (delivery : AllocationDelivery) (ttp : Bytes.Data) : Decidable (delivery.Own ttp) :=
  inferInstanceAs (Decidable (_ = _))

/-- A reception. A start of frame is followed by the tick of its frame. -/
def step (delivery : AllocationDelivery) : AllocationEvent → Option AllocationDelivery
  | .sof superframeNumberSf => some
      { agent := (delivery.agent.hereIsSOF superframeNumberSf).processOnFrameTick.2
        received := 0
        due := delivery.received }
  | .ttp ttp => (delivery.agent.hereIsTTP ttp).map fun agent =>
      { delivery with
        agent := agent
        received := delivery.received +
          if delivery.Own ttp then Ttp.assigned delivery.agent.talId ttp else 0 }

/-- An agent that was assigned nothing yet. -/
def new (agent : DamaAgentAllocation) : AllocationDelivery where
  agent := { agent with allocatedKb := 0, dynamicAllocationKb := 0, remainingAllocationB := 0 }
  received := 0
  due := 0

/-- The agent keeps what it was assigned in this superframe and uses what it was assigned
in the last one. -/
structure Delivered (delivery : AllocationDelivery) : Prop where
  pending : delivery.agent.allocatedKb = delivery.received
  used : delivery.agent.dynamicAllocationKb = delivery.due
  remaining : delivery.agent.remainingAllocationB = delivery.due * 1000

/-- A TTP of another group, or without a plan of the terminal, changes neither the pending
allocation nor the MODCOD. -/
def Undisturbed (delivery : AllocationDelivery) (event : AllocationEvent) (delivery' : AllocationDelivery) : Prop :=
  ∀ ttp, event = .ttp ttp →
    ¬ delivery.Own ttp ∨ Ttp.carried delivery.agent.talId ttp = [] →
    delivery'.agent.allocatedKb = delivery.agent.allocatedKb ∧
      delivery'.agent.modcodId = delivery.agent.modcodId

/-- The TTPs of the group have one frame number at most. -/
def OneFrames (delivery : AllocationDelivery) : AllocationEvent → Prop
  | .sof _ => True
  | .ttp ttp => delivery.Own ttp → Ttp.OneFrame ttp

/-- What a reception must meet: no allocation is pending when a TTP comes, and one of the
group has one frame number at most and, for the terminal, null assignments but in its last
plan, which is null too or has a MODCOD with a definition. -/
def Meets (delivery : AllocationDelivery) : AllocationEvent → Prop
  | .sof _ => True
  | .ttp ttp =>
      delivery.agent.allocatedKb = 0 ∧
      (delivery.Own ttp → Ttp.OneFrame ttp ∧
        (∀ tp ∈ (Ttp.carried delivery.agent.talId ttp).dropLast,
          Bytes.ofBE tp.assignmentCount = 0) ∧
        ∀ tp, (Ttp.carried delivery.agent.talId ttp).getLast? = some tp →
          tp.fmtId ∈ delivery.agent.retModcodDef ∨ Bytes.ofBE tp.assignmentCount = 0)

end AllocationDelivery

/-! ### Receptions -/

namespace DamaAgentAllocation

variable {agent agent' : DamaAgentAllocation} {ttp : Bytes.Data}

theorem processOnFrameTick_allocated (agent : DamaAgentAllocation) :
    agent.processOnFrameTick.2.allocatedKb = agent.allocatedKb ∧
      agent.processOnFrameTick.2.dynamicAllocationKb = agent.dynamicAllocationKb ∧
      agent.processOnFrameTick.2.remainingAllocationB = agent.dynamicAllocationKb * 1000 := by
  simp only [processOnFrameTick]
  split <;> exact ⟨rfl, rfl, rfl⟩

/-- What a plan leaves as it was. -/
theorem assign_kept (agent : DamaAgentAllocation) (tp : EmuTp) :
    (agent.assign tp).dynamicAllocationKb = agent.dynamicAllocationKb ∧
      (agent.assign tp).remainingAllocationB = agent.remainingAllocationB := by
  simp only [assign]
  split <;> exact ⟨rfl, rfl⟩

/-- The only plan read assigns what it holds, or nothing without a definition of its
MODCOD. -/
theorem assign_convert_allocated (tp : EmuTp) (none : agent.allocatedKb = 0) :
    (agent.assign tp.convert).allocatedKb =
      if tp.fmtId ∈ agent.retModcodDef then Bytes.ofBE tp.assignmentCount else 0 := by
  have word : Bytes.ofBE tp.assignmentCount < 2 ^ 16 := by
    have short := Bytes.ofLE_lt tp.assignmentCount.reverse
    rw [List.length_reverse, tp.assignmentCount_length] at short
    exact short
  have exact_sum : addW 16 0 (Bytes.ofBE tp.assignmentCount) = Bytes.ofBE tp.assignmentCount := by
    rw [addW_of_lt (by omega), Nat.zero_add]
  have same : tp.convert.fmtId = tp.fmtId := rfl
  have value : Bytes.ofLE tp.convert.assignmentCount = Bytes.ofBE tp.assignmentCount := rfl
  simp only [assign, same, value, none]
  split
  next absent =>
    have unknown : tp.fmtId ∉ agent.retModcodDef := by
      rw [Std.TreeMap.mem_iff_isSome_getElem?, absent]
      exact Bool.false_ne_true
    rw [if_neg unknown]
  next fmt found =>
    have known : tp.fmtId ∈ agent.retModcodDef := by
      rw [Std.TreeMap.mem_iff_isSome_getElem?, found]
      rfl
    rw [if_pos known]
    exact exact_sum

/-- A TTP of another group clears the pending allocation. -/
theorem hereIsTTP_other (received : agent.hereIsTTP ttp = some agent')
    (other : Ttp.getGroupId ttp ≠ some agent.groupId) :
    agent' = { agent with allocatedKb := 0 } := by
  obtain ⟨groupId, read, rest⟩ := Option.bind_eq_some_iff.mp received
  have ne : agent.groupId ≠ groupId := by
    rintro rfl
    exact other read
  rw [if_pos ne] at rest
  exact (Option.some.inj rest).symm

/-- A TTP of the group with one frame number replaces the pending allocation by what its
last plan for the terminal assigns. -/
theorem hereIsTTP_own (received : agent.hereIsTTP ttp = some agent')
    (own : Ttp.getGroupId ttp = some agent.groupId) (one : Ttp.OneFrame ttp) :
    agent' = (((Ttp.carried agent.talId ttp).getLast?.map EmuTp.convert).toList).foldl assign
      { agent with allocatedKb := 0 } := by
  obtain ⟨groupId, read, rest⟩ := Option.bind_eq_some_iff.mp received
  rw [own] at read
  cases read
  rw [if_neg (not_not.mpr rfl)] at rest
  obtain ⟨⟨ok, tps, data⟩, plans, out⟩ := Option.map_eq_some_iff.mp rest
  have reads := Ttp.getTp_oneFrame_reads one plans
  cases ok with
  | true =>
      rw [if_pos rfl] at reads
      rw [← out, ← reads]
      rfl
  | false =>
      rw [if_neg Bool.false_ne_true] at reads
      rw [← out, reads]
      rfl

end DamaAgentAllocation

namespace AllocationDelivery

variable {delivery delivery' : AllocationDelivery} {event : AllocationEvent}

/-- A reception that moves neither the allocation in use nor what is left of it. -/
theorem delivered_kept_iff (good : Delivered delivery) {agent : DamaAgentAllocation} {received : Nat}
    (used : agent.dynamicAllocationKb = delivery.agent.dynamicAllocationKb)
    (remaining : agent.remainingAllocationB = delivery.agent.remainingAllocationB) :
    Delivered ⟨agent, received, delivery.due⟩ ↔ agent.allocatedKb = received :=
  ⟨fun good' => good'.pending,
    fun same => ⟨same, used.trans good.used, remaining.trans good.remaining⟩⟩

/-- A TTP that clears the pending allocation and assigns nothing. -/
theorem delivered_cleared_iff (good : Delivered delivery) :
    Delivered ⟨{ delivery.agent with allocatedKb := 0 }, delivery.received, delivery.due⟩ ↔
      delivery.agent.allocatedKb = 0 := by
  rw [good.pending, @eq_comm _ delivery.received]
  exact delivered_kept_iff good rfl rfl

/-- What a TTP of the group with plans of the terminal must meet. -/
theorem meets_plans_iff {ttp : Bytes.Data} {first : List EmuTp} {last : EmuTp}
    (own : delivery.Own ttp) (one : Ttp.OneFrame ttp)
    (split : Ttp.carried delivery.agent.talId ttp = first ++ [last]) :
    Meets delivery (.ttp ttp) ↔ delivery.agent.allocatedKb = 0 ∧
      (first.map fun tp => Bytes.ofBE tp.assignmentCount).sum = 0 ∧
      (last.fmtId ∈ delivery.agent.retModcodDef ∨ Bytes.ofBE last.assignmentCount = 0) := by
  have firsts : (∀ tp ∈ first, Bytes.ofBE tp.assignmentCount = 0) ↔
      (first.map fun tp => Bytes.ofBE tp.assignmentCount).sum = 0 := by
    rw [List.sum_eq_zero_iff_forall_eq_nat]
    simp
  simp [Meets, own, one, split, firsts]

/-- A TTP of the group leaves the pending allocation right exactly when nothing was pending and
all is assigned by its last plan. -/
theorem delivered_own_iff {ttp : Bytes.Data} {agent : DamaAgentAllocation}
    (good : Delivered delivery) (received : delivery.agent.hereIsTTP ttp = some agent)
    (own : delivery.Own ttp) (one : Ttp.OneFrame ttp) :
    Delivered ⟨agent, delivery.received + Ttp.assigned delivery.agent.talId ttp, delivery.due⟩ ↔
      Meets delivery (.ttp ttp) := by
  have result := DamaAgentAllocation.hereIsTTP_own received own one
  rcases List.eq_nil_or_concat' (Ttp.carried delivery.agent.talId ttp) with
    none | ⟨first, last, split⟩
  · have nothing : Ttp.assigned delivery.agent.talId ttp = 0 := by simp [Ttp.assigned, none]
    have cleared : agent = { delivery.agent with allocatedKb := 0 } := by
      rw [result, none]
      rfl
    rw [cleared, nothing, Nat.add_zero, delivered_cleared_iff good]
    simp [Meets, one, none]
  · have sum : Ttp.assigned delivery.agent.talId ttp =
        (first.map fun tp => Bytes.ofBE tp.assignmentCount).sum +
          Bytes.ofBE last.assignmentCount := by
      simp [Ttp.assigned, split]
    have taken : agent = ({ delivery.agent with allocatedKb := 0 } :
        DamaAgentAllocation).assign last.convert := by
      rw [result, split]
      simp
    have allocated := @DamaAgentAllocation.assign_convert_allocated
      { delivery.agent with allocatedKb := 0 } last rfl
    obtain ⟨used, remaining⟩ := DamaAgentAllocation.assign_kept
      { delivery.agent with allocatedKb := 0 } last.convert
    rw [← taken] at allocated used remaining
    have pending := good.pending
    rw [delivered_kept_iff good used remaining, meets_plans_iff own one split, sum, allocated]
    by_cases known : last.fmtId ∈ delivery.agent.retModcodDef
    · rw [if_pos known]
      simp only [known, true_or, and_true]
      omega
    · rw [if_neg known]
      simp only [known, false_or]
      omega

/-- The exact law of one reception. -/
theorem step_delivered_iff (good : Delivered delivery) (one : OneFrames delivery event)
    (taken : step delivery event = some delivery') :
    Delivered delivery' ↔ Meets delivery event := by
  cases event with
  | sof superframeNumberSf =>
      cases taken
      obtain ⟨pending, used, remaining⟩ := DamaAgentAllocation.processOnFrameTick_allocated
        (delivery.agent.hereIsSOF superframeNumberSf)
      refine iff_of_true ⟨pending, ?_, ?_⟩ trivial
      · rw [used]
        exact good.pending
      · rw [remaining]
        exact congrArg (· * 1000) good.pending
  | ttp ttp =>
      obtain ⟨agent, received, rfl⟩ := Option.map_eq_some_iff.mp taken
      by_cases own : delivery.Own ttp
      · rw [if_pos own]
        exact delivered_own_iff good received own (one own)
      · rw [if_neg own, DamaAgentAllocation.hereIsTTP_other received own]
        exact (delivered_cleared_iff good).trans
          ⟨fun none => ⟨none, fun there => absurd there own⟩, And.left⟩

theorem step_undisturbed (meets : Meets delivery event)
    (taken : step delivery event = some delivery') : Undisturbed delivery event delivery' := by
  rintro ttp rfl apart
  obtain ⟨agent, received, rfl⟩ := Option.map_eq_some_iff.mp taken
  have cleared : agent = { delivery.agent with allocatedKb := 0 } := by
    by_cases own : delivery.Own ttp
    · have result := DamaAgentAllocation.hereIsTTP_own received own (meets.2 own).1
      rw [result, apart.resolve_left (not_not.mpr own)]
      rfl
    · exact DamaAgentAllocation.hereIsTTP_other received own
  rw [cleared]
  exact ⟨meets.1.symm, rfl⟩

theorem delivered_new (agent : DamaAgentAllocation) : Delivered (new agent) where
  pending := rfl
  used := rfl
  remaining := (Nat.zero_mul 1000).symm

end AllocationDelivery

/-- When all the receptions of a run meet the condition, each superframe uses what the TTPs
of the group assigned in the last one and no other TTP disturbs the agent; as long as the
TTPs of the group have one frame number, that is the only way. -/
theorem delivery_iff (agent : DamaAgentAllocation) (events : List AllocationEvent) :
    Run.AllSteps AllocationDelivery.step AllocationDelivery.Meets (.new agent) events ↔
      (Run.AllStates AllocationDelivery.step AllocationDelivery.Delivered (.new agent) events ∧
        Run.AllMoves AllocationDelivery.step AllocationDelivery.Undisturbed (.new agent) events) ∧
      Run.AllSteps AllocationDelivery.step AllocationDelivery.OneFrames (.new agent) events := by
  refine Run.allSteps_iff_within (AllocationDelivery.delivered_new agent) ?_
    (fun _ _ _ => AllocationDelivery.step_delivered_iff)
    (fun _ _ _ _ meets taken => AllocationDelivery.step_undisturbed meets taken)
  intro delivery event meets
  cases event with
  | sof superframeNumberSf => trivial
  | ttp ttp => exact fun own => (meets.2 own).1

/-- An agent of group 1 for terminal 1 with one MODCOD. -/
def groupOneAgent : DamaAgentAllocation where
  rbdcEnabled := false
  vbdcEnabled := false
  rbdcTimerSf := 0
  rbdcRequestBuffer := .new 1
  dvbFifos := []
  groupId := 1
  talId := 1
  currentSuperframeSf := 0
  allocatedKb := 0
  dynamicAllocationKb := 0
  remainingAllocationB := 0
  burstLengthB := 0
  modcodId := 3
  converter := ⟨53, 536, 2⟩
  retModcodDef := Std.TreeMap.empty.insert 3 ⟨3, 2, 1, "1/2", 1, 0⟩

/-- A TTP of group 1 that assigns 10 kb to terminal 1, then an empty one of group 2. -/
def ownThenOther : List AllocationEvent :=
  [.ttp [0, 21, 21, 1, 0, 0, 0, 1, 0, 1, 0, 0, 1, 0, 0, 0, 0, 0, 10, 3, 0],
    .ttp [0, 8, 21, 2, 0, 0, 0, 0]]

/-- The TTP of another group clears what the first one assigned. -/
theorem other_group_clears :
    ¬ ∀ agent events,
      Run.AllStates AllocationDelivery.step AllocationDelivery.Delivered (.new agent) events ∧
        Run.AllMoves AllocationDelivery.step AllocationDelivery.Undisturbed (.new agent) events := by
  intro delivered
  have ends : (Run.run AllocationDelivery.step (.new groupOneAgent) ownThenOther).map
      (fun delivery => (delivery.agent.allocatedKb, delivery.received)) = some (0, 10) := by
    decide +kernel
  obtain ⟨delivery, last, values⟩ := Option.map_eq_some_iff.mp ends
  have pending := ((delivered groupOneAgent ownThenOther).1.last last).pending
  simp only [Prod.mk.injEq] at values
  omega

end OpenSand
