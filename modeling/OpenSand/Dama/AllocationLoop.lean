import OpenSand.Dama.Bookkeeping
import OpenSand.Dama.Delivery

/-!
The allocations of the DAMA controller, from the superframe that grants them to the one that
uses them (`DamaCtrlRcs2::buildTTP`, `BlockDvbNcc::Downward::onEvent`).

At each superframe the gateway sends a start of frame, runs its allocations and sends a TTP with
one plan for each terminal. `allStates_conveyed_iff` says that a terminal that hears them all
uses in each superframe what the controller granted it in the last one, exactly when it has a
definition for the MODCOD of each grant and no TTP is longer than its length field can tell.
-/

namespace OpenSand

open OpenSand.Bytes OpenSand.Run OpenSand.Word Std

/-! ### The TTP of the controller -/

namespace TerminalContextDamaRcs

variable (terminal : TerminalContextDamaRcs)

def getFmtId : UInt8 := terminal.fmt.elim 0 (·.id)

def getTotalRateAllocation : Nat :=
  wrap 16 (terminal.rbdcAllocKbps + terminal.fcaAllocKbps + terminal.craAllocKbps)

def getTotalVolumeAllocation : Nat := terminal.vbdcAllocKb

end TerminalContextDamaRcs

/-- From a rate per second to the amount of a frame. -/
def UnitConverterFixedSymbolLength.psToPf (converter : UnitConverterFixedSymbolLength)
    (ratePs : Nat) : Nat :=
  ceilW 32 ((wrap 32 (ratePs * converter.frameDurationMs) : ℚ) / 1000)

namespace DamaCtrlRcs2

variable (dama : DamaCtrlRcs2)

/-- A terminal without MODCOD is allocated nothing, not even its CRA. -/
def totalAllocationKb (terminal : TerminalContextDamaRcs) : Nat :=
  if terminal.getFmtId ≠ 0 then
    addW 16 (addW 16 0 terminal.getTotalVolumeAllocation)
      (dama.ctrl.converter.psToPf terminal.getTotalRateAllocation)
  else 0

/-- The plan of a terminal; the frame number and the offset are always 0. -/
def timePlan (terminal : TerminalContextDamaRcs) : TimePlan where
  frameId := 0
  talId := .ofNat terminal.talId
  offset := 0
  assignmentCount := .ofNat (dama.totalAllocationKb terminal)
  fmtId := terminal.getFmtId
  priority := 0

def timePlans : List TimePlan :=
  dama.categories.flatMap fun category => (dama.contexts category.terminals).map dama.timePlan

/-- The TTP of a superframe; `junk` is what the memory held. -/
def buildTTP (junk : Nat → UInt16) (groupId sfId : UInt16) : Option Data :=
  builtFrame groupId sfId junk dama.timePlans

/-- What the controller grants to a terminal. -/
def grantedKb (talId : Nat) : Nat :=
  (dama.legacy.terminals.find? (·.talId = talId)).elim 0 dama.totalAllocationKb

end DamaCtrlRcs2

/-! ### The superframes -/

/-- The controller, and the agent of a terminal beside what the controller granted it in the
last superframe and in the one before. -/
structure AllocationLoop where
  dama : DamaCtrlRcs2
  superFrameCounter : UInt16
  agent : DamaAgentAllocation
  granted : Nat
  due : Nat

namespace AllocationLoop

/-- A superframe: the terminal hears the start of frame, the controller allocates, and the
terminal hears the TTP. -/
def superframe (groupId : UInt16) (junk : Nat → UInt16) (loop : AllocationLoop)
    (waveForms : Nat → Nat × Option FmtDefinition) (fuel : Nat) : Option AllocationLoop :=
  let sfn := loop.superFrameCounter + 1
  let agent := (loop.agent.hereIsSOF sfn.toNat).processOnFrameTick.2
  (loop.dama.runOnSuperFrameChange waveForms fuel).bind fun dama =>
    (dama.buildTTP junk groupId sfn).bind fun ttp =>
      (agent.hereIsTTP ttp).map fun agent =>
        ⟨dama, sfn, agent, dama.grantedKb agent.talId.toNat, loop.granted⟩

/-- The other commands of the gateway concern the controller alone. -/
def step (isGw : Nat → Bool) (groupId : UInt16) (junk : Nat → UInt16) (loop : AllocationLoop) :
    DamaCommand → Option AllocationLoop
  | .superframe waveForms fuel => loop.superframe groupId junk waveForms fuel
  | command => (loop.dama.receive isGw command).map fun (_, dama) => { loop with dama }

/-- A controller without terminals, and an agent that was assigned nothing yet. -/
def start (dama : DamaCtrlRcs2) (agent : DamaAgentAllocation) : AllocationLoop where
  dama := dama
  superFrameCounter := 0
  agent := { agent with allocatedKb := 0, dynamicAllocationKb := 0, remainingAllocationB := 0 }
  granted := 0
  due := 0

/-- The agent keeps what was granted in this superframe and uses what was granted in the last
one. -/
structure Conveyed (loop : AllocationLoop) : Prop where
  pending : loop.agent.allocatedKb = loop.granted
  used : loop.agent.dynamicAllocationKb = loop.due
  remaining : loop.agent.remainingAllocationB = loop.due * 1000

/-- The identifiers are 16-bit words, and the length of the TTP too. -/
def Fits (loop : AllocationLoop) : DamaCommand → Prop
  | .logon request => request.mac < 2 ^ 16
  | .superframe _ _ => 11 + 10 * (loop.dama.categories.flatMap (·.terminals)).length < 2 ^ 16
  | _ => True

/-- The terminal has a definition for the MODCOD that it is given, unless it is granted
nothing. -/
def Defined (loop : AllocationLoop) : DamaCommand → Prop
  | .superframe waveForms fuel => ∀ dama, loop.dama.runOnSuperFrameChange waveForms fuel = some dama →
      ∀ terminal ∈ dama.legacy.terminals, terminal.talId = loop.agent.talId.toNat →
        terminal.getFmtId ∈ loop.agent.retModcodDef ∨ dama.totalAllocationKb terminal = 0
  | _ => True

end AllocationLoop

/-! ### The plans and their terminals -/

theorem filter_eq_find?_of_nodup {α κ : Type*} [DecidableEq κ] {f : α → κ} {l : List α}
    (nodup : (l.map f).Nodup) (key : κ) :
    l.filter (fun a => f a = key) = (l.find? fun a => f a = key).toList := by
  induction l with
  | nil => rfl
  | cons a l ih =>
      rw [List.map_cons, List.nodup_cons] at nodup
      by_cases own : f a = key
      · have others : l.filter (fun a => f a = key) = [] := by
          rw [List.filter_eq_nil_iff]
          intro b mem same
          exact nodup.1 (own ▸ List.mem_map.mpr ⟨b, mem, of_decide_eq_true same⟩)
        rw [List.filter_cons_of_pos (by simpa using own), others,
          List.find?_cons_of_pos (by simpa using own)]
        rfl
      · rw [List.filter_cons_of_neg (by simpa using own), ih nodup.2,
          List.find?_cons_of_neg (by simpa using own)]

namespace DamaCtrlRcs2

variable {dama dama' : DamaCtrlRcs2}

theorem legacy_terminals (dama : DamaCtrlRcs2) : dama.legacy.terminals =
    dama.categories.flatMap fun category => dama.contexts category.terminals :=
  List.flatMap_map ..

theorem timePlans_eq (dama : DamaCtrlRcs2) :
    dama.timePlans = dama.legacy.terminals.map dama.timePlan := by
  rw [legacy_terminals, timePlans, List.map_flatMap]

/-- The terminals of the lists have different identifiers. -/
theorem talIds_nodup (linked : Registry.Linked dama.identities dama.terminals dama.lists) :
    (dama.legacy.terminals.map (·.talId)).Nodup := by
  have keys : dama.legacy.terminals.map (·.talId) = dama.lists.flatMap fun row =>
      row.2.filterMap fun ref => (dama.identities[ref]?).map Prod.fst := by
    simp [legacy_terminals, lists, identities, contexts, List.map_flatMap, List.flatMap_map,
      List.map_filterMap, Function.comp_def]
  rw [keys, List.nodup_flatMap]
  refine ⟨fun row mem => (linked.keys mem).2, ?_⟩
  refine (List.pairwise_map.mp linked.labels).imp_of_mem fun {row other} mem mem' apart => ?_
  intro talId on on'
  obtain ⟨ref, listed, own⟩ := List.mem_filterMap.mp on
  obtain ⟨ref', listed', own'⟩ := List.mem_filterMap.mp on'
  obtain ⟨key, identity, lookup⟩ := linked.listed row.1 row.2 mem ref listed
  obtain ⟨key', identity', lookup'⟩ := linked.listed other.1 other.2 mem' ref' listed'
  rw [identity, Option.map_some, Option.some.injEq] at own
  rw [identity', Option.map_some, Option.some.injEq] at own'
  subst own own'
  rw [Option.some.inj (lookup.symm.trans lookup'), identity'] at identity
  exact apart (congrArg Prod.snd (Option.some.inj identity)).symm

end DamaCtrlRcs2

/-- Every terminal reads the group and its last plan in a frame built of plans of frame 0. -/
theorem builtFrame_reads {plans : List TimePlan} (zero : ∀ plan ∈ plans, plan.frameId = 0)
    (fits : 11 + 10 * plans.length < 2 ^ 16) (groupId sfId : UInt16) (junk : Nat → UInt16) :
    ∃ data, builtFrame groupId sfId junk plans = some data ∧
      Ttp.getGroupId data = some groupId.toNat ∧
      ∀ talId, ∃ tps data', Ttp.getTp talId data = some (true, tps, data') ∧
        tps.toList.map Prod.snd =
          (((plans.filter (·.talId = talId)).getLast?).map fun plan => plan.emuTp.convert).toList := by
  have group : ofLE (toLE 2 groupId.toNat) = groupId.toNat := ofLE_toLE groupId.toNat_lt
  have number (plan : TimePlan) (mem : plan ∈ plans) : plan.frameId.toNat = 0 := by
    rw [zero plan mem]
    rfl
  by_cases none : plans = []
  · subst none
    refine ⟨(Ttp.new groupId sfId).data, rfl, ?_, fun talId => ⟨∅, _, rfl, rfl⟩⟩
    rw [Ttp.getGroupId, Ttp.new]
    have field := @slice_append (toBE 2 Ttp.headerLength ++ [ttpMessageType]) (toLE 2 groupId.toNat)
      (toBE 2 sfId.toNat ++ [0]) 3 2 (by simp) (by simp)
    simp only [List.append_assoc] at field ⊢
    rw [field, Option.map_some, group]
  · have length : Ttp.oneFrameLength (plans.map TimePlan.emuTp) < 2 ^ 16 := by
      simp only [Ttp.oneFrameLength, Ttp.headerLength, frameInfoLength, emuTpLength, List.length_map]
      omega
    refine ⟨_, Ttp.build_single groupId sfId junk (Ttp.added_data groupId sfId plans)
      (Ttp.added_toList_of_single groupId sfId none number), ?_, fun talId => ⟨_, _,
      Ttp.getTp_oneFrame talId groupId sfId _ (by decide) length, ?_⟩⟩
    · have field := @slice_append
        (toBE 2 (Ttp.oneFrameLength (plans.map TimePlan.emuTp)) ++ [ttpMessageType])
        (toLE 2 groupId.toNat) (toBE 2 sfId.toNat ++ (toLE 1 1 ++ (toLE 1 0 ++
          (toLE 2 (plans.map TimePlan.emuTp).length ++
            ((plans.map TimePlan.emuTp).flatMap EmuTp.bytes ++ []))))) 3 2 (by simp) (by simp)
      rw [Ttp.getGroupId, Ttp.oneFrame, Ttp.firstFrame, Ttp.header]
      simp only [List.append_assoc] at field ⊢
      rw [field, Option.map_some, group]
    · have single (key : Nat) :
          (Ttp.handOut talId 0 (plans.map TimePlan.emuTp) ∅)[key]? = if key = 0 then
            (((plans.filter (·.talId = talId)).getLast?).map fun plan => plan.emuTp.convert)
          else .none := by
        have mine : (plans.map TimePlan.emuTp).filter (EmuTp.Mine talId) =
            (plans.filter (·.talId = talId)).map TimePlan.emuTp := by
          rw [List.filter_map]
          congr 1
          exact List.filter_congr fun plan _ => by simp [plan.emuTp_mine_iff]
        rw [Ttp.handOut_getElem?, mine, List.getLast?_map, Option.map_map]
        simp [Function.comp_def]
      rw [Ttp.toList_of_single single]
      cases (plans.filter (·.talId = talId)).getLast? <;> rfl

namespace DamaCtrlRcs2

variable {dama : DamaCtrlRcs2}

/-- The plans of a terminal are the one that its context makes, if it is in a list. -/
theorem timePlans_filter (linked : Registry.Linked dama.identities dama.terminals dama.lists)
    (words : ∀ terminal ∈ dama.legacy.terminals, terminal.talId < 2 ^ 16) (talId : UInt16) :
    dama.timePlans.filter (·.talId = talId) =
      ((dama.legacy.terminals.find? (·.talId = talId.toNat)).map dama.timePlan).toList := by
  have own : dama.legacy.terminals.filter (fun terminal => (dama.timePlan terminal).talId = talId) =
      dama.legacy.terminals.filter (·.talId = talId.toNat) := by
    refine List.filter_congr fun terminal mem => ?_
    have word : (UInt16.ofNat terminal.talId).toNat = terminal.talId :=
      UInt16.toNat_ofNat_of_lt' (words terminal mem)
    rw [decide_eq_decide, ← UInt16.toNat_inj]
    exact word ▸ Iff.rfl
  have single := own.trans (filter_eq_find?_of_nodup (talIds_nodup linked) talId.toNat)
  rw [timePlans_eq, List.filter_map]
  refine (congrArg (List.map dama.timePlan) single).trans ?_
  cases dama.legacy.terminals.find? (·.talId = talId.toNat) <;> rfl

theorem totalAllocationKb_lt (dama : DamaCtrlRcs2) (terminal : TerminalContextDamaRcs) :
    dama.totalAllocationKb terminal < 2 ^ 16 := by
  unfold totalAllocationKb
  split
  · exact wrap_lt 16 _
  · decide

end DamaCtrlRcs2

namespace DamaAgentAllocation

variable {agent : DamaAgentAllocation}

/-- What an agent is told at its logon and the definitions that it was set with. -/
def SameTerminal (agent agent' : DamaAgentAllocation) : Prop :=
  agent'.groupId = agent.groupId ∧ agent'.talId = agent.talId ∧
    agent'.retModcodDef = agent.retModcodDef

theorem assign_sameTerminal (agent : DamaAgentAllocation) (tp : EmuTp) :
    agent.SameTerminal (agent.assign tp) := by
  simp only [assign]
  split <;> exact ⟨rfl, rfl, rfl⟩

theorem processOnFrameTick_sameTerminal (agent : DamaAgentAllocation) :
    agent.SameTerminal agent.processOnFrameTick.2 := by
  simp only [processOnFrameTick]
  split <;> exact ⟨rfl, rfl, rfl⟩

/-- The TTP of the controller gives an agent of its group what the terminal is granted, exactly
when the MODCOD of the grant has a definition or nothing is granted. -/
theorem hereIsTTP_granted {dama : DamaCtrlRcs2}
    (linked : Registry.Linked dama.identities dama.terminals dama.lists)
    (words : ∀ terminal ∈ dama.legacy.terminals, terminal.talId < 2 ^ 16)
    (fits : 11 + 10 * dama.legacy.terminals.length < 2 ^ 16) (junk : Nat → UInt16)
    {groupId : UInt16} (sfId : UInt16) (group : agent.groupId = groupId.toNat) :
    ∃ data agent', dama.buildTTP junk groupId sfId = some data ∧
      agent.hereIsTTP data = some agent' ∧ agent.SameTerminal agent' ∧
      agent'.dynamicAllocationKb = agent.dynamicAllocationKb ∧
      agent'.remainingAllocationB = agent.remainingAllocationB ∧
      (agent'.allocatedKb = dama.grantedKb agent.talId.toNat ↔
        ∀ terminal ∈ dama.legacy.terminals, terminal.talId = agent.talId.toNat →
          terminal.getFmtId ∈ agent.retModcodDef ∨ dama.totalAllocationKb terminal = 0) := by
  have zero (plan : TimePlan) (mem : plan ∈ dama.timePlans) : plan.frameId = 0 := by
    rw [DamaCtrlRcs2.timePlans_eq] at mem
    obtain ⟨terminal, -, rfl⟩ := List.mem_map.mp mem
    rfl
  have few : 11 + 10 * dama.timePlans.length < 2 ^ 16 := by
    rwa [DamaCtrlRcs2.timePlans_eq, List.length_map]
  obtain ⟨data, built, read, reads⟩ := builtFrame_reads zero few groupId sfId junk
  obtain ⟨tps, data', plans, handed⟩ := reads agent.talId
  rw [DamaCtrlRcs2.timePlans_filter linked words] at handed
  refine ⟨data, (tps.toList.map Prod.snd).foldl assign { agent with allocatedKb := 0 }, built, ?_⟩
  have received : agent.hereIsTTP data =
      some ((tps.toList.map Prod.snd).foldl assign { agent with allocatedKb := 0 }) := by
    simp only [hereIsTTP, read, Option.bind_some, group, ne_eq, not_true_eq_false, if_false, plans,
      Option.map_some, if_true]
  refine ⟨received, ?_⟩
  rw [handed, DamaCtrlRcs2.grantedKb]
  cases found : dama.legacy.terminals.find? (·.talId = agent.talId.toNat) with
  | none =>
      refine ⟨⟨rfl, rfl, rfl⟩, rfl, rfl, iff_of_true rfl fun terminal mem own => ?_⟩
      have absent := List.find?_eq_none.mp found terminal mem
      exact absurd own (by simpa using absent)
  | some terminal =>
      have own : terminal.talId = agent.talId.toNat := by simpa using List.find?_some found
      have mem := List.mem_of_find?_eq_some found
      have unique (other : TerminalContextDamaRcs) (mem' : other ∈ dama.legacy.terminals)
          (own' : other.talId = agent.talId.toNat) : other = terminal :=
        List.inj_on_of_nodup_map (DamaCtrlRcs2.talIds_nodup linked) mem' mem (own'.trans own.symm)
      have amount : ofBE (dama.timePlan terminal).emuTp.assignmentCount =
          dama.totalAllocationKb terminal := by
        have word : (UInt16.ofNat (dama.totalAllocationKb terminal)).toNat =
            dama.totalAllocationKb terminal :=
          UInt16.toNat_ofNat_of_lt' (dama.totalAllocationKb_lt terminal)
        exact (ofBE_toBE (UInt16.toNat_lt _)).trans word
      have kept := assign_kept { agent with allocatedKb := 0 } (dama.timePlan terminal).emuTp.convert
      have same := assign_sameTerminal { agent with allocatedKb := 0 }
        (dama.timePlan terminal).emuTp.convert
      have allocated := @assign_convert_allocated { agent with allocatedKb := 0 }
        (dama.timePlan terminal).emuTp rfl
      rw [amount] at allocated
      refine ⟨same, kept.1, kept.2, ?_⟩
      change ((assign { agent with allocatedKb := 0 }
        (dama.timePlan terminal).emuTp.convert).allocatedKb = dama.totalAllocationKb terminal) ↔ _
      rw [allocated]
      change ((if terminal.getFmtId ∈ agent.retModcodDef then _ else _) = _) ↔ _
      constructor
      · rintro exact_amount other mem' own'
        rw [unique other mem' own']
        by_cases known : terminal.getFmtId ∈ agent.retModcodDef
        · exact .inl known
        · rw [if_neg known] at exact_amount
          exact .inr exact_amount.symm
      · intro defined
        rcases defined terminal mem own with known | nothing
        · rw [if_pos known]
        · rw [nothing, ite_self]

end DamaAgentAllocation

/-! ### One command -/

namespace DamaCtrlRcs2

variable {dama dama' : DamaCtrlRcs2}

/-- The terminals of the lists are in the map. -/
theorem mem_terminals_of_legacy (linked : Registry.Linked dama.identities dama.terminals dama.lists)
    {terminal : TerminalContextDamaRcs} (mem : terminal ∈ dama.legacy.terminals) :
    terminal.talId ∈ dama.terminals := by
  rw [legacy_terminals, List.mem_flatMap] at mem
  obtain ⟨category, on, mem⟩ := mem
  obtain ⟨ref, listed, own⟩ := List.mem_filterMap.mp mem
  obtain ⟨record, found, rfl⟩ := Option.map_eq_some_iff.mp own
  obtain ⟨key, identity, lookup⟩ := linked.listed category.label category.terminals
    (List.mem_map.mpr ⟨category, on, rfl⟩) ref listed
  rw [identities, List.getElem?_map, found] at identity
  obtain ⟨rfl, -⟩ := Prod.mk.inj (Option.some.inj identity)
  exact AList.lookup_isSome.mp (by rw [lookup]; rfl)

/-- The superframe has as many terminals as the lists. -/
theorem length_legacy_of_superframe (booked : dama.Booked)
    {waveForms : Nat → Nat × Option FmtDefinition} {fuel : Nat}
    (taken : dama.runOnSuperFrameChange waveForms fuel = some dama') :
    dama'.Booked ∧ dama'.terminals = dama.terminals ∧
      dama'.legacy.terminals.length = (dama.categories.flatMap (·.terminals)).length := by
  obtain ⟨same, rates⟩ := runOnSuperFrameChange_same booked.linked taken
  have booked' := booked.of_same same rates
  refine ⟨booked', same.terminals, ?_⟩
  have refs (controller : DamaCtrlRcs2) : controller.categories.flatMap (·.terminals) =
      controller.lists.flatMap Prod.snd := by
    rw [lists, List.flatMap_map]
  rw [← (forall₂_legacy booked'.linked).length_eq, refs, refs, same.lists]

/-- The commands leave the controller booked and the identifiers words. -/
theorem receive_words {isGw : Nat → Bool} (booked : dama.Booked)
    (words : ∀ talId ∈ dama.terminals, talId < 2 ^ 16) {command : DamaCommand}
    (logon : ∀ request, command = .logon request → request.mac < 2 ^ 16) {status : Bool}
    (taken : dama.receive isGw command = some (status, dama')) :
    dama'.Booked ∧ ∀ talId ∈ dama'.terminals, talId < 2 ^ 16 := by
  cases command with
  | logon request =>
      obtain ⟨booked', -, added, -⟩ := hereIsLogon_booked booked request
      rw [Option.some.inj taken] at booked' added
      refine ⟨booked', fun talId mem => ?_⟩
      rcases (added talId).mp mem with known | ⟨rfl, -⟩
      · exact words talId known
      · exact logon request rfl
  | logoff mac =>
      rcases hereIsLogoff_booked booked taken with ⟨-, rfl, -⟩ | ⟨-, booked', erased, -⟩
      · exact ⟨booked, words⟩
      · refine ⟨booked', fun talId mem => words talId ?_⟩
        rw [erased, AList.mem_erase] at mem
        exact mem.2
  | sac talId requests =>
      obtain ⟨same, rates⟩ := hereIsSAC_same taken
      exact ⟨booked.of_same same rates, same.terminals ▸ words⟩
  | pep request =>
      obtain ⟨same, booked'⟩ := applyPepCommand_booked booked taken
      exact ⟨booked', same.terminals ▸ words⟩
  | svno carriersGroups =>
      cases taken
      have same := @setCarriersGroups_same dama carriersGroups
      exact ⟨booked.of_same same ⟨rfl, rfl⟩, same.terminals ▸ words⟩
  | superframe waveForms fuel =>
      obtain ⟨allocated, run, same⟩ := Option.map_eq_some_iff.mp taken
      cases same
      obtain ⟨booked', terminals, -⟩ := length_legacy_of_superframe booked run
      exact ⟨booked', terminals ▸ words⟩

end DamaCtrlRcs2

namespace AllocationLoop

variable {isGw : Nat → Bool} {groupId : UInt16} {junk : Nat → UInt16} {loop loop' : AllocationLoop}

/-- What every step keeps: the terminals are booked under 16-bit identifiers and the agent
listens to the group of the gateway. -/
structure Sound (groupId : UInt16) (loop : AllocationLoop) : Prop where
  booked : loop.dama.Booked
  words : ∀ talId ∈ loop.dama.terminals, talId < 2 ^ 16
  group : loop.agent.groupId = groupId.toNat

/-- The next superframe uses what was granted in this one, and the agent knows what is granted
in the next one exactly when it can read it. -/
theorem superframe_conveyed_iff (sound : loop.Sound groupId)
    {waveForms : Nat → Nat × Option FmtDefinition} {fuel : Nat}
    (fits : loop.Fits (.superframe waveForms fuel))
    (taken : loop.superframe groupId junk waveForms fuel = some loop') :
    loop'.Sound groupId ∧
      (loop.Conveyed → (loop'.Conveyed ↔ loop.Defined (.superframe waveForms fuel))) := by
  obtain ⟨dama, allocated, rest⟩ := Option.bind_eq_some_iff.mp taken
  obtain ⟨ttp, built, rest⟩ := Option.bind_eq_some_iff.mp rest
  obtain ⟨agent, received, rfl⟩ := Option.map_eq_some_iff.mp rest
  obtain ⟨booked, terminals, length⟩ :=
    DamaCtrlRcs2.length_legacy_of_superframe sound.booked allocated
  have words : ∀ talId ∈ dama.terminals, talId < 2 ^ 16 := terminals ▸ sound.words
  -- what the start of frame leaves
  have ticked := (loop.agent.hereIsSOF (loop.superFrameCounter + 1).toNat).processOnFrameTick_allocated
  obtain ⟨group, talId, table⟩ : loop.agent.SameTerminal
      (loop.agent.hereIsSOF (loop.superFrameCounter + 1).toNat).processOnFrameTick.2 :=
    DamaAgentAllocation.processOnFrameTick_sameTerminal _
  have few : 11 + 10 * dama.legacy.terminals.length < 2 ^ 16 := by
    rw [length]
    exact fits
  obtain ⟨data, agent', built', received', same, dynamic, remaining, exact_grant⟩ :=
    DamaAgentAllocation.hereIsTTP_granted booked.linked
      (fun terminal mem => words _ (DamaCtrlRcs2.mem_terminals_of_legacy booked.linked mem)) few junk
      (loop.superFrameCounter + 1) (group.trans sound.group)
  cases built.symm.trans built'
  cases received.symm.trans received'
  have own : agent.talId = loop.agent.talId := same.2.1.trans talId
  refine ⟨⟨booked, words, same.1.trans (group.trans sound.group)⟩, fun conveyed => ?_⟩
  rw [talId, table] at exact_grant
  constructor
  · intro conveyed' other allocated'
    cases allocated.symm.trans allocated'
    exact exact_grant.mp (own ▸ conveyed'.pending)
  · intro defined
    refine ⟨?_, ?_, ?_⟩
    · exact own ▸ exact_grant.mpr (defined dama allocated)
    · exact dynamic.trans (ticked.2.1.trans conveyed.pending)
    · exact remaining.trans (ticked.2.2.trans (congrArg (· * 1000) conveyed.pending))

theorem step_conveyed_iff (sound : loop.Sound groupId) {command : DamaCommand}
    (fits : loop.Fits command) (taken : loop.step isGw groupId junk command = some loop') :
    loop'.Sound groupId ∧ (loop.Conveyed → (loop'.Conveyed ↔ loop.Defined command)) := by
  have others (command' : (loop.dama.receive isGw command).map (fun (_, dama) =>
        { loop with dama }) = some loop')
      (logon : ∀ request, command = .logon request → request.mac < 2 ^ 16)
      (free : loop.Defined command) :
      loop'.Sound groupId ∧ (loop.Conveyed → (loop'.Conveyed ↔ loop.Defined command)) := by
    obtain ⟨⟨status, dama⟩, received, rfl⟩ := Option.map_eq_some_iff.mp command'
    obtain ⟨booked, words⟩ := DamaCtrlRcs2.receive_words sound.booked sound.words logon received
    exact ⟨⟨booked, words, sound.group⟩, fun conveyed => ⟨fun _ => free,
      fun _ => ⟨conveyed.pending, conveyed.used, conveyed.remaining⟩⟩⟩
  cases command with
  | superframe waveForms fuel => exact superframe_conveyed_iff sound fits taken
  | logon request =>
      refine others taken (fun request' same => ?_) trivial
      cases same
      exact fits
  | logoff mac => exact others taken (fun _ same => nomatch same) trivial
  | sac talId requests => exact others taken (fun _ same => nomatch same) trivial
  | pep request => exact others taken (fun _ same => nomatch same) trivial
  | svno carriersGroups => exact others taken (fun _ same => nomatch same) trivial

/-! ### Runs -/

theorem sound_start {dama : DamaCtrlRcs2} (fresh : dama.Fresh) {agent : DamaAgentAllocation}
    (group : agent.groupId = groupId.toNat) : (start dama agent).Sound groupId := by
  refine ⟨fresh.booked, fun talId mem => ?_, group⟩
  change talId ∈ dama.terminals at mem
  rw [fresh.noTerminal] at mem
  exact absurd mem (AList.notMem_empty talId)

/-- Along a run of a controller and an agent of its group, every superframe uses what the
controller granted in the last one exactly when the terminal has a definition for the MODCOD of
each grant; as long as the identifiers and the lengths of the TTPs fit their fields. -/
theorem allStates_conveyed_iff (isGw : Nat → Bool) (junk : Nat → UInt16) {dama : DamaCtrlRcs2}
    (fresh : dama.Fresh) {agent : DamaAgentAllocation} (group : agent.groupId = groupId.toNat)
    (commands : List DamaCommand) :
    AllSteps (step isGw groupId junk) (fun loop command => loop.Fits command ∧ loop.Defined command)
        (start dama agent) commands ↔
      AllStates (step isGw groupId junk) Conveyed (start dama agent) commands ∧
        AllSteps (step isGw groupId junk) Fits (start dama agent) commands := by
  have conveyed : (start dama agent).Conveyed := ⟨rfl, rfl, (Nat.zero_mul 1000).symm⟩
  have sound := sound_start fresh group
  have within := @allSteps_iff_within _ _ (step isGw groupId junk)
    (fun loop => loop.Sound groupId ∧ loop.Conveyed)
    (fun loop command => loop.Fits command ∧ loop.Defined command) Fits (fun _ _ _ => True)
    (start dama agent) commands ⟨sound, conveyed⟩ (fun _ _ meets => meets.1)
    (fun loop command loop' good fits taken => by
      obtain ⟨kept, exact_step⟩ := step_conveyed_iff good.1 fits taken
      rw [and_iff_right kept, exact_step good.2, and_iff_right fits])
    (fun _ _ _ _ _ _ => trivial)
  rw [within]
  constructor
  · rintro ⟨⟨states, -⟩, fits⟩
    exact ⟨states.mono fun _ good => good.2, fits⟩
  · rintro ⟨states, fits⟩
    have kept : AllStates (step isGw groupId junk) (·.Sound groupId) (start dama agent) commands :=
      allStates_of_allSteps sound
        (fun _ _ _ sound fits taken => (step_conveyed_iff sound fits taken).1) fits
    have good := kept.and states
    exact ⟨⟨good, allMoves_of_allStates good fun _ _ _ _ _ => trivial⟩, fits⟩

/-! ### A terminal with a CRA -/

instance (loop : AllocationLoop) (command : DamaCommand) : Decidable (loop.Fits command) := by
  cases command with
  | logon request => exact inferInstanceAs (Decidable (request.mac < 2 ^ 16))
  | superframe waveForms fuel =>
      exact inferInstanceAs (Decidable
        (11 + 10 * (loop.dama.categories.flatMap (·.terminals)).length < 2 ^ 16))
  | _ => exact isTrue trivial

instance (loop : AllocationLoop) (command : DamaCommand) : Decidable (loop.Defined command) := by
  cases command with
  | superframe waveForms fuel =>
      exact inferInstanceAs (Decidable (∀ dama ∈ loop.dama.runOnSuperFrameChange waveForms fuel,
        ∀ terminal ∈ dama.legacy.terminals, terminal.talId = loop.agent.talId.toNat →
          terminal.getFmtId ∈ loop.agent.retModcodDef ∨ dama.totalAllocationKb terminal = 0))
  | _ => exact isTrue trivial

/-- The terminal 1 logs on with a CRA and is given the MODCOD 3. -/
def craRun : List DamaCommand :=
  let waveForms := fun _ => (0, some ⟨3, 2, 1, "1/2", 1, 0⟩)
  [.logon ⟨1, 100, 2000, 50⟩, .superframe waveForms 0, .superframe waveForms 0]

theorem craRun_conveyed :
    AllStates (step (fun _ => false) 1 fun _ => 0) Conveyed
        (start DamaWatch.standardDama groupOneAgent) craRun ∧
      AllSteps (step (fun _ => false) 1 fun _ => 0) Fits
        (start DamaWatch.standardDama groupOneAgent) craRun := by
  have fresh : DamaWatch.standardDama.Fresh :=
    ⟨List.nodup_singleton _, rfl, fun _ mem => by rw [List.mem_singleton.mp mem], rfl, rfl⟩
  exact (allStates_conveyed_iff (fun _ => false) (fun _ => 0) fresh rfl craRun).mp
    (by decide +kernel)

example : (run (step (fun _ => false) 1 fun _ => 0) (start DamaWatch.standardDama groupOneAgent)
    craRun).map (fun loop => (loop.granted, loop.agent.remainingAllocationB)) = some (6, 6000) := by
  decide +kernel

end AllocationLoop

end OpenSand
