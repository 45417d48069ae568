import OpenSand.Dama.LegacyAgent
import OpenSand.Lib.DemandLedger
import OpenSand.Sched.ReturnTerminal

/-!
The VBDC demand of a terminal, from the packets in its FIFOs to the volumes it is granted.

The SACs of the terminal reach the controller after any delay and in any order, and what the
superframes grant comes back by any TTPs. `demand_counted_once` says that the demand is
counted once in the runs whose requests do not ask again for data that is still in the FIFOs;
`repeatedRequest_counted_twice` is a run where the second request does.
-/

namespace OpenSand

open OpenSand.Bytes OpenSand.Run OpenSand.Word

/-- What does not change during a run. -/
structure VbdcSetting where
  isGw : Nat → Bool
  computeRbdcRequest : DamaAgentRcs2 → UInt16
  handler : ReturnPacketHandler
  retModcodDef : FmtDefinitionTable
  talId : UInt16
  groupId : UInt16

/-- A terminal, its SACs on the way and the controller, with what is counted along the run:
the volume that entered the VBDC FIFOs, the one that the requests looked at, the requests with
their quantisation steps, the volume granted and the largest packet of a grant. -/
structure VbdcExchange where
  agent : DamaAgentRcs2Legacy
  terminal : ReturnTerminal
  sacs : List Data
  legacy : DamaCtrlRcs2Legacy
  enteredB : Nat
  askedB : Nat
  requests : Nat
  stepsKb : Nat
  grantedKb : Nat
  packetKb : Nat

inductive VbdcEvent where
  | arrival (fifo : Nat) (elem : FifoElement NetPacket)
  | sac
  | reception (position : Nat)
  | otherSac (talId : Nat) (requests : List DecodedCr)
  | superframe (waveForms : Nat → Nat × Option FmtDefinition) (fuel : Nat)
  | ttp (data : Data)
  | sof (superframe fuel : Nat)

namespace DamaCtrlRcs2Legacy

variable (legacy legacy' : DamaCtrlRcs2Legacy) (talId : Nat)

def findTerminal : Option TerminalContextDamaRcs := legacy.terminals.find? (·.talId = talId)

/-- The outstanding request of a terminal. -/
def outstandingKb : Nat := (legacy.findTerminal talId).elim 0 (·.vbdcRequestKb)

/-- What the last superframe granted to a terminal by VBDC. -/
def vbdcGrantKb : Nat := (legacy.findTerminal talId).elim 0 (·.vbdcAllocKb)

/-- The packets of a terminal in a superframe. -/
def packetVolumeKb : Nat :=
  ((legacy'.findTerminal talId).bind (·.fmt)).elim 0 fun fmt =>
    fmt.packetVolumeKb legacy.ctrl.converter.packetLengthSym

variable {legacy legacy' : DamaCtrlRcs2Legacy} {talId}

theorem findTerminal_of_forall₂ {R : TerminalContextDamaRcs → TerminalContextDamaRcs → Prop}
    (changed : List.Forall₂ R legacy.terminals legacy'.terminals)
    (sameId : ∀ before after, R before after → after.talId = before.talId) (talId : Nat) :
    Option.Rel R (legacy.findTerminal talId) (legacy'.findTerminal talId) :=
  find?_of_forall₂ changed fun before after related => by rw [sameId before after related]

/-- What a SAC leaves of the terminals. -/
theorem findTerminal_hereIsSAC {isGw : Nat → Bool} {source : Nat} {requests : List DecodedCr}
    (received : legacy.hereIsSAC isGw source requests = some legacy') (talId : Nat) :
    Option.Rel (fun before after => after =
        if source = talId then requests.foldl (·.hereIsRequest) before else before)
      (legacy.findTerminal talId) (legacy'.findTerminal talId) := by
  have related := findTerminal_of_forall₂ (hereIsSAC_terminals received).2 ?_ talId
  · generalize found : legacy.findTerminal talId = first at related ⊢
    generalize legacy'.findTerminal talId = second at related ⊢
    cases related with
    | none => exact .none
    | @some before after asked =>
        have own : before.talId = talId := by simpa using List.find?_some found
        apply Option.Rel.some
        simpa only [own, eq_comm] using asked
  · rintro before after rfl
    split
    · exact TerminalContextDamaRcs.foldl_hereIsRequest_talId requests before
    · rfl

/-- A SAC adds what it asks for to the outstanding request of its terminal at most. -/
theorem outstandingKb_hereIsSAC {isGw : Nat → Bool} {requests : List DecodedCr}
    (received : legacy.hereIsSAC isGw talId requests = some legacy') :
    legacy'.outstandingKb talId ≤
      legacy.outstandingKb talId + (requests.map TerminalContextDamaRcs.volumeKb).sum := by
  have related := findTerminal_hereIsSAC received talId
  unfold outstandingKb
  generalize legacy.findTerminal talId = before at related ⊢
  generalize legacy'.findTerminal talId = after at related ⊢
  cases related with
  | none => exact Nat.zero_le _
  | some asked =>
      rw [asked, if_pos rfl]
      exact TerminalContextDamaRcs.foldl_hereIsRequest_le _ requests

/-- It leaves the ones of the others. -/
theorem outstandingKb_hereIsSAC_other {isGw : Nat → Bool} {source : Nat}
    {requests : List DecodedCr} (other : source ≠ talId)
    (received : legacy.hereIsSAC isGw source requests = some legacy') :
    legacy'.outstandingKb talId = legacy.outstandingKb talId := by
  have related := findTerminal_hereIsSAC received talId
  unfold outstandingKb
  generalize legacy.findTerminal talId = before at related ⊢
  generalize legacy'.findTerminal talId = after at related ⊢
  cases related with
  | none => rfl
  | some same => rw [same, if_neg other]

/-- What a superframe grants to a terminal is taken off its outstanding request, which it
exceeds by a packet at most. -/
theorem outstandingKb_superframe {waveForms : Nat → Nat × Option FmtDefinition} {fuel : Nat}
    (talId : Nat) (formed : legacy.WellFormed)
    (allocated : legacy.runOnSuperFrameChange waveForms fuel = some legacy') :
    legacy'.outstandingKb talId = legacy.outstandingKb talId - legacy'.vbdcGrantKb talId ∧
      (legacy'.vbdcGrantKb talId ≠ 0 → legacy.outstandingKb talId ≠ 0 ∧
        legacy'.vbdcGrantKb talId ≤
          legacy.outstandingKb talId + legacy.packetVolumeKb legacy' talId) := by
  have related := findTerminal_of_forall₂ (runOnSuperFrameChange_packets formed allocated).2
    (fun _ _ granted => granted.talId) talId
  unfold outstandingKb vbdcGrantKb packetVolumeKb
  generalize legacy.findTerminal talId = before at related ⊢
  generalize legacy'.findTerminal talId = after at related ⊢
  cases related with
  | none => exact ⟨rfl, fun some => absurd rfl some⟩
  | some granted =>
      refine ⟨granted.lowered, fun some => ⟨granted.asked some, ?_⟩⟩
      obtain ⟨fmt, served, le⟩ := granted.packets some
      simpa [served] using le

end DamaCtrlRcs2Legacy

namespace VbdcExchange

/-- Empty FIFOs and nothing on the way. -/
def start (agent : DamaAgentRcs2Legacy) (terminal : ReturnTerminal) (legacy : DamaCtrlRcs2Legacy) :
    VbdcExchange where
  agent := agent
  terminal := { terminal with fifos := terminal.fifos.map (·.flush) }
  sacs := []
  legacy := legacy
  enteredB := 0
  askedB := 0
  requests := 0
  stepsKb := 0
  grantedKb := 0
  packetKb := 0

variable (setting : VbdcSetting) (exchange : VbdcExchange)

/-- The agent on the FIFOs of the terminal, by priority. -/
def agentOnFifos : DamaAgentRcs2Legacy :=
  { exchange.agent with
    dvbFifos := exchange.terminal.fifos.zipIdx.map Prod.swap }

/-- What a VBDC request looks at: the volume in the FIFOs, as far as a SAC goes. -/
def heldB : Nat :=
  min (exchange.agentOnFifos.getMacBufferLength .damaVbdc) (C_MAX_VBDC_IN_SAC.toNat * 1000)

/-- The next SAC has a VBDC request. -/
def asks : Bool :=
  exchange.agentOnFifos.carriesVbdc
    (exchange.agentOnFifos.computation setting.computeRbdcRequest)

/-- The capacity request of the next SAC. -/
def request : CrInfo :=
  exchange.agentOnFifos.vbdcInfo (exchange.agentOnFifos.computation setting.computeRbdcRequest)

/-- A packet enters a FIFO, unless it is full. -/
def arrive (i : Nat) (elem : FifoElement NetPacket) : Option VbdcExchange :=
  (exchange.terminal.fifos[i]?).bind fun fifo => (fifo.push elem).map fun (pushed, fifo') =>
    { exchange with
      terminal := { exchange.terminal with fifos := exchange.terminal.fifos.set i fifo' }
      enteredB := exchange.enteredB +
        if pushed && fifo.accessType.same (.return .damaVbdc) then
          8 * elem.getTotalLength.getD 0
        else 0 }

/-- The SAC is sent even when it is empty. -/
def sendSac : Option VbdcExchange :=
  (exchange.agentOnFifos.buildSAC setting.computeRbdcRequest
      (.new setting.talId setting.groupId)).map fun (sac, _, agent) =>
    { exchange with
      agent := agent
      terminal := { exchange.terminal with fifos := agent.dvbFifos.map Prod.snd }
      sacs := exchange.sacs ++ [sac.data]
      askedB := exchange.askedB + if exchange.asks setting then exchange.heldB else 0
      requests := exchange.requests + if exchange.asks setting then 1 else 0
      stepsKb := exchange.stepsKb +
        if exchange.asks setting then (exchange.request setting).step else 0 }

/-- One of the SACs on the way reaches the controller. -/
def receiveSac (position : Nat) : Option VbdcExchange :=
  (exchange.sacs[position]?).bind fun data => (Sac.getRequests data).bind fun requests =>
    (exchange.legacy.hereIsSAC setting.isGw setting.talId.toNat requests).map fun legacy =>
      { exchange with
        sacs := exchange.sacs.eraseIdx position
        legacy := legacy }

def receiveOtherSac (talId : Nat) (requests : List DecodedCr) : Option VbdcExchange :=
  if talId = setting.talId.toNat then none
  else
    (exchange.legacy.hereIsSAC setting.isGw talId requests).map fun legacy =>
      { exchange with legacy := legacy }

def runSuperframe (waveForms : Nat → Nat × Option FmtDefinition) (fuel : Nat) :
    Option VbdcExchange :=
  (exchange.legacy.runOnSuperFrameChange waveForms fuel).map fun legacy =>
    { exchange with
      legacy := legacy
      grantedKb := exchange.grantedKb + legacy.vbdcGrantKb setting.talId.toNat
      packetKb := max exchange.packetKb
        (exchange.legacy.packetVolumeKb legacy setting.talId.toNat) }

/-- The timer of the RBDC requests does not run when the gateway has restarted. -/
def receiveSof (superframe fuel : Nat) : Option VbdcExchange :=
  (exchange.terminal.handleStartOfFrame setting.handler setting.retModcodDef superframe fuel).map
    fun terminal =>
      { exchange with
        agent := { exchange.agent with
          rbdcTimerSf :=
            if superframe < exchange.terminal.superFrameCounter ∧
                (superframe ≠ 0 ∨ (exchange.terminal.superFrameCounter + 1) % 65536 ≠ 0) then
              exchange.agent.rbdcTimerSf
            else addW 16 exchange.agent.rbdcTimerSf 1 }
        terminal := terminal }

def step (exchange : VbdcExchange) : VbdcEvent → Option VbdcExchange
  | .arrival fifo elem => exchange.arrive fifo elem
  | .sac => exchange.sendSac setting
  | .reception position => exchange.receiveSac setting position
  | .otherSac talId requests => exchange.receiveOtherSac setting talId requests
  | .superframe waveForms fuel => exchange.runSuperframe setting waveForms fuel
  | .ttp data =>
      (exchange.terminal.hereIsTTP setting.retModcodDef setting.talId setting.groupId data).map
        fun terminal => { exchange with terminal := terminal }
  | .sof superframe fuel => exchange.receiveSof setting superframe fuel

/-- The volume granted and the outstanding request come from the data that entered the FIFOs,
with a quantisation step and a packet for each request. -/
def CountedOnce : Prop :=
  1000 * (exchange.grantedKb + exchange.legacy.outstandingKb setting.talId.toNat) ≤
    exchange.enteredB + 1000 * (exchange.stepsKb + exchange.requests * exchange.packetKb)

/-- A request is built when what it looks at, with what the former ones looked at, is not more
than what has entered the FIFOs: the data already asked for has left them. -/
def Meets (exchange : VbdcExchange) : VbdcEvent → Prop
  | .sac => exchange.asks setting → exchange.askedB + exchange.heldB ≤ exchange.enteredB
  | _ => True

instance (event : VbdcEvent) : Decidable (exchange.Meets setting event) := by
  cases event <;> unfold Meets <;> infer_instance

/-! ### The exchange as a ledger -/

/-- The ledger of the exchange, given the volume that the SACs carried. -/
def ledger (carriedKb : Nat) : DemandLedger where
  asked := carriedKb
  demands := exchange.requests
  onTheWay := exchange.sacs.map Sac.requestedKb
  outstanding := exchange.legacy.outstandingKb setting.talId.toNat
  granted := exchange.grantedKb
  excess := exchange.packetKb

/-- The volume carried is what the requests looked at, but for their quantisation. -/
structure Accounted : Prop where
  formed : exchange.legacy.WellFormed
  entered : exchange.askedB ≤ exchange.enteredB
  carried : ∃ carriedKb, (exchange.ledger setting carriedKb).Balanced ∧
    1000 * carriedKb ≤ exchange.askedB + 1000 * exchange.stepsKb

variable {setting exchange} {exchange' : VbdcExchange}

theorem Accounted.countedOnce (accounted : exchange.Accounted setting) :
    exchange.CountedOnce setting := by
  obtain ⟨carriedKb, balanced, carried⟩ := accounted.carried
  have within : exchange.grantedKb + exchange.legacy.outstandingKb setting.talId.toNat ≤
      carriedKb + exchange.requests * exchange.packetKb := balanced.within
  have entered := accounted.entered
  unfold CountedOnce
  omega

/-- The agent and the FIFOs are not part of the account. -/
theorem Accounted.beside (accounted : exchange.Accounted setting) (agent : DamaAgentRcs2Legacy)
    (terminal : ReturnTerminal) {enteredB : Nat} (le : exchange.enteredB ≤ enteredB) :
    Accounted setting
      { exchange with agent := agent, terminal := terminal, enteredB := enteredB } :=
  ⟨accounted.formed, accounted.entered.trans le, accounted.carried⟩

theorem request_value_le : (exchange.request setting).value.toNat ≤
    exchange.agentOnFifos.computeVbdcRequest.1.toNat := by
  show ((exchange.agentOnFifos.vbdcRequestKb
    (exchange.agentOnFifos.computation setting.computeRbdcRequest)).toUInt32).toNat ≤ _
  rw [UInt16.toNat_toUInt32, DamaAgentRcs2.vbdcRequestKb]
  split
  · exact le_rfl
  · exact Nat.zero_le _

/-- A SAC asks for what its request looks at, with less than a quantisation step. -/
theorem requestedKb_le {sac : Sac} {empty : Bool} {agent : DamaAgentRcs2Legacy}
    (built : exchange.agentOnFifos.buildSAC setting.computeRbdcRequest
      (.new setting.talId setting.groupId) = some (sac, empty, agent)) :
    1000 * Sac.requestedKb sac.data ≤
      (if exchange.asks setting then exchange.heldB else 0) +
        1000 * if exchange.asks setting then (exchange.request setting).step else 0 := by
  obtain ⟨⟨sac', empty', base⟩, built', same⟩ := Option.map_eq_some_iff.mp built
  cases same
  have requested : Sac.requestedKb sac.data =
      if exchange.asks setting then getDecodedCrValue (exchange.request setting).emuCr else 0 :=
    DamaAgentRcs2.requestedKb_buildSAC built'
  rw [requested]
  split
  · have decoded : getDecodedCrValue (exchange.request setting).emuCr <
        (exchange.request setting).value.toNat + (exchange.request setting).step :=
      CrInfo.decoded_vbdc_lt rfl
    have value := @request_value_le setting exchange
    have rounded := exchange.agentOnFifos.computeVbdcRequest_lt
    unfold heldB
    omega
  · exact Nat.le_refl 0

theorem sendSac_accounted (accounted : exchange.Accounted setting)
    (meets : exchange.Meets setting .sac) (taken : exchange.sendSac setting = some exchange') :
    exchange'.Accounted setting := by
  obtain ⟨⟨sac, empty, agent⟩, built, rfl⟩ := Option.map_eq_some_iff.mp taken
  have requested := requestedKb_le built
  obtain ⟨carriedKb, balanced, carried⟩ := accounted.carried
  refine ⟨accounted.formed, ?_, carriedKb + Sac.requestedKb sac.data, ?_, ?_⟩
  · dsimp only
    split
    next sent => exact meets sent
    next => exact accounted.entered
  · have counted : Sac.requestedKb sac.data ≠ 0 → 0 < if exchange.asks setting then 1 else 0 := by
      intro some
      split
      · exact Nat.one_pos
      next silent =>
        rw [if_neg silent, if_neg silent] at requested
        omega
    have ask := balanced.ask counted
    unfold ledger at ask ⊢
    rw [List.map_append]
    exact ask
  · dsimp only
    omega

theorem receiveSac_accounted {position : Nat} (accounted : exchange.Accounted setting)
    (taken : exchange.receiveSac setting position = some exchange') :
    exchange'.Accounted setting := by
  obtain ⟨data, found, taken⟩ := Option.bind_eq_some_iff.mp taken
  obtain ⟨requests, read, taken⟩ := Option.bind_eq_some_iff.mp taken
  obtain ⟨legacy, received, rfl⟩ := Option.map_eq_some_iff.mp taken
  obtain ⟨carriedKb, balanced, carried⟩ := accounted.carried
  obtain ⟨layout, -⟩ := DamaCtrlRcs2Legacy.hereIsSAC_terminals received
  refine ⟨accounted.formed.of_layout layout, accounted.entered, carriedKb, ?_, carried⟩
  have arrives : (exchange.ledger setting carriedKb).onTheWay[position]? =
      some (Sac.requestedKb data) := by
    show (exchange.sacs.map Sac.requestedKb)[position]? = _
    rw [List.getElem?_map, found]
    rfl
  have le := DamaCtrlRcs2Legacy.outstandingKb_hereIsSAC received
  have asked : Sac.requestedKb data = (requests.map TerminalContextDamaRcs.volumeKb).sum := by
    rw [Sac.requestedKb, read]
    rfl
  have arrive := balanced.arrive arrives (asked ▸ le)
  unfold ledger at arrive ⊢
  rw [← List.eraseIdx_map]
  exact arrive

theorem receiveOtherSac_accounted {talId : Nat} {requests : List DecodedCr}
    (accounted : exchange.Accounted setting)
    (taken : exchange.receiveOtherSac setting talId requests = some exchange') :
    exchange'.Accounted setting := by
  unfold receiveOtherSac at taken
  split at taken
  · cases taken
  next other =>
    obtain ⟨legacy, received, rfl⟩ := Option.map_eq_some_iff.mp taken
    obtain ⟨carriedKb, balanced, carried⟩ := accounted.carried
    obtain ⟨layout, -⟩ := DamaCtrlRcs2Legacy.hereIsSAC_terminals received
    refine ⟨accounted.formed.of_layout layout, accounted.entered, carriedKb, ?_, carried⟩
    unfold ledger at balanced ⊢
    rw [DamaCtrlRcs2Legacy.outstandingKb_hereIsSAC_other other received]
    exact balanced

theorem runSuperframe_accounted {waveForms : Nat → Nat × Option FmtDefinition} {fuel : Nat}
    (accounted : exchange.Accounted setting)
    (taken : exchange.runSuperframe setting waveForms fuel = some exchange') :
    exchange'.Accounted setting := by
  obtain ⟨legacy, allocated, rfl⟩ := Option.map_eq_some_iff.mp taken
  obtain ⟨carriedKb, balanced, carried⟩ := accounted.carried
  obtain ⟨layout, -⟩ := DamaCtrlRcs2Legacy.runOnSuperFrameChange_packets accounted.formed allocated
  obtain ⟨lowered, whole⟩ :=
    DamaCtrlRcs2Legacy.outstandingKb_superframe setting.talId.toNat accounted.formed allocated
  refine ⟨accounted.formed.of_layout layout, accounted.entered, carriedKb, ?_, carried⟩
  have grant := balanced.grant whole
  unfold ledger at grant ⊢
  dsimp only
  rw [lowered]
  exact grant

theorem step_accounted {event : VbdcEvent} (accounted : exchange.Accounted setting)
    (meets : exchange.Meets setting event) (taken : step setting exchange event = some exchange') :
    exchange'.Accounted setting := by
  cases event with
  | arrival fifo elem =>
      obtain ⟨fifo', found, taken⟩ := Option.bind_eq_some_iff.mp taken
      obtain ⟨pushed, -, rfl⟩ := Option.map_eq_some_iff.mp taken
      exact accounted.beside _ _ (Nat.le_add_right _ _)
  | sac => exact sendSac_accounted accounted meets taken
  | reception position => exact receiveSac_accounted accounted taken
  | otherSac talId requests => exact receiveOtherSac_accounted accounted taken
  | superframe waveForms fuel => exact runSuperframe_accounted accounted taken
  | ttp data =>
      obtain ⟨terminal, -, rfl⟩ := Option.map_eq_some_iff.mp taken
      exact accounted.beside _ _ le_rfl
  | sof superframe fuel =>
      obtain ⟨terminal, -, rfl⟩ := Option.map_eq_some_iff.mp taken
      exact accounted.beside _ _ le_rfl

theorem start_accounted {agent : DamaAgentRcs2Legacy} {terminal : ReturnTerminal}
    {legacy : DamaCtrlRcs2Legacy} (formed : legacy.WellFormed)
    (fresh : legacy.outstandingKb setting.talId.toNat = 0) :
    (start agent terminal legacy).Accounted setting := by
  refine ⟨formed, le_rfl, 0, ⟨0, ?_, ?_⟩, le_rfl⟩
  · show 0 + ((if legacy.outstandingKb setting.talId.toNat = 0 then 0 else 1) + 0) ≤ 0
    rw [if_pos fresh]
  · show 0 + legacy.outstandingKb setting.talId.toNat + 0 ≤ 0 + 0 * 0
    omega

end VbdcExchange

/-- **The VBDC demand is counted once** in every run where no request asks again for what the
former ones asked for. -/
theorem demand_counted_once (setting : VbdcSetting) (agent : DamaAgentRcs2Legacy)
    (terminal : ReturnTerminal) (legacy : DamaCtrlRcs2Legacy) (formed : legacy.WellFormed)
    (fresh : legacy.outstandingKb setting.talId.toNat = 0) (events : List VbdcEvent)
    (meets : AllSteps (VbdcExchange.step setting) (VbdcExchange.Meets setting)
      (.start agent terminal legacy) events) :
    AllStates (VbdcExchange.step setting) (VbdcExchange.CountedOnce setting)
      (.start agent terminal legacy) events := by
  refine (allStates_of_allSteps (VbdcExchange.start_accounted formed fresh) ?_ meets).mono ?_
  · exact fun exchange event exchange' accounted met taken =>
      VbdcExchange.step_accounted accounted met taken
  · exact fun exchange accounted => accounted.countedOnce

/-! ### A request built twice -/

/-- Terminal 1, without RBDC, whose packets are sent whole. -/
def demandSetting : VbdcSetting where
  isGw := fun _ => false
  computeRbdcRequest := fun _ => 0
  handler := ⟨fun _ packet _ _ => some (some packet, none)⟩
  retModcodDef := ∅
  talId := 1
  groupId := 0

def demandAgent : DamaAgentRcs2Legacy := ⟨⟨false, true, 0, .new 1, []⟩, 0⟩

/-- A terminal with a FIFO of 10 packets. -/
def demandTerminal : ReturnTerminal :=
  { ReturnTerminal.start ∅ ⟨53, 536, 2⟩ with fifos := [.new (.return .damaVbdc) 0 10] }

/-- The run of a terminal that has nothing to send yet. -/
def demandStart : VbdcExchange := .start demandAgent demandTerminal VbdcWatch.vbdcLegacy

/-- A packet of 10 kbits. -/
def demandPacket : FifoElement NetPacket := ⟨some ⟨List.replicate 1250 0, 0, 1, 0⟩, 0, 0⟩

theorem demandStart_counted_once :
    AllStates (VbdcExchange.step demandSetting) (VbdcExchange.CountedOnce demandSetting)
      demandStart
      [.arrival 0 demandPacket, .sac, .reception 0, .superframe VbdcWatch.sameWaveForms 0] :=
  demand_counted_once demandSetting demandAgent demandTerminal VbdcWatch.vbdcLegacy
    VbdcWatch.vbdcLegacy_formed.layout (by decide) _ (by decide +kernel)

/-- The second SAC asks again for the packet that the first one asked for. -/
theorem repeatedRequest_counted_twice :
    ¬ AllStates (VbdcExchange.step demandSetting) (VbdcExchange.CountedOnce demandSetting)
      demandStart
      [.arrival 0 demandPacket, .sac, .sac, .reception 0, .reception 0,
        .superframe VbdcWatch.sameWaveForms 0] := by
  have ends : (run (VbdcExchange.step demandSetting) demandStart
      [.arrival 0 demandPacket, .sac, .sac, .reception 0, .reception 0,
        .superframe VbdcWatch.sameWaveForms 0]).map
        (fun exchange => (exchange.grantedKb, exchange.legacy.outstandingKb 1,
          exchange.enteredB, exchange.stepsKb, exchange.requests, exchange.packetKb)) =
      some (21, 0, 10000, 2, 2, 1) := by
    decide +kernel
  obtain ⟨exchange, last, seen⟩ := Option.map_eq_some_iff.mp ends
  intro counted
  have within := counted.last last
  simp only [Prod.mk.injEq] at seen
  obtain ⟨granted, outstanding, entered, steps, requests, packet⟩ := seen
  have own : demandSetting.talId.toNat = 1 := rfl
  rw [VbdcExchange.CountedOnce, own, granted, outstanding, entered, steps, requests, packet]
    at within
  omega

end OpenSand
