import OpenSand.Dvb.StartOfFrame
import OpenSand.Spot.Membership

/-!
The logons of the terminals of a spot over a network (`BlockDvbTal`, `BlockDvbNcc`).

The frames sent stay on the air, where each may be lost, received several times and in any
order. In a terminal, as in the gateway, the upward channel shares frames with the downward one
through a queue. The gateway and the terminals may be started again at any time.

A terminal that runs was answered by the gateway, which has it in its lists unless it was
started again since. A terminal that waits has its logon timer started exactly as long as no
repeated request fails to be sent, and can then still log on.
-/

namespace OpenSand

open OpenSand.Run

/-! ### The frames -/

/-- What the configuration of a terminal says of its logon. -/
structure TalSettings where
  craKbps : Nat
  maxRbdcKbps : Nat
  maxVbdcKb : Nat
  isScpc : Bool

/-- The frames of the control plane that the logons depend on, without the plans of the TTPs. -/
inductive ControlFrame where
  | sof (superFrameNumber : UInt16)
  | ttp (groupId : Nat)
  | sessionLogonReq (request : LogonRequest) (isScpc : Bool)
  | sessionLogonResp (mac groupId logonId : Nat)

namespace ControlFrame

def IsLogonResp : ControlFrame → Prop
  | .sessionLogonResp _ _ _ => True
  | _ => False

instance : DecidablePred IsLogonResp
  | .sof _ | .ttp _ | .sessionLogonReq _ _ => isFalse nofun
  | .sessionLogonResp _ _ _ => isTrue trivial

end ControlFrame

/-- A frame with the number of starts of the gateway when it was sent. -/
structure SentFrame where
  frame : ControlFrame
  starts : Nat

/-- The identifiers of a logon response, with the starts of the gateway when it answered. -/
structure LinkIds where
  groupId : Nat
  talId : Nat
  starts : Nat

/-! ### The terminal -/

/-- The upward channel; `linkUps` are the messages to the upper layer. -/
structure TalUpward where
  state : TalState
  superFrameCounter : UInt16
  ids : Option LinkIds
  linkUps : List LinkIds

/-- The downward channel and its logon timer; the DAMA agent has the same identifiers. -/
structure TalLogon extends TalDownward where
  ids : Option LinkIds
  logonTimer : Bool

structure TalChannels where
  upward : TalUpward
  queue : List SentFrame
  downward : TalLogon

namespace TalUpward

/-- The channel after a frame, and whether the frame goes to the downward channel. The state
is not changed when the link up message cannot be sent, even if the response is shared. -/
def onRcvDvbFrame (mac : Nat) (tal : TalUpward) (received : SentFrame) (shared linked : Bool) :
    TalUpward × Bool :=
  match received.frame with
  | .sof superFrameNumber =>
      ({ tal with superFrameCounter := superFrameNumber }, tal.state = .running && shared)
  | .ttp _ => (tal, tal.state = .running && shared)
  | .sessionLogonReq _ _ => (tal, false)
  | .sessionLogonResp mac' groupId logonId =>
      if mac' ≠ mac then (tal, false)
      else
        let ids : LinkIds := ⟨groupId, logonId, received.starts⟩
        let tal := { tal with ids := some ids }
        if linked then
          ({ tal with state := .running, linkUps := tal.linkUps ++ [ids] }, shared)
        else (tal, shared)

end TalUpward

namespace TalLogon

/-- The channel after a frame of the queue, and whether it sends a logon request. -/
def handleDvbFrame (tal : TalLogon) (received : SentFrame) (sent processed : Bool) :
    TalLogon × Bool :=
  match received.frame with
  | .sof sfn =>
      let requested := tal.Rebooted sfn && sent
      ({ tal with
        toTalDownward := (tal.toTalDownward.handleStartOfFrame sfn sent processed).2
        logonTimer := tal.logonTimer || requested }, requested)
  | .ttp _ => (tal, false)
  | .sessionLogonReq _ _ => (tal, false)
  | .sessionLogonResp _ groupId logonId =>
      ({ tal with
        toTalDownward := tal.toTalDownward.handleLogonResp
        ids := some ⟨groupId, logonId, received.starts⟩ }, false)

/-- The timer is not rearmed: it is started again with the next request. -/
def onLogonTimer (tal : TalLogon) (sent : Bool) : TalLogon × Bool :=
  if tal.state = .waitLogonResp then ({ tal with logonTimer := sent }, sent)
  else ({ tal with logonTimer := false }, false)

end TalLogon

/-- A terminal whose first logon request is sent. -/
def TalChannels.onInit : TalChannels where
  upward := ⟨.initializing, 0, none, []⟩
  queue := []
  downward := ⟨⟨.waitLogonResp, 0, []⟩, none, true⟩

/-! ### The spot -/

/-- The gateway; `starts` counts its starts. -/
structure NccSession where
  spot : GatewaySpot
  queue : List (LogonRequest × Bool)
  superFrameCounter : UInt16
  starts : Nat

/-- The configuration of the gateway and of the terminals. -/
structure SpotPlan where
  config : SpotConfig
  inputMarginDb : ℚ
  outputMarginDb : ℚ
  saloha : Option SalohaTerminals
  damaCtrl : Option DamaCtrlRcs2
  settings : Nat → TalSettings
  fresh : ∀ dama, damaCtrl = some dama → dama.Fresh

structure SpotSession where
  ncc : NccSession
  tals : Nat → Option TalChannels
  air : List SentFrame

/-- What may happen in the spot. A frame received is given by its position on the air; it may
not be `shared` with the other channel, a frame may not be `sent`, the link up message may not
be `linked` and the treatments of a new frame may not be `processed`. -/
inductive SessionEvent where
  | talInit (mac : Nat) (sent : Bool)
  | talUpward (mac position : Nat) (shared linked : Bool)
  | talDownward (mac : Nat) (sent processed : Bool)
  | logonTimer (mac : Nat) (sent : Bool)
  | nccInit
  | nccUpward (position : Nat) (shared : Bool)
  | nccDownward (sent : Bool)
  | frameTimer (sofSent ttpSent : Bool)

namespace SpotSession

variable (s : SpotSession)

def send (frame : ControlFrame) (sent : Bool) : SpotSession :=
  if sent then { s with air := s.air ++ [⟨frame, s.ncc.starts⟩] } else s

def setTal (mac : Nat) (tal : Option TalChannels) : SpotSession :=
  { s with tals := Function.update s.tals mac tal }

def setNcc (ncc : NccSession) : SpotSession := { s with ncc := ncc }

end SpotSession

namespace SpotPlan

variable (plan : SpotPlan)

/-- The spot when the gateway is started. -/
def spot : GatewaySpot :=
  .start plan.inputMarginDb plan.outputMarginDb plan.saloha plan.damaCtrl

/-- The logon request of a terminal. -/
def logonReq (mac : Nat) : LogonRequest × Bool :=
  (⟨mac, (plan.settings mac).craKbps, (plan.settings mac).maxRbdcKbps,
    (plan.settings mac).maxVbdcKb⟩, (plan.settings mac).isScpc)

def logonReqFrame (mac : Nat) : ControlFrame :=
  .sessionLogonReq (plan.logonReq mac).1 (plan.logonReq mac).2

def start : SpotSession where
  ncc := ⟨plan.spot, [], 0, 0⟩
  tals := fun _ => none
  air := []

/-! ### The events -/

/-- The upward channel of a terminal receives a frame. -/
def talUpward (s : SpotSession) (mac position : Nat) (shared linked : Bool) : Option SpotSession :=
  (s.tals mac).bind fun tal => s.air[position]?.map fun received =>
    let (upward, shares) := tal.upward.onRcvDvbFrame mac received shared linked
    s.setTal mac (some { tal with
      upward, queue := if shares then tal.queue ++ [received] else tal.queue })

/-- The downward channel of a terminal takes a frame from the queue. -/
def talDownward (s : SpotSession) (mac : Nat) (sent processed : Bool) : Option SpotSession :=
  (s.tals mac).bind fun tal =>
    match tal.queue with
    | [] => none
    | received :: queue =>
        let (downward, requested) := tal.downward.handleDvbFrame received sent processed
        some ((s.setTal mac (some { tal with queue, downward })).send
          (plan.logonReqFrame mac) requested)

def logonTimer (s : SpotSession) (mac : Nat) (sent : Bool) : Option SpotSession :=
  (s.tals mac).bind fun tal =>
    if tal.downward.logonTimer then
      let (downward, requested) := tal.downward.onLogonTimer sent
      some ((s.setTal mac (some { tal with downward })).send (plan.logonReqFrame mac) requested)
    else none

/-- The upward channel of the gateway receives a frame: only the logon requests count here. A
request that is refused may leave the terminal in the lists. -/
def nccUpward (s : SpotSession) (position : Nat) (shared : Bool) : Option SpotSession :=
  s.air[position]?.map fun received =>
    match received.frame with
    | .sessionLogonReq request isScpc =>
        let (accepted, spot) := s.ncc.spot.onRcvLogonReq plan.config request.mac isScpc
        s.setNcc { s.ncc with
          spot
          queue := if accepted && shared then s.ncc.queue ++ [(request, isScpc)] else s.ncc.queue }
    | _ => s

/-- The downward channel of the gateway handles a request and answers it. -/
def nccDownward (s : SpotSession) (sent : Bool) : Option SpotSession :=
  match s.ncc.queue with
  | [] => none
  | (request, isScpc) :: queue =>
      let (accepted, spot) := s.ncc.spot.handleLogonReq request isScpc
      some ((s.setNcc { s.ncc with spot, queue }).send
        (.sessionLogonResp request.mac plan.config.macId request.mac) (accepted && sent))

/-- A new superframe; without DAMA controller there is no TTP. -/
def frameTimer (s : SpotSession) (sofSent ttpSent : Bool) : SpotSession :=
  let superFrameCounter := s.ncc.superFrameCounter + 1
  ((s.setNcc { s.ncc with superFrameCounter }).send (.sof superFrameCounter) sofSent).send
    (.ttp plan.config.macId) (s.ncc.spot.damaCtrl.isSome && ttpSent)

def step (s : SpotSession) : SessionEvent → Option SpotSession
  | .talInit mac sent =>
      some ((s.setTal mac (if sent then some .onInit else none)).send
        (plan.logonReqFrame mac) sent)
  | .talUpward mac position shared linked => talUpward s mac position shared linked
  | .talDownward mac sent processed => plan.talDownward s mac sent processed
  | .logonTimer mac sent => plan.logonTimer s mac sent
  | .nccInit => some (s.setNcc ⟨plan.spot, [], 0, s.ncc.starts + 1⟩)
  | .nccUpward position shared => plan.nccUpward s position shared
  | .nccDownward sent => plan.nccDownward s sent
  | .frameTimer sofSent ttpSent => some (plan.frameTimer s sofSent ttpSent)

/-! ### What the lists of the gateway tell -/

/-- The MAC is not the one of a gateway. -/
def Admits (mac : Nat) : Prop := plan.config.isGw mac = false ∧ mac ≠ plan.config.macId

/-- What is told of a terminal at any time. -/
structure Fits (mac : Nat) (seen : GatewaySpot.Seen) : Prop where
  admitted : seen.output = true → plan.Admits mac
  input : ∀ modcodDef, seen.input = some modcodDef →
    modcodDef = modcodDefOf (plan.settings mac).isScpc
  both : seen.output = seen.input.isSome
  scpc : seen.scpc = true → seen.output = true ∧ (plan.settings mac).isScpc = true
  context : seen.context = some true →
    seen.output = true ∧ (plan.settings mac).isScpc = false ∧ plan.spot.UsesDama mac

/-- What is told of a terminal that was answered. -/
structure Registered (mac : Nat) (seen : GatewaySpot.Seen) : Prop where
  input : seen.input = some (modcodDefOf (plan.settings mac).isScpc)
  output : seen.output = true
  scpc : seen.scpc = (plan.settings mac).isScpc
  context : ∀ has, seen.context = some has →
    (has = true ↔ (plan.settings mac).isScpc = false ∧ plan.spot.UsesDama mac)

/-- What the spot keeps from its start. -/
structure Keeps (spot : GatewaySpot) : Prop where
  fits : ∀ id, plan.Fits id (spot.seen id)
  booked : spot.Booked
  uses : ∀ id, spot.UsesDama id ↔ plan.spot.UsesDama id
  refused : ∀ id, spot.RefusedByDama id → plan.spot.RefusedByDama id
  saloha : ∀ id, plan.spot.acceptedBySaloha id = true → spot.acceptedBySaloha id = true

/-- The lists never lose a terminal, nor what they tell of one that was answered. -/
structure Grows (spot spot' : GatewaySpot) : Prop where
  listed : ∀ id, (spot.seen id).output = true → (spot'.seen id).output = true
  registered : ∀ id, plan.Registered id (spot.seen id) → plan.Registered id (spot'.seen id)

/-- The gateway answers the terminal: its MAC is not the one of a gateway, and neither Slotted
Aloha nor, without SCPC, DAMA refuses it. -/
structure Welcomes (mac : Nat) : Prop where
  admits : plan.Admits mac
  saloha : plan.spot.acceptedBySaloha mac = true
  dama : (plan.settings mac).isScpc = false → ¬ plan.spot.RefusedByDama mac

end SpotPlan

theorem SalohaTerminals.addTerminal_accepted {saloha : SalohaTerminals} {mac id : Nat}
    (accepted : (saloha.addTerminal id).1 = true) :
    ((saloha.addTerminal mac).2.addTerminal id).1 = true := by
  have affected (terminals : List Nat) :
      { saloha with terminals }.affectedCategory id = saloha.affectedCategory id := rfl
  have added : (saloha.addTerminal mac).2 = saloha ∨
      (saloha.addTerminal mac).2 = { saloha with terminals := saloha.terminals ++ [mac] } := by
    unfold addTerminal
    repeat' split
    all_goals simp
  rcases added with same | more
  · rw [same]
    exact accepted
  · rw [more]
    unfold addTerminal at accepted ⊢
    rw [affected]
    grind

namespace GatewaySpot

variable {config : SpotConfig} {spot : GatewaySpot} {mac : Nat} {isScpc : Bool}

/-- A logon request never makes Slotted Aloha refuse a terminal. -/
theorem onRcvLogonReq_acceptedBySaloha {id : Nat} (accepted : spot.acceptedBySaloha id = true) :
    (spot.onRcvLogonReq config mac isScpc).2.acceptedBySaloha id = true := by
  have same : ((spot.outputLogon config mac).inputLogon config mac isScpc).saloha = spot.saloha := by
    unfold inputLogon outputLogon addInputTerminal addOutputTerminal
    dsimp only
    repeat' split
    all_goals rfl
  unfold onRcvLogonReq
  split
  · exact accepted
  · unfold salohaLogon acceptedBySaloha at *
    rw [same]
    cases saloha : spot.saloha with
    | none => rw [same, saloha]; rfl
    | some saloha =>
        rw [saloha] at accepted
        exact SalohaTerminals.addTerminal_accepted accepted

end GatewaySpot

namespace SpotPlan

variable {plan : SpotPlan} {spot spot' : GatewaySpot} {mac : Nat}

/-! ### The channels of the gateway -/

theorem Grows.refl : plan.Grows spot spot := ⟨fun _ listed => listed, fun _ registered => registered⟩

/-- Only one terminal changes, and nothing told of it changes but what was missing. -/
theorem Grows.of_one (others : ∀ id, id ≠ mac → spot'.seen id = spot.seen id)
    (listed : (spot.seen mac).output = true → (spot'.seen mac).output = true)
    (registered : plan.Registered mac (spot.seen mac) → plan.Registered mac (spot'.seen mac)) :
    plan.Grows spot spot' := by
  constructor
  · intro id
    by_cases same : id = mac
    · subst same
      exact listed
    · rw [others id same]
      exact fun kept => kept
  · intro id
    by_cases same : id = mac
    · subst same
      exact registered
    · rw [others id same]
      exact fun kept => kept

theorem fits_of_one (fits : ∀ id, plan.Fits id (spot.seen id))
    (others : ∀ id, id ≠ mac → spot'.seen id = spot.seen id)
    (own : plan.Fits mac (spot'.seen mac)) (id : Nat) : plan.Fits id (spot'.seen id) := by
  by_cases same : id = mac
  · subst same
    exact own
  · rw [others id same]
    exact fits id

/-- A terminal whose first logon is not refused by Slotted Aloha is in both lists. -/
theorem Keeps.onRcvLogonReq (keeps : plan.Keeps spot) (mac : Nat) {accepted : Bool}
    (received : spot.onRcvLogonReq plan.config mac (plan.settings mac).isScpc =
      (accepted, spot')) :
    plan.Keeps spot' ∧ plan.Grows spot spot' ∧
      (accepted = true → (spot'.seen mac).output = true) ∧
      (plan.Welcomes mac → accepted = true) := by
  have saloha (id : Nat) (start : plan.spot.acceptedBySaloha id = true) :
      spot'.acceptedBySaloha id = true := by
    have kept := @GatewaySpot.onRcvLogonReq_acceptedBySaloha plan.config spot mac
      (plan.settings mac).isScpc id (keeps.saloha id start)
    rwa [received] at kept
  by_cases gw : plan.config.isGw mac = true ∨ mac = plan.config.macId
  · rw [GatewaySpot.onRcvLogonReq_of_gw gw] at received
    cases received
    refine ⟨keeps, .refl, fun refused => absurd refused Bool.false_ne_true, fun welcome => ?_⟩
    rcases gw with gw | own
    · rw [welcome.admits.1] at gw
      cases gw
    · exact absurd own welcome.admits.2
  · have admits : plan.Admits mac := by
      rw [not_or, Bool.not_eq_true] at gw
      exact gw
    have fits := keeps.fits mac
    have agree : spot.inputSts.isStPresent mac = spot.outputSts.isStPresent mac := by
      have both := fits.both
      simp only [GatewaySpot.seen, Option.isSome_map] at both
      rw [both, StFmtSimuMap.isStPresent_eq]
    obtain ⟨status, logged⟩ := @GatewaySpot.onRcvLogonReq_spec plan.config spot mac
      (plan.settings mac).isScpc gw agree
    rw [received] at status logged
    have seen := logged.seen_self
    have others (id : Nat) (ne : id ≠ mac) : spot'.seen id = spot.seen id := logged.seen_of_ne ne
    have input : (spot'.seen mac).input = some (modcodDefOf (plan.settings mac).isScpc) := by
      rw [seen]
      cases here : (spot.seen mac).input with
      | none => rfl
      | some modcodDef => rw [fits.input modcodDef here]; rfl
    have own : plan.Fits mac (spot'.seen mac) := by
      refine ⟨fun _ => admits, fun modcodDef found => ?_, ?_, fun scpc => ?_, fun context => ?_⟩
      · rw [input] at found
        exact (Option.some.inj found).symm
      · rw [input, seen]
        rfl
      · rw [seen] at scpc ⊢
        exact ⟨rfl, (fits.scpc scpc).2⟩
      · rw [seen] at context ⊢
        exact ⟨rfl, (fits.context context).2⟩
    refine ⟨⟨fits_of_one keeps.fits others own, ?_, fun id => ?_, fun id => ?_, saloha⟩,
      .of_one others (fun _ => by rw [seen]) fun registered => ⟨input, by rw [seen], ?_, ?_⟩,
      fun _ => by rw [seen], fun welcome => ?_⟩
    · rw [GatewaySpot.Booked, logged.damaCtrl]
      exact keeps.booked
    · rw [← keeps.uses, GatewaySpot.UsesDama, GatewaySpot.UsesDama, logged.damaCtrl]
    · have refused := keeps.refused id
      rw [GatewaySpot.RefusedByDama] at refused ⊢
      rwa [logged.damaCtrl]
    · rw [seen]
      exact registered.scpc
    · rw [seen]
      exact registered.context
    · exact status.trans (keeps.saloha mac welcome.saloha)

/-- What a spot answers to the terminals without category, whatever the DAMA contexts. -/
theorem handleLogonReq_refused (booked : spot.Booked) {request : LogonRequest} {id : Nat}
    (refused : (spot.handleLogonReq request false).2.RefusedByDama id) :
    spot.RefusedByDama id := by
  obtain ⟨dama', controller', missing, none⟩ := refused
  unfold GatewaySpot.handleLogonReq at controller'
  cases controller : spot.damaCtrl with
  | none => simp [controller] at controller'
  | some dama =>
      rw [controller] at controller'
      cases controller'
      have added := (DamaCtrlRcs2.hereIsLogon_booked (booked dama controller) request).2.2.1 id
      refine ⟨dama, controller, fun mem => missing (added.mpr (.inl mem)), ?_⟩
      rw [← none]
      unfold DamaCtrlRcs2.hereIsLogon DamaCtrlRcs2.logOn
      repeat' split
      all_goals rfl

theorem handleLogonReq_usesDama (booked : spot.Booked) {request : LogonRequest} {id : Nat} :
    (spot.handleLogonReq request false).2.UsesDama id ↔ spot.UsesDama id := by
  unfold GatewaySpot.UsesDama GatewaySpot.handleLogonReq
  cases controller : spot.damaCtrl with
  | none => simp [controller]
  | some dama =>
      have uses := (DamaCtrlRcs2.hereIsLogon_booked (booked dama controller) request).2.1 id
      simpa using uses

/-- The downward channel of the gateway, on a request that the upward one accepted: a terminal
that is answered is in every list that its kind calls for. -/
theorem Keeps.handleLogonReq (keeps : plan.Keeps spot) {mac : Nat}
    (listed : (spot.seen mac).output = true) {accepted : Bool}
    (received : spot.handleLogonReq (plan.logonReq mac).1 (plan.logonReq mac).2 =
      (accepted, spot')) :
    plan.Keeps spot' ∧ plan.Grows spot spot' ∧
      (accepted = true → plan.Registered mac (spot'.seen mac)) ∧
      (plan.Welcomes mac → accepted = true) := by
  have fits := keeps.fits mac
  have input : (spot.seen mac).input = some (modcodDefOf (plan.settings mac).isScpc) := by
    have both := fits.both
    rw [listed] at both
    obtain ⟨modcodDef, found⟩ := Option.isSome_iff_exists.mp both.symm
    rw [found, fits.input modcodDef found]
  have saloha : spot'.saloha = spot.saloha := by
    have kept : (spot.handleLogonReq (plan.logonReq mac).1 (plan.logonReq mac).2).2.saloha =
        spot.saloha := by
      unfold GatewaySpot.handleLogonReq
      repeat' split
      all_goals rfl
    rwa [received] at kept
  have accepts (id : Nat) (start : plan.spot.acceptedBySaloha id = true) :
      spot'.acceptedBySaloha id = true := by
    have kept := keeps.saloha id start
    unfold GatewaySpot.acceptedBySaloha at kept ⊢
    rwa [saloha]
  cases kind : (plan.settings mac).isScpc with
  | true =>
      have told := @GatewaySpot.handleLogonReq_scpc spot (plan.logonReq mac).1
      rw [logonReq, kind] at received
      rw [logonReq] at told
      have damaCtrl : spot'.damaCtrl = spot.damaCtrl := by
        cases received
        rfl
      have status : accepted = true := by
        cases received
        rfl
      rw [received] at told
      have others (id : Nat) (ne : id ≠ mac) : spot'.seen id = spot.seen id := by
        rw [told, decide_eq_false ne, Bool.or_false]
      have own : spot'.seen mac = { spot.seen mac with scpc := true } := by
        rw [told, decide_eq_true rfl, Bool.or_true]
      have noContext : (spot.seen mac).context ≠ some true := fun context => by
        have other := (fits.context context).2.1
        rw [kind] at other
        cases other
      have registered : plan.Registered mac (spot'.seen mac) := by
        rw [own]
        refine ⟨input, listed, kind.symm, fun has found => ?_⟩
        rw [kind]
        cases has with
        | true => exact absurd found noContext
        | false => simp
      refine ⟨⟨fits_of_one keeps.fits others ?_, ?_, fun id => ?_, fun id => ?_, accepts⟩,
        .of_one others (fun _ => registered.output) fun _ => registered,
        fun _ => registered, fun _ => status⟩
      · rw [own]
        exact ⟨fits.admitted, fits.input, fits.both, fun _ => ⟨listed, kind⟩, fits.context⟩
      · rw [GatewaySpot.Booked, damaCtrl]
        exact keeps.booked
      · rw [← keeps.uses, GatewaySpot.UsesDama, GatewaySpot.UsesDama, damaCtrl]
      · have refused := keeps.refused id
        rw [GatewaySpot.RefusedByDama] at refused ⊢
        rwa [damaCtrl]
  | false =>
      have told := GatewaySpot.handleLogonReq_other keeps.booked (plan.logonReq mac).1
      have uses (id : Nat) := @handleLogonReq_usesDama spot keeps.booked (plan.logonReq mac).1 id
      have refuses (id : Nat) := @handleLogonReq_refused spot keeps.booked (plan.logonReq mac).1 id
      have same : (plan.logonReq mac).2 = false := kind
      rw [same] at received
      rw [received] at told uses refuses
      have others : ∀ id, id ≠ mac → spot'.seen id = spot.seen id := told.others
      have context (has : Bool) (found : (spot'.seen mac).context = some has) :
          has = true ↔ plan.spot.UsesDama mac := by
        rw [told.context has found, ← keeps.uses]
        exact or_iff_right_of_imp fun here => (keeps.uses mac).mpr (fits.context here).2.2
      have rest := told.rest
      change spot'.seen mac = { spot.seen mac with context := (spot'.seen mac).context } at rest
      have noScpc : (spot.seen mac).scpc = false := by
        rw [← Bool.not_eq_true]
        intro scpc
        have other := (fits.scpc scpc).2
        rw [kind] at other
        cases other
      have registered : plan.Registered mac (spot'.seen mac) := by
        refine ⟨?_, ?_, ?_, fun has found => ?_⟩
        · rw [rest]
          exact input
        · rw [rest]
          exact listed
        · rw [rest]
          exact noScpc.trans kind.symm
        · rw [context has found, kind]
          simp
      refine ⟨⟨fits_of_one keeps.fits others ?_, told.booked, fun id => ?_, fun id refused => ?_,
        accepts⟩, .of_one others (fun _ => registered.output) fun _ => registered,
        fun _ => registered, fun welcome => ?_⟩
      · refine ⟨fun _ => fits.admitted listed, fun modcodDef found => ?_, ?_, fun scpc => ?_,
          fun here => ⟨registered.output, kind, (context true here).mp rfl⟩⟩
        · rw [registered.input] at found
          exact (Option.some.inj found).symm
        · rw [registered.input, registered.output]
          rfl
        · rw [registered.scpc, kind] at scpc
          cases scpc
      · rw [uses, keeps.uses]
      · exact keeps.refused id (refuses id refused)
      · rw [← Bool.not_eq_false]
        exact fun failed => welcome.dama kind (keeps.refused mac (told.refused.mp failed))

theorem keeps_spot (plan : SpotPlan) : plan.Keeps plan.spot := by
  have noContext (id : Nat) : (plan.spot.seen id).context ≠ some true := by
    intro context
    obtain ⟨dama, controller, has⟩ := Option.map_eq_some_iff.mp context
    rw [(plan.fresh dama controller).noTerminal] at has
    exact AList.notMem_empty id (of_decide_eq_true has)
  refine ⟨fun id => ⟨nofun, nofun, rfl, nofun, fun context => absurd context (noContext id)⟩,
    fun dama controller => (plan.fresh dama controller).booked, fun _ => Iff.rfl,
    fun _ refused => refused, fun _ accepted => accepted⟩

/-! ### What the frames and the channels tell -/

/-- The identifiers are the ones that the gateway gives to the terminal, and the gateway has
registered it, unless it was started again since. -/
structure Answers (plan : SpotPlan) (ncc : NccSession) (mac : Nat) (ids : LinkIds) : Prop where
  admits : plan.Admits mac
  groupId : ids.groupId = plan.config.macId
  talId : ids.talId = mac
  starts : ids.starts ≤ ncc.starts
  registered : ids.starts = ncc.starts → plan.Registered mac (ncc.spot.seen mac)

/-- A frame is one that a terminal or the gateway sends. -/
def Genuine (plan : SpotPlan) (ncc : NccSession) (sent : SentFrame) : Prop :=
  match sent.frame with
  | .sof _ => True
  | .ttp groupId => groupId = plan.config.macId
  | .sessionLogonReq request isScpc => (request, isScpc) = plan.logonReq request.mac
  | .sessionLogonResp mac groupId logonId => plan.Answers ncc mac ⟨groupId, logonId, sent.starts⟩

end SpotPlan

/-- A response of a queue is for the terminal. -/
def SentFrame.IsFor (mac : Nat) (sent : SentFrame) : Prop :=
  match sent.frame with
  | .sessionLogonResp mac' _ _ => mac' = mac
  | _ => True

namespace SpotPlan

/-- A channel that runs has identifiers, and these, as those of the link up messages, are the
ones of an answer. -/
structure TalSafe (plan : SpotPlan) (ncc : NccSession) (mac : Nat) (tal : TalChannels) : Prop where
  queue : ∀ received ∈ tal.queue, plan.Genuine ncc received ∧ received.IsFor mac
  upward : tal.upward.state = .running → tal.upward.ids.isSome
  downward : tal.downward.state = .running → tal.downward.ids.isSome
  upIds : ∀ ids, tal.upward.ids = some ids → plan.Answers ncc mac ids
  downIds : ∀ ids, tal.downward.ids = some ids → plan.Answers ncc mac ids
  linkUps : ∀ ids ∈ tal.upward.linkUps, plan.Answers ncc mac ids

structure Safe (plan : SpotPlan) (s : SpotSession) : Prop where
  air : ∀ sent ∈ s.air, plan.Genuine s.ncc sent
  spot : plan.Keeps s.ncc.spot
  requests : ∀ request ∈ s.ncc.queue, request = plan.logonReq request.1.mac ∧
    (s.ncc.spot.seen request.1.mac).output = true
  tals : ∀ mac tal, s.tals mac = some tal → plan.TalSafe s.ncc mac tal

/-- The gateway is started again or its lists grow. -/
def Later (plan : SpotPlan) (ncc ncc' : NccSession) : Prop :=
  ncc.starts < ncc'.starts ∨ ncc.starts = ncc'.starts ∧ plan.Grows ncc.spot ncc'.spot

variable {plan : SpotPlan} {s s' : SpotSession} {ncc ncc' : NccSession} {mac : Nat}
  {tal : TalChannels} {ids : LinkIds}

theorem Answers.later (answers : plan.Answers ncc mac ids) (later : plan.Later ncc ncc') :
    plan.Answers ncc' mac ids := by
  have before := answers.starts
  refine ⟨answers.admits, answers.groupId, answers.talId, ?_, fun now => ?_⟩
  · rcases later with again | ⟨same, -⟩
    · omega
    · omega
  · rcases later with again | ⟨same, grows⟩
    · omega
    · exact grows.registered mac (answers.registered (now.trans same.symm))

theorem Genuine.later {sent : SentFrame} (genuine : plan.Genuine ncc sent)
    (later : plan.Later ncc ncc') : plan.Genuine ncc' sent := by
  unfold Genuine at genuine ⊢
  split
  · trivial
  next => simpa [*] using genuine
  next => simpa [*] using genuine
  next frame =>
    rw [frame] at genuine
    exact Answers.later genuine later

theorem TalSafe.later (safe : plan.TalSafe ncc mac tal) (later : plan.Later ncc ncc') :
    plan.TalSafe ncc' mac tal where
  queue received mem := ⟨(safe.queue received mem).1.later later, (safe.queue received mem).2⟩
  upward := safe.upward
  downward := safe.downward
  upIds ids found := (safe.upIds ids found).later later
  downIds ids found := (safe.downIds ids found).later later
  linkUps ids mem := (safe.linkUps ids mem).later later

/-! ### What the events keep -/

theorem Safe.send (safe : plan.Safe s) {frame : ControlFrame} {sent : Bool}
    (genuine : sent = true → plan.Genuine s.ncc ⟨frame, s.ncc.starts⟩) :
    plan.Safe (s.send frame sent) := by
  unfold SpotSession.send
  split
  next here =>
    refine ⟨fun received mem => ?_, safe.spot, safe.requests, safe.tals⟩
    rcases List.mem_append.mp mem with former | last
    · exact safe.air received former
    · rw [List.mem_singleton.mp last]
      exact genuine here
  next => exact safe

theorem Safe.setTal (safe : plan.Safe s) {started : Option TalChannels}
    (own : ∀ tal, started = some tal → plan.TalSafe s.ncc mac tal) :
    plan.Safe (s.setTal mac started) := by
  refine ⟨safe.air, safe.spot, safe.requests, fun id tal found => ?_⟩
  by_cases same : id = mac
  · subst same
    exact own tal (by simpa [SpotSession.setTal] using found)
  · refine safe.tals id tal ?_
    simpa [SpotSession.setTal, same] using found

theorem Safe.setNcc (safe : plan.Safe s) (later : plan.Later s.ncc ncc')
    (keeps : plan.Keeps ncc'.spot)
    (requests : ∀ request ∈ ncc'.queue, request = plan.logonReq request.1.mac ∧
      (ncc'.spot.seen request.1.mac).output = true) :
    plan.Safe (s.setNcc ncc') where
  air sent mem := (safe.air sent mem).later later
  spot := keeps
  requests := requests
  tals id tal found := (safe.tals id tal found).later later

theorem TalSafe.onRcvDvbFrame (safe : plan.TalSafe ncc mac tal) {received : SentFrame}
    (genuine : plan.Genuine ncc received) {shared linked goes : Bool} {upward : TalUpward}
    (handled : tal.upward.onRcvDvbFrame mac received shared linked = (upward, goes)) :
    plan.TalSafe ncc mac { tal with
      upward, queue := if goes then tal.queue ++ [received] else tal.queue } := by
  have queued (isFor : goes = true → received.IsFor mac) (sent : SentFrame)
      (mem : sent ∈ if goes then tal.queue ++ [received] else tal.queue) :
      plan.Genuine ncc sent ∧ sent.IsFor mac := by
    cases goes with
    | false => exact safe.queue sent mem
    | true =>
        rcases List.mem_append.mp mem with former | last
        · exact safe.queue sent former
        · rw [List.mem_singleton.mp last]
          exact ⟨genuine, isFor rfl⟩
  obtain ⟨frame, starts⟩ := received
  cases frame with
  | sof superFrameNumber =>
      cases handled
      exact ⟨queued fun _ => trivial, safe.upward, safe.downward, safe.upIds, safe.downIds,
        safe.linkUps⟩
  | ttp groupId =>
      cases handled
      exact ⟨queued fun _ => trivial, safe.upward, safe.downward, safe.upIds, safe.downIds,
        safe.linkUps⟩
  | sessionLogonReq request isScpc =>
      cases handled
      exact safe
  | sessionLogonResp mac' groupId logonId =>
      simp only [TalUpward.onRcvDvbFrame, ne_eq, ite_not] at handled
      split at handled
      next own =>
        subst own
        have told (ids : LinkIds) (found : some (⟨groupId, logonId, starts⟩ : LinkIds) = some ids) :
            plan.Answers ncc mac' ids := by
          cases found
          exact genuine
        cases linked with
        | false =>
            cases handled
            exact ⟨queued fun _ => rfl, fun _ => rfl, safe.downward, told, safe.downIds,
              safe.linkUps⟩
        | true =>
            cases handled
            refine ⟨queued fun _ => rfl, fun _ => rfl, safe.downward, told, safe.downIds,
              fun ids mem => ?_⟩
            rcases List.mem_append.mp mem with former | last
            · exact safe.linkUps ids former
            · exact told ids (congrArg some (List.mem_singleton.mp last).symm)
      next other =>
        cases handled
        exact safe

/-- A start of frame never makes a terminal run. -/
theorem handleStartOfFrame_running {downward : TalDownward} {sfn : UInt16} {sent processed : Bool}
    (running : (downward.handleStartOfFrame sfn sent processed).2.state = .running) :
    downward.state = .running := by
  unfold TalDownward.handleStartOfFrame at running
  split at running
  · cases sent with
    | false => exact running
    | true => cases running
  · exact running

theorem TalSafe.handleDvbFrame {received : SentFrame} {queue : List SentFrame}
    (safe : plan.TalSafe ncc mac tal) (taken : tal.queue = received :: queue)
    (sent processed : Bool) :
    plan.TalSafe ncc mac { tal with
      queue, downward := (tal.downward.handleDvbFrame received sent processed).1 } := by
  have rest (other : SentFrame) (mem : other ∈ queue) : plan.Genuine ncc other ∧ other.IsFor mac :=
    safe.queue other (taken ▸ List.mem_cons_of_mem received mem)
  obtain ⟨genuine, isFor⟩ := safe.queue received (taken ▸ List.mem_cons_self)
  obtain ⟨frame, starts⟩ := received
  cases frame with
  | sof sfn =>
      exact ⟨rest, safe.upward, fun running => safe.downward (handleStartOfFrame_running running),
        safe.upIds, safe.downIds, safe.linkUps⟩
  | ttp groupId => exact ⟨rest, safe.upward, safe.downward, safe.upIds, safe.downIds, safe.linkUps⟩
  | sessionLogonReq request isScpc =>
      exact ⟨rest, safe.upward, safe.downward, safe.upIds, safe.downIds, safe.linkUps⟩
  | sessionLogonResp mac' groupId logonId =>
      cases (isFor : mac' = mac)
      refine ⟨rest, safe.upward, fun _ => rfl, safe.upIds, fun ids found => ?_, safe.linkUps⟩
      cases found
      exact genuine

theorem TalSafe.onLogonTimer (safe : plan.TalSafe ncc mac tal) (sent : Bool) :
    plan.TalSafe ncc mac { tal with downward := (tal.downward.onLogonTimer sent).1 } := by
  unfold TalLogon.onLogonTimer
  split
  · exact ⟨safe.queue, safe.upward, safe.downward, safe.upIds, safe.downIds, safe.linkUps⟩
  · exact ⟨safe.queue, safe.upward, safe.downward, safe.upIds, safe.downIds, safe.linkUps⟩

theorem safe_start (plan : SpotPlan) : plan.Safe plan.start where
  air := nofun
  spot := plan.keeps_spot
  requests := nofun
  tals := nofun

theorem genuine_logonReqFrame : plan.Genuine ncc ⟨plan.logonReqFrame mac, ncc.starts⟩ := rfl

theorem safe_step {event : SessionEvent} (safe : plan.Safe s)
    (taken : plan.step s event = some s') : plan.Safe s' := by
  cases event with
  | talInit mac sent =>
      cases taken
      refine (safe.setTal fun tal started => ?_).send fun _ => genuine_logonReqFrame
      cases sent with
      | false => cases started
      | true =>
          cases started
          exact ⟨nofun, nofun, nofun, nofun, nofun, nofun⟩
  | talUpward mac position shared linked =>
      obtain ⟨tal, found, received, onAir, rfl⟩ : ∃ tal, s.tals mac = some tal ∧ ∃ received,
          s.air[position]? = some received ∧ _ = s' := by
        simpa [step, SpotPlan.talUpward, Option.bind_eq_some_iff] using taken
      refine safe.setTal fun tal' same => ?_
      cases same
      exact (safe.tals mac tal found).onRcvDvbFrame
        (safe.air received (List.mem_of_getElem? onAir)) rfl
  | talDownward mac sent processed =>
      obtain ⟨tal, found, handled⟩ := Option.bind_eq_some_iff.mp taken
      cases queue : tal.queue with
      | nil => simp [queue] at handled
      | cons received rest =>
          rw [queue] at handled
          cases handled
          refine (safe.setTal fun tal' same => ?_).send fun _ => genuine_logonReqFrame
          cases same
          exact (safe.tals mac tal found).handleDvbFrame queue sent processed
  | logonTimer mac sent =>
      obtain ⟨tal, found, handled⟩ := Option.bind_eq_some_iff.mp taken
      split at handled
      · cases handled
        refine (safe.setTal fun tal' same => ?_).send fun _ => genuine_logonReqFrame
        cases same
        exact (safe.tals mac tal found).onLogonTimer sent
      · cases handled
  | nccInit =>
      cases taken
      exact safe.setNcc (.inl (Nat.lt_succ_self _)) plan.keeps_spot nofun
  | nccUpward position shared =>
      obtain ⟨⟨frame, starts⟩, onAir, rfl⟩ := Option.map_eq_some_iff.mp taken
      have genuine := safe.air _ (List.mem_of_getElem? onAir)
      cases frame with
      | sof _ | ttp _ | sessionLogonResp _ _ _ => exact safe
      | sessionLogonReq request isScpc =>
          have own : (request, isScpc) = plan.logonReq request.mac := genuine
          have kind : isScpc = (plan.settings request.mac).isScpc := congrArg Prod.snd own
          subst kind
          obtain ⟨accepted, spot', received⟩ : ∃ accepted spot',
              s.ncc.spot.onRcvLogonReq plan.config request.mac
                (plan.settings request.mac).isScpc = (accepted, spot') := ⟨_, _, rfl⟩
          obtain ⟨keeps, grows, listed, -⟩ := safe.spot.onRcvLogonReq request.mac received
          dsimp only
          rw [received]
          refine safe.setNcc (.inr ⟨rfl, grows⟩) keeps fun other mem => ?_
          have former (here : other ∈ s.ncc.queue) : other = plan.logonReq other.1.mac ∧
              (spot'.seen other.1.mac).output = true :=
            ⟨(safe.requests other here).1, grows.listed _ (safe.requests other here).2⟩
          dsimp only at mem
          split at mem
          next both =>
            rcases List.mem_append.mp mem with here | last
            · exact former here
            · rw [List.mem_singleton.mp last]
              exact ⟨own, listed (Bool.and_eq_true_iff.mp both).1⟩
          next => exact former mem
  | nccDownward sent =>
      simp only [step, nccDownward] at taken
      cases queue : s.ncc.queue with
      | nil => simp [queue] at taken
      | cons head rest =>
          obtain ⟨request, isScpc⟩ := head
          rw [queue] at taken
          obtain ⟨own, listed⟩ := safe.requests (request, isScpc) (queue ▸ List.mem_cons_self)
          dsimp only at own listed
          obtain ⟨accepted, spot', received⟩ : ∃ accepted spot',
              s.ncc.spot.handleLogonReq request isScpc = (accepted, spot') := ⟨_, _, rfl⟩
          have handled := received
          rw [show request = (plan.logonReq request.mac).1 from congrArg Prod.fst own,
            show isScpc = (plan.logonReq request.mac).2 from congrArg Prod.snd own] at handled
          obtain ⟨keeps, grows, registered, -⟩ := safe.spot.handleLogonReq listed handled
          simp only [received, Option.some.injEq] at taken
          subst taken
          have later : plan.Later s.ncc { s.ncc with spot := spot', queue := rest } :=
            .inr ⟨rfl, grows⟩
          refine (safe.setNcc later keeps fun other mem => ?_).send fun both => ?_
          · have here := safe.requests other (queue ▸ List.mem_cons_of_mem _ mem)
            exact ⟨here.1, grows.listed _ here.2⟩
          · exact ⟨keeps.fits request.mac |>.admitted (grows.listed _ listed), rfl, rfl, le_rfl,
              fun _ => registered (Bool.and_eq_true_iff.mp both).1⟩
  | frameTimer sofSent ttpSent =>
      cases taken
      have later : plan.Later s.ncc
          { s.ncc with superFrameCounter := s.ncc.superFrameCounter + 1 } := .inr ⟨rfl, .refl⟩
      refine ((safe.setNcc later safe.spot safe.requests).send fun _ => ?_).send fun _ => ?_
      · trivial
      · exact rfl

/-- **Logons.** In every state of a run, a channel of a terminal that runs has the identifiers
that the gateway gave it, and the gateway has the terminal in every list that its kind calls for,
unless it was started again since; so do the link up messages, and no gateway is in the lists. -/
theorem allStates_safe (plan : SpotPlan) (events : List SessionEvent) :
    AllStates plan.step plan.Safe plan.start events :=
  allStates_of_step plan.safe_start fun _ _ _ safe taken => safe_step safe taken

/-- A spot with a DAMA controller and terminals without SCPC. -/
def plainPlan : SpotPlan where
  config := SpotWatch.plainConfig
  inputMarginDb := 0
  outputMarginDb := 0
  saloha := none
  damaCtrl := some DamaWatch.standardDama
  settings := fun _ => ⟨100, 2000, 50, false⟩
  fresh := SpotWatch.standardDama_fresh

/-- The response received before the gateway is started again makes the terminal run all the
same, but the gateway does not know it. -/
example : (run plainPlan.step plainPlan.start [.talInit 1 true, .nccUpward 0 true,
      .nccDownward true, .nccInit, .talUpward 1 1 true true, .talDownward 1 true true]).map
    (fun s => ((s.tals 1).map fun tal => (tal.upward.state, tal.downward.state),
      (s.ncc.spot.seen 1).output)) =
    some (some (.running, .running), false) := by
  decide +kernel

/-! ### What an event does to the terminals -/

@[simp] theorem send_tals (s : SpotSession) (frame : ControlFrame) (sent : Bool) :
    (s.send frame sent).tals = s.tals := by
  unfold SpotSession.send
  split <;> rfl

@[simp] theorem send_ncc (s : SpotSession) (frame : ControlFrame) (sent : Bool) :
    (s.send frame sent).ncc = s.ncc := by
  unfold SpotSession.send
  split <;> rfl

@[simp] theorem setTal_tals (s : SpotSession) (mac : Nat) (started : Option TalChannels) :
    (s.setTal mac started).tals = Function.update s.tals mac started := rfl

/-- The terminals after an event. -/
inductive TalMoves (s : SpotSession) : SessionEvent → (Nat → Option TalChannels) → Prop where
  | init (mac : Nat) (sent : Bool) : TalMoves s (.talInit mac sent)
      (Function.update s.tals mac (if sent then some .onInit else none))
  | upward {mac position : Nat} {shared linked goes : Bool} {tal : TalChannels}
      {received : SentFrame} {upward : TalUpward} (found : s.tals mac = some tal)
      (onAir : s.air[position]? = some received)
      (handled : tal.upward.onRcvDvbFrame mac received shared linked = (upward, goes)) :
      TalMoves s (.talUpward mac position shared linked) (Function.update s.tals mac (some { tal with
        upward, queue := if goes then tal.queue ++ [received] else tal.queue }))
  | downward {mac : Nat} {sent processed requested : Bool} {tal : TalChannels}
      {received : SentFrame} {queue : List SentFrame} {downward : TalLogon}
      (found : s.tals mac = some tal) (taken : tal.queue = received :: queue)
      (handled : tal.downward.handleDvbFrame received sent processed = (downward, requested)) :
      TalMoves s (.talDownward mac sent processed)
        (Function.update s.tals mac (some { tal with queue, downward }))
  | timer {mac : Nat} {sent requested : Bool} {tal : TalChannels} {downward : TalLogon}
      (found : s.tals mac = some tal) (on : tal.downward.logonTimer = true)
      (handled : tal.downward.onLogonTimer sent = (downward, requested)) :
      TalMoves s (.logonTimer mac sent)
        (Function.update s.tals mac (some { tal with downward }))
  | nccInit : TalMoves s .nccInit s.tals
  | nccUpward (position : Nat) (shared : Bool) : TalMoves s (.nccUpward position shared) s.tals
  | nccDownward (sent : Bool) : TalMoves s (.nccDownward sent) s.tals
  | frameTimer (sofSent ttpSent : Bool) : TalMoves s (.frameTimer sofSent ttpSent) s.tals

theorem talMoves_of_step {event : SessionEvent} (taken : plan.step s event = some s') :
    TalMoves s event s'.tals := by
  cases event with
  | talInit mac sent =>
      cases taken
      rw [send_tals]
      exact .init mac sent
  | talUpward mac position shared linked =>
      obtain ⟨tal, found, received, onAir, rfl⟩ : ∃ tal, s.tals mac = some tal ∧ ∃ received,
          s.air[position]? = some received ∧ _ = s' := by
        simpa [step, SpotPlan.talUpward, Option.bind_eq_some_iff] using taken
      exact .upward found onAir rfl
  | talDownward mac sent processed =>
      obtain ⟨tal, found, handled⟩ := Option.bind_eq_some_iff.mp taken
      cases queue : tal.queue with
      | nil => simp [queue] at handled
      | cons received rest =>
          rw [queue] at handled
          cases handled
          rw [send_tals]
          exact .downward found queue rfl
  | logonTimer mac sent =>
      obtain ⟨tal, found, handled⟩ := Option.bind_eq_some_iff.mp taken
      split at handled
      next on =>
        cases handled
        rw [send_tals]
        exact .timer found on rfl
      next => cases handled
  | nccInit =>
      cases taken
      exact .nccInit
  | nccUpward position shared =>
      obtain ⟨⟨frame, starts⟩, onAir, rfl⟩ := Option.map_eq_some_iff.mp taken
      cases frame with
      | sof _ | ttp _ | sessionLogonResp _ _ _ => exact .nccUpward position shared
      | sessionLogonReq request isScpc => exact .nccUpward position shared
  | nccDownward sent =>
      simp only [step, nccDownward] at taken
      cases queue : s.ncc.queue with
      | nil => simp [queue] at taken
      | cons head rest =>
          rw [queue] at taken
          cases taken
          rw [send_tals]
          exact .nccDownward sent
  | frameTimer sofSent ttpSent =>
      cases taken
      rw [frameTimer, send_tals, send_tals]
      exact .frameTimer sofSent ttpSent

/-- Every terminal that is started meets a condition. -/
def Each (P : Nat → TalChannels → Prop) (tals : Nat → Option TalChannels) : Prop :=
  ∀ mac tal, tals mac = some tal → P mac tal

/-- Only the terminal that changes counts. -/
theorem Each.update_iff {P : Nat → TalChannels → Prop} {tals : Nat → Option TalChannels}
    (each : Each P tals) {started : Option TalChannels} :
    Each P (Function.update tals mac started) ↔ ∀ tal, started = some tal → P mac tal := by
  constructor
  · intro after tal same
    exact after mac tal (by rw [Function.update_self, same])
  · intro own id tal found
    by_cases same : id = mac
    · subst same
      rw [Function.update_self] at found
      exact own tal found
    · rw [Function.update_of_ne same] at found
      exact each id tal found

/-! ### The logon timer -/

/-- A terminal that waits will send its request again. -/
def Armed (s : SpotSession) : Prop :=
  Each (fun _ tal => tal.downward.state = .waitLogonResp → tal.downward.logonTimer = true) s.tals

/-- A request that is sent again can be sent. -/
def Repeats (s : SpotSession) : SessionEvent → Prop
  | .logonTimer mac sent =>
      ∀ tal, s.tals mac = some tal → tal.downward.state = .waitLogonResp → sent = true
  | _ => True

/-- A start of frame that restarts the logon starts the timer. -/
theorem handleDvbFrame_armed {downward : TalLogon} {received : SentFrame} {sent processed : Bool}
    (armed : downward.state = .waitLogonResp → downward.logonTimer = true)
    (waits : (downward.handleDvbFrame received sent processed).1.state = .waitLogonResp) :
    (downward.handleDvbFrame received sent processed).1.logonTimer = true := by
  obtain ⟨frame, starts⟩ := received
  cases frame with
  | sof sfn =>
      simp only [TalLogon.handleDvbFrame, TalDownward.handleStartOfFrame] at waits ⊢
      by_cases rebooted : downward.Rebooted sfn
      · cases sent with
        | true => simp [rebooted]
        | false =>
            rw [if_pos rebooted] at waits
            simp [armed waits]
      · rw [if_neg rebooted] at waits
        simp [armed waits]
  | ttp groupId => exact armed waits
  | sessionLogonReq request isScpc => exact armed waits
  | sessionLogonResp mac' groupId logonId => cases waits

theorem armed_step_iff {event : SessionEvent} (armed : Armed s)
    (taken : plan.step s event = some s') : Armed s' ↔ Repeats s event := by
  unfold Armed at armed ⊢
  generalize moved : s'.tals = tals
  have moves := moved ▸ talMoves_of_step taken
  cases moves with
  | init mac sent =>
      refine iff_of_true (armed.update_iff.mpr fun tal started _ => ?_) trivial
      cases sent with
      | false => cases started
      | true =>
          cases started
          rfl
  | @upward mac position shared linked goes tal received upward found onAir handled =>
      refine iff_of_true (armed.update_iff.mpr fun tal' same => ?_) trivial
      cases same
      exact armed mac tal found
  | @downward mac sent processed requested tal received queue downward found taken handled =>
      refine iff_of_true (armed.update_iff.mpr fun tal' same => ?_) trivial
      cases same
      cases (congrArg Prod.fst handled : _ = downward)
      exact handleDvbFrame_armed (armed mac tal found)
  | @timer mac sent requested tal downward found on handled =>
      rw [armed.update_iff, Repeats, found]
      simp only [Option.some.injEq, forall_eq']
      unfold TalLogon.onLogonTimer at handled
      split at handled
      next waits =>
        cases handled
        simp [waits]
      next runs =>
        cases handled
        exact iff_of_true (fun waits => absurd waits runs) fun waits => absurd waits runs
  | nccInit => exact iff_of_true armed trivial
  | nccUpward position shared => exact iff_of_true armed trivial
  | nccDownward sent => exact iff_of_true armed trivial
  | frameTimer sofSent ttpSent => exact iff_of_true armed trivial

/-! ### The way to a logon -/

/-- Nothing fails, and nothing is started. -/
def Sound : SessionEvent → Prop
  | .talUpward _ _ shared linked => shared = true ∧ linked = true
  | .talDownward _ sent processed => sent = true ∧ processed = true
  | .logonTimer _ sent => sent = true
  | .nccUpward _ shared => shared = true
  | .nccDownward sent => sent = true
  | .frameTimer sofSent ttpSent => sofSent = true ∧ ttpSent = true
  | .talInit _ _ | .nccInit => False

/-- Both channels of the terminal run with an answer of the gateway since its last start, and
the gateway has registered the terminal. -/
structure LoggedOn (plan : SpotPlan) (s : SpotSession) (mac : Nat) (tal : TalChannels) : Prop where
  upward : tal.upward.state = .running
  downward : tal.downward.state = .running
  upIds : tal.upward.ids = some ⟨plan.config.macId, mac, s.ncc.starts⟩
  downIds : tal.downward.ids = some ⟨plan.config.macId, mac, s.ncc.starts⟩
  registered : plan.Registered mac (s.ncc.spot.seen mac)

/-- Sound events lead to a state. -/
def Leads (plan : SpotPlan) (s : SpotSession) (P : SpotSession → Prop) : Prop :=
  ∃ more s', (∀ event ∈ more, Sound event) ∧ run plan.step s more = some s' ∧ P s'

theorem Leads.here {P : SpotSession → Prop} (here : P s) : plan.Leads s P :=
  ⟨[], s, nofun, rfl, here⟩

theorem Leads.step {P : SpotSession → Prop} (event : SessionEvent) (sound : Sound event)
    (taken : plan.step s event = some s') (leads : plan.Leads s' P) : plan.Leads s P := by
  obtain ⟨more, last, sounds, ends, good⟩ := leads
  refine ⟨event :: more, last, ?_, ?_, good⟩
  · simpa using ⟨sound, sounds⟩
  · rw [run, taken]
    exact ends

theorem Leads.trans {P Q : SpotSession → Prop} (leads : plan.Leads s P)
    (next : ∀ s', P s' → plan.Leads s' Q) : plan.Leads s Q := by
  obtain ⟨more, mid, sounds, ends, good⟩ := leads
  obtain ⟨more', last, sounds', ends', good'⟩ := next mid good
  refine ⟨more ++ more', last, fun event mem => ?_, ?_, good'⟩
  · rcases List.mem_append.mp mem with former | latter
    · exact sounds event former
    · exact sounds' event latter
  · rw [run_append, ends]
    exact ends'

theorem Safe.run {events : List SessionEvent} (safe : plan.Safe s)
    (ends : run plan.step s events = some s') : plan.Safe s' :=
  (allStates_of_step safe fun _ _ _ safe taken => safe_step safe taken).last ends

/-- A safe state leads to a safe state. -/
theorem Leads.safe {P : SpotSession → Prop} (leads : plan.Leads s P) (safe : plan.Safe s) :
    plan.Leads s fun s' => plan.Safe s' ∧ P s' := by
  obtain ⟨more, last, sounds, ends, good⟩ := leads
  exact ⟨more, last, sounds, ends, safe.run ends, good⟩

/-- The gateway handles the requests of its queue up to the one of the terminal. -/
theorem leads_to_response (welcomes : plan.Welcomes mac) (tal : TalChannels)
    {former : List (LogonRequest × Bool)} (safe : plan.Safe s) (found : s.tals mac = some tal)
    (queue : s.ncc.queue = former ++ [plan.logonReq mac]) :
    plan.Leads s fun s' => s'.tals mac = some tal ∧
      ⟨.sessionLogonResp mac plan.config.macId mac, s'.ncc.starts⟩ ∈ s'.air := by
  induction former generalizing s with
  | nil =>
      obtain ⟨accepted, spot', received⟩ : ∃ accepted spot',
          s.ncc.spot.handleLogonReq (plan.logonReq mac).1 (plan.logonReq mac).2 =
            (accepted, spot') := ⟨_, _, rfl⟩
      have listed := (safe.requests (plan.logonReq mac) (by simp [queue])).2
      have ok := (safe.spot.handleLogonReq listed received).2.2.2 welcomes
      have taken : plan.step s (.nccDownward true) =
          some ((s.setNcc { s.ncc with spot := spot', queue := [] }).send
            (.sessionLogonResp mac plan.config.macId mac) true) := by
        simp only [SpotPlan.step, nccDownward, queue, List.nil_append, received, ok]
        rfl
      exact .step (.nccDownward true) rfl taken
        (.here ⟨found, by simp [SpotSession.send, SpotSession.setNcc]⟩)
  | cons request former ih =>
      obtain ⟨s', taken, rest⟩ : ∃ s', plan.step s (.nccDownward true) = some s' ∧
          s'.ncc.queue = former ++ [plan.logonReq mac] := by
        simp only [SpotPlan.step, nccDownward, queue, List.cons_append]
        exact ⟨_, rfl, by simp [SpotSession.setNcc]⟩
      refine .step (.nccDownward true) rfl taken (ih (safe_step safe taken) ?_ rest)
      have same : s'.tals = s.tals := by
        generalize moved : s'.tals = tals
        have moves := moved ▸ talMoves_of_step taken
        cases moves
        rfl
      rw [same, found]

/-- The downward channel takes the frames of its queue up to the response. -/
theorem leads_to_running {groupId logonId starts : Nat} {former : List SentFrame}
    (found : s.tals mac = some tal)
    (queue : tal.queue = former ++ [⟨.sessionLogonResp mac groupId logonId, starts⟩]) :
    plan.Leads s fun s' => s'.ncc = s.ncc ∧ ∃ tal', s'.tals mac = some tal' ∧
      tal'.upward = tal.upward ∧ tal'.downward.state = .running ∧
      tal'.downward.ids = some ⟨groupId, logonId, starts⟩ := by
  induction former generalizing s tal with
  | nil =>
      have taken : plan.step s (.talDownward mac true true) =
          some (s.setTal mac (some { tal with
            queue := []
            downward := { tal.downward with
              toTalDownward := tal.downward.toTalDownward.handleLogonResp
              ids := some ⟨groupId, logonId, starts⟩ } })) := by
        simp only [SpotPlan.step, SpotPlan.talDownward, found, Option.bind_some, queue,
          List.nil_append]
        rfl
      exact .step (.talDownward mac true true) ⟨rfl, rfl⟩ taken
        (.here ⟨rfl, _, Function.update_self .., rfl, rfl, rfl⟩)
  | cons received former ih =>
      obtain ⟨s', taken, same, tal', found', upward, rest⟩ : ∃ s',
          plan.step s (.talDownward mac true true) = some s' ∧ s'.ncc = s.ncc ∧
          ∃ tal', s'.tals mac = some tal' ∧ tal'.upward = tal.upward ∧
            tal'.queue = former ++ [⟨.sessionLogonResp mac groupId logonId, starts⟩] := by
        simp only [SpotPlan.step, SpotPlan.talDownward, found, Option.bind_some, queue,
          List.cons_append]
        refine ⟨_, rfl, ?_, { tal with
          queue := former ++ [⟨.sessionLogonResp mac groupId logonId, starts⟩]
          downward := (tal.downward.handleDvbFrame received true true).1 }, ?_, rfl, rfl⟩
        · rw [send_ncc]
          rfl
        · rw [send_tals, setTal_tals, Function.update_self]
      have leads := ih found' rest
      rw [same, upward] at leads
      exact .step (.talDownward mac true true) ⟨rfl, rfl⟩ taken leads

/-- The request that the timer sends again reaches the queue of the gateway. -/
theorem leads_to_request (welcomes : plan.Welcomes mac) (safe : plan.Safe s)
    (found : s.tals mac = some tal) (waits : tal.downward.state = .waitLogonResp)
    (armed : tal.downward.logonTimer = true) :
    plan.Leads s fun s' => (∃ tal', s'.tals mac = some tal') ∧
      ∃ former, s'.ncc.queue = former ++ [plan.logonReq mac] := by
  obtain ⟨s₁, taken, again⟩ : ∃ s₁, plan.step s (.logonTimer mac true) = some s₁ ∧
      (∃ tal', s₁.tals mac = some tal') ∧
      ∃ (position starts : Nat),
        s₁.air[position]? = some (⟨plan.logonReqFrame mac, starts⟩ : SentFrame) := by
    simp only [SpotPlan.step, SpotPlan.logonTimer, found, Option.bind_some, armed, if_true,
      TalLogon.onLogonTimer, waits]
    refine ⟨_, rfl, ⟨_, by rw [send_tals, setTal_tals, Function.update_self]⟩, s.air.length,
      s.ncc.starts, ?_⟩
    simp [SpotSession.send, SpotSession.setTal]
  obtain ⟨⟨tal', found'⟩, position, starts, onAir⟩ := again
  refine .step (.logonTimer mac true) rfl taken ?_
  have safe₁ := safe_step safe taken
  obtain ⟨accepted, spot', received⟩ : ∃ accepted spot', s₁.ncc.spot.onRcvLogonReq plan.config mac
      (plan.settings mac).isScpc = (accepted, spot') := ⟨_, _, rfl⟩
  have ok := (safe₁.spot.onRcvLogonReq mac received).2.2.2 welcomes
  have taken' : plan.step s₁ (.nccUpward position true) = some (s₁.setNcc { s₁.ncc with
      spot := spot', queue := s₁.ncc.queue ++ [plan.logonReq mac] }) := by
    simp only [SpotPlan.step, SpotPlan.nccUpward, onAir, Option.map_some, logonReqFrame, logonReq,
      received, ok]
    rfl
  exact .step (.nccUpward position true) rfl taken' (.here ⟨⟨tal', found'⟩, _, rfl⟩)

/-- Sound events lead a terminal whose timer is started to its logon. -/
theorem leads_to_loggedOn (welcomes : plan.Welcomes mac) (safe : plan.Safe s)
    (found : s.tals mac = some tal) (waits : tal.downward.state = .waitLogonResp)
    (armed : tal.downward.logonTimer = true) :
    plan.Leads s fun s' => ∃ tal', s'.tals mac = some tal' ∧ plan.LoggedOn s' mac tal' := by
  refine ((leads_to_request welcomes safe found waits armed).safe safe).trans ?_
  rintro s₁ ⟨safe₁, ⟨tal₁, found₁⟩, former, queue⟩
  refine ((leads_to_response welcomes tal₁ safe₁ found₁ queue).safe safe₁).trans ?_
  rintro s₂ ⟨safe₂, found₂, mem⟩
  obtain ⟨position, onAir⟩ := List.mem_iff_getElem?.mp mem
  -- the response is received, and is the last frame of the queue
  obtain ⟨s₃, taken, same, tal₃, found₃, runs, ids, former', queue'⟩ : ∃ s₃,
      plan.step s₂ (.talUpward mac position true true) = some s₃ ∧ s₃.ncc = s₂.ncc ∧
      ∃ tal₃, s₃.tals mac = some tal₃ ∧ tal₃.upward.state = .running ∧
        tal₃.upward.ids = some ⟨plan.config.macId, mac, s₂.ncc.starts⟩ ∧
        ∃ former', tal₃.queue = former' ++
          [⟨.sessionLogonResp mac plan.config.macId mac, s₂.ncc.starts⟩] := by
    simp only [SpotPlan.step, SpotPlan.talUpward, found₂, Option.bind_some, onAir,
      Option.map_some, TalUpward.onRcvDvbFrame, ne_eq, not_true_eq_false, if_false, if_true]
    exact ⟨_, rfl, rfl, _, Function.update_self .., rfl, rfl, _, rfl⟩
  refine .step (.talUpward mac position true true) ⟨rfl, rfl⟩ taken ?_
  have safe₃ := safe_step safe₂ taken
  refine ((leads_to_running found₃ queue').safe safe₃).trans ?_
  rintro s₄ ⟨safe₄, same', tal₄, found₄, upward, running, ids'⟩
  have starts : s₄.ncc.starts = s₂.ncc.starts := by rw [same', same]
  refine .here ⟨tal₄, found₄, ?_, running, ?_, ?_, ?_⟩
  · rw [upward, runs]
  · rw [upward, ids, starts]
  · rw [ids', starts]
  · exact ((safe₄.tals mac tal₄ found₄).downIds _ ids').registered starts.symm

/-- A terminal that waits has its timer started, and can still log on if the gateway welcomes it. -/
def Recovers (plan : SpotPlan) (s : SpotSession) : Prop :=
  Each (fun mac tal => tal.downward.state = .waitLogonResp → tal.downward.logonTimer = true ∧
    (plan.Welcomes mac → plan.Leads s fun s' =>
      ∃ tal', s'.tals mac = some tal' ∧ plan.LoggedOn s' mac tal')) s.tals

theorem recovers_iff_armed (safe : plan.Safe s) : plan.Recovers s ↔ Armed s := by
  refine forall₃_congr fun mac tal found => forall_congr' fun waits => and_iff_left_of_imp ?_
  exact fun armed welcomes => leads_to_loggedOn welcomes safe found waits armed

/-- **Recovery.** In every state of a run the terminals that wait for a response have their timer
started and can still log on, whatever was lost, refused or started again before, exactly when
no request that is sent again fails to be sent. -/
theorem allStates_recovers_iff (plan : SpotPlan) (events : List SessionEvent) :
    AllStates plan.step plan.Recovers plan.start events ↔
      AllSteps plan.step Repeats plan.start events := by
  have armed : AllStates plan.step (fun s => Armed s) plan.start events ↔
      AllSteps plan.step Repeats plan.start events :=
    allStates_iff_allSteps nofun fun _ _ _ armed taken => armed_step_iff armed taken
  rw [← armed]
  have safe := allStates_safe plan events
  constructor
  · intro recovers
    exact (safe.and recovers).mono fun s both => (recovers_iff_armed both.1).mp both.2
  · intro armed
    exact (safe.and armed).mono fun s both => (recovers_iff_armed both.1).mpr both.2

/-! ### The first frame of the downward channel -/

/-- Before the downward channel has identifiers, a response is the first frame of its queue, or
the queue is empty and the upward channel does not run. -/
def Prompt (tal : TalChannels) : Prop :=
  tal.downward.ids = none → tal.queue = [] ∧ tal.upward.state ≠ .running ∨
    ∃ received queue, tal.queue = received :: queue ∧ received.frame.IsLogonResp

/-- The response that makes the upward channel run reaches the downward one, unless another one
did or will. -/
def Shares (s : SpotSession) : SessionEvent → Prop
  | .talUpward mac position shared linked =>
      ∀ tal received, s.tals mac = some tal → s.air[position]? = some received →
        tal.downward.ids = none → tal.queue = [] →
        received.frame.IsLogonResp → received.IsFor mac → linked = true → shared = true
  | _ => True

/-- The start of frame or the TTP that a downward channel takes finds the identifiers that the
gateway gave to the terminal, and a TTP is the one of its group. -/
def ToldFirst (plan : SpotPlan) (s : SpotSession) (event : SessionEvent) (_ : SpotSession) : Prop :=
  ∀ mac sent processed tal received queue, event = .talDownward mac sent processed →
    s.tals mac = some tal → tal.queue = received :: queue → ¬ received.frame.IsLogonResp →
    ∃ ids, tal.downward.ids = some ids ∧ plan.Answers s.ncc mac ids ∧
      ∀ groupId, received.frame = .ttp groupId → groupId = ids.groupId

theorem prompt_upward_iff {received : SentFrame} {shared linked goes : Bool} {upward : TalUpward}
    (prompt : Prompt tal)
    (handled : tal.upward.onRcvDvbFrame mac received shared linked = (upward, goes)) :
    Prompt { tal with upward, queue := if goes then tal.queue ++ [received] else tal.queue } ↔
      (tal.downward.ids = none → tal.queue = [] → received.frame.IsLogonResp →
        received.IsFor mac → linked = true → shared = true) := by
  rcases told : tal.downward.ids with - | ids
  · rcases prompt told with ⟨empty, stopped⟩ | ⟨first, queue, here, response⟩
    · obtain ⟨frame, starts⟩ := received
      cases frame with
      | sof _ | ttp _ =>
          simp only [TalUpward.onRcvDvbFrame, stopped, decide_false, Bool.false_and] at handled
          cases handled
          exact iff_of_true (fun _ => .inl ⟨empty, stopped⟩) fun _ _ response => response.elim
      | sessionLogonReq request isScpc =>
          cases handled
          exact iff_of_true (fun _ => .inl ⟨empty, stopped⟩) fun _ _ response => response.elim
      | sessionLogonResp mac' groupId logonId =>
          simp only [TalUpward.onRcvDvbFrame, ne_eq, ite_not] at handled
          split at handled
          next own =>
            subst own
            cases linked with
            | false =>
                cases handled
                refine iff_of_true (fun _ => ?_) nofun
                cases shared with
                | false => exact .inl ⟨empty, stopped⟩
                | true =>
                    exact .inr ⟨⟨.sessionLogonResp mac' groupId logonId, starts⟩, [],
                      by simp [empty], trivial⟩
            | true =>
                cases handled
                cases shared with
                | false =>
                    refine iff_of_false (fun prompt => ?_) fun all => ?_
                    · rcases prompt told with ⟨-, stopped⟩ | ⟨first, queue, here, -⟩
                      · exact stopped rfl
                      · simp [empty] at here
                    · cases all rfl empty trivial rfl rfl
                | true =>
                    refine iff_of_true (fun _ => .inr ?_) fun _ _ _ _ _ => rfl
                    exact ⟨⟨.sessionLogonResp mac' groupId logonId, starts⟩, [],
                      by simp [empty], trivial⟩
          next other =>
            cases handled
            exact iff_of_true (fun _ => .inl ⟨empty, stopped⟩)
              fun _ _ _ own => absurd own other
    · refine iff_of_true (fun _ => .inr ?_) fun _ empty => ?_
      · cases goes with
        | false => exact ⟨first, queue, here, response⟩
        | true =>
            refine ⟨first, queue ++ [received], ?_, response⟩
            rw [if_pos rfl, here]
            rfl
      · rw [empty] at here
        cases here
  · refine iff_of_true (fun none => ?_) nofun
    rw [told] at none
    cases none

theorem prompt_downward {received : SentFrame} {queue : List SentFrame} (prompt : Prompt tal)
    (taken : tal.queue = received :: queue) (sent processed : Bool) :
    Prompt { tal with
      queue, downward := (tal.downward.handleDvbFrame received sent processed).1 } := by
  obtain ⟨frame, starts⟩ := received
  have untold (none : tal.downward.ids = none) : frame.IsLogonResp := by
    rcases prompt none with ⟨empty, -⟩ | ⟨first, rest, here, response⟩
    · rw [empty] at taken
      cases taken
    · rw [taken] at here
      cases here
      exact response
  cases frame with
  | sof _ | ttp _ | sessionLogonReq _ _ => exact fun none => (untold none).elim
  | sessionLogonResp mac' groupId logonId => exact nofun

theorem prompt_step_iff {event : SessionEvent} (prompt : Each (fun _ => Prompt) s.tals)
    (taken : plan.step s event = some s') : Each (fun _ => Prompt) s'.tals ↔ Shares s event := by
  generalize moved : s'.tals = tals
  have moves := moved ▸ talMoves_of_step taken
  cases moves with
  | init mac sent =>
      refine iff_of_true (prompt.update_iff.mpr fun tal started => ?_) trivial
      cases sent with
      | false => cases started
      | true =>
          cases started
          exact fun _ => .inl ⟨rfl, nofun⟩
  | @upward mac position shared linked goes tal received upward found onAir handled =>
      rw [prompt.update_iff, Shares, found, onAir]
      simp only [Option.some.injEq]
      refine ⟨?_, ?_⟩
      · rintro own _ _ rfl rfl
        exact (prompt_upward_iff (prompt mac tal found) handled).mp (own _ rfl)
      · rintro shares _ rfl
        exact (prompt_upward_iff (prompt mac tal found) handled).mpr (shares _ _ rfl rfl)
  | @downward mac sent processed requested tal received queue downward found queued handled =>
      refine iff_of_true (prompt.update_iff.mpr fun tal' same => ?_) trivial
      cases same
      cases (congrArg Prod.fst handled : _ = downward)
      exact prompt_downward (prompt mac tal found) queued sent processed
  | @timer mac sent requested tal downward found on handled =>
      refine iff_of_true (prompt.update_iff.mpr fun tal' same => ?_) trivial
      cases same
      unfold TalLogon.onLogonTimer at handled
      split at handled
      · cases handled
        exact prompt mac tal found
      · cases handled
        exact prompt mac tal found
  | nccInit => exact iff_of_true prompt trivial
  | nccUpward position shared => exact iff_of_true prompt trivial
  | nccDownward sent => exact iff_of_true prompt trivial
  | frameTimer sofSent ttpSent => exact iff_of_true prompt trivial

/-- **Identifiers first.** Every start of frame and every TTP that the downward channel of a
terminal takes comes after a response that gave it the identifiers and the group of the gateway,
in any order of the frames of the air, exactly when the responses are shared. -/
theorem allMoves_toldFirst_iff (plan : SpotPlan) (events : List SessionEvent) :
    AllStates plan.step (fun s => Each (fun _ => Prompt) s.tals) plan.start events ∧
        AllMoves plan.step plan.ToldFirst plan.start events ↔
      AllSteps plan.step Shares plan.start events := by
  have exact : AllStates plan.step (fun s => Each (fun _ => Prompt) s.tals) plan.start events ↔
      AllSteps plan.step Shares plan.start events :=
    allStates_iff_allSteps nofun fun _ _ _ prompt taken => prompt_step_iff prompt taken
  rw [← exact]
  refine and_iff_left_of_imp fun prompt => ?_
  refine allMoves_of_allStates ((allStates_safe plan events).and prompt) ?_
  rintro s event s' ⟨safe, prompt⟩ - mac sent processed tal received queue rfl found taken other
  have own := safe.tals mac tal found
  rcases told : tal.downward.ids with - | ids
  · rcases prompt mac tal found told with ⟨empty, -⟩ | ⟨first, rest, here, response⟩
    · rw [empty] at taken
      cases taken
    · rw [taken] at here
      cases here
      exact absurd response other
  · refine ⟨ids, rfl, own.downIds ids told, fun groupId frame => ?_⟩
    have genuine := (own.queue received (taken ▸ List.mem_cons_self)).1
    rw [Genuine, frame] at genuine
    exact genuine.trans (own.downIds ids told).groupId.symm

end SpotPlan

end OpenSand
