import OpenSand.Common.NetPacket
import OpenSand.Dama.CircularBuffer
import OpenSand.Dvb.Sac

/-!
The DAMA agent of a terminal (`DamaAgentRcs2`): building the SAC.

How the requests are computed is left to the subclasses and is a parameter here.
`buildSAC` adds an RBDC and a VBDC request to the same SAC and does not look at
the status of either addition.
-/

namespace OpenSand

structure DamaAgentRcs2 where
  rbdcEnabled : Bool
  vbdcEnabled : Bool
  rbdcTimerSf : Nat
  rbdcRequestBuffer : CircularBuffer
  dvbFifos : List (Nat × DvbFifo NetPacket)

/-- The virtual functions of the agent. -/
structure RequestComputation where
  computeRbdcRequest : DamaAgentRcs2 → UInt16
  computeVbdcRequest : DamaAgentRcs2 → UInt16

namespace DamaAgentRcs2

variable (computation : RequestComputation) (agent : DamaAgentRcs2)

/-- The RBDC request, 0 when RBDC is disabled. -/
def rbdcRequestKbps : UInt16 :=
  if agent.rbdcEnabled then computation.computeRbdcRequest agent else 0

/-- A null RBDC request is sent too, when it changes the previous one. -/
def sendRbdcRequest : Bool :=
  agent.rbdcEnabled &&
    (0 < agent.rbdcRequestKbps computation ||
      (agent.rbdcRequestKbps computation).toNat ≠ agent.rbdcRequestBuffer.getPreviousValue)

def vbdcRequestKb : UInt16 :=
  if agent.vbdcEnabled then computation.computeVbdcRequest agent else 0

def sendVbdcRequest : Bool := 0 < agent.vbdcRequestKb computation

def rbdcInfo : CrInfo := ⟨0, .damaRbdc, (agent.rbdcRequestKbps computation).toUInt32⟩

def vbdcInfo : CrInfo := ⟨0, .damaVbdc, (agent.vbdcRequestKb computation).toUInt32⟩

/-- The update of the agent once its requests are in the SAC. -/
def afterRbdc : DamaAgentRcs2 :=
  if agent.sendRbdcRequest computation then
    { agent with
      rbdcTimerSf := 0
      rbdcRequestBuffer :=
        agent.rbdcRequestBuffer.update (agent.rbdcRequestKbps computation).toNat
      dvbFifos := agent.dvbFifos.map fun fifo => (fifo.1, fifo.2.resetNew (.return .damaRbdc)) }
  else { agent with rbdcRequestBuffer := agent.rbdcRequestBuffer.update 0 }

/-- Add a request when it is to be sent, whatever the answer. -/
def addIf (send : Bool) (info : CrInfo) (sac : Sac) : Option Sac :=
  if send then (sac.addRequest info).map Prod.snd else some sac

/-- Build the SAC of a superframe; the flag tells that no request is in it. -/
def buildSAC (sac : Sac) : Option (Sac × Bool × DamaAgentRcs2) :=
  if !agent.sendRbdcRequest computation && !agent.sendVbdcRequest computation then
    some (sac, true, agent)
  else do
    let sac ← addIf (agent.sendRbdcRequest computation) (agent.rbdcInfo computation) sac
    let sac ← addIf (agent.sendVbdcRequest computation) (agent.vbdcInfo computation) sac
    return (sac, false, agent.afterRbdc computation)

/-! ### What the SAC carries -/

/-- The requests that the agent decides to send. -/
def requests : List CrInfo :=
  (if agent.sendRbdcRequest computation then [agent.rbdcInfo computation] else []) ++
    (if agent.sendVbdcRequest computation then [agent.vbdcInfo computation] else [])

/-- The SAC built by the agent carries the requests it decides to send. -/
def Signals (talId groupId : UInt16) : Prop :=
  ∃ sac flag agent' reads,
    agent.buildSAC computation (Sac.new talId groupId) = some (sac, flag, agent') ∧
    Sac.getRequests sac.data = some reads ∧
    List.Forall₂ CrInfo.Carried (agent.requests computation) reads

/-- The agent signals its requests exactly when one at most is to be sent and the
fields of a request hold it. -/
theorem signals_iff (talId groupId : UInt16) :
    agent.Signals computation talId groupId ↔
      ¬ (agent.sendRbdcRequest computation ∧ agent.sendVbdcRequest computation) ∧
      ∀ info ∈ agent.requests computation, info.Encodable := by
  have carried := Sac.getRequests_oneRequest talId groupId
  cases hrbdc : agent.sendRbdcRequest computation <;>
    cases hvbdc : agent.sendVbdcRequest computation
  · have read := Sac.getRequests_new talId groupId
    simp [Signals, buildSAC, requests, hrbdc, hvbdc, read]
  · simp [Signals, buildSAC, addIf, requests, hrbdc, hvbdc, Sac.addRequest_new, carried,
      CrInfo.carried_iff]
  · simp [Signals, buildSAC, addIf, requests, hrbdc, hvbdc, Sac.addRequest_new, carried,
      CrInfo.carried_iff]
  · simp [Signals, buildSAC, addIf, requests, hrbdc, hvbdc, Sac.addRequest_new,
      Sac.addRequest_full, carried]

end DamaAgentRcs2

/-- **Request signalling.** An agent that has an RBDC and a VBDC request to send
never signals both, and a list of two requests is never signalled; what is alone
in its SAC is signalled exactly when the fields of a request hold it. -/
theorem requestSignalling_iff (computation : RequestComputation) (agent : DamaAgentRcs2)
    (talId groupId : UInt16) (infos : List CrInfo) :
    (agent.Signals computation talId groupId ↔
      ¬ (agent.sendRbdcRequest computation ∧ agent.sendVbdcRequest computation) ∧
      ∀ info ∈ agent.requests computation, info.Encodable) ∧
    (Sac.Lossless talId groupId infos ↔
      infos.length ≤ 1 ∧ ∀ info ∈ infos, info.Encodable) :=
  ⟨agent.signals_iff computation talId groupId, Sac.lossless_iff talId groupId infos⟩

/-- An agent with 100 kbit/s and 10 kbit to ask for. -/
def bothRequests : DamaAgentRcs2 := ⟨true, true, 1, .new 1, []⟩

def fixedRequests : RequestComputation := ⟨fun _ => 100, fun _ => 10⟩

theorem bothRequests_not_signalled : ¬ bothRequests.Signals fixedRequests 1 0 := by
  rw [DamaAgentRcs2.signals_iff]
  exact fun signalled => signalled.1 (by decide)

end OpenSand
