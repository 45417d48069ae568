import OpenSand.Dama.Agent
import OpenSand.Dama.VbdcConservation

/-!
The VBDC requests of the legacy agent (`DamaAgentRcs2Legacy`).

The volume already asked for is kept as a credit, which is cleared before it is taken off
the volume in the FIFOs: a request asks for all that is there
(`computeVbdcRequest_credit`).
-/

namespace OpenSand

open OpenSand.Word OpenSand.Bytes

/-- The greatest VBDC request of a SAC. -/
def C_MAX_VBDC_IN_SAC : UInt16 := 4080

def checkVbdcRequest (requestKb : UInt16) : UInt16 := min requestKb C_MAX_VBDC_IN_SAC

theorem toNat_checkVbdcRequest (requestKb : UInt16) :
    (checkVbdcRequest requestKb).toNat = min requestKb.toNat C_MAX_VBDC_IN_SAC.toNat := by
  show (if requestKb ≤ C_MAX_VBDC_IN_SAC then requestKb else C_MAX_VBDC_IN_SAC).toNat = _
  rw [min_def, apply_ite UInt16.toNat]
  simp only [UInt16.le_iff_toNat_le]

/-- The volume in the FIFOs of an access type, in bits. -/
def DamaAgentRcs2.getMacBufferLength (crType : ReturnAccessType) (agent : DamaAgentRcs2) : Nat :=
  agent.dvbFifos.foldl (fun length fifo =>
    if fifo.2.accessType.same (.return crType) then
      addW 32 length (wrap 32 (fifo.2.getCurrentDataLength * 8))
    else length) 0

structure DamaAgentRcs2Legacy extends DamaAgentRcs2 where
  vbdcCreditKb : UInt16

namespace DamaAgentRcs2Legacy

variable (agent : DamaAgentRcs2Legacy)

/-- The credit of the last request is cleared first. -/
def computeVbdcRequest : UInt16 × DamaAgentRcs2Legacy :=
  let agent := { agent with vbdcCreditKb := 0 }
  let vbdcNeedKb := UInt16.ofNat (ceilW 16 ((agent.getMacBufferLength .damaVbdc : ℚ) / 1000))
  let vbdcRequestKb := checkVbdcRequest (.ofNat (vbdcNeedKb.toNat - agent.vbdcCreditKb.toNat))
  (vbdcRequestKb, { agent with vbdcCreditKb := agent.vbdcCreditKb + vbdcRequestKb })

/-- The requests of the legacy agent; the RBDC ones are left open. -/
def computation (computeRbdcRequest : DamaAgentRcs2 → UInt16) : RequestComputation where
  computeRbdcRequest := computeRbdcRequest
  computeVbdcRequest base := (computeVbdcRequest ⟨base, agent.vbdcCreditKb⟩).1

def buildSAC (computeRbdcRequest : DamaAgentRcs2 → UInt16) (sac : Sac) :
    Option (Sac × Bool × DamaAgentRcs2Legacy) :=
  (agent.toDamaAgentRcs2.buildSAC (agent.computation computeRbdcRequest) sac).map
    fun (sac, empty, base) => (sac, empty,
      { base with
        vbdcCreditKb :=
          if agent.vbdcEnabled then agent.computeVbdcRequest.2.vbdcCreditKb
          else agent.vbdcCreditKb })

/-- What was asked for before does not change a request. -/
theorem computeVbdcRequest_credit (vbdcCreditKb : UInt16) :
    ({ agent with vbdcCreditKb := vbdcCreditKb } : DamaAgentRcs2Legacy).computeVbdcRequest.1 =
      agent.computeVbdcRequest.1 :=
  rfl

theorem toNat_computeVbdcRequest : agent.computeVbdcRequest.1.toNat =
    min (ceilW 16 ((agent.getMacBufferLength .damaVbdc : ℚ) / 1000)) C_MAX_VBDC_IN_SAC.toNat := by
  have word : ceilW 16 ((agent.getMacBufferLength .damaVbdc : ℚ) / 1000) < 2 ^ 16 := wrap_lt 16 _
  have kept := UInt16.toNat_ofNat_of_lt' word
  rw [← kept]
  simp [computeVbdcRequest, toNat_checkVbdcRequest]

/-- A request rounds up the volume in the FIFOs, as far as a SAC goes. -/
theorem computeVbdcRequest_lt :
    1000 * agent.computeVbdcRequest.1.toNat <
      min (agent.getMacBufferLength .damaVbdc) (C_MAX_VBDC_IN_SAC.toNat * 1000) + 1000 := by
  rw [toNat_computeVbdcRequest]
  set lengthB := agent.getMacBufferLength .damaVbdc
  have need : 1000 * ceilW 16 ((lengthB : ℚ) / 1000) < lengthB + 1000 := by
    have word : (ceilW 16 ((lengthB : ℚ) / 1000) : ℚ) ≤ ⌈(lengthB : ℚ) / 1000⌉₊ :=
      Nat.cast_le.mpr (wrap_le 16 _)
    have up := Nat.ceil_lt_add_one (show (0 : ℚ) ≤ lengthB / 1000 by positivity)
    have scaled : (1000 * ceilW 16 ((lengthB : ℚ) / 1000) : ℚ) < lengthB + 1000 := by linarith
    exact_mod_cast scaled
  omega

end DamaAgentRcs2Legacy

namespace DamaAgentRcs2

variable (computation : RequestComputation) (agent : DamaAgentRcs2)

/-- A VBDC request is left out of a SAC that has an RBDC one. -/
def carriesVbdc : Bool := agent.sendVbdcRequest computation && !agent.sendRbdcRequest computation

end DamaAgentRcs2

/-! ### The volume that a SAC asks for -/

/-- The volume requested by VBDC in a SAC. -/
def Sac.requestedKb (data : Data) : Nat :=
  (Sac.getRequests data).elim 0 fun requests =>
    (requests.map TerminalContextDamaRcs.volumeKb).sum

/-- A VBDC request that is rounded grows by less than a step. -/
theorem CrInfo.decoded_vbdc_lt {info : CrInfo} (vbdc : info.type = .damaVbdc) :
    getDecodedCrValue info.emuCr < info.value.toNat + info.step := by
  obtain ⟨prio, type, value⟩ := info
  cases vbdc
  by_cases unscaled : value.toNat ≤ 255
  · simp [emuCr, getScaleAndValue, getDecodedCrValue, step, ReturnAccessType.code,
      ReturnAccessType.ofCode, DVB_CR_VBDC_SCALING_FACTOR_OFFSET, unscaled]
  · have encoded : getEncodedRequestValue value.toNat 16 * 16 < value.toNat + 16 := by
      unfold getEncodedRequestValue
      dsimp only
      split <;> omega
    simpa [emuCr, getScaleAndValue, getDecodedCrValue, step, ReturnAccessType.code,
      ReturnAccessType.ofCode, DVB_CR_VBDC_SCALING_FACTOR_OFFSET,
      DVB_CR_VBDC_SCALING_FACTOR, unscaled] using encoded

theorem Sac.requestedKb_oneRequest (talId groupId : UInt16) (info : CrInfo) :
    Sac.requestedKb (Sac.oneRequest talId groupId info) =
      if info.type = .damaVbdc then getDecodedCrValue info.emuCr else 0 := by
  rw [Sac.requestedKb, Sac.getRequests_oneRequest, info.decode_emuCr]
  simp [TerminalContextDamaRcs.volumeKb]

/-- The SAC of an agent asks for its VBDC request, when it is there. -/
theorem DamaAgentRcs2.requestedKb_buildSAC {computation : RequestComputation}
    {agent agent' : DamaAgentRcs2} {talId groupId : UInt16} {sac : Sac} {empty : Bool}
    (built : agent.buildSAC computation (Sac.new talId groupId) = some (sac, empty, agent')) :
    Sac.requestedKb sac.data =
      if agent.carriesVbdc computation then
        getDecodedCrValue (agent.vbdcInfo computation).emuCr
      else 0 := by
  have one := Sac.requestedKb_oneRequest talId groupId
  cases rbdc : agent.sendRbdcRequest computation <;>
    cases vbdc : agent.sendVbdcRequest computation <;>
    simp only [buildSAC, addIf, rbdc, vbdc, Sac.addRequest_new, Bool.not_true, Bool.not_false,
      Bool.and_self, Bool.and_false, Bool.false_and, Bool.false_eq_true, if_true, if_false,
      Option.map_some, Option.bind_eq_bind, Option.bind_some, Option.pure_def, Option.some.injEq,
      Prod.mk.injEq] at built
  · rw [← built.1]
    simp [carriesVbdc, vbdc, Sac.requestedKb, Sac.getRequests_new]
  · rw [← built.1, one]
    simp [carriesVbdc, rbdc, vbdc, vbdcInfo]
  · rw [← built.1, one]
    simp [carriesVbdc, vbdc, rbdcInfo]
  · -- the VBDC request is refused after the RBDC one
    rw [Sac.addRequest_full rfl] at built
    simp only [Option.map_some, Option.bind_some, Option.some.injEq, Prod.mk.injEq] at built
    rw [← built.1, one]
    simp [carriesVbdc, rbdc, rbdcInfo]

end OpenSand
