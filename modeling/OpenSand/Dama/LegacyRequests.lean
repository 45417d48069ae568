import OpenSand.Dama.LegacyAgent
import OpenSand.Dama.SlidingWindow
import Mathlib.Data.Nat.Cast.Field
import Mathlib.Data.Nat.Cast.Order.Field

/-!
The requests of the legacy agent against their formulas (`DamaAgentRcs2Legacy`).

An RBDC request is the backlog that the previous requests do not cover, spread over an MSL, and
the rate of the arrivals since the last request. Both quotients are taken between integers
before they are rounded up, and the terms are words of 16 and 32 bits. So a request is the one
of its formula exactly when no term leaves its word and the quotients are whole numbers or
already as large as a SAC can carry (`legacyRequests_iff`).
-/

namespace OpenSand

open OpenSand.Word

/-- The greatest RBDC request of a SAC. -/
def C_MAX_RBDC_IN_SAC : UInt16 := 16320

def checkRbdcRequest (requestKbps : UInt16) : UInt16 := min requestKbps C_MAX_RBDC_IN_SAC

def DvbFifo.getNewDataLength {α : Type} (fifo : DvbFifo α) : Nat := fifo.newLengthBytes

/-- The volume that came in the FIFOs of an access type since the last request, in bits. -/
def DamaAgentRcs2.getMacBufferArrivals (crType : ReturnAccessType) (agent : DamaAgentRcs2) : Nat :=
  agent.dvbFifos.foldl (fun length fifo =>
    if fifo.2.accessType.same (.return crType) then
      addW 32 length (wrap 32 (fifo.2.getNewDataLength * 8))
    else length) 0

/-- A 32-bit word as an `int`. -/
def asInt (word : Nat) : Int := if word < 2 ^ 31 then word else word - 2 ^ 32

/-- The quotient of two `int`; by 0, or out of the type, it is undefined. -/
def divInt (a b : Int) : Option Int :=
  if b = 0 ∨ a = -2 ^ 31 ∧ b = -1 then none else some (a.tdiv b)

/-- An integer that an `int` holds. -/
def toInt (a : Int) : Option Int := if -2 ^ 31 ≤ a ∧ a < 2 ^ 31 then some a else none

/-- The durations that an agent is initialised with. -/
structure RequestTiming where
  frameDurationMs : UInt32
  mslSf : UInt16

namespace DamaAgentRcs2Legacy

/-- The divisions are between integers, so the rounding up that follows does nothing. -/
def computeRbdcRequest (timing : RequestTiming) (agent : DamaAgentRcs2Legacy) : Option UInt16 := do
  let rbdcLengthB := agent.getMacBufferLength .damaRbdc
  let rbdcPktArrivalB := agent.getMacBufferArrivals .damaRbdc
  let rbdcReqInPreviousMslKbps := agent.rbdcRequestBuffer.getSum
  let elapsedMs := wrap 32 (agent.rbdcTimerSf * timing.frameDurationMs.toNat)
  let quotient ← divInt
    (asInt (subW 32 rbdcLengthB (wrap 32 (elapsedMs * rbdcReqInPreviousMslKbps))))
    (asInt (wrap 32 (timing.frameDurationMs.toNat * timing.mslSf.toNat)))
  let reqKbps : ℚ := ⌈(quotient : ℚ)⌉
  let rateKbps ←
    if agent.rbdcTimerSf ≠ 0 then
      if elapsedMs = 0 then none
      else
        (toInt ⌈((rbdcPktArrivalB / elapsedMs : Nat) : ℚ)⌉).bind fun arrivals =>
          toInt (arrivals + max 0 ⌊reqKbps⌋)
    else some (max 0 ⌊reqKbps⌋)
  return checkRbdcRequest (.ofInt rateKbps)

end DamaAgentRcs2Legacy

/-! ### The formula -/

/-- The quantities that an RBDC request depends on. -/
structure RbdcTerms where
  lengthB : Nat
  arrivalsB : Nat
  previousKbps : Nat
  timerSf : Nat
  frameDurationMs : Nat
  mslSf : Nat

namespace RbdcTerms

variable (terms : RbdcTerms)

/-- The time since the last request. -/
def elapsedMs : Nat := terms.timerSf * terms.frameDurationMs

def mslMs : Nat := terms.frameDurationMs * terms.mslSf

/-- What the previous requests cover of the backlog. -/
def coveredB : Nat := terms.elapsedMs * terms.previousKbps

/-- The request of the formula, before it is capped. -/
def needKbps : Nat :=
  ⌈((terms.lengthB - terms.coveredB : Nat) : ℚ) / terms.mslMs⌉₊ +
    if terms.timerSf = 0 then 0 else ⌈(terms.arrivalsB : ℚ) / terms.elapsedMs⌉₊

/-- The same with the quotients rounded down. -/
def wholeKbps : Nat :=
  (terms.lengthB - terms.coveredB) / terms.mslMs +
    if terms.timerSf = 0 then 0 else terms.arrivalsB / terms.elapsedMs

/-- No intermediate value leaves the type it is computed in. -/
structure NoWraps : Prop where
  length : terms.lengthB < 2 ^ 32
  arrivals : terms.arrivalsB < 2 ^ 32
  previous : terms.previousKbps < 2 ^ 16
  elapsed : terms.elapsedMs < 2 ^ 32
  covered : terms.coveredB < 2 ^ 32
  uncovered : terms.lengthB < terms.coveredB + 2 ^ 31 ∧ terms.coveredB ≤ terms.lengthB + 2 ^ 31
  duration : 0 < terms.frameDurationMs
  msl : 0 < terms.mslMs ∧ terms.mslMs < 2 ^ 31
  rate : terms.wholeKbps < 2 ^ 16

/-- The quotients are whole numbers, or the cap hides what is rounded. -/
def Rounds : Prop :=
  terms.mslMs ∣ terms.lengthB - terms.coveredB ∧
      (terms.timerSf ≠ 0 → terms.elapsedMs ∣ terms.arrivalsB) ∨
    C_MAX_RBDC_IN_SAC.toNat ≤ terms.wholeKbps

end RbdcTerms

/-! ### Quotients rounded up -/

theorem div_le_ceil (a b : Nat) : a / b ≤ ⌈(a : ℚ) / b⌉₊ := by
  have le : ((a / b : Nat) : ℚ) ≤ a / b := Nat.cast_div_le
  exact_mod_cast le.trans (Nat.le_ceil _)

/-- A quotient is the one rounded up exactly when it is whole. -/
theorem ceil_div_eq_iff {a b : Nat} (positive : 0 < b) : ⌈(a : ℚ) / b⌉₊ = a / b ↔ b ∣ a := by
  constructor
  · intro same
    have le : (a : ℚ) / b ≤ (a / b : Nat) := by
      rw [← same]
      exact Nat.le_ceil _
    rw [div_le_iff₀ (Nat.cast_pos.mpr positive)] at le
    have whole : a ≤ a / b * b := by exact_mod_cast le
    exact Nat.dvd_of_mod_eq_zero (by have split := Nat.div_add_mod' a b; omega)
  · intro divides
    rw [← Nat.cast_div divides (Nat.cast_ne_zero.mpr positive.ne'), Nat.ceil_natCast]

namespace RbdcTerms

variable {terms : RbdcTerms}

theorem wholeKbps_le_needKbps (terms : RbdcTerms) : terms.wholeKbps ≤ terms.needKbps := by
  apply Nat.add_le_add (div_le_ceil _ _)
  split
  · exact Nat.le_refl 0
  · exact div_le_ceil _ _

/-- Nothing is rounded exactly when both quotients are whole. -/
theorem wholeKbps_eq_needKbps_iff (duration : 0 < terms.frameDurationMs) (msl : 0 < terms.mslMs) :
    terms.wholeKbps = terms.needKbps ↔ terms.mslMs ∣ terms.lengthB - terms.coveredB ∧
      (terms.timerSf ≠ 0 → terms.elapsedMs ∣ terms.arrivalsB) := by
  have below := div_le_ceil (terms.lengthB - terms.coveredB) terms.mslMs
  have below' := div_le_ceil terms.arrivalsB terms.elapsedMs
  rw [← ceil_div_eq_iff msl, wholeKbps, needKbps]
  by_cases first : terms.timerSf = 0
  · rw [if_pos first, if_pos first]
    constructor
    · intro same
      exact ⟨by omega, fun later => absurd first later⟩
    · intro ⟨same, _⟩
      rw [same]
  · rw [if_neg first, if_neg first,
      ← ceil_div_eq_iff (show 0 < terms.elapsedMs from Nat.mul_pos (by omega) duration)]
    constructor
    · intro same
      exact ⟨by omega, fun _ => by omega⟩
    · intro ⟨same, same'⟩
      rw [same, same' first]

/-- The cap is the only way for a rounded request to be the one of the formula. -/
theorem min_wholeKbps_eq_iff (duration : 0 < terms.frameDurationMs) (msl : 0 < terms.mslMs) :
    min terms.wholeKbps C_MAX_RBDC_IN_SAC.toNat = min terms.needKbps C_MAX_RBDC_IN_SAC.toNat ↔
      terms.Rounds := by
  have below := terms.wholeKbps_le_needKbps
  rw [Rounds, ← wholeKbps_eq_needKbps_iff duration msl]
  omega

/-- A request grows with the backlog. -/
theorem wholeKbps_mono {terms' : RbdcTerms} (larger : terms.lengthB ≤ terms'.lengthB)
    (same : { terms with lengthB := terms'.lengthB } = terms') :
    terms.wholeKbps ≤ terms'.wholeKbps := by
  rw [← same]
  apply Nat.add_le_add_right
  apply Nat.div_le_div_right
  exact Nat.sub_le_sub_right larger _

end RbdcTerms

/-! ### The words of a request -/

theorem asInt_of_lt {a : Nat} (fits : a < 2 ^ 31) : asInt a = a := if_pos fits

/-- A difference that an `int` holds is read back from its 32-bit word. -/
theorem asInt_subW {a b : Nat} (fits : a < 2 ^ 32) (fits' : b < 2 ^ 32) (low : b ≤ a + 2 ^ 31)
    (high : a < b + 2 ^ 31) : asInt (subW 32 a b) = (a : Int) - b := by
  rcases Nat.lt_or_ge a b with lt | le
  · rw [subW_of_gt fits' lt, asInt, if_neg (by omega)]
    omega
  · rw [subW_of_le fits le, asInt_of_lt (by omega), Nat.cast_sub le]

/-- A division of a difference, floored at 0. -/
theorem max_tdiv (a b d : Nat) : max 0 (((a : Int) - b).tdiv d) = ((a - b) / d : Nat) := by
  rcases Nat.le_total b a with le | le
  · rw [← Nat.cast_sub le, Int.tdiv_eq_ediv_of_nonneg (Nat.cast_nonneg _)]
    exact max_eq_right (by positivity)
  · have below : ((a : Int) - b).tdiv d = -((b - a : Nat) : Int).tdiv d := by
      rw [Nat.cast_sub le, ← Int.neg_tdiv, Int.neg_sub]
    have nonneg := Int.tdiv_nonneg (Int.natCast_nonneg (b - a)) (Int.natCast_nonneg d)
    rw [below, max_eq_left (Int.neg_nonpos_of_nonneg nonneg), Nat.sub_eq_zero_of_le le,
      Nat.zero_div]
    rfl

theorem divInt_of_pos {a : Int} {d : Nat} (positive : 0 < d) : divInt a d = some (a.tdiv d) := by
  rw [divInt, if_neg]
  rintro (zero | ⟨-, minus⟩) <;> omega

theorem toInt_natCast {n : Nat} (fits : n < 2 ^ 31) : toInt n = some (n : Int) :=
  if_pos (by omega)

namespace DamaAgentRcs2

/-- The data that the FIFOs of an access type have, in bits. -/
def bitsOf (crType : ReturnAccessType) (length : DvbFifo NetPacket → Nat)
    (agent : DamaAgentRcs2) : Nat :=
  ((agent.dvbFifos.filter fun fifo => fifo.2.accessType.same (.return crType)).map fun fifo =>
    8 * length fifo.2).sum

theorem foldl_bits (crType : ReturnAccessType) (length : DvbFifo NetPacket → Nat)
    (fifos : List (Nat × DvbFifo NetPacket)) (start : Nat) :
    fifos.foldl (fun sum fifo => if fifo.2.accessType.same (.return crType) then
        addW 32 sum (wrap 32 (length fifo.2 * 8)) else sum) (wrap 32 start) =
      wrap 32 (start + ((fifos.filter fun fifo => fifo.2.accessType.same (.return crType)).map
        fun fifo => 8 * length fifo.2).sum) := by
  induction fifos generalizing start with
  | nil => rfl
  | cons fifo fifos ih =>
      rw [List.foldl_cons]
      split
      next own =>
        have step : addW 32 (wrap 32 start) (wrap 32 (length fifo.2 * 8)) =
            wrap 32 (start + 8 * length fifo.2) := by
          simp only [addW, wrap]
          omega
        rw [step, ih]
        simp only [List.filter_cons, own, if_true, List.map_cons, List.sum_cons, Nat.add_assoc]
      next other =>
        rw [ih]
        simp only [List.filter_cons, other, Bool.false_eq_true, if_false]

theorem getMacBufferLength_eq (crType : ReturnAccessType) (agent : DamaAgentRcs2) :
    agent.getMacBufferLength crType =
      wrap 32 (agent.bitsOf crType DvbFifo.getCurrentDataLength) := by
  have sum := foldl_bits crType DvbFifo.getCurrentDataLength agent.dvbFifos 0
  rwa [Nat.zero_add] at sum

theorem getMacBufferArrivals_eq (crType : ReturnAccessType) (agent : DamaAgentRcs2) :
    agent.getMacBufferArrivals crType = wrap 32 (agent.bitsOf crType DvbFifo.getNewDataLength) := by
  have sum := foldl_bits crType DvbFifo.getNewDataLength agent.dvbFifos 0
  rwa [Nat.zero_add] at sum

end DamaAgentRcs2

namespace DamaAgentRcs2Legacy

/-- The terms of the RBDC request of an agent, after these requests. -/
def rbdcTerms (timing : RequestTiming) (window : List Nat) (agent : DamaAgentRcs2Legacy) :
    RbdcTerms where
  lengthB := agent.bitsOf .damaRbdc DvbFifo.getCurrentDataLength
  arrivalsB := agent.bitsOf .damaRbdc DvbFifo.getNewDataLength
  previousKbps := window.sum
  timerSf := agent.rbdcTimerSf
  frameDurationMs := timing.frameDurationMs.toNat
  mslSf := timing.mslSf.toNat

theorem toNat_checkRbdcRequest (requestKbps : UInt16) :
    (checkRbdcRequest requestKbps).toNat = min requestKbps.toNat C_MAX_RBDC_IN_SAC.toNat := by
  show (if requestKbps ≤ C_MAX_RBDC_IN_SAC then requestKbps else C_MAX_RBDC_IN_SAC).toNat = _
  rw [min_def, apply_ite UInt16.toNat]
  simp only [UInt16.le_iff_toNat_le]

/-- Without a wrap, a request is made of the quotients rounded down. -/
theorem computeRbdcRequest_of_noWraps {timing : RequestTiming} {agent : DamaAgentRcs2Legacy}
    {window : List Nat} (sum : agent.rbdcRequestBuffer.getSum = wrap 16 window.sum)
    (exact_terms : (agent.rbdcTerms timing window).NoWraps) :
    ∃ requestKbps, agent.computeRbdcRequest timing = some requestKbps ∧
      requestKbps.toNat =
        min (agent.rbdcTerms timing window).wholeKbps C_MAX_RBDC_IN_SAC.toNat := by
  obtain ⟨length, arrivals, previous, elapsed, covered, ⟨low, high⟩, duration, ⟨msl, msl_lt⟩, rate⟩ :=
    exact_terms
  set terms := agent.rbdcTerms timing window with terms_eq
  have lengthB : agent.getMacBufferLength .damaRbdc = terms.lengthB := by
    rw [DamaAgentRcs2.getMacBufferLength_eq]
    exact wrap_of_lt length
  have arrivalsB : agent.getMacBufferArrivals .damaRbdc = terms.arrivalsB := by
    rw [DamaAgentRcs2.getMacBufferArrivals_eq]
    exact wrap_of_lt arrivals
  have elapsedMs : wrap 32 (agent.rbdcTimerSf * timing.frameDurationMs.toNat) = terms.elapsedMs :=
    wrap_of_lt elapsed
  have mslMs : asInt (wrap 32 (timing.frameDurationMs.toNat * timing.mslSf.toNat)) =
      terms.mslMs := by
    have fits : timing.frameDurationMs.toNat * timing.mslSf.toNat < 2 ^ 31 := msl_lt
    rw [wrap_of_lt (by omega)]
    exact asInt_of_lt fits
  have coveredB : wrap 32 (terms.elapsedMs * agent.rbdcRequestBuffer.getSum) = terms.coveredB := by
    rw [sum, wrap_of_lt (show window.sum < 2 ^ 16 from previous)]
    exact wrap_of_lt covered
  unfold computeRbdcRequest
  dsimp only
  rw [lengthB, arrivalsB, elapsedMs, mslMs, coveredB, asInt_subW length covered high low,
    divInt_of_pos msl, Option.bind_eq_bind, Option.bind_some]
  simp only [Int.ceil_intCast, Int.floor_intCast, max_tdiv]
  have needed : ∀ {whole : Nat}, whole < 2 ^ 16 →
      (checkRbdcRequest (.ofInt whole)).toNat = min whole C_MAX_RBDC_IN_SAC.toNat := by
    intro whole fits
    have word : ((whole : Int) % 2 ^ 16).toNat = whole := by omega
    rw [toNat_checkRbdcRequest, UInt16.ofInt, word, UInt16.toNat_ofNat_of_lt' fits]
  have timer : terms.timerSf = agent.rbdcTimerSf := rfl
  unfold RbdcTerms.wholeKbps at rate ⊢
  rw [← timer]
  by_cases first : terms.timerSf = 0
  · rw [if_pos first, Nat.add_zero] at rate ⊢
    refine ⟨_, ?_, needed rate⟩
    rw [if_neg (not_not_intro first)]
    rfl
  · rw [if_neg first] at rate ⊢
    have later : terms.elapsedMs ≠ 0 := Nat.mul_ne_zero first duration.ne'
    have rate_lt := lt_trans rate (show 2 ^ 16 < 2 ^ 31 by norm_num)
    have arrivals_lt := lt_of_le_of_lt (Nat.le_add_left _ _) rate_lt
    refine ⟨_, ?_, needed rate⟩
    rw [if_pos first, if_neg later, Int.ceil_natCast, toInt_natCast arrivals_lt, Option.bind_some,
      ← Nat.cast_add, Nat.add_comm, toInt_natCast rate_lt]
    rfl

/-! ### The law of the requests -/

variable (timing : RequestTiming) (window : List Nat) (agent agent' : DamaAgentRcs2Legacy)

/-- An RBDC request is the one of its formula, and no term of it wraps. -/
structure RbdcLaw : Prop where
  noWraps : (agent.rbdcTerms timing window).NoWraps
  request : ∃ requestKbps, agent.computeRbdcRequest timing = some requestKbps ∧
    requestKbps.toNat = min (agent.rbdcTerms timing window).needKbps C_MAX_RBDC_IN_SAC.toNat

/-- The volume that waits for VBDC, in bits. -/
def vbdcLengthB : Nat := agent.bitsOf .damaVbdc DvbFifo.getCurrentDataLength

def vbdcNeedKb : Nat := ⌈(agent.vbdcLengthB : ℚ) / 1000⌉₊

/-- A VBDC request is the one of its formula, and no term of it wraps. -/
structure VbdcLaw : Prop where
  length : agent.vbdcLengthB < 2 ^ 32
  need : agent.vbdcNeedKb < 2 ^ 16
  request : agent.computeVbdcRequest.1.toNat = min agent.vbdcNeedKb C_MAX_VBDC_IN_SAC.toNat

/-- The terms stay in their words. -/
structure FitsWords : Prop where
  rbdc : (agent.rbdcTerms timing window).NoWraps
  vbdc : agent.vbdcLengthB ≤ 65535 * 1000

/-- Another agent has as many arrivals, and no smaller backlog. -/
structure Waits : Prop where
  rbdc : (agent.rbdcTerms timing window).lengthB ≤ (agent'.rbdcTerms timing window).lengthB
  vbdc : agent.vbdcLengthB ≤ agent'.vbdcLengthB
  same : { agent.rbdcTerms timing window with
    lengthB := (agent'.rbdcTerms timing window).lengthB } = agent'.rbdcTerms timing window

/-- The requests of another agent are not smaller. -/
structure Asks : Prop where
  rbdc : ∃ requestKbps requestKbps', agent.computeRbdcRequest timing = some requestKbps ∧
    agent'.computeRbdcRequest timing = some requestKbps' ∧ requestKbps ≤ requestKbps'
  vbdc : agent.computeVbdcRequest.1 ≤ agent'.computeVbdcRequest.1

variable {timing window agent agent'}

theorem vbdcNeedKb_le_iff {n : Nat} : agent.vbdcNeedKb ≤ n ↔ agent.vbdcLengthB ≤ n * 1000 := by
  rw [vbdcNeedKb, Nat.ceil_le, div_le_iff₀ (by norm_num)]
  norm_cast

theorem computeVbdcRequest_of_le (fits : agent.vbdcLengthB ≤ 65535 * 1000) :
    agent.computeVbdcRequest.1.toNat = min agent.vbdcNeedKb C_MAX_VBDC_IN_SAC.toNat := by
  have need := vbdcNeedKb_le_iff.mpr fits
  have length : agent.getMacBufferLength .damaVbdc = agent.vbdcLengthB := by
    rw [DamaAgentRcs2.getMacBufferLength_eq]
    exact wrap_of_lt (show agent.vbdcLengthB < 2 ^ 32 by omega)
  rw [toNat_computeVbdcRequest, length, ceilW]
  congr 1
  exact wrap_of_lt (show agent.vbdcNeedKb < 2 ^ 16 by omega)

theorem vbdcLaw_iff : agent.VbdcLaw ↔ agent.vbdcLengthB ≤ 65535 * 1000 := by
  constructor
  · intro law
    exact vbdcNeedKb_le_iff.mp (Nat.le_of_lt_succ law.need)
  · intro fits
    have need := vbdcNeedKb_le_iff.mpr fits
    exact ⟨by omega, by omega, computeVbdcRequest_of_le fits⟩

theorem rbdcLaw_iff (sum : agent.rbdcRequestBuffer.getSum = wrap 16 window.sum) :
    agent.RbdcLaw timing window ↔
      (agent.rbdcTerms timing window).NoWraps ∧ (agent.rbdcTerms timing window).Rounds := by
  constructor
  · intro ⟨noWraps, requestKbps, computed, formula⟩
    refine ⟨noWraps, ?_⟩
    obtain ⟨requestKbps', computed', whole⟩ := computeRbdcRequest_of_noWraps sum noWraps
    rw [computed, Option.some_inj] at computed'
    rw [← RbdcTerms.min_wholeKbps_eq_iff noWraps.duration noWraps.msl.1, ← whole, ← computed',
      formula]
  · intro ⟨noWraps, rounds⟩
    obtain ⟨requestKbps, computed, whole⟩ := computeRbdcRequest_of_noWraps sum noWraps
    rw [(RbdcTerms.min_wholeKbps_eq_iff noWraps.duration noWraps.msl.1).mpr rounds] at whole
    exact ⟨noWraps, requestKbps, computed, whole⟩

/-- Without a wrap, a larger backlog never asks for less. -/
theorem asks_of_waits (sum : agent.rbdcRequestBuffer.getSum = wrap 16 window.sum)
    (sum' : agent'.rbdcRequestBuffer.getSum = wrap 16 window.sum)
    (waits : agent.Waits timing window agent') (fits : agent.FitsWords timing window)
    (fits' : agent'.FitsWords timing window) : agent.Asks timing agent' := by
  obtain ⟨requestKbps, computed, whole⟩ := computeRbdcRequest_of_noWraps sum fits.rbdc
  obtain ⟨requestKbps', computed', whole'⟩ := computeRbdcRequest_of_noWraps sum' fits'.rbdc
  refine ⟨⟨requestKbps, requestKbps', computed, computed', ?_⟩, ?_⟩
  · rw [UInt16.le_iff_toNat_le, whole, whole']
    apply min_le_min_right
    exact RbdcTerms.wholeKbps_mono waits.rbdc waits.same
  · rw [UInt16.le_iff_toNat_le, computeVbdcRequest_of_le fits.vbdc,
      computeVbdcRequest_of_le fits'.vbdc]
    apply min_le_min_right
    rw [vbdcNeedKb_le_iff]
    apply waits.vbdc.trans
    exact vbdcNeedKb_le_iff.mp (Nat.le_refl _)

/-- The requests are the ones of their formulas exactly when no term leaves its word and no
quotient of the RBDC request is cut by the rounding; then they grow with the backlog. -/
theorem legacyRequests_iff (timing : RequestTiming) (bufferSize : Nat) (updates : List UInt16)
    (agent : DamaAgentRcs2Legacy)
    (sent : agent.rbdcRequestBuffer = CircularBuffer.afterUpdates bufferSize updates) :
    (agent.RbdcLaw timing (CircularBuffer.window bufferSize updates) ∧ agent.VbdcLaw ↔
      agent.FitsWords timing (CircularBuffer.window bufferSize updates) ∧
        (agent.rbdcTerms timing (CircularBuffer.window bufferSize updates)).Rounds) ∧
    ∀ agent' : DamaAgentRcs2Legacy, agent'.rbdcRequestBuffer = agent.rbdcRequestBuffer →
      agent.Waits timing (CircularBuffer.window bufferSize updates) agent' →
      agent.FitsWords timing (CircularBuffer.window bufferSize updates) →
      agent'.FitsWords timing (CircularBuffer.window bufferSize updates) →
      agent.Asks timing agent' := by
  have sum : agent.rbdcRequestBuffer.getSum =
      wrap 16 (CircularBuffer.window bufferSize updates).sum := by
    rw [sent, CircularBuffer.afterUpdates_getSum]
  constructor
  · rw [rbdcLaw_iff sum, vbdcLaw_iff]
    constructor
    · intro ⟨⟨noWraps, rounds⟩, fits⟩
      exact ⟨⟨noWraps, fits⟩, rounds⟩
    · intro ⟨⟨noWraps, fits⟩, rounds⟩
      exact ⟨⟨noWraps, rounds⟩, fits⟩
  · intro agent' buffer waits fits fits'
    apply asks_of_waits sum _ waits fits fits'
    rw [buffer, sum]

/-- An agent that just sent an RBDC request, with a packet left. -/
def waiting (bytes : Nat) : DamaAgentRcs2Legacy where
  rbdcEnabled := true
  vbdcEnabled := true
  rbdcTimerSf := 0
  rbdcRequestBuffer := .afterUpdates 1 []
  dvbFifos := [(0, {
    (DvbFifo.new (.return .damaRbdc) 0 100 : DvbFifo NetPacket) with
    queue := [⟨some ⟨List.replicate bytes 0, 0, 1, 0⟩, 0, 0⟩]
    curLengthBytes := bytes
    queue_le := show 1 ≤ 100 by norm_num })]
  vbdcCreditKb := 0

/-- Superframes of 10 ms, and an MSL of 10 superframes. -/
def tenTimes : RequestTiming := ⟨10, 10⟩

theorem waiting_terms (bytes : Nat) :
    (waiting bytes).rbdcTerms tenTimes (CircularBuffer.window 1 []) =
      ⟨8 * bytes, 0, 0, 0, 10, 10⟩ :=
  rfl

theorem waiting_fits {bytes : Nat} (few : bytes ≤ 1000) :
    (waiting bytes).FitsWords tenTimes (CircularBuffer.window 1 []) := by
  constructor
  · rw [waiting_terms]
    constructor <;>
      simp only [RbdcTerms.elapsedMs, RbdcTerms.coveredB, RbdcTerms.mslMs, RbdcTerms.wholeKbps,
        if_true] <;> omega
  · exact Nat.zero_le _

/-- 25 bytes ask for 2 kbit/s, and 50 bytes not for less. -/
theorem waiting_requests :
    ((waiting 25).RbdcLaw tenTimes (CircularBuffer.window 1 []) ∧ (waiting 25).VbdcLaw) ∧
      (waiting 25).Asks tenTimes (waiting 50) := by
  have fits := waiting_fits (show 25 ≤ 1000 by norm_num)
  have iff := legacyRequests_iff tenTimes 1 [] (waiting 25) rfl
  refine ⟨iff.1.mpr ⟨fits, Or.inl ⟨⟨2, rfl⟩, ?_⟩⟩, iff.2 (waiting 50) rfl ⟨?_, ?_, rfl⟩ fits ?_⟩
  · intro later
    exact absurd rfl later
  · rw [waiting_terms, waiting_terms]
    norm_num
  · exact Nat.le_refl 0
  · exact waiting_fits (by norm_num)

/-- 19 bytes, so 152 bits, ask for 1 kbit/s in 100 ms. -/
theorem waiting_rounded_fails :
    ¬ (waiting 19).RbdcLaw tenTimes (CircularBuffer.window 1 []) := by
  rw [rbdcLaw_iff rfl, waiting_terms]
  rintro ⟨-, ⟨⟨q, whole⟩, -⟩ | capped⟩
  · change 152 = 100 * q at whole
    omega
  · have few : 16320 ≤ 1 := capped
    omega

end DamaAgentRcs2Legacy

end OpenSand
