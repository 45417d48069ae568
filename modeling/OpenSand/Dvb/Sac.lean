import OpenSand.Dvb.Fifo
import OpenSand.Lib.Bytes

/-!
The Satellite Access Control frame (`Sac`), by which a terminal requests
capacity.

The frame is a 12-byte header followed by 2-byte capacity requests: the basic DVB
header (length, most significant byte first, and type), the terminal, the
group, the number of requests and the C/N, then for each request its priority,
scale and access type on one byte and its scaled value on another. Bit fields
and the group are those of a little-endian host.
-/

namespace OpenSand

open OpenSand.Bytes

/-- The maximum number of capacity requests in a SAC. -/
def NBR_MAX_CR : Nat := 2

def DVB_CR_RBDC_GRANULARITY : Nat := 2
def DVB_CR_RBDC_SCALING_FACTOR : Nat := 16
def DVB_CR_RBDC_SCALING_FACTOR2 : Nat := 32
def DVB_CR_VBDC_SCALING_FACTOR : Nat := 16
def DVB_CR_VBDC_SCALING_FACTOR_OFFSET : Nat := 255
def DVB_CR_RBDC_SCALING_FACTOR_OFFSET : Nat := 510

/-- The message type of a SAC (`EmulatedMessageType::Sac`). -/
def sacMessageType : UInt8 := 10

/-- The code of an access type on the wire. -/
def ReturnAccessType.code : ReturnAccessType → Nat
  | .damaVbdc => 0
  | .damaRbdc => 1
  | .damaAvbdc => 2
  | .damaCra => 3
  | .saloha => 4

/-- The access type of a wire code; other codes name none. -/
def ReturnAccessType.ofCode : Nat → Option ReturnAccessType
  | 0 => some .damaVbdc
  | 1 => some .damaRbdc
  | 2 => some .damaAvbdc
  | 3 => some .damaCra
  | 4 => some .saloha
  | _ => none

@[simp] theorem ReturnAccessType.ofCode_code (type : ReturnAccessType) :
    ReturnAccessType.ofCode type.code = some type := by
  cases type <;> rfl

theorem ReturnAccessType.code_lt (type : ReturnAccessType) : type.code < 16 := by
  cases type <;> decide

/-- A capacity request as it is given to a SAC (`cr_info_t`). -/
structure CrInfo where
  prio : UInt8
  type : ReturnAccessType
  value : UInt32
deriving DecidableEq, Repr

/-- A capacity request as it is read from a SAC. -/
structure DecodedCr where
  prio : Nat
  type : Option ReturnAccessType
  value : Nat
deriving DecidableEq, Repr

/-- The fields of a capacity request on the wire (`emu_cr_t`). -/
structure EmuCr where
  prio : Nat
  scale : Nat
  type : Nat
  value : Nat

namespace EmuCr

/-- The two bytes of a request: 2 bits of priority, 2 of scale and 4 of type,
least significant first, then the value. -/
def toBytes (cr : EmuCr) : Data :=
  [UInt8.ofNat (cr.prio % 4 + 4 * (cr.scale % 4) + 16 * (cr.type % 16)), UInt8.ofNat cr.value]

def ofBytes (bytes : Data) : EmuCr :=
  let bits := (bytes.headD 0).toNat
  { prio := bits % 4
    scale := bits / 4 % 4
    type := bits / 16
    value := (bytes.getD 1 0).toNat }

end EmuCr

/-- The number of steps in a value, to the nearest, in 8 bits. The value is first
reduced to 16 bits. -/
def getEncodedRequestValue (value step : Nat) : Nat :=
  let divQuot := value % 2 ^ 16 / step % 2 ^ 8
  let divRem := value % 2 ^ 16 % step % 2 ^ 8
  if divRem < step / 2 then divQuot else (divQuot + 1) % 2 ^ 8

/-- The scale and the encoded value of a request. -/
def getScaleAndValue (info : CrInfo) : Nat × Nat :=
  let value := info.value.toNat
  match info.type with
  | .damaVbdc =>
      if value ≤ DVB_CR_VBDC_SCALING_FACTOR_OFFSET then (0, value)
      else (1, getEncodedRequestValue value DVB_CR_VBDC_SCALING_FACTOR)
  | .damaRbdc =>
      if value ≤ DVB_CR_RBDC_SCALING_FACTOR_OFFSET then
        (0, getEncodedRequestValue value DVB_CR_RBDC_GRANULARITY)
      else if value ≤ DVB_CR_RBDC_SCALING_FACTOR_OFFSET * DVB_CR_RBDC_SCALING_FACTOR then
        (1, getEncodedRequestValue value (DVB_CR_RBDC_GRANULARITY * DVB_CR_RBDC_SCALING_FACTOR))
      else
        (2, getEncodedRequestValue value (DVB_CR_RBDC_GRANULARITY * DVB_CR_RBDC_SCALING_FACTOR2))
  | _ => (0, 0)

/-- The value of a request from its encoded value and scale. -/
def getDecodedCrValue (cr : EmuCr) : Nat :=
  match ReturnAccessType.ofCode cr.type with
  | some .damaVbdc =>
      if cr.scale = 0 then cr.value else cr.value * DVB_CR_VBDC_SCALING_FACTOR
  | some .damaRbdc =>
      if cr.scale = 0 then cr.value * DVB_CR_RBDC_GRANULARITY
      else if cr.scale = 1 then
        cr.value * DVB_CR_RBDC_GRANULARITY * DVB_CR_RBDC_SCALING_FACTOR
      else cr.value * DVB_CR_RBDC_GRANULARITY * DVB_CR_RBDC_SCALING_FACTOR2
  | _ => 0

/-- A SAC: the bytes of the frame and the number of requests its builder counts. -/
structure Sac where
  data : Data
  requestNbr : Nat

namespace Sac

/-- The size of the header, and the offset of the number of requests in it. -/
def headerLength : Nat := 12
def crNumberOffset : Nat := 7

/-- The constructor: no request and a C/N of -100 dB, in hundredths. -/
def new (talId groupId : UInt16) : Sac where
  data := toBE 2 headerLength ++ [sacMessageType] ++ toBE 2 talId.toNat ++
    toLE 2 groupId.toNat ++ [0] ++ toBE 4 (2 ^ 32 - 10000)
  requestNbr := 0

def getMessageLength (data : Data) : Option Nat := (slice 0 2 data).map ofBE

def getCrNumber (data : Data) : Option Nat := (slice crNumberOffset 1 data).map ofLE

/-- Add a request, unless the SAC is taken for full; the status tells. -/
def addRequest (sac : Sac) (info : CrInfo) : Option (Bool × Sac) :=
  if NBR_MAX_CR ≤ sac.requestNbr + 1 then some (false, sac)
  else do
    let (scale, val) := getScaleAndValue info
    let cr : EmuCr := ⟨info.prio.toNat, scale, info.type.code, val⟩
    let data := sac.data ++ cr.toBytes
    let crNumber ← getCrNumber data
    let data ← patch crNumberOffset (toLE 1 (crNumber + 1)) data
    let length ← getMessageLength data
    let data ← patch 0 (toBE 2 (length + 2)) data
    return (true, ⟨data, sac.requestNbr + 1⟩)

def decodeCr (cr : EmuCr) : DecodedCr :=
  ⟨cr.prio, ReturnAccessType.ofCode cr.type, getDecodedCrValue cr⟩

/-- The requests of a received SAC, as many as its header says. -/
def getRequests (data : Data) : Option (List DecodedCr) :=
  (getCrNumber data).bind fun crNumber =>
    (List.range crNumber).mapM fun i =>
      (slice (headerLength + 2 * i) 2 data).map fun bytes => decodeCr (EmuCr.ofBytes bytes)

/-- A list of requests added one after the other, until one is refused. -/
def addRequests (sac : Sac) : List CrInfo → Option (Bool × Sac)
  | [] => some (true, sac)
  | info :: rest =>
      (sac.addRequest info).bind fun out =>
        if out.1 then addRequests out.2 rest else some out

end Sac

/-! ### Quantisation -/

/-- The quantisation step of the encoder for a request. -/
def CrInfo.step (info : CrInfo) : Nat :=
  match info.type with
  | .damaVbdc => if info.value.toNat ≤ DVB_CR_VBDC_SCALING_FACTOR_OFFSET then 1
      else DVB_CR_VBDC_SCALING_FACTOR
  | .damaRbdc => if info.value.toNat ≤ DVB_CR_RBDC_SCALING_FACTOR_OFFSET then
        DVB_CR_RBDC_GRANULARITY
      else if info.value.toNat ≤ DVB_CR_RBDC_SCALING_FACTOR_OFFSET * DVB_CR_RBDC_SCALING_FACTOR then
        DVB_CR_RBDC_GRANULARITY * DVB_CR_RBDC_SCALING_FACTOR
      else DVB_CR_RBDC_GRANULARITY * DVB_CR_RBDC_SCALING_FACTOR2
  | _ => 0

/-- A request read from a SAC is the one given to it, up to the step. -/
structure CrInfo.Carried (info : CrInfo) (read : DecodedCr) : Prop where
  prio : read.prio = info.prio.toNat
  type : read.type = some info.type
  low : info.value.toNat ≤ read.value + info.step
  high : read.value ≤ info.value.toNat + info.step

/-- What the fields of a request hold: 2 bits of priority, and 255 steps, with
half a step more, for the two types that have a scale. -/
def CrInfo.Encodable (info : CrInfo) : Prop :=
  info.prio.toNat < 4 ∧
    match info.type with
    | .damaVbdc => info.value.toNat < 4088
    | .damaRbdc => info.value.toNat < 16352
    | _ => info.value = 0

instance (info : CrInfo) : Decidable info.Encodable := by
  unfold CrInfo.Encodable
  cases info.type <;> exact inferInstanceAs (Decidable (_ ∧ _))

/-- The wire fields of a request. -/
def CrInfo.emuCr (info : CrInfo) : EmuCr :=
  ⟨info.prio.toNat, (getScaleAndValue info).1, info.type.code, (getScaleAndValue info).2⟩

theorem EmuCr.ofBytes_toBytes {cr : EmuCr} (hscale : cr.scale < 4) (htype : cr.type < 16)
    (hvalue : cr.value < 256) :
    EmuCr.ofBytes cr.toBytes = { cr with prio := cr.prio % 4 } := by
  obtain ⟨prio, scale, type, value⟩ := cr
  simp only at hscale htype hvalue
  simp only [ofBytes, toBytes, List.headD_cons, List.getD_cons_succ, List.getD_cons_zero,
    UInt8.toNat_ofNat', EmuCr.mk.injEq]
  omega

theorem getEncodedRequestValue_lt (value step : Nat) : getEncodedRequestValue value step < 256 := by
  unfold getEncodedRequestValue
  dsimp only
  split <;> omega

theorem CrInfo.emuCr_scale_lt (info : CrInfo) : info.emuCr.scale < 4 := by
  unfold emuCr getScaleAndValue
  cases info.type <;> dsimp only <;> repeat' split
  all_goals omega

theorem CrInfo.emuCr_value_lt (info : CrInfo) : info.emuCr.value < 256 := by
  unfold emuCr getScaleAndValue
  cases info.type <;> dsimp only <;> repeat' split
  all_goals first
    | exact getEncodedRequestValue_lt _ _
    | exact Nat.lt_succ_of_le (by assumption)
    | omega

/-- The encoder rounds to the nearest of 255 steps exactly below 255 steps and a
half. -/
theorem getEncodedRequestValue_near_iff {value step : Nat} (hstep : step = 2 ∨ step = 16 ∨
    step = 32 ∨ step = 64) :
    (value ≤ getEncodedRequestValue value step * step + step ∧
      getEncodedRequestValue value step * step ≤ value + step) ↔
      value < 255 * step + step / 2 := by
  unfold getEncodedRequestValue
  dsimp only
  rcases hstep with rfl | rfl | rfl | rfl
  all_goals
    split
    all_goals omega

/-- The priority, type and value read back from the bytes of a request. -/
theorem CrInfo.decode_emuCr (info : CrInfo) :
    Sac.decodeCr (EmuCr.ofBytes info.emuCr.toBytes) =
      ⟨info.prio.toNat % 4, some info.type, getDecodedCrValue info.emuCr⟩ := by
  rw [EmuCr.ofBytes_toBytes info.emuCr_scale_lt info.type.code_lt info.emuCr_value_lt]
  simp [Sac.decodeCr, emuCr, getDecodedCrValue]

/-- The decoded value is within a step of the requested one exactly when the
request does not exceed the steps of its type. -/
theorem CrInfo.decoded_near_iff (info : CrInfo) :
    (info.value.toNat ≤ getDecodedCrValue info.emuCr + info.step ∧
      getDecodedCrValue info.emuCr ≤ info.value.toNat + info.step) ↔
      match info.type with
      | .damaVbdc => info.value.toNat < 4088
      | .damaRbdc => info.value.toNat < 16352
      | _ => info.value = 0 := by
  have zero : info.value = 0 ↔ info.value.toNat = 0 := UInt32.toNat_inj.symm
  obtain ⟨prio, type, value⟩ := info
  have near := fun step => @getEncodedRequestValue_near_iff value.toNat step
  cases type with
  | damaVbdc =>
      by_cases unscaled : value.toNat ≤ 255
      · simp [emuCr, getScaleAndValue, getDecodedCrValue, step, ReturnAccessType.code,
          ReturnAccessType.ofCode, DVB_CR_VBDC_SCALING_FACTOR_OFFSET, unscaled]
        omega
      · simpa [emuCr, getScaleAndValue, getDecodedCrValue, step, ReturnAccessType.code,
          ReturnAccessType.ofCode, DVB_CR_VBDC_SCALING_FACTOR_OFFSET,
          DVB_CR_VBDC_SCALING_FACTOR, unscaled] using near 16 (by decide)
  | damaRbdc =>
      by_cases fine : value.toNat ≤ 510
      · have fits := (near 2 (by decide)).mpr (by omega)
        simp [emuCr, getScaleAndValue, getDecodedCrValue, step, ReturnAccessType.code,
          ReturnAccessType.ofCode, DVB_CR_RBDC_SCALING_FACTOR_OFFSET,
          DVB_CR_RBDC_GRANULARITY, fine]
        omega
      · by_cases coarse : value.toNat ≤ 8160
        · have fits := (near 32 (by decide)).mpr (by omega)
          simp [emuCr, getScaleAndValue, getDecodedCrValue, step, ReturnAccessType.code,
            ReturnAccessType.ofCode, DVB_CR_RBDC_SCALING_FACTOR_OFFSET,
            DVB_CR_RBDC_GRANULARITY, DVB_CR_RBDC_SCALING_FACTOR, fine, coarse]
          omega
        · have exactly := near 64 (by decide)
          simp [emuCr, getScaleAndValue, getDecodedCrValue, step, ReturnAccessType.code,
            ReturnAccessType.ofCode, DVB_CR_RBDC_SCALING_FACTOR_OFFSET,
            DVB_CR_RBDC_GRANULARITY, DVB_CR_RBDC_SCALING_FACTOR, DVB_CR_RBDC_SCALING_FACTOR2,
            fine, coarse]
          omega
  | damaAvbdc | damaCra | saloha =>
      simp only [zero, emuCr, getScaleAndValue, getDecodedCrValue, step, ReturnAccessType.code,
        ReturnAccessType.ofCode]
      omega

/-- A request survives the wire exactly when its fields hold it. -/
theorem CrInfo.carried_iff (info : CrInfo) :
    info.Carried (Sac.decodeCr (EmuCr.ofBytes info.emuCr.toBytes)) ↔ info.Encodable := by
  rw [info.decode_emuCr]
  have hprio : info.prio.toNat % 4 = info.prio.toNat ↔ info.prio.toNat < 4 :=
    Nat.mod_eq_iff_lt (by decide)
  constructor
  · rintro ⟨prio, _, low, high⟩
    exact ⟨hprio.mp prio, info.decoded_near_iff.mp ⟨low, high⟩⟩
  · rintro ⟨prio, value⟩
    obtain ⟨low, high⟩ := info.decoded_near_iff.mpr value
    exact ⟨hprio.mpr prio, rfl, low, high⟩

/-! ### Lists of requests -/

namespace Sac

/-- The bytes of a SAC with one request. -/
def oneRequest (talId groupId : UInt16) (info : CrInfo) : Data :=
  toBE 2 14 ++ [sacMessageType] ++ toBE 2 talId.toNat ++ toLE 2 groupId.toNat ++ [1] ++
    toBE 4 (2 ^ 32 - 10000) ++ info.emuCr.toBytes

theorem addRequest_new (talId groupId : UInt16) (info : CrInfo) :
    (Sac.new talId groupId).addRequest info = some (true, ⟨oneRequest talId groupId info, 1⟩) :=
  rfl

/-- The second request is refused already. -/
theorem addRequest_full {sac : Sac} (full : sac.requestNbr = 1) (info : CrInfo) :
    sac.addRequest info = some (false, sac) := by
  simp [addRequest, NBR_MAX_CR, full]

theorem getRequests_new (talId groupId : UInt16) :
    getRequests (Sac.new talId groupId).data = some [] :=
  rfl

theorem getRequests_oneRequest (talId groupId : UInt16) (info : CrInfo) :
    getRequests (oneRequest talId groupId info) =
      some [decodeCr (EmuCr.ofBytes info.emuCr.toBytes)] :=
  rfl

/-- A list of requests is signalled without loss: each is accepted and the
requests read from the SAC are those given to it, in order. -/
def Lossless (talId groupId : UInt16) (infos : List CrInfo) : Prop :=
  ∃ sac reads, (Sac.new talId groupId).addRequests infos = some (true, sac) ∧
    getRequests sac.data = some reads ∧ List.Forall₂ CrInfo.Carried infos reads

/-- **A SAC carries one request.** A list is signalled without loss exactly when
it has at most one request and the fields of a request hold it. -/
theorem lossless_iff (talId groupId : UInt16) (infos : List CrInfo) :
    Lossless talId groupId infos ↔
      infos.length ≤ 1 ∧ ∀ info ∈ infos, info.Encodable := by
  match infos with
  | [] =>
      have empty : Lossless talId groupId [] :=
        ⟨_, [], rfl, getRequests_new talId groupId, .nil⟩
      simp [empty]
  | [info] =>
      simp only [List.length_singleton, le_refl, List.mem_singleton, forall_eq, true_and,
        ← info.carried_iff]
      constructor
      · rintro ⟨sac, reads, added, read, carried⟩
        simp only [addRequests, addRequest_new, Option.bind_some, if_true, Option.some.injEq,
          Prod.mk.injEq, true_and] at added
        subst added
        rw [getRequests_oneRequest, Option.some.injEq] at read
        subst read
        exact (List.forall₂_cons.mp carried).1
      · intro carried
        exact ⟨_, _, rfl, getRequests_oneRequest talId groupId info, .cons carried .nil⟩
  | first :: second :: rest =>
      refine iff_of_false ?_ (by simp)
      rintro ⟨sac, reads, added, _⟩
      simp [addRequests, addRequest_new, addRequest_full] at added

end Sac

end OpenSand
