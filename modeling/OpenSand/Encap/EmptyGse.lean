import OpenSand.Encap.Gse

/-!
Empty GSE packets (`Gse::PacketHandler::setHeaderExtensions`).

A header extension without a packet goes in an empty one, whose bytes are a static array of the
function: they are written at its first call and never again. `empty_packets_iff` says when every
empty packet still carries the terminals of its own call.
-/

namespace OpenSand.Gse

/-- What comes out of the library when it adds an extension: the new packet, unless the extension
is not available, the packet has been fragmented or something else failed. -/
inductive AddExt where
  | unavailable
  | refragmented
  | failed
  | ok (data : List UInt8)

/-- The functions of the library for extensions; one callback and one value tell the extension. -/
structure HeaderExtensions where
  createVfragWithData : List UInt8 → Bool
  addHeaderExt : String → Nat → List UInt8 → AddExt

/-- A complete packet with a label of three bytes: the terminals and the highest priority. -/
def newEmptyGse (talIdSrc talIdDst : UInt16) : List UInt8 :=
  [0xd0, 0x05, 0x08, 0x00, talIdSrc.toUInt8, talIdDst.toUInt8, 0x00]

/-- The arguments of a call. -/
structure ExtensionCall where
  packet : Option NetPacket
  talIdSrc : UInt16
  talIdDst : UInt16
  callbackName : String
  value : Nat

variable (lib : Libgse) (ext : HeaderExtensions)

/-- The documented behaviour of the library: a packet of seven bytes is complete and has its label
behind four of them, and an extension leaves the label and the indicators as they are. -/
structure HeaderExtensions.Documented : Prop where
  start : ∀ src dst, lib.getStartIndicator (newEmptyGse src dst) = some true
  last : ∀ src dst, lib.getEndIndicator (newEmptyGse src dst) = some true
  label : ∀ src dst, ∃ rest, lib.getLabel (newEmptyGse src dst) =
    some (src.toUInt8 :: dst.toUInt8 :: 0 :: rest)
  kept : ∀ callbackName value data out, ext.addHeaderExt callbackName value data = .ok out →
    lib.getStartIndicator out = lib.getStartIndicator data ∧
      lib.getEndIndicator out = lib.getEndIndicator data ∧ lib.getLabel out = lib.getLabel data

/-- A call, given the static bytes unless it is the first one: its status and the new packet, and
the static bytes. -/
def setHeaderExtensions (emptyGse : Option (List UInt8)) (call : ExtensionCall) :
    (Bool × Option NetPacket) × List UInt8 :=
  let emptyGse := emptyGse.getD (newEmptyGse call.talIdSrc call.talIdDst)
  let packet := call.packet.getD ⟨emptyGse, 0, 0, 0⟩
  if ext.createVfragWithData packet.data then
    match ext.addHeaderExt call.callbackName call.value packet.data with
    | .ok gseFrag => ((true, build lib gseFrag gseFrag.length packet.dstTalId), emptyGse)
    | _ => ((false, none), emptyGse)
  else ((false, none), emptyGse)

/-- The calls of a program, each with its results. -/
def extensionCalls : Option (List UInt8) → List ExtensionCall →
    List (ExtensionCall × Bool × Option NetPacket)
  | _, [] => []
  | emptyGse, call :: calls =>
      let out := setHeaderExtensions lib ext emptyGse call
      (call, out.1) :: extensionCalls (some out.2) calls

/-- A packet carries terminals in its label. -/
def Carries (packet : NetPacket) (talIdSrc talIdDst : UInt16) : Prop :=
  ∃ label, lib.getLabel packet.data = some label ∧
    getSrcTalIdFromLabel label = talIdSrc.toNat ∧ getDstTalIdFromLabel label = talIdDst.toNat

/-- The library adds the extension of a call to some bytes. -/
def Extends (data : List UInt8) (call : ExtensionCall) : Prop :=
  ext.createVfragWithData data = true ∧
    ∃ out, ext.addHeaderExt call.callbackName call.value data = .ok out

variable {lib ext} {call : ExtensionCall} {calls : List ExtensionCall} {src dst : UInt16}

/-- The static bytes do not change once they are written. -/
theorem setHeaderExtensions_static (emptyGse : Option (List UInt8)) :
    (setHeaderExtensions lib ext emptyGse call).2 =
      emptyGse.getD (newEmptyGse call.talIdSrc call.talIdDst) := by
  rw [setHeaderExtensions]
  split
  · split <;> rfl
  · rfl

theorem toUInt8_and (id : UInt16) : id.toUInt8.toNat &&& 0x1F = id.toNat % 32 := by
  rw [UInt16.toNat_toUInt8, show (0x1F : Nat) = 2 ^ 5 - 1 from rfl, Nat.and_two_pow_sub_one_eq_mod]
  omega

/-- The packet made of static bytes, if there is one. -/
theorem empty_call_eq (without : call.packet = none) (data : List UInt8) :
    (setHeaderExtensions lib ext (some data) call).1.2 =
      if ext.createVfragWithData data then
        match ext.addHeaderExt call.callbackName call.value data with
        | .ok gseFrag => build lib gseFrag gseFrag.length 0
        | _ => none
      else none := by
  rw [setHeaderExtensions, without]
  dsimp only [Option.getD_some, Option.getD_none]
  split
  · split <;> rfl
  · rfl

theorem extended_eq (documented : ext.Documented lib) {out : List UInt8}
    (added : ext.addHeaderExt call.callbackName call.value (newEmptyGse src dst) = .ok out) :
    ∃ rest packet, build lib out out.length 0 = some packet ∧ packet.data = out ∧
      lib.getLabel out = some (src.toUInt8 :: dst.toUInt8 :: 0 :: rest) := by
  obtain ⟨start, last, label⟩ := documented.kept _ _ _ _ added
  obtain ⟨rest, told⟩ := documented.label src dst
  rw [documented.start] at start
  rw [documented.last] at last
  rw [told] at label
  let bytes := src.toUInt8 :: dst.toUInt8 :: 0 :: rest
  refine ⟨rest, ⟨out.take out.length, getQosFromLabel bytes, getSrcTalIdFromLabel bytes,
    getDstTalIdFromLabel bytes⟩, ?_, List.take_length, label⟩
  rw [build, start, last, label]
  rfl

/-- A call without a packet carries what the static bytes tell. -/
theorem empty_call (documented : ext.Documented lib) (without : call.packet = none) :
    (∀ packet, (setHeaderExtensions lib ext (some (newEmptyGse src dst)) call).1.2 = some packet →
      Carries lib packet call.talIdSrc call.talIdDst) ↔
    (Extends ext (newEmptyGse src dst) call →
      call.talIdSrc.toNat = src.toNat % 32 ∧ call.talIdDst.toNat = dst.toNat % 32) := by
  have carried : ∀ label rest, label = src.toUInt8 :: dst.toUInt8 :: 0 :: rest →
      getSrcTalIdFromLabel label = src.toNat % 32 ∧ getDstTalIdFromLabel label = dst.toNat % 32 := by
    rintro label rest rfl
    exact ⟨toUInt8_and src, toUInt8_and dst⟩
  rw [empty_call_eq without]
  constructor
  · rintro carries ⟨created, out, added⟩
    obtain ⟨rest, packet, built, data, told⟩ := extended_eq documented added
    rw [if_pos created, added] at carries
    obtain ⟨label, read, source, destination⟩ := carries packet built
    rw [data, told] at read
    obtain ⟨source', destination'⟩ := carried label rest (Option.some.inj read).symm
    exact ⟨source.symm.trans source', destination.symm.trans destination'⟩
  · intro same packet made
    split at made
    next created =>
      split at made
      next out added =>
        obtain ⟨source, destination⟩ := same ⟨created, out, added⟩
        obtain ⟨rest, packet', built, data, told⟩ := extended_eq documented added
        cases built.symm.trans made
        obtain ⟨source', destination'⟩ := carried _ rest rfl
        exact ⟨_, data ▸ told, source'.trans source.symm, destination'.trans destination.symm⟩
      next => cases made
    next => cases made

/-! ### Sequences of calls -/

/-- After the first call the static bytes are those of the first call. -/
theorem extensionCalls_eq (emptyGse : List UInt8) :
    extensionCalls lib ext (some emptyGse) calls =
      calls.map fun call => (call, (setHeaderExtensions lib ext (some emptyGse) call).1) := by
  induction calls with
  | nil => rfl
  | cons call calls ih =>
      rw [extensionCalls, setHeaderExtensions_static, Option.getD_some, ih]
      rfl

theorem extensionCalls_first {first : ExtensionCall} :
    extensionCalls lib ext none (first :: calls) = (first :: calls).map fun call =>
      (call, (setHeaderExtensions lib ext
        (some (newEmptyGse first.talIdSrc first.talIdDst)) call).1) := by
  rw [extensionCalls, setHeaderExtensions_static, Option.getD_none, extensionCalls_eq]
  rfl

/-- The empty packets of a program all carry the terminals of their own calls exactly when these
are the terminals of the first call on 5 bits, wherever the library adds the extension. -/
theorem empty_packets_iff (documented : ext.Documented lib) (calls : List ExtensionCall) :
    (∀ result ∈ extensionCalls lib ext none calls, result.1.packet = none →
      ∀ packet, result.2.2 = some packet → Carries lib packet result.1.talIdSrc result.1.talIdDst) ↔
    ∀ first ∈ calls.head?, ∀ call ∈ calls, call.packet = none →
      Extends ext (newEmptyGse first.talIdSrc first.talIdDst) call →
      call.talIdSrc.toNat = first.talIdSrc.toNat % 32 ∧
        call.talIdDst.toNat = first.talIdDst.toNat % 32 := by
  cases calls with
  | nil => simp [extensionCalls]
  | cons first calls =>
      rw [extensionCalls_first, List.forall_mem_map]
      constructor
      · intro carried first' head call mem without
        cases head
        exact (empty_call documented without).mp (carried call mem without)
      · intro same call mem without
        exact (empty_call documented without).mpr (same first rfl call mem without)

/-- Packets with a label of three bytes. -/
def threeBytes : Libgse where
  Deencap := Unit
  deencapInit := ()
  maxPacketLength := 4097
  encapPdu _ _ _ := []
  getStartIndicator data := data.head?.map (128 ≤ ·.toNat)
  getEndIndicator data := data.head?.map (64 ≤ ·.toNat % 128)
  getLabel data := some ((data.drop 4).take 3)
  getFragId data := data[2]?.map UInt8.toNat
  getGseLength data := data[1]?.map UInt8.toNat
  refragPacket _ _ _ := .error
  deencapPacket context _ := (.failed, context)

/-- The extension of the C/N, six bytes behind the label; they end with the protocol type, which
they replace. -/
def cniExtension : HeaderExtensions where
  createVfragWithData _ := true
  addHeaderExt _ value data :=
    match data with
    | kind :: length :: high :: low :: src :: dst :: qos :: rest =>
        .ok (kind :: (length + 6) :: 0x03 :: 0xFF :: src :: dst :: qos ::
          (.ofNat value :: .ofNat (value / 256) :: .ofNat (value / 65536) ::
            .ofNat (value / 16777216) :: high :: low :: rest))
    | _ => .failed

theorem cniExtension_documented : cniExtension.Documented threeBytes where
  start := fun _ _ => rfl
  last := fun _ _ => rfl
  label := fun _ _ => ⟨[], rfl⟩
  kept := by
    intro callbackName value data out added
    dsimp only [cniExtension] at added
    split at added
    · cases added
      exact ⟨rfl, rfl, rfl⟩
    · cases added

/-- Two terminals that call one after the other. -/
def twoCalls : List ExtensionCall :=
  [⟨none, 1, 2, "encodeCniExt", 7⟩, ⟨none, 3, 4, "encodeCniExt", 8⟩]

theorem empty_packets_two :
    (∀ result ∈ extensionCalls threeBytes cniExtension none twoCalls, result.1.packet = none →
      ∀ packet, result.2.2 = some packet →
        Carries threeBytes packet result.1.talIdSrc result.1.talIdDst) ↔
    ∀ first ∈ twoCalls.head?, ∀ call ∈ twoCalls, call.packet = none →
      Extends cniExtension (newEmptyGse first.talIdSrc first.talIdDst) call →
      call.talIdSrc.toNat = first.talIdSrc.toNat % 32 ∧
        call.talIdDst.toNat = first.talIdDst.toNat % 32 :=
  empty_packets_iff cniExtension_documented twoCalls

/-- The packet of the second call carries the terminals of the first one. -/
theorem second_carries_first : ¬ ∀ result ∈ extensionCalls threeBytes cniExtension none twoCalls,
    result.1.packet = none → ∀ packet, result.2.2 = some packet →
      Carries threeBytes packet result.1.talIdSrc result.1.talIdDst := by
  intro carried
  have second := carried _ (List.mem_cons_of_mem _ List.mem_cons_self) rfl _ rfl
  obtain ⟨label, read, source, -⟩ := second
  cases read
  exact absurd source (by decide)

end OpenSand.Gse
