import OpenSand.Lan.EthernetFrame
import Mathlib.Tactic.ByContra

/-!
The accessors of Ethernet headers on any bytes.

Each accessor checks a length of its own before it reads, and most check one byte less than they
read; the type of a frame is even read with the bytes where a second tag would be. `accessors_iff`
says for which lengths they all return. On the bytes of a frame they then agree with the frame.
-/

namespace OpenSand

open Bytes (Data)

namespace Ethernet

/-- The header length of a packet (`Ethernet::PacketHandler::build`); a frame without type is taken
as a plain one. -/
def headLength (data : Data) : Except Fault Nat := do
  let frameType ← getFrameType data
  return headSize (frameType.getD .eth)

/-- The accessors return: without a header no type and zeros, and no payload type where the header
is cut. The addresses are read inside of the bytes. -/
structure Returns (data : Data) : Prop where
  frameType : ∃ frameType, getFrameType data = .ok frameType ∧
    (data.length < 14 → frameType = none)
  etherType : ∃ etherType, getPayloadEtherType data = .ok etherType ∧
    ∀ head, headLength data = .ok head → data.length < head → etherType = 0
  qTci : ∃ qTci, getQTci data = .ok qTci ∧ (data.length < 16 → qTci = 0)
  adTci : ∃ adTci, getAdTci data = .ok adTci ∧ (data.length < 16 → adTci = 0)
  dstMac : if data.length < 6 then getDstMac data = .ofBytes fun _ => 0
    else ∀ i : Fin 6, byteAt data i = .ok ((getDstMac data).mac i)
  srcMac : if data.length < 12 then getSrcMac data = .ofBytes fun _ => 0
    else ∀ i : Fin 6, byteAt data (6 + i) = .ok ((getSrcMac data).mac i)

/-- The accessors agree with a frame on its header, and on where it ends. -/
structure Agrees (frame : Frame) : Prop extends Read frame where
  dstMac : getDstMac frame.bytes = .ofBytes frame.dst
  srcMac : getSrcMac frame.bytes = .ofBytes frame.src
  head : ∃ head, headLength frame.bytes = .ok head ∧ frame.bytes.drop head = frame.payload

/-- The accessors return on any bytes, and agree on those of a frame. -/
def Accessors (data : Data) : Prop :=
  Returns data ∧ ∀ frame : Frame, frame.bytes = data → Agrees frame

/-- The two tags of a header, as they are told. -/
def TwoTags (data : Data) : Prop :=
  wordAt data 12 = .ok IEEE_802_1Q ∧ wordAt data 16 = .ok IEEE_802_1Q ∨
    wordAt data 12 = .ok IEEE_802_1AD

/-- There is less than an EtherType, or enough for a tag and, behind two tags, all of their bytes
with the whole EtherType or none of it. -/
def Readable (data : Data) : Prop :=
  data.length < 13 ∨ 18 ≤ data.length ∧ (TwoTags data → data.length = 20 ∨ 22 ≤ data.length)

/-! ### Addresses -/

variable {data : Data}

theorem byteAt_getD {pos : Nat} (inside : pos < data.length) :
    byteAt data pos = .ok (data.getD pos 0) := by
  rw [byteAt, List.getD_eq_getElem?_getD, List.getElem?_eq_getElem inside]
  rfl

theorem dstMac_read : if data.length < 6 then getDstMac data = .ofBytes fun _ => 0
    else ∀ i : Fin 6, byteAt data i = .ok ((getDstMac data).mac i) := by
  by_cases short : data.length < 6
  · rw [if_pos short, getDstMac, if_pos short]
  · rw [if_neg short]
    intro i
    rw [byteAt_getD (by omega), getDstMac, if_neg short, MacAddress.ofBytes]

theorem srcMac_read : if data.length < 12 then getSrcMac data = .ofBytes fun _ => 0
    else ∀ i : Fin 6, byteAt data (6 + i) = .ok ((getSrcMac data).mac i) := by
  by_cases short : data.length < 12
  · rw [if_pos short, getSrcMac, if_pos short]
  · rw [if_neg short]
    intro i
    rw [byteAt_getD (by omega), getSrcMac, if_neg short, MacAddress.ofBytes]

/-! ### Bytes that are read -/

theorem returns_short (short : data.length < 13) : Returns data := by
  have frameType : getFrameType data = .ok none := by rw [getFrameType, if_pos short]
  refine ⟨⟨_, frameType, fun _ => rfl⟩, ⟨0, ?_, fun _ _ _ => rfl⟩, ⟨0, ?_, fun _ => rfl⟩,
    ⟨0, ?_, fun _ => rfl⟩, dstMac_read, srcMac_read⟩
  · rw [getPayloadEtherType, if_pos short]
  · rw [getQTci, if_pos (by omega)]
  · rw [getAdTci, if_pos (by omega)]

/-- With eighteen bytes there are four words behind the addresses, all but the last inside. -/
theorem words_inside (long : 18 ≤ data.length) : ∃ tpid tci next,
    wordAt data 12 = .ok tpid ∧ wordAt data 14 = .ok tci ∧ wordAt data 16 = .ok next := by
  obtain ⟨tpid, at12⟩ : ∃ n, wordAt data 12 = .ok n := wordAt_inside (by omega)
  obtain ⟨tci, at14⟩ : ∃ n, wordAt data 14 = .ok n := wordAt_inside (by omega)
  obtain ⟨next, at16⟩ : ∃ n, wordAt data 16 = .ok n := wordAt_inside (by omega)
  exact ⟨tpid, tci, next, at12, at14, at16⟩

theorem getFrameType_twoTags (long : 18 ≤ data.length) (two : TwoTags data) :
    getFrameType data = .ok (some .ieee8021AD) := by
  obtain ⟨tpid, tci, next, at12, -, at16⟩ := words_inside long
  rw [getFrameType, if_neg (by omega), at12, at16]
  rcases two with ⟨first, second⟩ | first
  · cases at12.symm.trans first
    cases at16.symm.trans second
    rfl
  · cases at12.symm.trans first
    rfl

theorem getPayloadEtherType_twoTags (long : 18 ≤ data.length) (two : TwoTags data) :
    getPayloadEtherType data = if data.length < 21 then .ok 0 else wordAt data 20 := by
  obtain ⟨tpid, tci, next, at12, -, at16⟩ := words_inside long
  rw [getPayloadEtherType, if_neg (by omega), at12]
  rcases two with ⟨first, second⟩ | first
  · cases at12.symm.trans first
    cases at16.symm.trans second
    simp only [bind, Except.bind, if_true, if_neg (show ¬ data.length < 17 by omega), at16]
    rfl
  · cases at12.symm.trans first
    rfl

theorem getQTci_twoTags (long : 18 ≤ data.length) (two : TwoTags data) :
    getQTci data = wordAt data 18 := by
  obtain ⟨tpid, tci, next, at12, at14, at16⟩ := words_inside long
  rw [getQTci, if_neg (by omega), at12]
  rcases two with ⟨first, second⟩ | first
  · cases at12.symm.trans first
    cases at16.symm.trans second
    simp only [bind, Except.bind, if_true, at14, at16]
    rfl
  · cases at12.symm.trans first
    rfl

theorem getAdTci_long (long : 18 ≤ data.length) : ∃ adTci, getAdTci data = .ok adTci := by
  obtain ⟨tpid, tci, next, at12, at14, at16⟩ := words_inside long
  rw [getAdTci, if_neg (by omega), at12, at14, at16]
  simp only [bind, Except.bind]
  split
  · exact ⟨tci, rfl⟩
  · exact ⟨0, rfl⟩

theorem headLength_twoTags (long : 18 ≤ data.length) (two : TwoTags data) :
    headLength data = .ok 22 := by
  rw [headLength, getFrameType_twoTags long two]
  rfl

theorem returns_twoTags (long : 20 ≤ data.length) (two : TwoTags data)
    (whole : data.length = 20 ∨ 22 ≤ data.length) : Returns data := by
  have long' : 18 ≤ data.length := by omega
  obtain ⟨adTci, readAd⟩ := getAdTci_long long'
  obtain ⟨qTci, at18⟩ : ∃ n, wordAt data 18 = .ok n := wordAt_inside (by omega)
  have etherType : ∃ etherType, getPayloadEtherType data = .ok etherType ∧
      (data.length < 22 → etherType = 0) := by
    rw [getPayloadEtherType_twoTags long' two]
    rcases whole with exactly | whole
    · rw [if_pos (by omega)]
      exact ⟨0, rfl, fun _ => rfl⟩
    · obtain ⟨etherType, at20⟩ : ∃ n, wordAt data 20 = .ok n := wordAt_inside (by omega)
      rw [if_neg (by omega)]
      exact ⟨etherType, at20, fun cut => absurd whole (by omega)⟩
  obtain ⟨etherType, read, cut⟩ := etherType
  refine ⟨⟨_, getFrameType_twoTags long' two, fun short => absurd short (by omega)⟩,
    ⟨etherType, read, ?_⟩, ⟨qTci, (getQTci_twoTags long' two).trans at18, fun short => absurd short (by omega)⟩,
    ⟨adTci, readAd, fun short => absurd short (by omega)⟩, dstMac_read, srcMac_read⟩
  intro head length
  cases (headLength_twoTags long' two).symm.trans length
  exact cut

/-- With one tag at most, eighteen bytes hold the header. -/
theorem returns_oneTag (long : 18 ≤ data.length) (one : ¬ TwoTags data) : Returns data := by
  obtain ⟨tpid, tci, next, at12, at14, at16⟩ := words_inside long
  obtain ⟨adTci, readAd⟩ := getAdTci_long long
  have notAd : tpid ≠ IEEE_802_1AD := by
    rintro rfl
    exact one (.inr at12)
  by_cases isQ : tpid = IEEE_802_1Q
  · subst isQ
    have other : next ≠ IEEE_802_1Q := by
      rintro rfl
      exact one (.inl ⟨at12, at16⟩)
    have type : getFrameType data = .ok (some .ieee8021Q) := by
      rw [getFrameType, if_neg (by omega), at12, at16]
      simp [bind, Except.bind, pure, Except.pure, other]
    have etherType : getPayloadEtherType data = .ok next := by
      rw [getPayloadEtherType, if_neg (by omega), at12]
      simp only [bind, Except.bind, if_true, if_neg (show ¬ data.length < 17 by omega), at16]
      rw [if_pos other]
      rfl
    have qTci : getQTci data = .ok tci := by
      rw [getQTci, if_neg (by omega), at12]
      simp only [bind, Except.bind, if_true, at14, at16]
      rw [if_pos other]
      rfl
    refine ⟨⟨_, type, fun short => absurd short (by omega)⟩, ⟨next, etherType, ?_⟩,
      ⟨tci, qTci, fun short => absurd short (by omega)⟩,
      ⟨adTci, readAd, fun short => absurd short (by omega)⟩, dstMac_read, srcMac_read⟩
    intro head length cut
    rw [headLength, type] at length
    cases length
    exact absurd cut (Nat.not_lt.mpr long)
  · have type : getFrameType data = .ok (some .eth) := by
      rw [getFrameType, if_neg (by omega), at12, at16]
      simp [bind, Except.bind, pure, Except.pure, isQ, notAd]
    have etherType : getPayloadEtherType data = .ok tpid := by
      rw [getPayloadEtherType, if_neg (by omega), at12]
      simp [bind, Except.bind, pure, Except.pure, isQ, notAd]
    have qTci : getQTci data = .ok 0 := by
      rw [getQTci, if_neg (by omega), at12]
      simp [bind, Except.bind, pure, Except.pure, isQ, notAd]
    refine ⟨⟨_, type, fun short => absurd short (by omega)⟩, ⟨tpid, etherType, ?_⟩,
      ⟨0, qTci, fun _ => rfl⟩, ⟨adTci, readAd, fun short => absurd short (by omega)⟩,
      dstMac_read, srcMac_read⟩
    intro head length cut
    rw [headLength, type] at length
    cases length
    exact absurd (Nat.lt_of_lt_of_le cut (by decide : headSize .eth ≤ 18)) (Nat.not_lt.mpr long)

/-! ### Bytes that are not read -/

theorem getFrameType_cut (some_type : 13 ≤ data.length) (short : data.length < 18) :
    getFrameType data = .error .outOfRange := by
  by_cases head : 14 ≤ data.length
  · exact getFrameType_short head short
  · rw [getFrameType, if_neg (by omega), wordAt_outside (by omega)]
    rfl

theorem readable_of_returns (returns : Returns data) : Readable data := by
  by_contra unreadable
  obtain ⟨some_type, cut⟩ := not_or.mp unreadable
  obtain ⟨frameType, type, -⟩ := returns.frameType
  have long : 18 ≤ data.length := by
    by_contra short
    rw [getFrameType_cut (by omega) (by omega)] at type
    cases type
  obtain ⟨two, part⟩ := Classical.not_imp.mp (not_and.mp cut long)
  obtain ⟨qTci, readQ, -⟩ := returns.qTci
  obtain ⟨etherType, read, -⟩ := returns.etherType
  have inner : 20 ≤ data.length := by
    by_contra short
    rw [getQTci_twoTags long two, wordAt_outside (by omega)] at readQ
    cases readQ
  rw [getPayloadEtherType_twoTags long two, if_neg (by omega), wordAt_outside (by omega)] at read
  cases read

/-! ### Main result -/

theorem agrees_of_long {frame : Frame} (long : 18 ≤ frame.bytes.length) : Agrees frame where
  toRead := read_frame long
  dstMac := getDstMac_bytes frame
  srcMac := getSrcMac_bytes frame
  head := by
    refine ⟨headSize frame.frameType, ?_, drop_headSize frame⟩
    rw [headLength, (read_frame long).frameType]
    rfl

theorem accessors_iff (data : Data) : Accessors data ↔ Readable data := by
  constructor
  · exact fun accessors => readable_of_returns accessors.1
  · rintro (short | ⟨long, whole⟩)
    · refine ⟨returns_short short, fun frame same => ?_⟩
      have head := head_le_bytes frame
      rw [same] at head
      omega
    · refine ⟨?_, ?_⟩
      · by_cases two : TwoTags data
        · have whole := whole two
          exact returns_twoTags (by omega) two whole
        · exact returns_oneTag long two
      · rintro frame rfl
        exact agrees_of_long long

/-- The type of a plain frame without payload is not read. -/
theorem plain_not_read : ¬ ∀ data : Data, Accessors data := by
  intro claim
  rcases (accessors_iff _).mp (claim (List.replicate 14 0)) with short | ⟨long, -⟩
  · exact absurd short (by decide)
  · exact absurd long (by decide)

end Ethernet

end OpenSand
