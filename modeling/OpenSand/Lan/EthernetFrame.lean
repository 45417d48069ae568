import OpenSand.Lib.ByteAccess
import OpenSand.Lan.BlockLanAdaptation
import Mathlib.Tactic.ByContra

/-!
Ethernet frames, plain or with 802.1Q or 802.1ad tags, and how `Ethernet` reads them.

A frame with two tags has 0x8100 in front of both, or 0x9100 in front of the outer one. The
readers check less than they read: they throw on a frame without bytes 16 and 17, even where
these are payload (`getFrameType_short`).
-/

namespace OpenSand

open Bytes (Data toBE ofBE toBE_length ofBE_toBE)

namespace Ethernet

/-! ### Frames -/

def IEEE_802_1Q : UInt16 := 0x8100
def IEEE_802_1AD : UInt16 := 0x9100

inductive FrameType where
  | eth | ieee8021Q | ieee8021AD
deriving DecidableEq, Repr

def headSize : FrameType → Nat
  | .eth => 14
  | .ieee8021Q => 18
  | .ieee8021AD => 22

/-- The tags of a frame; behind an outer 0x9100 the inner TPID does not matter. -/
inductive Tags where
  | none
  | q (tci : UInt16)
  | doubleQ (outer inner : UInt16)
  | ad (outer innerTpid inner : UInt16)
deriving DecidableEq, Repr

/-- A frame whose payload is not one more tag. -/
structure Frame where
  dst : Fin 6 → UInt8
  src : Fin 6 → UInt8
  tags : Tags
  etherType : UInt16
  payload : Data
  not_tag : etherType ≠ IEEE_802_1Q ∧ etherType ≠ IEEE_802_1AD

def word (n : UInt16) : Data := toBE 2 n.toNat

@[simp] theorem word_length (n : UInt16) : (word n).length = 2 := toBE_length 2 _

namespace Tags

def frameType : Tags → FrameType
  | none => .eth
  | q _ => .ieee8021Q
  | doubleQ _ _ | ad _ _ _ => .ieee8021AD

def bytes : Tags → Data
  | none => []
  | q tci => word IEEE_802_1Q ++ word tci
  | doubleQ outer inner =>
      word IEEE_802_1Q ++ (word outer ++ (word IEEE_802_1Q ++ word inner))
  | ad outer innerTpid inner =>
      word IEEE_802_1AD ++ (word outer ++ (word innerTpid ++ word inner))

/-- The TCI of the 802.1Q tag, the inner one of two. -/
def qTci : Tags → UInt16
  | none => 0
  | q tci => tci
  | doubleQ _ inner | ad _ _ inner => inner

def adTci : Tags → UInt16
  | doubleQ outer _ | ad outer _ _ => outer
  | _ => 0

end Tags

namespace Frame

def frameType (frame : Frame) : FrameType := frame.tags.frameType

/-- The addresses, on twelve bytes. -/
def addresses (frame : Frame) : Data := List.ofFn frame.dst ++ List.ofFn frame.src

def bytes (frame : Frame) : Data :=
  frame.addresses ++ (frame.tags.bytes ++ (word frame.etherType ++ frame.payload))

@[simp] theorem addresses_length (frame : Frame) : frame.addresses.length = 12 := by
  simp [addresses]

theorem bytes_length (frame : Frame) :
    frame.bytes.length = headSize frame.frameType + frame.payload.length := by
  have tags : frame.tags.bytes.length + 14 = headSize frame.frameType := by
    rw [frameType]
    cases frame.tags <;> simp [Tags.bytes, Tags.frameType, headSize]
  simp only [bytes, List.length_append, addresses_length, word_length]
  omega

end Frame

/-! ### Readers -/

def byteAt (data : Data) (pos : Nat) : Except Fault UInt8 :=
  data[pos]?.elim (.error .outOfRange) .ok

def wordAt (data : Data) (pos : Nat) : Except Fault UInt16 := do
  let high ← byteAt data pos
  let low ← byteAt data (pos + 1)
  return .ofNat (ofBE [high, low])

/-- The type of a frame, none where the code has an error value. -/
def getFrameType (data : Data) : Except Fault (Option FrameType) :=
  if data.length < 13 then .ok none
  else do
    let etherType ← wordAt data 12
    let etherType2 ← wordAt data 16
    if etherType ≠ IEEE_802_1Q ∧ etherType ≠ IEEE_802_1AD then return some .eth
    else if etherType = IEEE_802_1Q ∧ etherType2 = IEEE_802_1Q then return some .ieee8021AD
    else if etherType = IEEE_802_1Q then return some .ieee8021Q
    else return some .ieee8021AD

/-- The error value is 0. -/
def getPayloadEtherType (data : Data) : Except Fault UInt16 :=
  let behindTwoTags : Except Fault UInt16 :=
    if data.length < 21 then .ok 0 else wordAt data 20
  if data.length < 13 then .ok 0
  else do
    let etherType ← wordAt data 12
    if etherType = IEEE_802_1Q then
      if data.length < 17 then return 0
      else
        let etherType ← wordAt data 16
        if etherType ≠ IEEE_802_1Q then return etherType else behindTwoTags
    else if etherType = IEEE_802_1AD then behindTwoTags
    else return etherType

def getQTci (data : Data) : Except Fault UInt16 :=
  if data.length < 17 then .ok 0
  else do
    let etherType ← wordAt data 12
    if etherType = IEEE_802_1Q then
      let tci ← wordAt data 14
      let etherType ← wordAt data 16
      if etherType ≠ IEEE_802_1Q then return tci else wordAt data 18
    else if etherType = IEEE_802_1AD then wordAt data 18
    else return 0

def getAdTci (data : Data) : Except Fault UInt16 :=
  if data.length < 17 then .ok 0
  else do
    let etherType ← wordAt data 12
    let etherType2 ← wordAt data 16
    if (etherType = IEEE_802_1Q ∧ etherType2 = IEEE_802_1Q) ∨ etherType = IEEE_802_1AD then
      wordAt data 14
    else return 0

/-! ### What is read of a frame -/

theorem byteAt_append {pre post : Data} {byte : UInt8} {pos : Nat} (hpos : pre.length = pos) :
    byteAt (pre ++ byte :: post) pos = .ok byte := by
  subst hpos
  simp [byteAt]

theorem wordAt_append {pre post : Data} {n : UInt16} {pos : Nat} (hpos : pre.length = pos) :
    wordAt (pre ++ (word n ++ post)) pos = .ok n := by
  obtain ⟨high, low, bytes⟩ : ∃ high low, word n = [high, low] := List.length_eq_two.mp (word_length n)
  have value : ofBE [high, low] = n.toNat := by
    rw [← bytes]
    exact ofBE_toBE n.toNat_lt
  have first : byteAt (pre ++ (word n ++ post)) pos = .ok high := by
    rw [bytes]
    exact byteAt_append hpos
  have second : byteAt (pre ++ (word n ++ post)) (pos + 1) = .ok low := by
    rw [bytes, List.cons_append, List.append_cons]
    exact byteAt_append (by simp [hpos])
  simp only [wordAt, first, second, bind, Except.bind, pure, Except.pure, value,
    UInt16.ofNat_toNat]

/-- Two bytes that are there are read. -/
theorem wordAt_inside {data : Data} {pos : Nat} (inside : pos + 1 < data.length) :
    ∃ n, wordAt data pos = .ok n := by
  have first : data[pos]? = some data[pos] := List.getElem?_eq_getElem (by omega)
  have second : data[pos + 1]? = some data[pos + 1] := List.getElem?_eq_getElem inside
  exact ⟨_, by simp only [wordAt, byteAt, first, second, Option.elim, bind, Except.bind]; rfl⟩

theorem wordAt_outside {data : Data} {pos : Nat} (outside : data.length ≤ pos + 1) :
    wordAt data pos = .error .outOfRange := by
  have second : byteAt data (pos + 1) = .error .outOfRange := by
    rw [byteAt, List.getElem?_eq_none outside]
    rfl
  rw [wordAt, second]
  cases first : byteAt data pos with
  | error fault =>
      rw [byteAt] at first
      cases found : data[pos]? with
      | none =>
          rw [found] at first
          cases first
          rfl
      | some byte =>
          rw [found] at first
          cases first
  | ok byte => rfl

variable {frame : Frame}

/-- A word among the fields in front of the payload. -/
theorem wordAt_field {fields : List Data} {payload : Data} {n : UInt16} {i pos : Nat}
    (found : fields[i]? = some (word n)) (hpos : (fields.take i).flatten.length = pos) :
    wordAt (fields.flatten ++ payload) pos = .ok n := by
  rw [Bytes.field_split found]
  exact wordAt_append hpos

theorem wordAt_plain (tags : frame.tags = .none) :
    wordAt frame.bytes 12 = .ok frame.etherType := by
  have fields : frame.bytes = [frame.addresses, word frame.etherType].flatten ++ frame.payload := by
    simp [Frame.bytes, tags, Tags.bytes]
  rw [fields]
  exact @wordAt_field _ _ _ 1 _ rfl (by simp)

theorem wordAt_q {tci : UInt16} (tags : frame.tags = .q tci) :
    wordAt frame.bytes 12 = .ok IEEE_802_1Q ∧ wordAt frame.bytes 14 = .ok tci ∧
      wordAt frame.bytes 16 = .ok frame.etherType := by
  have fields : frame.bytes = [frame.addresses, word IEEE_802_1Q, word tci,
      word frame.etherType].flatten ++ frame.payload := by
    simp [Frame.bytes, tags, Tags.bytes]
  rw [fields]
  exact ⟨@wordAt_field _ _ _ 1 _ rfl (by simp), @wordAt_field _ _ _ 2 _ rfl (by simp),
    @wordAt_field _ _ _ 3 _ rfl (by simp)⟩

theorem wordAt_two {tpid outer innerTpid inner : UInt16}
    (tags : frame.tags.bytes = word tpid ++ (word outer ++ (word innerTpid ++ word inner))) :
    wordAt frame.bytes 12 = .ok tpid ∧ wordAt frame.bytes 14 = .ok outer ∧
      wordAt frame.bytes 16 = .ok innerTpid ∧ wordAt frame.bytes 18 = .ok inner ∧
      wordAt frame.bytes 20 = .ok frame.etherType := by
  have fields : frame.bytes = [frame.addresses, word tpid, word outer, word innerTpid, word inner,
      word frame.etherType].flatten ++ frame.payload := by
    simp [Frame.bytes, tags]
  rw [fields]
  exact ⟨@wordAt_field _ _ _ 1 _ rfl (by simp), @wordAt_field _ _ _ 2 _ rfl (by simp),
    @wordAt_field _ _ _ 3 _ rfl (by simp), @wordAt_field _ _ _ 4 _ rfl (by simp),
    @wordAt_field _ _ _ 5 _ rfl (by simp)⟩

/-- What the readers give of a frame. -/
structure Read (frame : Frame) : Prop where
  frameType : getFrameType frame.bytes = .ok (some frame.frameType)
  etherType : getPayloadEtherType frame.bytes = .ok frame.etherType
  qTci : getQTci frame.bytes = .ok frame.tags.qTci
  adTci : getAdTci frame.bytes = .ok frame.tags.adTci

theorem tpids_apart : IEEE_802_1AD ≠ IEEE_802_1Q := by decide

theorem read_plain (tags : frame.tags = .none) (long : 18 ≤ frame.bytes.length) : Read frame := by
  have at12 := wordAt_plain tags
  obtain ⟨other, at16⟩ : ∃ n, wordAt frame.bytes 16 = .ok n := wordAt_inside (by omega)
  obtain ⟨notQ, notAd⟩ := frame.not_tag
  have frameType : frame.frameType = .eth := by rw [Frame.frameType, tags]; rfl
  constructor
  · rw [getFrameType, if_neg (by omega), at12, at16, frameType]
    simp [bind, Except.bind, pure, Except.pure, notQ, notAd]
  · rw [getPayloadEtherType, if_neg (by omega), at12]
    simp [bind, Except.bind, pure, Except.pure, notQ, notAd]
  · rw [getQTci, if_neg (by omega), at12, tags]
    simp [bind, Except.bind, pure, Except.pure, notQ, notAd, Tags.qTci]
  · rw [getAdTci, if_neg (by omega), at12, at16, tags]
    simp [bind, Except.bind, pure, Except.pure, notQ, notAd, Tags.adTci]

theorem read_q {tci : UInt16} (tags : frame.tags = .q tci) : Read frame := by
  obtain ⟨at12, at14, at16⟩ := wordAt_q tags
  obtain ⟨notQ, -⟩ := frame.not_tag
  have frameType : frame.frameType = .ieee8021Q := by rw [Frame.frameType, tags]; rfl
  have long := frame.bytes_length
  rw [frameType, headSize] at long
  constructor
  · rw [getFrameType, if_neg (by omega), at12, at16, frameType]
    simp [bind, Except.bind, pure, Except.pure, notQ]
  · rw [getPayloadEtherType, if_neg (by omega), at12]
    simp [bind, Except.bind, pure, Except.pure, at16, notQ]
    omega
  · rw [getQTci, if_neg (by omega), at12, at14, at16, tags]
    simp [bind, Except.bind, pure, Except.pure, notQ, Tags.qTci]
  · rw [getAdTci, if_neg (by omega), at12, at16, tags]
    simp [bind, Except.bind, pure, Except.pure, notQ, tpids_apart.symm, Tags.adTci]

theorem read_two {tpid outer innerTpid inner : UInt16}
    (tags : frame.tags.bytes = word tpid ++ (word outer ++ (word innerTpid ++ word inner)))
    (two : tpid = IEEE_802_1Q ∧ innerTpid = IEEE_802_1Q ∨ tpid = IEEE_802_1AD)
    (frameType : frame.frameType = .ieee8021AD) (qTci : frame.tags.qTci = inner)
    (adTci : frame.tags.adTci = outer) : Read frame := by
  obtain ⟨at12, at14, at16, at18, at20⟩ := wordAt_two tags
  have long := frame.bytes_length
  rw [frameType, headSize] at long
  have short : ∀ n ≤ 22, ¬ frame.bytes.length < n := fun n _ => by omega
  rcases two with ⟨rfl, rfl⟩ | rfl
  · constructor
    · rw [getFrameType, if_neg (short 13 (by decide)), at12, at16, frameType]
      rfl
    · rw [getPayloadEtherType, if_neg (short 13 (by decide)), if_neg (short 21 (by decide)),
        if_neg (short 17 (by decide)), at12, at16, at20]
      rfl
    · rw [getQTci, if_neg (short 17 (by decide)), at12, at14, at16, at18, qTci]
      rfl
    · rw [getAdTci, if_neg (short 17 (by decide)), at12, at14, at16, adTci]
      rfl
  · constructor
    · rw [getFrameType, if_neg (short 13 (by decide)), at12, at16, frameType]
      rfl
    · rw [getPayloadEtherType, if_neg (short 13 (by decide)), if_neg (short 21 (by decide)), at12,
        at20]
      rfl
    · rw [getQTci, if_neg (short 17 (by decide)), at12, at18, qTci]
      rfl
    · rw [getAdTci, if_neg (short 17 (by decide)), at12, at14, at16, adTci]
      rfl

/-- A frame of 18 bytes or more is read as it is. -/
theorem read_frame (long : 18 ≤ frame.bytes.length) : Read frame := by
  rcases tags : frame.tags with _ | tci | ⟨outer, inner⟩ | ⟨outer, innerTpid, inner⟩
  · exact read_plain tags long
  · exact read_q tags
  · refine read_two (by rw [tags]; rfl) (.inl ⟨rfl, rfl⟩) ?_ (by rw [tags]; rfl) (by rw [tags]; rfl)
    rw [Frame.frameType, tags]
    rfl
  · refine read_two (by rw [tags]; rfl) (.inr rfl) ?_ (by rw [tags]; rfl) (by rw [tags]; rfl)
    rw [Frame.frameType, tags]
    rfl

/-- The reader of the type throws on a shorter frame. -/
theorem getFrameType_short {data : Data} (head : 14 ≤ data.length) (short : data.length < 18) :
    getFrameType data = .error .outOfRange := by
  obtain ⟨n, at12⟩ : ∃ n, wordAt data 12 = .ok n := wordAt_inside (by omega)
  rw [getFrameType, if_neg (by omega), at12, wordAt_outside (by omega)]
  rfl

theorem head_le_bytes (frame : Frame) : 14 ≤ frame.bytes.length := by
  have head : 14 ≤ headSize frame.frameType := by
    cases frame.frameType <;> decide
  rw [frame.bytes_length]
  omega

/-- An address is at its bytes. -/
theorem getD_ofFn {before rest : Data} {mac : Fin 6 → UInt8} {pos : Nat} (i : Fin 6)
    (hpos : before.length = pos) :
    (before ++ (List.ofFn mac ++ rest)).getD (pos + i) 0 = mac i := by
  subst hpos
  rw [List.getD_eq_getElem?_getD, List.getElem?_append_right (Nat.le_add_right _ _),
    Nat.add_sub_cancel_left, List.getElem?_append_left (by simp), List.getElem?_ofFn]
  simp

theorem getDstMac_bytes (frame : Frame) : getDstMac frame.bytes = .ofBytes frame.dst := by
  have head := head_le_bytes frame
  rw [getDstMac, if_neg (by omega), Frame.bytes, Frame.addresses, List.append_assoc]
  congr 1
  funext i
  simpa using @getD_ofFn [] _ frame.dst 0 i rfl

theorem getSrcMac_bytes (frame : Frame) : getSrcMac frame.bytes = .ofBytes frame.src := by
  have head := head_le_bytes frame
  rw [getSrcMac, if_neg (by omega), Frame.bytes, Frame.addresses, List.append_assoc]
  congr 1
  funext i
  exact getD_ofFn i (by simp)

theorem drop_headSize (frame : Frame) :
    frame.bytes.drop (headSize frame.frameType) = frame.payload := by
  have parts : frame.bytes = (frame.addresses ++ (frame.tags.bytes ++ word frame.etherType)) ++
      frame.payload := by
    simp [Frame.bytes]
  have total := frame.bytes_length
  rw [parts]
  refine List.drop_left' ?_
  rw [parts, List.length_append] at total
  omega

/-! ### Every frame -/

/-- The word that is read at a position is there. -/
theorem drop_of_wordAt {data : Data} {pos : Nat} {n : UInt16} (found : wordAt data pos = .ok n) :
    data.drop pos = word n ++ data.drop (pos + 2) := by
  have inside : pos + 1 < data.length := by
    by_contra outside
    rw [wordAt_outside (Nat.le_of_not_lt outside)] at found
    cases found
  have first : data[pos]? = some data[pos] := List.getElem?_eq_getElem (by omega)
  have second : data[pos + 1]? = some data[pos + 1] := List.getElem?_eq_getElem inside
  simp only [wordAt, byteAt, first, second, Option.elim, bind, Except.bind, pure, Except.pure,
    Except.ok.injEq] at found
  have small : ofBE [data[pos], data[pos + 1]] < 256 ^ 2 := Bytes.ofLE_lt _
  have value : ofBE [data[pos], data[pos + 1]] = n.toNat := by
    rw [← found, UInt16.toNat_ofNat_of_lt' small]
  have word_eq : word n = [data[pos], data[pos + 1]] := by
    refine List.reverse_injective (Bytes.ofLE_injective (by simp) ?_)
    rw [Bytes.ofLE_reverse, Bytes.ofLE_reverse, value, word, ofBE_toBE n.toNat_lt]
  rw [word_eq, List.drop_eq_getElem_cons (by omega), List.drop_eq_getElem_cons inside]
  rfl

theorem exists_addresses {data : Data} (head : 12 ≤ data.length) :
    ∃ dst src : Fin 6 → UInt8, data = List.ofFn dst ++ List.ofFn src ++ data.drop 12 := by
  have bytes : ∀ pos, pos + 6 ≤ data.length →
      ∃ mac : Fin 6 → UInt8, (data.drop pos).take 6 = List.ofFn mac := by
    intro pos inside
    refine ⟨fun i => data.getD (pos + i) 0, List.ext_getElem? fun i => ?_⟩
    rw [List.getElem?_take, List.getElem?_ofFn, List.getElem?_drop]
    by_cases small : i < 6
    · rw [if_pos small, dif_pos small, List.getD_eq_getElem?_getD,
        List.getElem?_eq_getElem (by omega)]
      rfl
    · rw [if_neg small, dif_neg small]
  obtain ⟨dst, atDst⟩ := bytes 0 (by omega)
  obtain ⟨src, atSrc⟩ := bytes 6 (by omega)
  refine ⟨dst, src, ?_⟩
  calc data = (data.drop 0).take 6 ++ ((data.drop 6).take 6 ++ (data.drop 6).drop 6) := by
        rw [List.take_append_drop, List.drop_zero, List.take_append_drop]
    _ = _ := by rw [atDst, atSrc, List.drop_drop, List.append_assoc]

/-- Bytes with a whole header, whose payload is not one more tag, are those of a frame. -/
theorem exists_frame {data : Data} (head : 14 ≤ data.length)
    (oneTag : wordAt data 12 = .ok IEEE_802_1Q → 18 ≤ data.length)
    (twoTags : wordAt data 12 = .ok IEEE_802_1Q ∧ wordAt data 16 = .ok IEEE_802_1Q ∨
      wordAt data 12 = .ok IEEE_802_1AD → 22 ≤ data.length)
    (payload : ∀ etherType, getPayloadEtherType data = .ok etherType →
      etherType ≠ IEEE_802_1Q ∧ etherType ≠ IEEE_802_1AD) :
    ∃ frame : Frame, frame.bytes = data := by
  obtain ⟨dst, src, addresses⟩ := exists_addresses (by omega : 12 ≤ data.length)
  obtain ⟨tpid, at12⟩ : ∃ n, wordAt data 12 = .ok n := wordAt_inside (by omega)
  have behind12 := drop_of_wordAt at12
  have built : ∀ (tags : Tags) (etherType : UInt16) (rest : Data)
      (_ : etherType ≠ IEEE_802_1Q ∧ etherType ≠ IEEE_802_1AD),
      data.drop 12 = tags.bytes ++ (word etherType ++ rest) → ∃ frame : Frame, frame.bytes = data := by
    intro tags etherType rest not_tag parts
    refine ⟨⟨dst, src, tags, etherType, rest, not_tag⟩, ?_⟩
    rw [addresses, parts]
    rfl
  have twoTagged : 22 ≤ data.length → (∀ etherType, wordAt data 20 = .ok etherType →
      etherType ≠ IEEE_802_1Q ∧ etherType ≠ IEEE_802_1AD) →
      (∀ outer innerTpid inner, wordAt data 16 = .ok innerTpid → ∃ tags : Tags, tags.bytes =
        word tpid ++ (word outer ++ (word innerTpid ++ word inner))) →
      ∃ frame : Frame, frame.bytes = data := by
    intro long payload tagged
    obtain ⟨outer, at14⟩ : ∃ n, wordAt data 14 = .ok n := wordAt_inside (by omega)
    obtain ⟨innerTpid, at16⟩ : ∃ n, wordAt data 16 = .ok n := wordAt_inside (by omega)
    obtain ⟨inner, at18⟩ : ∃ n, wordAt data 18 = .ok n := wordAt_inside (by omega)
    obtain ⟨etherType, at20⟩ : ∃ n, wordAt data 20 = .ok n := wordAt_inside (by omega)
    obtain ⟨tags, bytes⟩ := tagged outer innerTpid inner at16
    refine built tags etherType (data.drop 22) (payload etherType at20) ?_
    rw [bytes, behind12, drop_of_wordAt at14, drop_of_wordAt at16, drop_of_wordAt at18,
      drop_of_wordAt at20]
    simp
  by_cases isQ : tpid = IEEE_802_1Q
  · subst isQ
    have long := oneTag at12
    obtain ⟨tci, at14⟩ : ∃ n, wordAt data 14 = .ok n := wordAt_inside (by omega)
    obtain ⟨next, at16⟩ : ∃ n, wordAt data 16 = .ok n := wordAt_inside (by omega)
    by_cases again : next = IEEE_802_1Q
    · subst again
      have long := twoTags (.inl ⟨at12, at16⟩)
      refine twoTagged long (fun etherType at20 => payload etherType ?_) ?_
      · rw [getPayloadEtherType, if_neg (by omega : ¬ data.length < 13),
          if_neg (by omega : ¬ data.length < 21), if_neg (by omega : ¬ data.length < 17), at12, at16,
          at20]
        rfl
      · intro outer innerTpid inner found
        cases at16.symm.trans found
        exact ⟨.doubleQ outer inner, rfl⟩
    · have type : getPayloadEtherType data = .ok next := by
        rw [getPayloadEtherType, if_neg (by omega), at12]
        simp [bind, Except.bind, pure, Except.pure, at16, again]
        omega
      refine built (.q tci) next (data.drop 18) (payload next type) ?_
      rw [behind12, drop_of_wordAt at14, drop_of_wordAt at16]
      simp [Tags.bytes]
  · by_cases isAd : tpid = IEEE_802_1AD
    · subst isAd
      have long := twoTags (.inr at12)
      refine twoTagged long (fun etherType at20 => payload etherType ?_) ?_
      · rw [getPayloadEtherType, if_neg (by omega : ¬ data.length < 13),
          if_neg (by omega : ¬ data.length < 21), at12, at20]
        rfl
      · exact fun outer innerTpid inner _ => ⟨.ad outer innerTpid inner, rfl⟩
    · exact built .none tpid (data.drop 14) ⟨isQ, isAd⟩ behind12

end Ethernet

end OpenSand
