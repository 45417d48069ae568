import OpenSand.Common.NetPacket
import OpenSand.Lib.ByteAccess

/-!
The packets of a frame (`EncapPlugin::EncapPacketHandler::getEncapsulatedPackets`).

A frame holds its packets one behind the other between its header and a trailer, and each of them
says its length. The handler of the packets is a parameter. What it is asked for is never compared
with the payload: `packets_iff` says which payloads are split inside of their bytes.
-/

namespace OpenSand.EncapPlugin

open Bytes (Data read substr)

/-- A subtraction of sizes. -/
def sizeSub (a b : Nat) : Nat := if b ≤ a then a - b else 2 ^ 64 + a - b

/-- A frame (`NetContainer`, `DvbFrameTpl`). -/
structure DvbFrame where
  data : Data
  headerLength : Nat
  trailerLength : Nat
  maxSize : Nat
  numPackets : Nat

namespace DvbFrame

def new (header : Data) (maxSize : Nat) : DvbFrame := ⟨header, header.length, 0, maxSize, 0⟩

variable (frame : DvbFrame)

def getTotalLength : Nat := frame.data.length

def getPayloadLength : Nat :=
  sizeSub (sizeSub frame.getTotalLength frame.headerLength) frame.trailerLength

def getPayload : Except Fault Data :=
  substr frame.headerLength frame.getPayloadLength frame.data

/-- `getPayload(pos)`: the length is still the one of the whole payload. -/
def getPayloadFrom (pos : Nat) : Except Fault Data :=
  substr (frame.headerLength + pos) frame.getPayloadLength frame.data

def getFreeSpace : Nat := sizeSub frame.maxSize frame.getTotalLength

def addPacket (packet : NetPacket) : Bool × DvbFrame :=
  if packet.data.length > frame.getFreeSpace then (false, frame)
  else (true, { frame with
    data := frame.data ++ packet.data
    numPackets := (frame.numPackets + 1) % 2 ^ 16 })

/-- Append the physical part, or replace the one at the message length. -/
def setCn (messageLength : Nat) (phy : Data) : Except Fault DvbFrame :=
  if frame.trailerLength = 0 then
    .ok { frame with data := frame.data ++ phy, trailerLength := phy.length }
  else do
    let bytes ← read 0 frame.trailerLength phy
    let after ← substr messageLength frame.data.length frame.data
    return { frame with
      data := frame.data.take messageLength ++ bytes ++ after.drop frame.trailerLength }

/-- Packets that are all added. -/
def appendAll : DvbFrame → List NetPacket → Option DvbFrame
  | frame, [] => some frame
  | frame, packet :: packets =>
      match frame.addPacket packet with
      | (true, added) => appendAll added packets
      | (false, _) => none

end DvbFrame

/-- How a handler reads packets: the bytes that tell a length, those of the header that it then
reads, and the packet that it builds from the first bytes of some data, or null. -/
structure EncapPacketHandler where
  lengthBytes : Nat
  getLength : Data → Nat
  headerBytes : Data → Nat
  build : Data → Nat → Option NetPacket

namespace EncapPacketHandler

variable (handler : EncapPacketHandler)

/-- One packet of the payload and its length, unless there is no data. The strings given to the
handler end with a null byte. The places of the payload that are looked at are kept beside. -/
def getPacket (frame : DvbFrame) (previousLength : Nat) :
    Except Fault (Option (Nat × Option NetPacket) × List (Nat × Nat)) := do
  let string ← frame.getPayloadFrom previousLength
  let field ← read 0 handler.lengthBytes (string ++ [0])
  let currentLength := handler.getLength field
  if currentLength = 0 then
    return (none, [(previousLength, handler.lengthBytes)])
  else
    let _ ← read 0 (handler.headerBytes field) (string ++ [0])
    return (some (currentLength, handler.build string currentLength),
      [(previousLength, handler.lengthBytes), (previousLength, handler.headerBytes field),
        (previousLength, currentLength)])

/-- Split the payload of a frame in a number of packets, from a position on. -/
def getEncapsulatedPackets (frame : DvbFrame) :
    Nat → Nat → Except Fault (Option (List (Option NetPacket)) × List (Nat × Nat))
  | 0, _ => .ok (some [], [])
  | count + 1, previousLength => do
      match ← handler.getPacket frame previousLength with
      | (none, places) => return (none, places)
      | (some (currentLength, current), places) =>
          let (packets, looked) ← getEncapsulatedPackets frame count (previousLength + currentLength)
          return (packets.map (current :: ·), places ++ looked)

/-- A packet that its own bytes tell. -/
structure Own (packet : NetPacket) : Prop where
  nonempty : packet.data ≠ []
  lengthBytes : handler.lengthBytes ≤ packet.data.length
  length : handler.getLength (packet.data.take handler.lengthBytes) = packet.data.length
  headerBytes : handler.headerBytes (packet.data.take handler.lengthBytes) ≤ packet.data.length
  built : ∀ rest, handler.build (packet.data ++ rest) packet.data.length = some packet

/-- The places are in the payload of the frame. -/
def InPayload (frame : DvbFrame) (looked : List (Nat × Nat)) : Prop :=
  ∀ place ∈ looked, ∃ payload, frame.getPayload = .ok payload ∧ place.1 + place.2 ≤ payload.length

/-- The packets of a frame are got, from its payload. -/
def Gives (packets : List NetPacket) (frame : DvbFrame) : Prop :=
  ∃ looked, handler.getEncapsulatedPackets frame packets.length 0 =
    .ok (some (packets.map some), looked) ∧ InPayload frame looked

/-- Splitting a frame ends with a list or without, from its payload. -/
def Ends (frame : DvbFrame) (count : Nat) : Prop :=
  ∃ packets looked, handler.getEncapsulatedPackets frame count 0 = .ok (packets, looked) ∧
    InPayload frame looked

/-- A payload starts with a number of whole packets, or with fewer and a length of zero. -/
def Splits : Nat → Data → Prop
  | 0, _ => True
  | count + 1, payload =>
      let field := payload.take handler.lengthBytes
      handler.lengthBytes ≤ payload.length ∧
        (handler.getLength field = 0 ∨
          handler.headerBytes field ≤ payload.length ∧ handler.getLength field ≤ payload.length ∧
            Splits count (payload.drop (handler.getLength field)))

/-! ### Frames -/

section Frames

variable {frame built : DvbFrame} {packets : List NetPacket}

theorem appendAll_eq_some (added : frame.appendAll packets = some built) :
    built.data = frame.data ++ packets.flatMap NetPacket.data ∧
      built.headerLength = frame.headerLength ∧ built.trailerLength = frame.trailerLength := by
  induction packets generalizing frame with
  | nil =>
      cases added
      exact ⟨(List.append_nil _).symm, rfl, rfl⟩
  | cons packet packets ih =>
      rw [DvbFrame.appendAll, DvbFrame.addPacket] at added
      split at added
      next split_eq =>
        split at split_eq
        · cases split_eq
        · cases split_eq
          obtain ⟨data, header, trailer⟩ := ih added
          refine ⟨?_, header, trailer⟩
          rw [data, List.append_assoc]
          rfl
      next => cases added

theorem getPayload_eq {header payload trailer : Data} (data : frame.data = header ++ (payload ++ trailer))
    (headerLength : frame.headerLength = header.length)
    (trailerLength : frame.trailerLength = trailer.length) : frame.getPayload = .ok payload := by
  have length : frame.getPayloadLength = payload.length := by
    rw [DvbFrame.getPayloadLength, DvbFrame.getTotalLength, data, headerLength, trailerLength,
      List.length_append, List.length_append, sizeSub, sizeSub]
    simp
  rw [DvbFrame.getPayload, length, data]
  exact Bytes.substr_append headerLength.symm rfl

end Frames

/-! ### What is read of a payload -/

variable {handler} {frame : DvbFrame} {payload : Data} {count pos : Nat}

/-- Behind a position of the payload, the string of the frame starts with the rest of the
payload. -/
theorem getPayloadFrom_of_le (got : frame.getPayload = .ok payload) (le : pos ≤ payload.length) :
    ∃ string, frame.getPayloadFrom pos = .ok string ∧ ∀ n, n ≤ (payload.drop pos).length →
      n ≤ string.length ∧ string.take n = (payload.drop pos).take n := by
  rw [DvbFrame.getPayload, substr] at got
  split at got
  next inside =>
    obtain rfl := Except.ok.inj got
    rw [List.length_take, List.length_drop] at le
    refine ⟨_, if_pos (by omega), fun n enough => ?_⟩
    rw [List.drop_take, List.drop_drop] at enough ⊢
    rw [List.length_take] at enough ⊢
    refine ⟨by omega, ?_⟩
    rw [List.take_take, List.take_take]
    congr 1
    omega
  next => cases got

theorem read_string {string : Data} {n : Nat} (enough : n ≤ string.length) :
    read 0 n (string ++ [0]) = .ok (string.take n) := by
  rw [Bytes.read_of_le (by simp; omega), List.drop_zero, List.take_append_of_le_length enough]

theorem inPayload_cons {place : Nat × Nat} {looked : List (Nat × Nat)}
    (got : frame.getPayload = .ok payload) :
    InPayload frame (place :: looked) ↔
      place.1 + place.2 ≤ payload.length ∧ InPayload frame looked := by
  rw [InPayload, List.forall_mem_cons]
  refine and_congr_left fun _ => ⟨?_, fun le => ⟨payload, got, le⟩⟩
  rintro ⟨payload', got', le⟩
  cases got.symm.trans got'
  exact le

theorem getPacket_eq_ok {out : Option (Nat × Option NetPacket) × List (Nat × Nat)} :
    handler.getPacket frame pos = .ok out ↔
      ∃ string field, frame.getPayloadFrom pos = .ok string ∧
        read 0 handler.lengthBytes (string ++ [0]) = .ok field ∧
        (handler.getLength field = 0 ∧ out = (none, [(pos, handler.lengthBytes)]) ∨
          handler.getLength field ≠ 0 ∧
            (∃ header, read 0 (handler.headerBytes field) (string ++ [0]) = .ok header) ∧
            out = (some (handler.getLength field, handler.build string (handler.getLength field)),
              [(pos, handler.lengthBytes), (pos, handler.headerBytes field),
                (pos, handler.getLength field)])) := by
  simp only [getPacket, Bytes.bind_eq_ok]
  refine exists_congr fun string => ?_
  rw [← exists_and_left]
  refine exists_congr fun field => and_congr_right fun _ => and_congr_right fun _ => ?_
  by_cases zero : handler.getLength field = 0
  · rw [if_pos zero]
    constructor
    · intro eq
      exact .inl ⟨zero, (Except.ok.inj eq).symm⟩
    · rintro (⟨-, rfl⟩ | ⟨nonzero, -⟩)
      · rfl
      · exact absurd zero nonzero
  · rw [if_neg zero, Bytes.bind_eq_ok]
    constructor
    · rintro ⟨header, fetched, eq⟩
      exact .inr ⟨zero, ⟨header, fetched⟩, (Except.ok.inj eq).symm⟩
    · rintro (⟨zero', -⟩ | ⟨-, ⟨header, fetched⟩, rfl⟩)
      · exact absurd zero' zero
      · exact ⟨header, fetched, rfl⟩

/-- From a position of the payload, the packets are got inside of it exactly when the rest of it
splits. -/
theorem inside_iff (got : frame.getPayload = .ok payload) (le : pos ≤ payload.length) :
    (∃ packets looked, handler.getEncapsulatedPackets frame count pos = .ok (packets, looked) ∧
      InPayload frame looked) ↔ handler.Splits count (payload.drop pos) := by
  induction count generalizing pos with
  | zero => exact iff_of_true ⟨_, _, rfl, fun _ mem => absurd mem List.not_mem_nil⟩ trivial
  | succ count ih =>
      obtain ⟨string, taken, start⟩ := getPayloadFrom_of_le got le
      have rest : (payload.drop pos).length = payload.length - pos := List.length_drop
      constructor
      · rintro ⟨packets, looked, run, inside⟩
        obtain ⟨out, turn, run⟩ := Bytes.bind_eq_ok.mp run
        obtain ⟨string', field, taken', fetched, cases⟩ := getPacket_eq_ok.mp turn
        cases taken.symm.trans taken'
        rcases cases with ⟨zero, rfl⟩ | ⟨nonzero, -, rfl⟩
        · cases run
          have enough := ((inPayload_cons got).mp inside).1
          obtain ⟨enough', start⟩ := start handler.lengthBytes (by omega)
          rw [read_string enough', start] at fetched
          cases fetched
          exact ⟨by omega, .inl zero⟩
        · obtain ⟨⟨packets', looked'⟩, run', run⟩ := Bytes.bind_eq_ok.mp run
          cases run
          simp only [List.cons_append, List.nil_append, inPayload_cons got] at inside
          obtain ⟨enough, header, whole, inside⟩ := inside
          obtain ⟨enough', start⟩ := start handler.lengthBytes (by omega)
          rw [read_string enough', start] at fetched
          cases fetched
          refine ⟨by omega, .inr ⟨by omega, by omega, ?_⟩⟩
          rw [List.drop_drop]
          exact (ih whole).mp ⟨packets', looked', run', inside⟩
      · rintro ⟨enough, cases⟩
        obtain ⟨enough', eq⟩ := start handler.lengthBytes enough
        have fetched := (read_string enough').trans (congrArg Except.ok eq)
        by_cases zero : handler.getLength ((payload.drop pos).take handler.lengthBytes) = 0
        · refine ⟨none, [(pos, handler.lengthBytes)], ?_, ?_⟩
          · have turn := getPacket_eq_ok.mpr ⟨string, _, taken, fetched, .inl ⟨zero, rfl⟩⟩
            exact Bytes.bind_eq_ok.mpr ⟨_, turn, rfl⟩
          · exact (inPayload_cons got).mpr ⟨by omega, fun _ mem => absurd mem List.not_mem_nil⟩
        · obtain ⟨header, whole, splits⟩ := cases.resolve_left zero
          rw [List.drop_drop] at splits
          obtain ⟨packets, looked, run, inside⟩ := (ih (by omega)).mpr splits
          have turn := getPacket_eq_ok.mpr ⟨string, _, taken, fetched,
            .inr ⟨zero, ⟨_, read_string (start _ header).1⟩, rfl⟩⟩
          refine ⟨_, _, Bytes.bind_eq_ok.mpr ⟨_, turn, Bytes.bind_eq_ok.mpr ⟨_, run, rfl⟩⟩, ?_⟩
          simp only [List.cons_append, List.nil_append, inPayload_cons got]
          exact ⟨by omega, by omega, by omega, inside⟩

theorem ends_iff : handler.Ends frame count ↔
    count = 0 ∨ ∃ payload, frame.getPayload = .ok payload ∧ handler.Splits count payload := by
  cases count with
  | zero => exact iff_of_true ⟨_, _, rfl, fun _ mem => absurd mem List.not_mem_nil⟩ (.inl rfl)
  | succ count =>
      cases got : frame.getPayload with
      | error fault =>
          refine iff_of_false ?_ ?_
          · rintro ⟨packets, looked, run, -⟩
            obtain ⟨out, turn, -⟩ := Bytes.bind_eq_ok.mp run
            obtain ⟨string, -, taken, -⟩ := getPacket_eq_ok.mp turn
            exact absurd (got.symm.trans taken) (by simp)
          · rintro (zero | ⟨payload, got', -⟩)
            · exact absurd zero (Nat.succ_ne_zero _)
            · exact absurd got' (by simp)
      | ok payload =>
          refine (inside_iff got (Nat.zero_le _)).trans ⟨fun splits => .inr ⟨payload, rfl, splits⟩, ?_⟩
          rintro (zero | ⟨payload', eq, splits⟩)
          · exact absurd zero (Nat.succ_ne_zero _)
          · cases eq
            exact splits

/-! ### Packets that were appended -/

variable {packets : List NetPacket}

/-- The packets that the rest of a payload is made of are got in order. -/
theorem gives_from (got : frame.getPayload = .ok payload) (le : pos ≤ payload.length)
    (own : ∀ packet ∈ packets, handler.Own packet)
    (made : payload.drop pos = packets.flatMap NetPacket.data) :
    ∃ looked, handler.getEncapsulatedPackets frame packets.length pos =
      .ok (some (packets.map some), looked) ∧ InPayload frame looked := by
  induction packets generalizing pos with
  | nil => exact ⟨[], rfl, fun _ mem => absurd mem List.not_mem_nil⟩
  | cons packet packets ih =>
      obtain ⟨mine, others⟩ := List.forall_mem_cons.mp own
      obtain ⟨string, taken, start⟩ := getPayloadFrom_of_le got le
      rw [List.flatMap_cons] at made
      have length : (payload.drop pos).length = payload.length - pos := List.length_drop
      have fits : packet.data.length ≤ (payload.drop pos).length := by
        rw [made, List.length_append]
        exact Nat.le_add_right _ _
      have first : ∀ n ≤ packet.data.length, n ≤ string.length ∧
          string.take n = packet.data.take n := fun n le => by
        obtain ⟨enough, eq⟩ := start n (le.trans fits)
        exact ⟨enough, by rw [eq, made, List.take_append_of_le_length le]⟩
      have next : payload.drop (pos + packet.data.length) = packets.flatMap NetPacket.data := by
        rw [← List.drop_drop, made, List.drop_left]
      obtain ⟨looked, run, inside⟩ := ih (by omega) others next
      have fetched : read 0 handler.lengthBytes (string ++ [0]) =
          .ok (packet.data.take handler.lengthBytes) := by
        rw [read_string (first _ mine.lengthBytes).1, (first _ mine.lengthBytes).2]
      have built : handler.build string packet.data.length = some packet := by
        have eq := (first _ (Nat.le_refl _)).2
        rw [List.take_length] at eq
        rw [← List.take_append_drop packet.data.length string, eq]
        exact mine.built _
      have turn := getPacket_eq_ok.mpr ⟨string, _, taken, fetched, .inr ⟨?_,
        ⟨_, read_string (first _ mine.headerBytes).1⟩, rfl⟩⟩
      · rw [mine.length, built] at turn
        refine ⟨_, Bytes.bind_eq_ok.mpr ⟨_, turn, Bytes.bind_eq_ok.mpr ⟨_, run, rfl⟩⟩, ?_⟩
        simp only [List.cons_append, List.nil_append, inPayload_cons got]
        have := mine.lengthBytes
        have := mine.headerBytes
        exact ⟨by omega, by omega, by omega, inside⟩
      · rw [mine.length]
        exact fun empty => mine.nonempty (List.length_eq_zero_iff.mp empty)

theorem gives (own : ∀ packet ∈ packets, handler.Own packet)
    (got : frame.getPayload = .ok (packets.flatMap NetPacket.data)) :
    handler.Gives packets frame :=
  gives_from got (Nat.zero_le _) own List.drop_zero

/-- The packets appended to a frame are got back from its payload, with a physical part or not, if
their own bytes tell them. Splitting any frame ends inside of its payload exactly when no packet
is asked for or the payload starts with as many whole packets, or with fewer and a length of
zero. -/
theorem packets_iff (handler : EncapPacketHandler) :
    (∀ header maxSize packets frame, (∀ packet ∈ packets, handler.Own packet) →
      (DvbFrame.new header maxSize).appendAll packets = some frame →
        handler.Gives packets frame ∧ ∀ messageLength phy marked,
          frame.setCn messageLength phy = .ok marked → handler.Gives packets marked) ∧
      ∀ frame count, handler.Ends frame count ↔
        count = 0 ∨ ∃ payload, frame.getPayload = .ok payload ∧ handler.Splits count payload := by
  refine ⟨fun header maxSize packets frame own added => ?_, fun frame count => ends_iff⟩
  obtain ⟨data, headerLength, trailerLength⟩ := appendAll_eq_some added
  have bare : frame.data = header ++ (packets.flatMap NetPacket.data ++ []) := by
    rw [data, List.append_nil]
    rfl
  refine ⟨gives own (getPayload_eq bare headerLength trailerLength),
    fun messageLength phy marked set => ?_⟩
  have none : frame.trailerLength = 0 := trailerLength
  rw [DvbFrame.setCn, if_pos none] at set
  cases set
  have physical : frame.data ++ phy = header ++ (packets.flatMap NetPacket.data ++ phy) := by
    rw [data, List.append_assoc]
    rfl
  exact gives own (getPayload_eq physical headerLength rfl)

/-- A handler whose packets start with their length on 12 bits, less these two bytes. -/
def twoBytes : EncapPacketHandler where
  lengthBytes := 2
  getLength field := (field.getD 0 0).toNat % 16 * 256 + (field.getD 1 0).toNat + 2
  headerBytes _ := 2
  build data length := some ⟨data.take length, 0, 0, 0⟩

/-- Two packets of three and four bytes behind a header. -/
theorem packets_two :
    let packets : List NetPacket := [⟨[0xC0, 1, 7], 0, 0, 0⟩, ⟨[0xC0, 2, 8, 9], 0, 0, 0⟩]
    ∃ frame, (DvbFrame.new [0, 0, 0] 100).appendAll packets = some frame ∧
      twoBytes.Gives packets frame := by
  refine ⟨_, rfl, ((packets_iff twoBytes).1 [0, 0, 0] 100 _ _ ?_ rfl).1⟩
  intro packet mem
  simp only [List.mem_cons, List.not_mem_nil, or_false] at mem
  rcases mem with rfl | rfl
  · exact ⟨by decide, by decide, by decide, by decide, fun _ => rfl⟩
  · exact ⟨by decide, by decide, by decide, by decide, fun _ => rfl⟩

/-- A packet of 62 bytes is announced in three, and the one behind it is asked for. -/
theorem beyond_payload : ¬ twoBytes.Ends ⟨[0xC0, 60, 1], 0, 0, 3, 2⟩ 2 := by
  rintro ⟨packets, looked, run, -⟩
  have thrown : twoBytes.getEncapsulatedPackets ⟨[0xC0, 60, 1], 0, 0, 3, 2⟩ 2 0 =
      .error .outOfRange := rfl
  rw [thrown] at run
  cases run

end EncapPacketHandler

end OpenSand.EncapPlugin
