import OpenSand.Lib.Run
import OpenSand.Saloha.Tal
import Mathlib.Data.List.Perm.Basic

/-!
The tags of the packets that a terminal puts in its Slotted Aloha FIFOs.

The packets of a burst are numbered as they come to Slotted Aloha FIFOs, each with the
size of the whole burst, and the base id advances at the packet whose number is the last
of the burst. `numbered_iff` says which bursts keep the numbering: those of which
nothing is put in such FIFOs, and those of which everything is, with one QoS.
-/

namespace OpenSand

open OpenSand.Word

namespace SlottedAlohaTal

/-! ### What tagging is for -/

/-- The stored packets with an id. -/
def pdu (stored : List (Nat × SlottedAlohaPacketData)) (id : UInt32) :
    List (Nat × SlottedAlohaPacketData) := stored.filter (·.2.id = id)

/-- The packets with one id are numbered from 0 without gap or repetition and know how
many they are; they come from one burst and, as the gateway sorts by QoS first, have one
QoS. -/
structure Numbered (stored : List (Nat × SlottedAlohaPacketData)) : Prop where
  fragments : ∀ id, ∃ n, ((pdu stored id).map fun entry => entry.2.seq.toNat).Perm (List.range n) ∧
    ∀ entry ∈ pdu stored id, entry.2.pduNb.toNat = n
  one : ∀ entry ∈ stored, ∀ entry' ∈ stored, entry.2.id = entry'.2.id →
    entry.1 = entry'.1 ∧ entry.2.qos = entry'.2.qos

/-! ### Which packets of a burst are stored -/

/-- The room left in a FIFO. -/
def room (tal : SlottedAlohaTal) (key : Nat) : Nat :=
  (tal.dvbFifos.lookup key).elim 0 fun fifo => fifo.maxSizePkt - fifo.queue.length

/-- The packets of a burst that go to FIFOs of Slotted Aloha, up to the first packet that
finds its FIFO full. -/
def salohaShare (route : NetPacket → Nat) (isSaloha : Nat → Bool) :
    (Nat → Nat) → List NetPacket → List NetPacket
  | _, [] => []
  | room, packet :: packets =>
      let key := route packet
      if room key = 0 then []
      else
        let rest := salohaShare route isSaloha
          (Function.update room key (room key - 1)) packets
        if isSaloha key then packet :: rest else rest

/-- The share of a burst received by a terminal. -/
def share (config : SlottedAlohaTalConfig) (tal : SlottedAlohaTal) (burst : List NetPacket) :
    List NetPacket :=
  salohaShare (tal.fifoPriority config) tal.hasProbe tal.room burst

/-- Nothing of the burst is put in a FIFO of Slotted Aloha, or as many packets as the
burst size counts, all with one QoS. -/
def WholeOrNothing (config : SlottedAlohaTalConfig) (tal : SlottedAlohaTal) : TalEvent → Prop
  | .burst packets =>
      tal.share config packets = [] ∨
        (tal.share config packets).length = wrap 16 packets.length ∧
          ∀ packet ∈ tal.share config packets, ∀ packet' ∈ tal.share config packets,
            UInt8.ofNat packet.qos = UInt8.ofNat packet'.qos
  | _ => True

/-! ### The tags of a burst -/

/-- The base id after a packet with an offset was tagged. -/
def nextId (burstSize : Nat) (offset : Nat) (id : UInt32) : UInt32 :=
  if ((UInt16.ofNat offset).toNat : Int) = (UInt16.ofNat burstSize).toNat - 1 then id + 1 else id

def tagged (config : SlottedAlohaTalConfig) (burstSize offset : Nat) (id : UInt32)
    (packet : NetPacket) : SlottedAlohaPacketData where
  id := id
  ts := 0
  seq := .ofNat offset
  pduNb := .ofNat burstSize
  qos := .ofNat packet.qos
  replicas := List.replicate config.nbReplicas.toNat 0
  payload := packet.data
  srcTalId := packet.srcTalId

/-- The packets of a share with their tags. -/
def tags (config : SlottedAlohaTalConfig) (burstSize : Nat) :
    Nat → UInt32 → List NetPacket → List SlottedAlohaPacketData
  | _, _, [] => []
  | offset, id, packet :: packets =>
      tagged config burstSize offset id packet ::
        tags config burstSize (offset + 1) (nextId burstSize offset id) packets

/-- The base id after a number of packets from an offset on. -/
def idAfter (burstSize : Nat) : Nat → UInt32 → Nat → UInt32
  | _, id, 0 => id
  | offset, id, n + 1 => idAfter burstSize (offset + 1) (nextId burstSize offset id) n

variable {config : SlottedAlohaTalConfig} {tal tal' : SlottedAlohaTal}

/-! ### The loop over a burst -/

theorem setFifo_lookup {key : Nat} {fifo : DvbFifo MacPacket}
    (found : tal.dvbFifos.lookup key = some fifo) (fifo' : DvbFifo MacPacket) :
    (tal.setFifo key fifo').dvbFifos.lookup = Function.update tal.dvbFifos.lookup key (some fifo') := by
  funext other
  by_cases here : other = key
  · subst here
    rw [Function.update_self]
    exact SortedMap.lookup_modify_self found _
  · rw [Function.update_of_ne here]
    exact SortedMap.lookup_modify_of_ne _ here _

/-- What a push in a FIFO does to the rooms and to the ways of the packets. -/
theorem onRcvEncapPacket_cases {key : Nat} {fifo : DvbFifo MacPacket} {packet : MacPacket}
    {pushed : Bool} (found : tal.dvbFifos.lookup key = some fifo)
    (h : tal.onRcvEncapPacket key fifo packet = some (pushed, tal')) :
    tal'.baseId = tal.baseId ∧ tal'.record = tal.record ∧
      tal'.fifoPriority config = tal.fifoPriority config ∧ tal'.hasProbe = tal.hasProbe ∧
      (pushed = true ∧ tal.room key ≠ 0 ∧
          tal'.room = Function.update tal.room key (tal.room key - 1) ∨
        pushed = false ∧ tal.room key = 0) := by
  obtain ⟨⟨status, fifo'⟩, push, eq⟩ := Option.map_eq_some_iff.mp h
  cases eq
  obtain ⟨access, size, queue⟩ := DvbFifo.push_cases push
  have lookup := setFifo_lookup found fifo'
  refine ⟨rfl, rfl, ?_, ?_, ?_⟩
  · funext packet'
    simp only [fifoPriority, lookup]
    by_cases here : (UInt8.ofNat packet'.qos).toNat = key
    · rw [here, Function.update_self, found]
      rfl
    · rw [Function.update_of_ne here]
  · funext other
    simp only [hasProbe, lookup]
    by_cases here : other = key
    · subst here
      rw [Function.update_self, found]
      simp only [Option.any_some, access]
    · rw [Function.update_of_ne here]
  · have before : tal.room key = fifo.maxSizePkt - fifo.queue.length := by
      rw [room, found]
      rfl
    rcases queue with ⟨rfl, space, queue⟩ | ⟨rfl, full, queue⟩
    · refine .inl ⟨rfl, by omega, ?_⟩
      funext other
      by_cases here : other = key
      · subst here
        rw [Function.update_self, before, room, lookup, Function.update_self]
        simp only [Option.elim_some, size, queue, List.length_append, List.length_singleton]
        omega
      · rw [Function.update_of_ne here, room, lookup, Function.update_of_ne here]
        rfl
    · exact .inr ⟨rfl, by omega⟩

/-- What one packet of a burst does. -/
structure Stores (config : SlottedAlohaTalConfig) (burstSize offset : Nat) (packet : NetPacket)
    (pushed : Bool) (next : Nat) (tal tal' : SlottedAlohaTal) : Prop where
  bursts : tal'.record.bursts = tal.record.bursts
  route : tal'.fifoPriority config = tal.fifoPriority config
  probes : tal'.hasProbe = tal.hasProbe
  room : pushed = true ∧ tal.room (tal.fifoPriority config packet) ≠ 0 ∧
      tal'.room = Function.update tal.room (tal.fifoPriority config packet)
        (tal.room (tal.fifoPriority config packet) - 1) ∨
    pushed = false ∧ tal.room (tal.fifoPriority config packet) = 0
  tag : tal.hasProbe (tal.fifoPriority config packet) = true →
    next = offset + 1 ∧ tal'.baseId = nextId burstSize offset tal.baseId ∧
      tal'.record.stored = tal.record.stored ++ if pushed then
        [(tal.record.bursts, tagged config burstSize offset tal.baseId packet)] else []
  untagged : tal.hasProbe (tal.fifoPriority config packet) = false →
    next = offset ∧ tal'.baseId = tal.baseId ∧ tal'.record.stored = tal.record.stored

/-- A packet of a burst goes to its FIFO, with a header if this is one of Slotted Aloha. -/
theorem storePacket_cases {burstSize offset next : Nat} {packet : NetPacket} {pushed : Bool}
    (h : tal.storePacket config burstSize offset packet = some (pushed, next, tal')) :
    ∃ fifo, tal.dvbFifos.lookup (tal.fifoPriority config packet) = some fifo ∧
      ((fifo.accessType = .return .saloha ∧ next = offset + 1 ∧
        ∃ mid : SlottedAlohaTal,
          (tal.addSalohaHeader config packet (.ofNat offset) (.ofNat burstSize)).2.onRcvEncapPacket
              (tal.fifoPriority config packet) fifo
              (.saloha (tal.addSalohaHeader config packet (.ofNat offset) (.ofNat burstSize)).1) =
            some (pushed, mid) ∧
          tal' = if pushed then { mid with record := { mid.record with
              stored := mid.record.stored ++ [(mid.record.bursts,
                tagged config burstSize offset tal.baseId packet)] } }
            else mid) ∨
      (fifo.accessType ≠ .return .saloha ∧ next = offset ∧
        tal.onRcvEncapPacket (tal.fifoPriority config packet) fifo (.encap packet) =
          some (pushed, tal'))) := by
  obtain ⟨fifo, found, stored⟩ := Option.bind_eq_some_iff.mp h
  refine ⟨fifo, found, ?_⟩
  split at stored
  next saloha =>
    obtain ⟨⟨status, mid⟩, pushedIn, eq⟩ := Option.map_eq_some_iff.mp stored
    simp only [Prod.mk.injEq] at eq
    obtain ⟨rfl, rfl, rfl⟩ := eq
    exact .inl ⟨saloha, rfl, mid, pushedIn, rfl⟩
  next other =>
    obtain ⟨⟨status, mid⟩, pushedIn, eq⟩ := Option.map_eq_some_iff.mp stored
    cases eq
    exact .inr ⟨other, rfl, pushedIn⟩

theorem storePacket_stores {burstSize offset next : Nat} {packet : NetPacket} {pushed : Bool}
    (h : tal.storePacket config burstSize offset packet = some (pushed, next, tal')) :
    Stores config burstSize offset packet pushed next tal tal' := by
  obtain ⟨fifo, found, cases⟩ := storePacket_cases h
  have probe : tal.hasProbe (tal.fifoPriority config packet) =
      decide (fifo.accessType = .return .saloha) := by
    rw [hasProbe, found, Option.any_some]
  obtain ⟨saloha, rfl, mid, pushedIn, rfl⟩ | ⟨other, rfl, pushedIn⟩ := cases
  · let headed := (tal.addSalohaHeader config packet (.ofNat offset) (.ofNat burstSize)).2
    have found' : headed.dvbFifos.lookup (tal.fifoPriority config packet) = some fifo := found
    obtain ⟨base, record, route, probes, room⟩ :=
      @onRcvEncapPacket_cases config _ _ _ _ _ _ found' pushedIn
    have bursts : mid.record.bursts = tal.record.bursts := by rw [record]; rfl
    have kept : mid.record.stored = tal.record.stored := by rw [record]; rfl
    have absent : ¬ tal.hasProbe (tal.fifoPriority config packet) = false := by
      simp [probe, saloha]
    cases pushed with
    | true =>
        exact {
          bursts := bursts
          route := route
          probes := probes
          room := room
          tag := fun _ => ⟨rfl, base, by simp only [if_true, kept, bursts]⟩
          untagged := fun none => absurd none absent }
    | false =>
        exact {
          bursts := bursts
          route := route
          probes := probes
          room := room
          tag := fun _ => ⟨rfl, base, kept.trans (List.append_nil _).symm⟩
          untagged := fun none => absurd none absent }
  · obtain ⟨base, record, route, probes, room⟩ :=
      @onRcvEncapPacket_cases config _ _ _ _ _ _ found pushedIn
    exact {
      bursts := congrArg SalohaTalRecord.bursts record
      route := route
      probes := probes
      room := room
      tag := fun there => absurd there (by simp [probe, other])
      untagged := fun _ => ⟨rfl, base, congrArg SalohaTalRecord.stored record⟩ }

/-- One more packet is tagged without being stored when it finds its FIFO full. -/
theorem storePackets_spec {burstSize offset : Nat} {packets : List NetPacket} {ok : Bool}
    (h : tal.storePackets config burstSize offset packets = some (ok, tal')) :
    tal'.record.bursts = tal.record.bursts ∧
      tal'.record.stored = tal.record.stored ++
        (tags config burstSize offset tal.baseId (tal.share config packets)).map
          (tal.record.bursts, ·) ∧
      (tal'.baseId = idAfter burstSize offset tal.baseId (tal.share config packets).length ∨
        tal'.baseId = idAfter burstSize offset tal.baseId ((tal.share config packets).length + 1)) := by
  induction packets generalizing tal offset with
  | nil =>
      cases h
      exact ⟨rfl, (List.append_nil _).symm, .inl rfl⟩
  | cons packet packets ih =>
      obtain ⟨⟨pushed, next, mid⟩, stored, rest⟩ := Option.bind_eq_some_iff.mp h
      have stores := storePacket_stores stored
      rcases stores.room with ⟨rfl, space, room⟩ | ⟨rfl, full⟩
      · have later : tal.share config (packet :: packets) =
            if tal.hasProbe (tal.fifoPriority config packet) then
              packet :: mid.share config packets
            else mid.share config packets := by
          simp only [share, salohaShare, space, if_false, stores.route, stores.probes, room]
        obtain ⟨bursts, tagged', base⟩ := ih rest
        rw [stores.bursts] at bursts tagged'
        refine ⟨bursts, ?_⟩
        cases probe : tal.hasProbe (tal.fifoPriority config packet) with
        | true =>
            obtain ⟨rfl, id, here⟩ := stores.tag probe
            rw [later, probe, if_pos rfl, tagged', here, id]
            refine ⟨by simp [tags], ?_⟩
            rw [id] at base
            exact base
        | false =>
            obtain ⟨rfl, id, here⟩ := stores.untagged probe
            rw [later, probe, if_neg (by simp), tagged', here, id]
            rw [id] at base
            exact ⟨rfl, base⟩
      · cases rest
        have nothing : tal.share config (packet :: packets) = [] := by
          simp only [share, salohaShare, full, if_true]
        rw [nothing]
        refine ⟨stores.bursts, ?_⟩
        cases probe : tal.hasProbe (tal.fifoPriority config packet) with
        | true =>
            obtain ⟨-, id, here⟩ := stores.tag probe
            exact ⟨here, .inr id⟩
        | false =>
            obtain ⟨-, id, here⟩ := stores.untagged probe
            exact ⟨here.trans (List.append_nil _).symm, .inl id⟩

/-! ### The ids of a burst -/

section Ids

variable {burstSize offset n : Nat} {id : UInt32}

theorem nextId_eq (id : UInt32) (small : offset < 2 ^ 16) :
    nextId burstSize offset id = if offset + 1 = wrap 16 burstSize then id + 1 else id := by
  have read : (UInt16.ofNat offset).toNat = offset := UInt16.toNat_ofNat_of_lt' small
  have size : (UInt16.ofNat burstSize).toNat = wrap 16 burstSize := UInt16.toNat_ofNat'
  rw [nextId, read, size]
  refine if_congr ?_ rfl rfl
  omega

/-- The packets up to the last offset of the burst share an id. -/
theorem idAfter_of_lt (below : offset + n < wrap 16 burstSize) :
    idAfter burstSize offset id n = id := by
  induction n generalizing offset with
  | zero => rfl
  | succ n ih =>
      have small := below.trans (wrap_lt 16 burstSize)
      rw [idAfter, nextId_eq id (by omega), if_neg (by omega)]
      exact ih (by omega)

theorem idAfter_last (last : offset + (n + 1) = wrap 16 burstSize) :
    idAfter burstSize offset id (n + 1) = id + 1 := by
  have small := wrap_lt 16 burstSize
  induction n generalizing offset id with
  | zero => rw [idAfter, nextId_eq id (by omega), if_pos (by omega)]; rfl
  | succ n ih =>
      rw [idAfter, nextId_eq id (by omega), if_neg (by omega)]
      exact ih (by omega)

theorem idAfter_succ :
    idAfter burstSize offset id (n + 1) =
      nextId burstSize (offset + n) (idAfter burstSize offset id n) := by
  induction n generalizing offset id with
  | zero => rfl
  | succ n ih =>
      rw [idAfter, ih, idAfter]
      congr 1
      omega

/-- The packet behind the last offset has the next id, which then stays. -/
theorem idAfter_wrap (some_ : wrap 16 burstSize ≠ 0) :
    idAfter burstSize 0 id (wrap 16 burstSize) = id + 1 ∧
      idAfter burstSize 0 id (wrap 16 burstSize + 1) = id + 1 := by
  have small := wrap_lt 16 burstSize
  obtain ⟨last, size⟩ := Nat.exists_eq_succ_of_ne_zero some_
  have first : idAfter burstSize 0 id (wrap 16 burstSize) = id + 1 := by
    rw [size]
    exact idAfter_last (by omega)
  refine ⟨first, ?_⟩
  rw [idAfter_succ, first, nextId_eq _ (by omega), if_neg (by omega)]

theorem tags_length (packets : List NetPacket) :
    (tags config burstSize offset id packets).length = packets.length := by
  induction packets generalizing offset id with
  | nil => rfl
  | cons packet packets ih => rw [tags, List.length_cons, List.length_cons, ih]

theorem tags_getElem? {packets : List NetPacket} {j : Nat} (inside : j < packets.length) :
    (tags config burstSize offset id packets)[j]? =
      some (tagged config burstSize (offset + j) (idAfter burstSize offset id j) packets[j]) := by
  induction packets generalizing offset id j with
  | nil => cases inside
  | cons packet packets ih =>
      cases j with
      | zero => rfl
      | succ j =>
          simp only [tags, List.getElem?_cons_succ, List.getElem_cons_succ]
          rw [ih (by simpa using inside), idAfter, Nat.add_assoc, Nat.add_comm 1]

/-- The tags of a share that ends at the last offset: one id, and the numbers in order. -/
theorem tags_whole {packets : List NetPacket} (whole : packets.length ≤ wrap 16 burstSize) :
    (∀ tag ∈ tags config burstSize 0 id packets, tag.id = id) ∧
      (tags config burstSize 0 id packets).map (fun tag => tag.seq.toNat) =
        List.range packets.length := by
  have small := wrap_lt 16 burstSize
  constructor
  · intro tag mem
    obtain ⟨j, at_⟩ := List.mem_iff_getElem?.mp mem
    have inside : j < packets.length := by
      have below := (List.getElem?_eq_some_iff.mp at_).1
      rwa [tags_length] at below
    rw [tags_getElem? inside] at at_
    cases at_
    exact idAfter_of_lt (by omega)
  · refine List.ext_getElem? fun j => ?_
    rw [List.getElem?_map]
    by_cases inside : j < packets.length
    · rw [tags_getElem? inside, List.getElem?_range inside, Option.map_some, tagged, Nat.zero_add,
        UInt16.toNat_ofNat_of_lt' (show j < 2 ^ 16 by omega)]
    · rw [List.getElem?_eq_none (by rw [tags_length]; omega),
        List.getElem?_eq_none (by rw [List.length_range]; omega)]
      rfl

end Ids

/-! ### One burst -/

section Burst

variable {stored : List (Nat × SlottedAlohaPacketData)} {id : UInt32} {burst burstSize : Nat}
  {packets : List NetPacket}

theorem pdu_append (stored more : List (Nat × SlottedAlohaPacketData)) (id : UInt32) :
    pdu (stored ++ more) id = pdu stored id ++ pdu more id := List.filter_append ..

/-- The ids used so far are below the base id, in bursts before the next one. -/
def Earlier (stored : List (Nat × SlottedAlohaPacketData)) (id : UInt32) (burst : Nat) : Prop :=
  ∀ entry ∈ stored, entry.2.id.toNat < id.toNat ∧ entry.1 < burst

theorem Earlier.pdu_nil (earlier : Earlier stored id burst) {other : UInt32}
    (le : id.toNat ≤ other.toNat) : pdu stored other = [] := by
  refine List.filter_eq_nil_iff.mpr fun entry mem same => ?_
  have below := (earlier entry mem).1
  rw [of_decide_eq_true same] at below
  omega

/-- A numbering with the tags of a burst has nothing of it, or all of it under one QoS. -/
theorem whole_of_numbered (earlier : Earlier stored id burst)
    (numbered : Numbered
      (stored ++ (tags config burstSize 0 id packets).map (burst, ·))) :
    packets = [] ∨ packets.length = wrap 16 burstSize ∧
      ∀ packet ∈ packets, ∀ packet' ∈ packets,
        UInt8.ofNat packet.qos = UInt8.ofNat packet'.qos := by
  rcases Nat.eq_zero_or_pos packets.length with none | some_
  · exact .inl (List.length_eq_zero_iff.mp none)
  refine .inr ?_
  have size : (UInt16.ofNat burstSize).toNat = wrap 16 burstSize := UInt16.toNat_ofNat'
  have small := wrap_lt 16 burstSize
  -- the tag at an index is stored
  have tag_mem : ∀ j (inside : j < packets.length),
      (burst, tagged config burstSize j (idAfter burstSize 0 id j) packets[j]) ∈
        stored ++ (tags config burstSize 0 id packets).map (burst, ·) := by
    intro j inside
    refine List.mem_append_right _ (List.mem_map_of_mem (List.mem_iff_getElem?.mpr ⟨j, ?_⟩))
    rw [tags_getElem? inside, Nat.zero_add]
  have pdu_mem : ∀ j (inside : j < packets.length),
      (burst, tagged config burstSize j (idAfter burstSize 0 id j) packets[j]) ∈
        pdu (stored ++ (tags config burstSize 0 id packets).map (burst, ·))
          (idAfter burstSize 0 id j) := fun j inside =>
    List.mem_filter.mpr ⟨tag_mem j inside, decide_eq_true rfl⟩
  -- the first packet tells how many there are under the base id
  have atLeast : wrap 16 burstSize ≤ packets.length ∧ wrap 16 burstSize ≠ 0 := by
    obtain ⟨n, perm, number⟩ := numbered.fragments id
    have count : (UInt16.ofNat burstSize).toNat = n := number _ (pdu_mem 0 some_)
    have length := perm.length_eq
    rw [List.length_map, List.length_range, pdu_append, earlier.pdu_nil le_rfl,
      List.nil_append] at length
    have le : (pdu ((tags config burstSize 0 id packets).map (burst, ·)) id).length ≤
        packets.length := by
      refine (List.length_filter_le _ _).trans ?_
      rw [List.length_map, tags_length]
    have pos : 0 < (pdu (stored ++ (tags config burstSize 0 id packets).map (burst, ·)) id).length :=
      List.length_pos_of_mem (pdu_mem 0 some_)
    rw [pdu_append, earlier.pdu_nil le_rfl, List.nil_append] at pos
    omega
  -- a packet behind the last one would be numbered beyond its own count
  have atMost : packets.length ≤ wrap 16 burstSize := by
    by_contra more
    have inside : wrap 16 burstSize < packets.length := by omega
    obtain ⟨n, perm, number⟩ := numbered.fragments (idAfter burstSize 0 id (wrap 16 burstSize))
    have count : (UInt16.ofNat burstSize).toNat = n := number _ (pdu_mem _ inside)
    have seq := perm.mem_iff.mp (List.mem_map_of_mem (pdu_mem _ inside))
    have read : (tagged config burstSize (wrap 16 burstSize)
        (idAfter burstSize 0 id (wrap 16 burstSize)) packets[wrap 16 burstSize]).seq.toNat =
          wrap 16 burstSize := UInt16.toNat_ofNat_of_lt' small
    rw [read, List.mem_range] at seq
    omega
  refine ⟨by omega, fun packet mem packet' mem' => ?_⟩
  obtain ⟨j, inside, rfl⟩ := List.mem_iff_getElem.mp mem
  obtain ⟨j', inside', rfl⟩ := List.mem_iff_getElem.mp mem'
  refine (numbered.one _ (tag_mem j inside) _ (tag_mem j' inside') ?_).2
  change idAfter burstSize 0 id j = idAfter burstSize 0 id j'
  rw [idAfter_of_lt (by omega), idAfter_of_lt (by omega)]

/-- A burst stored whole under one QoS keeps the numbering. -/
theorem numbered_of_whole (numbered : Numbered stored) (earlier : Earlier stored id burst)
    (whole : packets.length = wrap 16 burstSize)
    (one : ∀ packet ∈ packets, ∀ packet' ∈ packets,
      UInt8.ofNat packet.qos = UInt8.ofNat packet'.qos) :
    Numbered (stored ++ (tags config burstSize 0 id packets).map (burst, ·)) := by
  obtain ⟨ids, seqs⟩ := @tags_whole config burstSize id packets whole.le
  have size : (UInt16.ofNat burstSize).toNat = wrap 16 burstSize := UInt16.toNat_ofNat'
  -- a tag tells its packet
  have packet_of : ∀ tag ∈ tags config burstSize 0 id packets,
      tag.pduNb.toNat = packets.length ∧ ∃ packet ∈ packets, tag.qos = .ofNat packet.qos := by
    intro tag mem
    obtain ⟨j, at_⟩ := List.mem_iff_getElem?.mp mem
    have inside : j < packets.length := by
      have below := (List.getElem?_eq_some_iff.mp at_).1
      rwa [tags_length] at below
    rw [tags_getElem? inside] at at_
    cases at_
    exact ⟨size.trans whole.symm, packets[j], List.getElem_mem inside, rfl⟩
  constructor
  · intro other
    by_cases here : other = id
    · subst here
      refine ⟨packets.length, ?_, ?_⟩
      · rw [pdu_append, earlier.pdu_nil le_rfl, List.nil_append, pdu, List.filter_eq_self.mpr]
        · rw [List.map_map, ← seqs]
          rfl
        · intro entry mem
          obtain ⟨tag, held, rfl⟩ := List.mem_map.mp mem
          exact decide_eq_true (ids tag held)
      · rw [pdu_append, earlier.pdu_nil le_rfl, List.nil_append]
        intro entry mem
        obtain ⟨tag, held, rfl⟩ := List.mem_map.mp (List.mem_of_mem_filter mem)
        exact (packet_of tag held).1
    · rw [pdu_append, show pdu ((tags config burstSize 0 id packets).map (burst, ·)) other = []
        from List.filter_eq_nil_iff.mpr ?_, List.append_nil]
      · exact numbered.fragments other
      · intro entry mem same
        obtain ⟨tag, held, rfl⟩ := List.mem_map.mp mem
        exact here ((of_decide_eq_true same).symm.trans (ids tag held))
  · intro entry mem entry' mem' same
    rcases List.mem_append.mp mem with old | new <;> rcases List.mem_append.mp mem' with old' | new'
    · exact numbered.one entry old entry' old' same
    · obtain ⟨tag, held, rfl⟩ := List.mem_map.mp new'
      have below := (earlier entry old).1
      rw [same, ids tag held] at below
      exact absurd below (lt_irrefl _)
    · obtain ⟨tag, held, rfl⟩ := List.mem_map.mp new
      have below := (earlier entry' old').1
      rw [← same, ids tag held] at below
      exact absurd below (lt_irrefl _)
    · obtain ⟨tag, held, rfl⟩ := List.mem_map.mp new
      obtain ⟨tag', held', rfl⟩ := List.mem_map.mp new'
      obtain ⟨-, packet, inside, qos⟩ := packet_of tag held
      obtain ⟨-, packet', inside', qos'⟩ := packet_of tag' held'
      exact ⟨rfl, qos.trans ((one packet inside packet' inside').trans qos'.symm)⟩

end Burst

/-! ### Everything else leaves the tags alone -/

def SameTags (record record' : SalohaTalRecord) : Prop :=
  record'.stored = record.stored ∧ record'.bursts = record.bursts

theorem SameTags.trans {first second third : SalohaTalRecord} (h : SameTags first second)
    (h' : SameTags second third) : SameTags first third :=
  ⟨h'.1.trans h.1, h'.2.trans h.2⟩

theorem addPacketInFrames_tags {sent : SalohaTalPacket} {qos : Nat} {sending sending' : Sending}
    {added : Bool} (h : addPacketInFrames sent qos sending = some (added, sending')) :
    SameTags sending.record sending'.record := by
  rcases addPacketInFrames_cases h with ⟨-, record, -⟩ | ⟨-, -, -, record⟩
  · rw [record]
    exact ⟨rfl, rfl⟩
  · rw [record]
    exact ⟨rfl, rfl⟩

theorem sendAgain_tags {hasProbe : Nat → Bool} {nbSlots : Nat}
    {packets again : List (Option SalohaTalPacket)} {sending sending' : Sending}
    (h : sendAgain hasProbe nbSlots packets sending = some (again, sending')) :
    SameTags sending.record sending'.record := by
  induction packets generalizing again sending with
  | nil =>
      cases h
      exact ⟨rfl, rfl⟩
  | cons entry packets ih =>
      cases entry with
      | none => cases h
      | some sent =>
          simp only [sendAgain] at h
          split at h
          · obtain ⟨⟨added, mid⟩, placed, rest⟩ := Option.bind_eq_some_iff.mp h
            have first := addPacketInFrames_tags placed
            cases added with
            | true =>
                dsimp only at rest
                split at rest
                · have later := ih rest
                  exact first.trans later
                · cases rest
            | false =>
                obtain ⟨⟨again', last⟩, sentRest, eq⟩ := Option.map_eq_some_iff.mp rest
                cases eq
                exact first.trans (ih sentRest)
          · cases h
            exact ⟨rfl, rfl⟩

theorem sendFifo_tags {nbSlots qos fuel : Nat} {fifo fifo' : DvbFifo MacPacket}
    {sending sending' : Sending}
    (h : sendFifo config nbSlots qos fuel fifo sending = some (fifo', sending')) :
    SameTags sending.record sending'.record := by
  induction fuel generalizing fifo sending with
  | zero =>
      cases h
      exact ⟨rfl, rfl⟩
  | succ fuel ih =>
      simp only [sendFifo] at h
      split at h
      · obtain ⟨⟨out, mid⟩, popped, rest⟩ := Option.bind_eq_some_iff.mp h
        split at rest
        · obtain ⟨⟨added, next⟩, placed, sentRest⟩ := Option.bind_eq_some_iff.mp rest
          have first : SameTags sending.record next.record := by
            have same := addPacketInFrames_tags placed
            exact same
          cases added with
          | true =>
              have later := ih sentRest
              exact first.trans later
          | false =>
              have later := ih sentRest
              exact first.trans later
        · cases rest
      · cases h
        exact ⟨rfl, rfl⟩

theorem sendFifos_tags {nbSlots : Nat} {fifos fifos' : SortedMap Nat (DvbFifo MacPacket)}
    {sending sending' : Sending}
    (h : sendFifos config nbSlots fifos sending = some (sending', fifos')) :
    SameTags sending.record sending'.record := by
  refine SortedMap.forValues_keeps (P := fun s : Sending => SameTags sending.record s.record)
    ⟨rfl, rfl⟩ ?_ h
  intro s qos fifo out _ kept called
  split at called
  · cases called
    exact kept
  split at called
  · cases called
    exact kept
  obtain ⟨⟨fifo', s'⟩, sent, rfl⟩ := Option.map_eq_some_iff.mp called
  exact kept.trans (sendFifo_tags sent)

theorem refreshProbes_eq (h : tal.refreshProbes = some tal') : tal' = tal := by
  unfold refreshProbes at h
  split at h
  · cases h
    rfl
  · cases h

theorem schedule_tags {sfCounter : Nat} {draws : Draws}
    {frames : List (List SlottedAlohaPacketData)}
    (h : tal.schedule config sfCounter draws = some (frames, tal')) :
    tal'.baseId = tal.baseId ∧ SameTags tal.record tal'.record := by
  unfold schedule at h
  split at h
  · obtain ⟨last, refreshed, eq⟩ := Option.map_eq_some_iff.mp h
    cases eq
    rw [refreshProbes_eq refreshed]
    exact ⟨rfl, rfl, rfl⟩
  obtain ⟨⟨⟨⟩, waiting⟩, -, h⟩ := Option.bind_eq_some_iff.mp h
  dsimp only at h
  split at h
  · obtain ⟨last, refreshed, eq⟩ := Option.map_eq_some_iff.mp h
    cases eq
    rw [refreshProbes_eq refreshed]
    exact ⟨rfl, rfl, rfl⟩
  obtain ⟨⟨expiry, waiting'⟩, -, h⟩ := Option.bind_eq_some_iff.mp h
  obtain ⟨slots, -, h⟩ := Option.bind_eq_some_iff.mp h
  obtain ⟨⟨again, sending⟩, sentAgain, h⟩ := Option.bind_eq_some_iff.mp h
  obtain ⟨⟨last, fifos⟩, sent, h⟩ := Option.bind_eq_some_iff.mp h
  obtain ⟨final, refreshed, eq⟩ := Option.map_eq_some_iff.mp h
  cases eq
  rw [refreshProbes_eq refreshed]
  have first : SameTags tal.record sending.record := sendAgain_tags sentAgain
  exact ⟨rfl, first.trans (sendFifos_tags sent)⟩

theorem onRcvCtrl_tags {ids : PacketIds} {ctrl : SalohaPacketCtrl}
    (h : tal.onRcvCtrl config ids ctrl = some tal') :
    tal'.baseId = tal.baseId ∧ SameTags tal.record tal'.record := by
  unfold onRcvCtrl at h
  split at h
  · cases h
    exact ⟨rfl, rfl, rfl⟩
  split at h
  · cases h
    exact ⟨rfl, rfl, rfl⟩
  obtain ⟨found, -, eq⟩ := Option.map_eq_some_iff.mp h
  cases found with
  | none =>
      cases eq
      exact ⟨rfl, rfl, rfl⟩
  | some found =>
      cases eq
      exact ⟨rfl, rfl, rfl⟩

theorem onRcvFrame_tags {ids : PacketIds} {ctrls : List SalohaPacketCtrl}
    (h : tal.onRcvFrame config ids ctrls = some tal') :
    tal'.baseId = tal.baseId ∧ SameTags tal.record tal'.record := by
  induction ctrls generalizing tal with
  | nil =>
      cases h
      exact ⟨rfl, rfl, rfl⟩
  | cons ctrl ctrls ih =>
      obtain ⟨mid, first, rest⟩ := Option.bind_eq_some_iff.mp h
      obtain ⟨base, same⟩ := onRcvCtrl_tags first
      obtain ⟨base', same'⟩ := ih rest
      exact ⟨base'.trans base, same.trans same'⟩

/-! ### Runs -/

/-- A burst that is stored whole or not at all takes at most one id. -/
theorem Earlier.burst {stored : List (Nat × SlottedAlohaPacketData)} {id id' : UInt32}
    {burst burstSize : Nat} {share : List NetPacket} (earlier : Earlier stored id burst)
    (room : id.toNat + 1 < 2 ^ 32) (whole : share = [] ∨ share.length = wrap 16 burstSize)
    (base : id' = idAfter burstSize 0 id share.length ∨
      id' = idAfter burstSize 0 id (share.length + 1)) :
    Earlier (stored ++ (tags config burstSize 0 id share).map (burst, ·)) id' (burst + 1) ∧
      id'.toNat ≤ id.toNat + 1 := by
  have advanced : (id + 1).toNat = id.toNat + 1 := by
    rw [UInt32.toNat_add]
    exact Nat.mod_eq_of_lt room
  by_cases nothing : share = []
  · have near : id' = id ∨ id' = id + 1 := by
      rw [nothing] at base
      rcases base with base | base
      · exact .inl base
      · rw [base]
        change nextId _ _ _ = _ ∨ nextId _ _ _ = _
        unfold nextId
        split
        · exact .inr rfl
        · exact .inl rfl
    have le : id.toNat ≤ id'.toNat ∧ id'.toNat ≤ id.toNat + 1 := by
      rcases near with near | near
      · rw [near]
        exact ⟨le_rfl, Nat.le_succ _⟩
      · rw [near, advanced]
        exact ⟨Nat.le_succ _, le_rfl⟩
    refine ⟨fun entry mem => ?_, le.2⟩
    rw [nothing, tags, List.map_nil, List.append_nil] at mem
    have before := earlier entry mem
    exact ⟨lt_of_lt_of_le before.1 le.1, Nat.lt_succ_of_lt before.2⟩
  · have whole := whole.resolve_left nothing
    have some_ : wrap 16 burstSize ≠ 0 := by
      rw [← whole]
      exact fun zero => nothing (List.length_eq_zero_iff.mp zero)
    obtain ⟨last, behind⟩ : idAfter burstSize 0 id (wrap 16 burstSize) = id + 1 ∧
        idAfter burstSize 0 id (wrap 16 burstSize + 1) = id + 1 := idAfter_wrap some_
    have next : id' = id + 1 := by
      rw [whole, last, behind] at base
      exact base.elim (fun same => same) fun same => same
    rw [next, advanced]
    refine ⟨fun entry mem => ?_, le_rfl⟩
    rcases List.mem_append.mp mem with old | new
    · have before := earlier entry old
      exact ⟨by rw [advanced]; exact Nat.lt_succ_of_lt before.1, Nat.lt_succ_of_lt before.2⟩
    · obtain ⟨tag, held, rfl⟩ := List.mem_map.mp new
      have same := (tags_whole whole.le).1 tag held
      exact ⟨by rw [same, advanced]; exact Nat.lt_succ_self _, Nat.lt_succ_self _⟩

/-- One step from a numbering whose ids are below the base id: the numbering is kept
exactly when the step stores a whole burst or nothing, and the ids stay below. -/
theorem step_numbered_iff {event : TalEvent} (numbered : Numbered tal.record.stored)
    (earlier : Earlier tal.record.stored tal.baseId tal.record.bursts)
    (room : tal.baseId.toNat + 1 < 2 ^ 32) (h : tal.step config event = some tal') :
    (Numbered tal'.record.stored ↔ tal.WholeOrNothing config event) ∧
      (tal.WholeOrNothing config event →
        Earlier tal'.record.stored tal'.baseId tal'.record.bursts ∧
          tal'.baseId.toNat ≤ tal.baseId.toNat + 1) := by
  have other : tal'.baseId = tal.baseId ∧ SameTags tal.record tal'.record →
      tal.WholeOrNothing config event → (Numbered tal'.record.stored ↔
        tal.WholeOrNothing config event) ∧ (tal.WholeOrNothing config event →
          Earlier tal'.record.stored tal'.baseId tal'.record.bursts ∧
            tal'.baseId.toNat ≤ tal.baseId.toNat + 1) := by
    rintro ⟨base, stored, bursts⟩ always
    rw [stored, bursts, base]
    exact ⟨iff_of_true numbered always, fun _ => ⟨earlier, Nat.le_succ _⟩⟩
  cases event with
  | ctrl ids ctrls => exact other (onRcvFrame_tags h) trivial
  | schedule sfCounter draws =>
      obtain ⟨⟨frames, last⟩, scheduled, rfl⟩ := Option.map_eq_some_iff.mp h
      exact other (schedule_tags scheduled) trivial
  | pop key =>
      refine other ?_ trivial
      obtain ⟨fifo, -, h⟩ := Option.bind_eq_some_iff.mp h
      split at h
      · cases h
      · obtain ⟨out, -, rfl⟩ := Option.map_eq_some_iff.mp h
        exact ⟨rfl, rfl, rfl⟩
  | burst packets =>
      clear other
      obtain ⟨⟨ok, last⟩, received, rfl⟩ := Option.map_eq_some_iff.mp h
      obtain ⟨⟨ok', mid⟩, looped, eq⟩ := Option.map_eq_some_iff.mp received
      cases eq
      obtain ⟨bursts, stored, base⟩ := storePackets_spec looped
      change (Numbered mid.record.stored ↔ _) ∧ (_ → Earlier mid.record.stored mid.baseId
        (mid.record.bursts + 1) ∧ mid.baseId.toNat ≤ tal.baseId.toNat + 1)
      rw [stored, bursts]
      constructor
      · constructor
        · intro kept
          exact whole_of_numbered earlier kept
        · rintro (nothing | ⟨whole, one⟩)
          · rw [nothing]
            simpa [tags] using numbered
          · exact numbered_of_whole numbered earlier whole one
      · intro cond
        exact earlier.burst room (cond.imp_right And.left) base

/-- From a numbering whose ids are below the base id, with ids left for every event, the
numbering holds in every state of a run exactly when each of its steps stores a whole
burst or nothing. -/
theorem allStates_numbered_iff {events : List TalEvent} (numbered : Numbered tal.record.stored)
    (earlier : Earlier tal.record.stored tal.baseId tal.record.bursts)
    (room : tal.baseId.toNat + events.length < 2 ^ 32) :
    Run.AllStates (step config) (fun tal => Numbered tal.record.stored) tal events ↔
      Run.AllSteps (step config) (WholeOrNothing config) tal events := by
  induction events generalizing tal with
  | nil => exact iff_of_true numbered trivial
  | cons event events ih =>
      rw [List.length_cons] at room
      constructor
      · rintro ⟨-, states⟩ tal' taken
        obtain ⟨exact_, keeps⟩ := step_numbered_iff numbered earlier (by omega) taken
        have cond := exact_.mp (states tal' taken).head
        obtain ⟨earlier', le⟩ := keeps cond
        exact ⟨cond, (ih (exact_.mpr cond) earlier' (by omega)).mp (states tal' taken)⟩
      · intro steps
        refine ⟨numbered, fun tal' taken => ?_⟩
        obtain ⟨exact_, keeps⟩ := step_numbered_iff numbered earlier (by omega) taken
        obtain ⟨cond, rest⟩ := steps tal' taken
        obtain ⟨earlier', le⟩ := keeps cond
        exact (ih (exact_.mpr cond) earlier' (by omega)).mpr rest

theorem new_numbered (dvbFifos : SortedMap Nat (DvbFifo MacPacket)) :
    Numbered (new dvbFifos).record.stored ∧
      Earlier (new dvbFifos).record.stored (new dvbFifos).baseId (new dvbFifos).record.bursts := by
  refine ⟨⟨fun id => ⟨0, .nil, fun entry mem => ?_⟩, fun entry mem => ?_⟩, fun entry mem => ?_⟩
  · cases mem
  · cases mem
  · cases mem

/-- The tags are right in every state of a run of a new terminal, with fewer events than
ids, exactly when each burst is stored whole in Slotted Aloha FIFOs under one QoS, or not
at all. -/
theorem burst_numbered_iff (config : SlottedAlohaTalConfig)
    (dvbFifos : SortedMap Nat (DvbFifo MacPacket)) (events : List TalEvent)
    (ids : events.length < 2 ^ 32) :
    Run.AllStates (step config) (fun tal => Numbered tal.record.stored) (new dvbFifos) events ↔
      Run.AllSteps (step config) (WholeOrNothing config) (new dvbFifos) events := by
  obtain ⟨numbered, earlier⟩ := new_numbered dvbFifos
  refine allStates_numbered_iff numbered earlier ?_
  rw [show (new dvbFifos).baseId = 0 from rfl]
  simpa using ids

instance (config : SlottedAlohaTalConfig) (tal : SlottedAlohaTal) :
    (event : TalEvent) → Decidable (tal.WholeOrNothing config event)
  | .burst _ => inferInstanceAs (Decidable (_ ∨ _))
  | .ctrl _ _ => isTrue trivial
  | .schedule _ _ => isTrue trivial
  | .pop _ => isTrue trivial

/-- A FIFO of Slotted Aloha for the QoS 0 and one of DAMA for the QoS 1. -/
def mixedFifos : SortedMap Nat (DvbFifo MacPacket) where
  entries := [(0, DvbFifo.new (.return .saloha) 0 10), (1, DvbFifo.new (.return .damaRbdc) 0 10)]
  sorted := by decide

def smallConfig : SlottedAlohaTalConfig where
  talId := 1
  nbReplicas := 2
  timeoutSaf := 3
  nbMaxPackets := 4
  nbMaxRetransmissions := 2
  sfPerSaframe := 1
  slotsPerCarrier := 8
  defaultFifoId := 0

/-- Two bursts of packets for Slotted Aloha. -/
theorem burst_numbered_two :
    Run.AllStates (step smallConfig) (fun tal => Numbered tal.record.stored) (new mixedFifos)
      [.burst [⟨[1], 0, 1, 0⟩, ⟨[2], 0, 1, 0⟩], .burst [⟨[3], 0, 1, 0⟩]] :=
  (burst_numbered_iff _ _ _ (by decide)).mpr (by decide)

/-- A burst with one packet for each FIFO. -/
theorem mixed_burst_not_numbered :
    ¬ ∀ (config : SlottedAlohaTalConfig) (dvbFifos : SortedMap Nat (DvbFifo MacPacket))
      (events : List TalEvent), events.length < 2 ^ 32 →
        Run.AllStates (step config) (fun tal => Numbered tal.record.stored) (new dvbFifos)
          events := by
  intro claim
  obtain ⟨numbered, earlier⟩ := new_numbered mixedFifos
  have steps : Run.AllSteps (step smallConfig) (WholeOrNothing smallConfig) (new mixedFifos) _ :=
    (allStates_numbered_iff numbered earlier (by decide)).mp
      (claim smallConfig mixedFifos [.burst [⟨[1], 0, 1, 0⟩, ⟨[2], 1, 1, 0⟩]] (by decide))
  revert steps
  decide

end SlottedAlohaTal

end OpenSand
