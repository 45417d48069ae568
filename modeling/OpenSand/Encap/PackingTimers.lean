import OpenSand.Encap.Packing

/-!
Every packet that is packed is emitted in one PDU.

The contexts of GSE gather packets as batches by identifier do, and each timer that expires hands
one of them out. `packed_iff` says in which runs every context that holds packets has a timer, so
that each packet received is emitted once.
-/

namespace OpenSand

namespace Gse

/-! ### Labels and context identifiers -/

namespace Context

theorem and_31 (n : Nat) : n &&& 0x1F = n % 32 := Nat.and_two_pow_sub_one_eq_mod n 5

theorem and_7 (n : Nat) : n &&& 0x07 = n % 8 := Nat.and_two_pow_sub_one_eq_mod n 3

theorem isSome_setLabel_iff (packet : NetPacket) :
    (setLabel packet).isSome ↔ (identifier packet).Small := by
  rw [setLabel, GseIdentifier.Small, identifier, and_31, and_31, and_7]
  dsimp only
  split
  next large =>
    constructor
    · intro told
      cases told
    · intro small
      omega
  next small =>
    constructor
    · intro _
      omega
    · intro _
      rfl

theorem contextId_eq {packet : NetPacket} (small : (identifier packet).Small) :
    contextId packet = packet.srcTalId * 256 + packet.dstTalId * 8 + packet.qos := by
  obtain ⟨src, dst, qos⟩ := small
  dsimp only [identifier] at src dst qos
  have high : packet.srcTalId <<< 8 ||| packet.dstTalId <<< 3 =
      (packet.srcTalId * 32 + packet.dstTalId) <<< 3 := by
    rw [← Nat.shiftLeft_add_eq_or_of_lt (by rw [Nat.shiftLeft_eq]; omega)]
    simp only [Nat.shiftLeft_eq]
    omega
  rw [contextId, and_31, and_31, and_7, Nat.mod_eq_of_lt src, Nat.mod_eq_of_lt dst,
    Nat.mod_eq_of_lt qos, high, ← Nat.shiftLeft_add_eq_or_of_lt qos, Nat.shiftLeft_eq]
  omega

/-- The timer of a small packet flushes its context. -/
theorem flushed_contextId {packet : NetPacket} (small : (identifier packet).Small) :
    flushed (contextId packet) = identifier packet := by
  rw [flushed, contextId_eq small, and_31, and_31, and_7]
  obtain ⟨src, dst, qos⟩ := small
  dsimp only [identifier] at src dst qos ⊢
  simp only [Nat.shiftRight_eq_div_pow]
  congr 1 <;> omega

theorem small_flushed (contextId : Nat) : (flushed contextId).Small := by
  rw [GseIdentifier.Small, flushed, and_31, and_31, and_7]
  dsimp only
  omega
end Context

variable {conf : Packing}

open Context

/-! ### Contexts -/

namespace GseEncapCtx

/-- A context that was reset or has room, with packets of one length. -/
structure Ready (fixedLength : Nat) (context : GseEncapCtx) : Prop where
  room : context.toReset = true ∧ context.vfrag = some [] ∨
    context.toReset = false ∧ context.isFull = false
  lengths : ∀ packet ∈ context.data, packet.1.data.length = fixedLength

variable {context : GseEncapCtx} {maxPacketLength fixedLength : Nat} {packet : Numbered}

theorem ready_new : new.Ready fixedLength :=
  ⟨.inr ⟨rfl, rfl⟩, List.forall_mem_nil _⟩

theorem length_eq (lengths : ∀ packet ∈ context.data, packet.1.data.length = fixedLength) :
    context.length = context.data.length * fixedLength := by
  rw [length, List.map_congr_left lengths, List.map_const', List.sum_replicate_nat]

theorem put_eq (maxPacketLength : Nat) (context : GseEncapCtx) (previous : List Numbered)
    (packet : Numbered) :
    (context.put maxPacketLength previous packet).vfrag = some (previous ++ [packet]) ∧
      (context.put maxPacketLength previous packet).toReset = context.toReset ∧
      ((context.put maxPacketLength previous packet).isFull = true ↔ context.isFull = true ∨
        maxPacketLength - ((previous ++ [packet]).map fun packet => packet.1.data.length).sum <
          packet.1.data.length) := by
  rw [put, length, data]
  dsimp only [Option.getD_some]
  split
  next full => exact ⟨rfl, rfl, iff_of_true rfl (.inr full)⟩
  next room => exact ⟨rfl, rfl, (or_iff_left room).symm⟩

/-- A packet is added to a context that is ready, behind its data. -/
theorem add_eq (maxPacketLength : Nat) (ready : context.Ready fixedLength)
    (length : packet.1.data.length = fixedLength) :
    ∃ next, context.add maxPacketLength packet = some next ∧
      next.vfrag = some (context.data ++ [packet]) ∧ next.toReset = false ∧ (next.isFull = true ↔
        maxPacketLength - (context.data.length + 1) * fixedLength < fixedLength) := by
  have total : ((context.data ++ [packet]).map fun packet => packet.1.data.length).sum =
      (context.data.length + 1) * fixedLength := by
    rw [List.map_append, List.sum_append, Nat.succ_mul, List.map_singleton, List.sum_singleton,
      length]
    exact congrArg (· + fixedLength) (length_eq ready.lengths)
  obtain ⟨reset, empty⟩ | ⟨reset, room⟩ := ready.room
  · have none_held : context.data = [] := by rw [data, empty, Option.getD_some]
    rw [none_held, List.nil_append, List.map_singleton, List.sum_singleton] at total
    let cleaned : GseEncapCtx := { context with isFull := false, toReset := false }
    obtain ⟨vfrag, kept, full⟩ := put_eq maxPacketLength cleaned [] packet
    refine ⟨_, by rw [add, empty]; exact if_pos reset, ?_, kept, ?_⟩
    · rw [vfrag, none_held]
    · rw [full, List.nil_append, List.map_singleton, List.sum_singleton, none_held]
      simp [cleaned, length]
  · have added : context.add maxPacketLength packet =
        some (context.put maxPacketLength context.data packet) := by
      rw [add, data]
      cases context.vfrag with
      | none => rfl
      | some data => rw [reset, room]; rfl
    obtain ⟨vfrag, kept, full⟩ := put_eq maxPacketLength context context.data packet
    refine ⟨_, added, vfrag, kept.trans reset, ?_⟩
    · rw [full, total, room, length]
      exact or_iff_right Bool.false_ne_true

theorem data_setReset (context : GseEncapCtx) : context.setReset.data = [] := by
  rw [setReset, data]
  cases context.vfrag <;> rfl

theorem ready_setReset (fixedLength : Nat) (held : context.vfrag.isSome) :
    context.setReset.vfrag.isSome ∧ context.setReset.Ready fixedLength := by
  obtain ⟨former, held⟩ := Option.isSome_iff_exists.mp held
  refine ⟨by rw [setReset, held]; rfl, .inl ⟨rfl, by rw [setReset, held, Option.map_some]⟩, ?_⟩
  rw [data_setReset]
  exact List.forall_mem_nil _

end GseEncapCtx

/-- The packet that fills a context, when there is room for it. -/
theorem full_iff {maxLength length count : Nat} (room : count < maxLength / length) :
    maxLength - (count + 1) * length < length ↔ count + 1 = maxLength / length := by
  have positive : 0 < length := Nat.pos_of_ne_zero fun zero => by simp [zero] at room
  have fits : (count + 1) * length ≤ maxLength := (Nat.le_div_iff_mul_le positive).mp room
  have last : maxLength < (count + 1 + 1) * length ↔ maxLength / length < count + 1 + 1 :=
    (Nat.div_lt_iff_lt_mul positive).symm
  rw [Nat.succ_mul (count + 1)] at last
  omega

/-! ### Contexts as batches -/

def identifierOf (packet : Numbered) : GseIdentifier := identifier packet.1

/-- What the contexts hold and the PDUs sent. -/
def gathered (contexts : Contexts) (sent : List Pdu) : Batches GseIdentifier Numbered where
  pending id := (contexts id).elim [] GseEncapCtx.data
  emitted := sent.map Pdu.packets

def AllReady (conf : Packing) (contexts : Contexts) : Prop :=
  ∀ id context, contexts id = some context →
    context.vfrag.isSome ∧ context.Ready conf.fixedLength

variable {contexts : Contexts} {sent : List Pdu} {context : GseEncapCtx} {id : GseIdentifier}
  {packet : Numbered}

theorem gathered_pending (contexts : Contexts) (sent : List Pdu) (id : GseIdentifier) :
    (gathered contexts sent).pending id = (contexts id).elim [] GseEncapCtx.data := rfl

theorem waiting_eq (contexts : Contexts) (sent : List Pdu) (id : GseIdentifier) :
    ((gathered contexts sent).pending id).length = waiting contexts id := rfl

theorem gathered_update (contexts : Contexts) (sent sent' : List Pdu) (id : GseIdentifier)
    (context : GseEncapCtx) :
    gathered (Function.update contexts id (some context)) sent' =
      ⟨Function.update (gathered contexts sent).pending id context.data,
        sent'.map Pdu.packets⟩ := by
  rw [gathered, Batches.mk.injEq]
  refine ⟨?_, rfl⟩
  funext other
  rw [Function.update_apply, Function.update_apply, gathered_pending]
  split <;> rfl

theorem AllReady.update (ready : AllReady conf contexts)
    (new : context.vfrag.isSome ∧ context.Ready conf.fixedLength) :
    AllReady conf (Function.update contexts id (some context)) := by
  intro other context' found
  rw [Function.update_apply] at found
  split at found
  · cases found
    exact new
  · exact ready other context' found

/-- The context of a packet, made when there is none. -/
theorem AllReady.getD_new (ready : AllReady conf contexts) (sent : List Pdu) (id : GseIdentifier) :
    ((contexts id).getD .new).Ready conf.fixedLength ∧
      ((contexts id).getD .new).data = (gathered contexts sent).pending id := by
  rw [gathered_pending]
  cases found : contexts id with
  | none => exact ⟨GseEncapCtx.ready_new, rfl⟩
  | some context => exact ⟨(ready id context found).2, rfl⟩

theorem Packing.Fit.encapPacket {conf : Packing} (fit : conf.Fit packet.1) (data : List Numbered) :
    ∃ label, Context.encapPacket packet.1 data = some ⟨label, data⟩ := by
  obtain ⟨label, told⟩ := Option.isSome_iff_exists.mp ((isSome_setLabel_iff _).mpr fit.1)
  exact ⟨label, by rw [Context.encapPacket, told, Option.map_some]⟩

/-- A packet waits when its context has room left, and a capacity of one leaves none. -/
theorem kept_iff (conf : Packing) {count : Nat} {isFull : Bool} (positive : 0 < conf.fixedLength)
    (short : count < conf.capacity) (full : isFull = true ↔
      conf.maxPacketLength - (count + 1) * conf.fixedLength < conf.fixedLength) :
    isFull = false ∧ conf.packingThreshold ≠ 0 ↔ count + 1 ≠ conf.capacity := by
  rw [Packing.capacity] at short ⊢
  by_cases always : conf.packingThreshold = 0
  · rw [if_pos (.inr always)] at short ⊢
    omega
  · rw [if_neg (by omega)] at short ⊢
    rw [and_iff_left always, ← Bool.not_eq_true, full, full_iff short]

/-- A packet that is not refused goes behind those of its context, and the context is emitted
when it is full. -/
theorem encapFixedLength_eq (sent : List Pdu) (positive : 0 < conf.fixedLength)
    (fit : conf.Fit packet.1) (ready : AllReady conf contexts) {held : List Numbered}
    (own : (gathered contexts sent).pending (identifierOf packet) = held)
    (short : held.length < conf.capacity) :
    ∃ context : GseEncapCtx, (context.vfrag.isSome ∧ context.Ready conf.fixedLength) ∧
      (encapFixedLength conf contexts packet).1 =
        Function.update contexts (identifierOf packet) (some context) ∧
      if held.length + 1 = conf.capacity then
        context.data = [] ∧ ∃ label,
          (encapFixedLength conf contexts packet).2 = some (0, [⟨label, held ++ [packet]⟩])
      else
        context.data = held ++ [packet] ∧
          (encapFixedLength conf contexts packet).2 = some (conf.packingThreshold, []) := by
  have length := fit.2 positive
  obtain ⟨ready', data⟩ := ready.getD_new sent (identifierOf packet)
  obtain ⟨next, added, vfrag, clean, full⟩ :=
    GseEncapCtx.add_eq conf.maxPacketLength ready' length
  rw [data, own] at vfrag full
  have behind : next.data = held ++ [packet] := by rw [GseEncapCtx.data, vfrag, Option.getD_some]
  have made : next.vfrag.isSome := by rw [vfrag, Option.isSome_some]
  have kept := kept_iff conf positive short full
  have lengths : ∀ packet' ∈ next.data, packet'.1.data.length = conf.fixedLength := by
    rw [behind, ← own, ← data]
    intro packet' mem
    rcases List.mem_append.mp mem with old | new
    · exact ready'.lengths packet' old
    · rw [List.mem_singleton.mp new, length]
  have packed : encapFixedLength conf contexts packet =
      if next.isFull = false ∧ conf.packingThreshold ≠ 0 then
        (Function.update contexts (identifierOf packet) (some next),
          some (conf.packingThreshold, []))
      else
        (Function.update contexts (identifierOf packet) (some next.setReset),
          (Context.encapPacket packet.1 next.data).map fun pdu => (0, [pdu])) := by
    rw [encapFixedLength, if_neg (not_not_intro length)]
    dsimp only
    rw [show identifier packet.1 = identifierOf packet from rfl, added]
  rw [packed]
  by_cases filled : held.length + 1 = conf.capacity
  · obtain ⟨label, emitted⟩ := fit.encapPacket next.data
    refine ⟨next.setReset, GseEncapCtx.ready_setReset _ made, ?_⟩
    rw [if_pos filled, if_neg fun waits => kept.mp waits filled, emitted, ← behind]
    exact ⟨rfl, GseEncapCtx.data_setReset next, label, rfl⟩
  · have waits := kept.mpr filled
    refine ⟨next, ⟨made, .inr ⟨clean, waits.1⟩, lengths⟩, ?_⟩
    rw [if_neg filled, if_pos waits]
    exact ⟨rfl, behind, rfl⟩

/-- One packet of a burst: the contexts take it as batches do, and the delay tells whether it
waits. -/
theorem encapsulateNext_push {enc : Encapsulation} (fit : conf.Fit packet.1)
    (ready : AllReady conf enc.contexts) (sent : List Pdu)
    (sound : (gathered enc.contexts (sent ++ enc.gsePackets)).Sound identifierOf conf.capacity) :
    AllReady conf (encapsulateNext conf enc packet).contexts ∧
      gathered (encapsulateNext conf enc packet).contexts
          (sent ++ (encapsulateNext conf enc packet).gsePackets) =
        (gathered enc.contexts (sent ++ enc.gsePackets)).push identifierOf conf.capacity packet ∧
      (encapsulateNext conf enc packet).timeContexts = enc.timeContexts.insert
        (if waiting enc.contexts (identifierOf packet) + 1 = conf.capacity then 0
          else conf.packingThreshold) (contextId packet.1) := by
  have short := sound.short (identifierOf packet)
  by_cases positive : 0 < conf.fixedLength
  · obtain ⟨context, ready', made, rest⟩ :=
      encapFixedLength_eq (sent ++ enc.gsePackets) positive fit ready rfl short
    rw [encapsulateNext, encap, if_pos positive, ← waiting_eq _ (sent ++ enc.gsePackets)]
    split at rest
    next full =>
      obtain ⟨data, label, emitted⟩ := rest
      rw [emitted, made, if_pos full, Batches.push_of_full full]
      dsimp only
      refine ⟨ready.update ready', ?_, rfl⟩
      rw [gathered_update enc.contexts (sent ++ enc.gsePackets), data, ← List.append_assoc,
        List.map_append]
      rfl
    next room =>
      obtain ⟨data, waits⟩ := rest
      rw [waits, made, if_neg room, Batches.push_of_room room]
      dsimp only
      refine ⟨ready.update ready', ?_, rfl⟩
      rw [gathered_update enc.contexts (sent ++ enc.gsePackets), data, List.append_nil]
      rfl
  · have one : conf.capacity = 1 := if_pos (.inl (by omega))
    have nothing : (gathered enc.contexts (sent ++ enc.gsePackets)).pending
        (identifierOf packet) = [] := List.eq_nil_of_length_eq_zero (by omega)
    have none_waits : waiting enc.contexts (identifierOf packet) = 0 := congrArg List.length nothing
    obtain ⟨label, emitted⟩ := fit.encapPacket [packet]
    rw [encapsulateNext, encap, if_neg positive, encapVariableLength, emitted, none_waits, one,
      Batches.push_of_full (by rw [nothing]; rfl), nothing]
    dsimp only [Option.map_some]
    refine ⟨ready, ?_, rfl⟩
    rw [Function.update_eq_self_iff.mpr nothing.symm, ← List.append_assoc, gathered,
      List.map_append]
    rfl

/-- A burst whose packets are not refused: its delays tell the first context in which a packet
had to wait. -/
theorem encapsulateAll_push (enc : Encapsulation) {burst : List Numbered}
    (fits : ∀ packet ∈ burst, conf.Fit packet.1) (ready : AllReady conf enc.contexts)
    (sent : List Pdu)
    (sound : (gathered enc.contexts (sent ++ enc.gsePackets)).Sound identifierOf conf.capacity) :
    AllReady conf (burst.foldl (encapsulateNext conf) enc).contexts ∧
      gathered (burst.foldl (encapsulateNext conf) enc).contexts
          (sent ++ (burst.foldl (encapsulateNext conf) enc).gsePackets) =
        burst.foldl (Batches.push identifierOf conf.capacity)
          (gathered enc.contexts (sent ++ enc.gsePackets)) ∧
      ∀ delay, delay ≠ 0 →
        ((burst.foldl (encapsulateNext conf) enc).timeContexts.lookup delay).map flushed =
          ((enc.timeContexts.lookup delay).map flushed).or
            (if delay = conf.packingThreshold then
              Batches.firstKept identifierOf conf.capacity (waiting enc.contexts) burst
            else none) := by
  induction burst generalizing enc with
  | nil => exact ⟨ready, rfl, fun delay _ => by simp [Batches.firstKept]⟩
  | cons packet burst ih =>
      obtain ⟨fit, fits⟩ := List.forall_mem_cons.mp fits
      obtain ⟨ready', pushed, time⟩ := encapsulateNext_push fit ready sent sound
      have sound' := sound.push packet
      rw [← pushed] at sound'
      obtain ⟨ready'', pushed', times⟩ := ih _ fits ready' sound'
      refine ⟨ready'', by rw [List.foldl_cons, List.foldl_cons, ← pushed]; exact pushed', ?_⟩
      intro delay nonzero
      have short := sound.short (identifierOf packet)
      rw [waiting_eq] at short
      rw [List.foldl_cons, times delay nonzero, time, SortedMap.lookup_insert_or,
        Batches.firstKept]
      by_cases full : waiting enc.contexts (identifierOf packet) + 1 = conf.capacity
      · -- The context is emitted, and nothing waits in it.
        have none_left : waiting (encapsulateNext conf enc packet).contexts =
            Function.update (waiting enc.contexts) (identifierOf packet) 0 := by
          funext id
          have length := Batches.length_push sound packet id
          rw [← pushed, waiting_eq, waiting_eq, waiting_eq, full, Nat.mod_self] at length
          rw [length, Function.update_apply]
        rw [none_left, if_pos full, if_neg nonzero, full, Nat.mod_self, if_pos rfl]
      · have room : (waiting enc.contexts (identifierOf packet) + 1) % conf.capacity ≠ 0 := by
          rw [Nat.mod_eq_of_lt (by omega)]
          omega
        rw [if_neg full, if_neg room]
        by_cases threshold : delay = conf.packingThreshold
        · rw [if_pos threshold, if_pos threshold, if_pos threshold, ← threshold, Option.map_or,
            Option.or_assoc, Option.map_some, Option.some_or, flushed_contextId fit.1]
          rfl
        · rw [if_neg threshold, if_neg threshold, if_neg threshold]

theorem encapsulate_push {burst : List Numbered} (fits : ∀ packet ∈ burst, conf.Fit packet.1)
    (ready : AllReady conf contexts)
    (sound : (gathered contexts sent).Sound identifierOf conf.capacity) :
    AllReady conf (encapsulate conf contexts burst).contexts ∧
      gathered (encapsulate conf contexts burst).contexts
          (sent ++ (encapsulate conf contexts burst).gsePackets) =
        burst.foldl (Batches.push identifierOf conf.capacity) (gathered contexts sent) ∧
      ∀ delay, delay ≠ 0 →
        ((encapsulate conf contexts burst).timeContexts.lookup delay).map flushed =
          if delay = conf.packingThreshold then
            Batches.firstKept identifierOf conf.capacity (waiting contexts) burst
          else none := by
  have sound' : (gathered contexts (sent ++ [])).Sound identifierOf conf.capacity := by
    rw [List.append_nil]
    exact sound
  obtain ⟨ready', pushed, times⟩ :=
    encapsulateAll_push ⟨contexts, [], .empty⟩ fits ready sent sound'
  refine ⟨ready', ?_, fun delay nonzero => ?_⟩
  · rw [List.append_nil] at pushed
    exact pushed
  · have time := times delay nonzero
    rw [SortedMap.lookup_empty, Option.map_none, Option.none_or] at time
    exact time

theorem Context.isSome_contextLabel (contextId : Nat) :
    (contextLabel (flushed contextId)).isSome :=
  (isSome_setLabel_iff _).mpr (small_flushed contextId)

/-- A flush hands out what a context holds, if it holds something. -/
theorem flush_gathered (sent : List Pdu) (ready : AllReady conf contexts) (contextId : Nat) :
    AllReady conf (flush contexts contextId).1 ∧
      gathered (flush contexts contextId).1 (sent ++ (flush contexts contextId).2) =
        (gathered contexts sent).flush (flushed contextId) := by
  obtain ⟨label, told⟩ := Option.isSome_iff_exists.mp (isSome_contextLabel contextId)
  have pending := gathered_pending contexts sent (flushed contextId)
  rw [flush, Batches.flush]
  cases found : contexts (flushed contextId) with
  | none =>
      rw [found, Option.elim_none] at pending
      rw [if_pos (List.isEmpty_iff.mpr pending), List.append_nil]
      exact ⟨ready, rfl⟩
  | some context =>
      rw [found, Option.elim_some] at pending
      rw [told]
      dsimp only
      have reset := GseEncapCtx.ready_setReset conf.fixedLength (ready _ context found).1
      refine ⟨ready.update reset, ?_⟩
      rw [gathered_update contexts sent, GseEncapCtx.data_setReset, pending]
      by_cases empty : context.data.isEmpty = true
      · rw [if_pos empty, if_pos empty, List.append_nil, ← List.isEmpty_iff.mp empty, ← pending,
          Function.update_eq_self]
        rfl
      · rw [if_neg empty, if_neg empty, List.map_append]
        rfl

/-! ### Refused packets -/

namespace GseEncapCtx

theorem mem_add {context next : GseEncapCtx} {maxPacketLength : Nat} {packet other : Numbered}
    (added : context.add maxPacketLength packet = some next) (mem : other ∈ next.data) :
    other ∈ context.data ∨ other = packet := by
  have copied : ∀ (former : GseEncapCtx) previous,
      some (former.put maxPacketLength previous packet) = some next →
        other ∈ previous ∨ other = packet := by
    intro former previous made
    have vfrag := (put_eq maxPacketLength former previous packet).1
    rw [Option.some.inj made] at vfrag
    rw [data, vfrag, Option.getD_some, List.mem_append, List.mem_singleton] at mem
    exact mem
  have nothing : other ∈ [] ∨ other = packet → other ∈ context.data ∨ other = packet :=
    Or.imp_left fun mem => absurd mem List.not_mem_nil
  rw [add] at added
  split at added
  · exact nothing (copied _ _ added)
  next former held =>
    split at added
    · exact nothing (copied _ _ added)
    split at added
    · cases added
    · rw [data, held, Option.getD_some]
      exact copied _ _ added

end GseEncapCtx

theorem Context.encapPacket_eq_some {packet : NetPacket} {data : List Numbered} {pdu : Pdu}
    (made : Context.encapPacket packet data = some pdu) :
    (identifier packet).Small ∧ pdu.packets = data := by
  obtain ⟨label, told, rfl⟩ := Option.map_eq_some_iff.mp made
  exact ⟨(isSome_setLabel_iff packet).mp (by rw [told]; rfl), rfl⟩

/-- Contexts hold their own packets, of the right length. -/
def Own (conf : Packing) (contexts : Contexts) : Prop :=
  ∀ id context, contexts id = some context → ∀ packet ∈ context.data,
    identifierOf packet = id ∧ packet.1.data.length = conf.fixedLength

/-- No packet of some PDUs was to be refused. -/
def AllFit (conf : Packing) (pdus : List Pdu) : Prop :=
  ∀ pdu ∈ pdus, ∀ packet ∈ pdu.packets, conf.Fit packet.1

theorem Own.update (own : Own conf contexts) (new : ∀ packet ∈ context.data,
    identifierOf packet = id ∧ packet.1.data.length = conf.fixedLength) :
    Own conf (Function.update contexts id (some context)) := by
  intro other context' found
  rw [Function.update_apply] at found
  split at found
  next same =>
    cases found
    rw [same]
    exact new
  · exact own other context' found

theorem Own.getD_new (own : Own conf contexts) (id : GseIdentifier) :
    ∀ packet ∈ ((contexts id).getD .new).data,
      identifierOf packet = id ∧ packet.1.data.length = conf.fixedLength := by
  cases found : contexts id with
  | none => exact List.forall_mem_nil _
  | some context => exact own id context found

theorem AllFit.append {pdus pdus' : List Pdu} (fit : AllFit conf pdus) (fit' : AllFit conf pdus') :
    AllFit conf (pdus ++ pdus') :=
  fun pdu mem => (List.mem_append.mp mem).elim (fit pdu) (fit' pdu)

theorem allFit_nil : AllFit conf [] := List.forall_mem_nil _

theorem allFit_singleton {pdu : Pdu} (fit : ∀ packet ∈ pdu.packets, conf.Fit packet.1) :
    AllFit conf [pdu] :=
  List.forall_mem_singleton.mpr fit

theorem own_encapFixedLength (own : Own conf contexts) (packet : Numbered) :
    Own conf (encapFixedLength conf contexts packet).1 ∧
      ∀ time pdus, (encapFixedLength conf contexts packet).2 = some (time, pdus) →
        AllFit conf pdus := by
  rw [encapFixedLength]
  split
  · exact ⟨own, fun _ _ done => by cases done⟩
  next length =>
    have former := own.getD_new (identifier packet.1)
    dsimp only
    split
    · exact ⟨own.update former, fun _ _ done => by cases done⟩
    next filled added =>
      have held : ∀ other ∈ filled.data,
          identifierOf other = identifier packet.1 ∧ other.1.data.length = conf.fixedLength := by
        intro other mem
        rcases GseEncapCtx.mem_add added mem with old | rfl
        · exact former other old
        · exact ⟨rfl, not_not.mp length⟩
      split
      · refine ⟨own.update held, ?_⟩
        intro time pdus done
        cases done
        exact List.forall_mem_nil _
      · refine ⟨own.update (by rw [GseEncapCtx.data_setReset]; exact List.forall_mem_nil _), ?_⟩
        intro time pdus done
        obtain ⟨pdu, made, eq⟩ := Option.map_eq_some_iff.mp done
        cases eq
        obtain ⟨small, packets⟩ := encapPacket_eq_some made
        refine allFit_singleton ?_
        rw [packets]
        intro other mem
        obtain ⟨same, length⟩ := held other mem
        rw [← same] at small
        exact ⟨small, fun _ => length⟩

theorem own_encap (own : Own conf contexts) (packet : Numbered) :
    Own conf (encap conf contexts packet).1 ∧
      ∀ time pdus, (encap conf contexts packet).2 = some (time, pdus) → AllFit conf pdus := by
  rw [encap]
  split
  · exact own_encapFixedLength own packet
  next variable_length =>
    refine ⟨own, fun time pdus done => ?_⟩
    obtain ⟨pdu, made, eq⟩ := Option.map_eq_some_iff.mp done
    cases eq
    obtain ⟨small, packets⟩ := encapPacket_eq_some made
    refine allFit_singleton ?_
    rw [packets]
    exact List.forall_mem_singleton.mpr ⟨small, fun positive => absurd positive variable_length⟩

/-- One packet of a burst, refused or not. -/
theorem own_encapsulateNext {enc : Encapsulation} (own : Own conf enc.contexts)
    (fit : AllFit conf enc.gsePackets) (packet : Numbered) :
    Own conf (encapsulateNext conf enc packet).contexts ∧
      AllFit conf (encapsulateNext conf enc packet).gsePackets := by
  obtain ⟨own', fit'⟩ := own_encap own packet
  rw [encapsulateNext]
  split
  · exact ⟨own', fit⟩
  next time pdus done => exact ⟨own', fit.append (fit' time pdus done)⟩

theorem own_encapsulate (own : Own conf contexts) (burst : List Numbered) :
    Own conf (encapsulate conf contexts burst).contexts ∧
      AllFit conf (encapsulate conf contexts burst).gsePackets :=
  List.foldlRecOn (motive := fun enc => Own conf enc.contexts ∧ AllFit conf enc.gsePackets)
    burst (encapsulateNext conf) ⟨own, allFit_nil⟩
    fun _ kept packet _ => own_encapsulateNext kept.1 kept.2 packet

theorem own_flush (own : Own conf contexts) (contextId : Nat) :
    Own conf (flush contexts contextId).1 ∧
      AllFit conf (flush contexts contextId).2 := by
  rw [flush]
  split
  · exact ⟨own, List.forall_mem_nil _⟩
  next context found =>
    split
    · exact ⟨own, List.forall_mem_nil _⟩
    · refine ⟨own.update (by rw [GseEncapCtx.data_setReset]; exact List.forall_mem_nil _), ?_⟩
      dsimp only
      split
      · exact List.forall_mem_nil _
      · refine allFit_singleton fun packet mem => ?_
        obtain ⟨same, length⟩ := own _ context found packet mem
        have small := small_flushed contextId
        rw [← same] at small
        exact ⟨small, fun _ => length⟩

end Gse

/-! ### Timers -/

namespace BlockEncap.Downward

open Gse Gse.Context

variable {conf : Packing} {block : Downward} {id : GseIdentifier}

theorem hasTimer_setTimer (timers : SortedMap Nat Nat) (entry : Int × Nat) :
    HasTimer (setTimer conf timers entry) id ↔
      HasTimer timers id ∨ entry.1 ≠ 0 ∧ flushed entry.2 = id := by
  rw [setTimer]
  split
  next new =>
    have fresh : timers.lookup (conf.newEvent timers.keys) = none := by
      refine Option.not_isSome_iff_eq_none.mp fun held => ?_
      exact conf.fresh _ (SortedMap.mem_keys_iff.mpr held)
    rw [and_iff_right new.2]
    constructor
    · rintro ⟨event, contextId, armed, flushes⟩
      rw [SortedMap.lookup_insert fresh] at armed
      split at armed
      · cases armed
        exact .inr flushes
      · exact .inl ⟨event, contextId, armed, flushes⟩
    · rintro (⟨event, contextId, armed, flushes⟩ | flushes)
      · refine ⟨event, contextId, ?_, flushes⟩
        rw [SortedMap.lookup_insert fresh, if_neg ?_, armed]
        rintro rfl
        cases fresh.symm.trans armed
      · exact ⟨_, entry.2, by rw [SortedMap.lookup_insert fresh, if_pos rfl], flushes⟩
  next old =>
    refine ⟨.inl, ?_⟩
    rintro (armed | ⟨nonzero, flushes⟩)
    · exact armed
    · -- The context has a timer already.
      have found : timers.entries.any (·.2 = entry.2) = true := by
        by_contra none_found
        exact old ⟨Bool.not_eq_true _ ▸ none_found, nonzero⟩
      obtain ⟨held, mem, same⟩ := List.any_eq_true.mp found
      refine ⟨held.1, held.2, SortedMap.lookup_of_mem mem, ?_⟩
      rw [of_decide_eq_true same, flushes]

theorem hasTimer_setTimers (timers : SortedMap Nat Nat) (entries : List (Int × Nat)) :
    HasTimer (entries.foldl (setTimer conf) timers) id ↔
      HasTimer timers id ∨ ∃ entry ∈ entries, entry.1 ≠ 0 ∧ flushed entry.2 = id := by
  induction entries generalizing timers with
  | nil => simp
  | cons entry entries ih =>
      rw [List.foldl_cons, ih, hasTimer_setTimer, or_assoc, List.exists_mem_cons_iff]

theorem armed_iff :
    block.Armed ↔ ∀ id, waiting block.contexts id ≠ 0 → HasTimer block.timers id := by
  refine forall_congr' fun id => ?_
  rw [waiting]
  cases block.contexts id with
  | none => simp
  | some context => simp

/-! ### Steps -/

/-- What the steps keep: the contexts are ready and gather packets as batches do, and each packet
received is held once. -/
structure Kept (conf : Packing) (block : Downward) : Prop where
  ready : AllReady conf block.contexts
  sound : (gathered block.contexts block.sent).Sound identifierOf conf.capacity
  held : ∀ packet, Batches.held identifierOf (gathered block.contexts block.sent) packet =
    block.received.zipIdx.count packet

theorem capacity_pos (conf : Packing) : 0 < conf.capacity := by
  rw [Packing.capacity]
  split
  · exact Nat.one_pos
  next packs =>
    exact Nat.div_pos conf.fits (Nat.pos_of_ne_zero fun zero => packs (.inl zero))

theorem kept_start (conf : Packing) : Kept conf start where
  ready := by
    intro id context found
    cases found
  sound :=
    { own := by
        intro id packet mem
        cases mem
      short := fun _ => capacity_pos conf }
  held := fun _ => rfl

/-- A burst whose packets are not refused. -/
theorem kept_onRcvBurst (kept : Kept conf block) {packets : List NetPacket}
    (fits : ∀ packet ∈ packets, conf.Fit packet) :
    Kept conf (block.onRcvBurst conf packets) ∧
      (∀ id, waiting (block.onRcvBurst conf packets).contexts id = block.left conf packets id) ∧
      ∀ id, HasTimer (block.onRcvBurst conf packets).timers id ↔ HasTimer block.timers id ∨
        Batches.firstKept identifier conf.capacity (waiting block.contexts) packets = some id := by
  have numbered : (packets.zipIdx block.received.length).map Prod.fst = packets :=
    List.zipIdx_map_fst ..
  have fits' : ∀ packet ∈ packets.zipIdx block.received.length, conf.Fit packet.1 :=
    fun packet mem => fits packet.1 (List.fst_mem_of_mem_zipIdx mem)
  obtain ⟨ready, pushed, times⟩ := encapsulate_push fits' kept.ready kept.sound
  have gathers : gathered (block.onRcvBurst conf packets).contexts
      (block.onRcvBurst conf packets).sent = (packets.zipIdx block.received.length).foldl
        (Batches.push identifierOf conf.capacity) (gathered block.contexts block.sent) := pushed
  refine ⟨⟨ready, ?_, ?_⟩, ?_, ?_⟩
  · rw [gathers]
    exact kept.sound.pushAll _
  · intro packet
    rw [gathers, Batches.held_pushAll kept.sound, kept.held, onRcvBurst]
    dsimp only
    rw [List.zipIdx_append, List.count_append, Nat.zero_add]
  · intro id
    rw [← waiting_eq _ (block.onRcvBurst conf packets).sent, gathers,
      Batches.length_pushAll kept.sound, left, waiting_eq]
    conv_rhs => rw [← numbered, List.countP_map]
    rfl
  · intro id
    rw [onRcvBurst, hasTimer_setTimers]
    refine or_congr_right ?_
    conv_rhs => rw [← numbered, Batches.firstKept_map]
    constructor
    · rintro ⟨⟨delay, contextId⟩, mem, nonzero, flushes⟩
      have time := times delay nonzero
      rw [SortedMap.lookup_of_mem mem, Option.map_some, flushes] at time
      split at time
      · exact time.symm
      · cases time
    · intro first
      have nonzero : conf.packingThreshold ≠ 0 := by
        intro zero
        rw [show conf.capacity = 1 from if_pos (.inr zero), Batches.firstKept_one] at first
        cases first
      have time := times conf.packingThreshold nonzero
      rw [if_pos rfl] at time
      obtain ⟨contextId, found, flushes⟩ := Option.map_eq_some_iff.mp (time.trans first)
      exact ⟨(_, contextId), SortedMap.mem_of_lookup found, nonzero, flushes⟩

theorem onTimer_gathered (ready : AllReady conf block.contexts) {event contextId : Nat}
    (armed : block.timers.lookup event = some contextId) :
    AllReady conf (block.onTimer event).contexts ∧
      gathered (block.onTimer event).contexts (block.onTimer event).sent =
        (gathered block.contexts block.sent).flush (flushed contextId) ∧
      (block.onTimer event).timers = block.timers.erase event ∧
      (block.onTimer event).received = block.received := by
  obtain ⟨ready', flushes⟩ := flush_gathered block.sent ready contextId
  rw [onTimer, armed]
  exact ⟨ready', flushes, rfl, rfl⟩

theorem kept_onTimer (kept : Kept conf block) (event : Nat) : Kept conf (block.onTimer event) := by
  cases armed : block.timers.lookup event with
  | none =>
      rw [onTimer, armed]
      exact kept
  | some contextId =>
      obtain ⟨ready, gathers, -, received⟩ := onTimer_gathered kept.ready armed
      refine ⟨ready, ?_, fun packet => ?_⟩
      · rw [gathers]
        exact kept.sound.flush _
      · rw [gathers, received, Batches.held_flush kept.sound, kept.held]

/-- A context that loses its timer is flushed. -/
theorem armed_onTimer (kept : Kept conf block) (armed : block.Armed) (event : Nat) :
    (block.onTimer event).Armed := by
  cases found : block.timers.lookup event with
  | none =>
      rw [onTimer, found]
      exact armed
  | some contextId =>
      obtain ⟨-, gathers, timers, -⟩ := onTimer_gathered kept.ready found
      rw [armed_iff]
      intro id waits
      have pending := Batches.flush_pending (gathered block.contexts block.sent)
        (flushed contextId) id
      rw [← gathers] at pending
      rw [← waiting_eq _ (block.onTimer event).sent, pending] at waits
      split at waits
      · exact absurd rfl waits
      next other =>
        obtain ⟨event', contextId', armed', flushes⟩ := armed_iff.mp armed id waits
        refine ⟨event', contextId', ?_, flushes⟩
        rw [timers, SortedMap.lookup_erase, if_neg ?_, armed']
        rintro rfl
        cases found.symm.trans armed'
        exact other flushes.symm

/-- Every timer in a list expires. -/
theorem onTimers_gathered (entries : List (Nat × Nat)) (ready : AllReady conf block.contexts)
    (armed : ∀ entry ∈ entries, block.timers.lookup entry.1 = some entry.2)
    (distinct : (entries.map Prod.fst).Nodup) :
    let final := (entries.map Prod.fst).foldl onTimer block
    gathered final.contexts final.sent = (entries.map fun entry => flushed entry.2).foldl
      Batches.flush (gathered block.contexts block.sent) := by
  induction entries generalizing block with
  | nil => rfl
  | cons entry entries ih =>
      obtain ⟨first, armed⟩ := List.forall_mem_cons.mp armed
      obtain ⟨fresh, distinct⟩ := List.nodup_cons.mp distinct
      obtain ⟨ready', gathers, timers, -⟩ := onTimer_gathered ready first
      have armed' : ∀ entry' ∈ entries,
          (block.onTimer entry.1).timers.lookup entry'.1 = some entry'.2 := by
        intro entry' mem
        rw [timers, SortedMap.lookup_erase, if_neg ?_, armed entry' mem]
        intro same
        exact fresh (same ▸ List.mem_map_of_mem mem)
      rw [List.map_cons, List.map_cons, List.foldl_cons, List.foldl_cons, ← gathers]
      exact ih ready' armed' distinct

theorem expireAll_gathered (ready : AllReady conf block.contexts) :
    gathered block.expireAll.contexts block.expireAll.sent =
      (block.timers.entries.map fun entry => flushed entry.2).foldl Batches.flush
        (gathered block.contexts block.sent) :=
  onTimers_gathered block.timers.entries ready
    (fun _ mem => SortedMap.lookup_of_mem mem) block.timers.keys_nodup

theorem hasTimer_iff : HasTimer block.timers id ↔
    id ∈ block.timers.entries.map fun entry => flushed entry.2 := by
  rw [List.mem_map]
  constructor
  · rintro ⟨event, contextId, armed, flushes⟩
    exact ⟨(event, contextId), SortedMap.mem_of_lookup armed, flushes⟩
  · rintro ⟨entry, mem, flushes⟩
    exact ⟨entry.1, entry.2, SortedMap.lookup_of_mem mem, flushes⟩

theorem pending_expireAll (ready : AllReady conf block.contexts) (armed : block.Armed)
    (id : GseIdentifier) :
    (gathered block.expireAll.contexts block.expireAll.sent).pending id = [] := by
  rw [expireAll_gathered ready, Batches.flushAll_pending]
  split
  · rfl
  next untimed =>
    by_contra waits
    have nonzero : waiting block.contexts id ≠ 0 := fun zero =>
      waits (List.eq_nil_of_length_eq_zero zero)
    exact untimed (hasTimer_iff.mp (armed_iff.mp armed id nonzero))

/-- The timers hand out all that is held. -/
theorem sentOnce_of_armed (kept : Kept conf block) (armed : block.Armed) : block.SentOnce := by
  intro packet mem
  have held := Batches.held_flushAll kept.sound
    (block.timers.entries.map fun entry => flushed entry.2) packet
  rw [← expireAll_gathered kept.ready, kept.held, Batches.held,
    pending_expireAll kept.ready armed, List.count_nil, Nat.add_zero] at held
  have distinct : block.received.zipIdx.Nodup :=
    List.Nodup.of_map Prod.snd (by rw [List.zipIdx_map_snd]; exact List.nodup_range')
  rw [List.flatMap_def, ← List.count_eq_one_of_mem distinct mem, ← held]
  rfl

/-! ### Runs -/

/-- Contexts hold their own packets, and no packet sent was to be refused. -/
def Honest (conf : Packing) (block : Downward) : Prop :=
  Own conf block.contexts ∧ AllFit conf block.sent

theorem Honest.onRcvBurst (honest : Honest conf block) (packets : List NetPacket) :
    Honest conf (block.onRcvBurst conf packets) := by
  obtain ⟨own, fit⟩ := own_encapsulate honest.1 (packets.zipIdx block.received.length)
  exact ⟨own, honest.2.append fit⟩

theorem Honest.onTimer (honest : Honest conf block) (event : Nat) :
    Honest conf (block.onTimer event) := by
  rw [Downward.onTimer]
  split
  · exact honest
  next contextId _ =>
    obtain ⟨own, fit⟩ := own_flush honest.1 contextId
    exact ⟨own, honest.2.append fit⟩

theorem Honest.expireAll (honest : Honest conf block) : Honest conf block.expireAll :=
  List.foldlRecOn (motive := Honest conf) block.timers.keys Downward.onTimer honest
    fun _ kept event _ => kept.onTimer event

/-- A packet that was to be refused is never sent. -/
theorem fit_of_sentOnce (honest : Honest conf block) {packets : List NetPacket}
    (once : (block.onRcvBurst conf packets).SentOnce) : ∀ packet ∈ packets, conf.Fit packet := by
  intro packet mem
  have received : packet ∈ (block.onRcvBurst conf packets).received :=
    List.mem_append_right _ mem
  obtain ⟨number, found⟩ := List.mem_iff_getElem?.mp received
  have count := once (packet, number) (List.mk_mem_zipIdx_iff_getElem?.mpr found)
  have sent := List.count_pos_iff.mp (count ▸ Nat.one_pos)
  obtain ⟨pdu, among, mem⟩ := List.mem_flatMap.mp sent
  exact (honest.onRcvBurst packets).expireAll.2 pdu among _ mem

/-- What holds in every state of a run that goes well. -/
def Sound (conf : Packing) (block : Downward) : Prop := Kept conf block ∧ Honest conf block

theorem sound_start : Sound conf start := by
  refine ⟨kept_start conf, ?_, List.forall_mem_nil _⟩
  intro id context found
  cases found

theorem sound_step {event : Event} {next : Downward} (sound : Sound conf block)
    (clear : block.Clear conf event) (taken : block.step conf event = some next) :
    Sound conf next := by
  cases event with
  | burst packets =>
      cases taken
      exact ⟨(kept_onRcvBurst sound.1 clear.1).1, sound.2.onRcvBurst packets⟩
  | timer event =>
      cases taken
      exact ⟨kept_onTimer sound.1 event, sound.2.onTimer event⟩

/-- One step from a state in which every context that waits has a timer. -/
theorem armed_step_iff {event : Event} {next : Downward} (sound : Sound conf block)
    (armed : block.Armed) (taken : block.step conf event = some next) :
    next.Armed ∧ next.SentOnce ↔ block.Clear conf event := by
  have all_armed : ∀ packets, (∀ packet ∈ packets, conf.Fit packet) →
      ((block.onRcvBurst conf packets).Armed ↔ ∀ id, block.left conf packets id ≠ 0 →
        HasTimer block.timers id ∨ Batches.firstKept identifier conf.capacity
          (waiting block.contexts) packets = some id) := by
    intro packets fits
    obtain ⟨-, waits, timers⟩ := kept_onRcvBurst sound.1 fits
    rw [armed_iff]
    exact forall_congr' fun id => by rw [waits, timers]
  constructor
  · rintro ⟨armed', once⟩
    cases event with
    | burst packets =>
        cases taken
        have fits := fit_of_sentOnce sound.2 once
        exact ⟨fits, (all_armed packets fits).mp armed'⟩
    | timer event => trivial
  · intro clear
    have kept := (sound_step sound clear taken).1
    have armed' : next.Armed := by
      cases event with
      | burst packets =>
          cases taken
          exact (all_armed packets clear.1).mpr clear.2
      | timer event =>
          cases taken
          exact armed_onTimer sound.1 armed event
    exact ⟨armed', sentOnce_of_armed kept armed'⟩

/-- In exactly the runs in which each burst is clear, every context that holds packets has a timer
armed and every packet received is in one PDU when the timers have expired. -/
theorem packed_iff (conf : Packing) (events : List Event) :
    Run.AllStates (step conf) (fun block => block.Armed ∧ block.SentOnce) start events ↔
      Run.AllSteps (step conf) (Clear conf) start events := by
  have begins : start.Armed ∧ start.SentOnce := by
    have armed : start.Armed := by
      intro id context found
      cases found
    exact ⟨armed, sentOnce_of_armed (kept_start conf) armed⟩
  have exact_step := fun (block : Downward) event next
      (good : (block.Armed ∧ block.SentOnce) ∧ Sound conf block)
      (taken : block.step conf event = some next) => armed_step_iff good.2 good.1.1 taken
  rw [← Run.allStates_iff_allSteps (P := fun block => (block.Armed ∧ block.SentOnce) ∧
    Sound conf block) ⟨begins, sound_start⟩]
  · constructor
    · intro states
      refine states.with_invariant sound_start ?_
      intro block event next sound good good' taken
      exact sound_step sound ((exact_step block event next ⟨good, sound⟩ taken).mp good') taken
    · intro states
      exact states.mono fun block good => good.1
  · intro block event next good taken
    constructor
    · intro good'
      exact (exact_step block event next good taken).mp good'.1
    · intro clear
      exact ⟨(exact_step block event next good taken).mpr clear, sound_step good.2 clear taken⟩

/-! ### Two contexts in one burst -/

theorem succ_max_fresh (events : List Nat) : events.max?.getD 0 + 1 ∉ events := by
  intro mem
  have le := List.le_max?_getD_of_mem (k := 0) mem
  omega

def atm : Packing where
  fixedLength := 1
  maxPacketLength := 4
  packingThreshold := 10
  newEvent events := events.max?.getD 0 + 1
  fits := Nat.le_add_left 1 3
  fresh := succ_max_fresh

/-- Packets for two terminals. -/
def twoTerminals : List NetPacket := [⟨[0], 0, 1, 2⟩, ⟨[0], 0, 1, 3⟩]

/-- The context of the second terminal waits without a timer. -/
theorem second_unarmed : ¬ Run.AllStates (step atm) (fun block => block.Armed ∧ block.SentOnce)
    start [.burst twoTerminals] := by
  intro states
  have armed : (start.onRcvBurst atm twoTerminals).Armed := (states.2 _ rfl).1
  have timer := armed_iff.mp armed ⟨1, 3, 0⟩ (by decide)
  exact absurd (hasTimer_iff.mp timer) (by decide)

end BlockEncap.Downward

end OpenSand
