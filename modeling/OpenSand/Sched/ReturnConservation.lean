import OpenSand.Lib.Run
import OpenSand.Sched.ReturnTurns

/-!
Where the packets of the return scheduling are.

Until the loop ends, what was taken out of the FIFOs is in the complete frames, in the
current one, or in hand. The current frame is deleted when the loop ends on an error,
which only loses data when the error comes from a piece that is too long for a frame that
already has packets.
-/

namespace OpenSand

open OpenSand.Loop

/-- The record is an answer of the packet handler for the packet of the element. -/
def Taken.Explained (handler : ReturnPacketHandler) (taken : Taken) : Prop :=
  ∃ before packet, taken.elem.elem = some packet ∧
    handler.encapNextPacket before packet taken.freeSpace taken.newBurst = taken.answer

/-- The record has a piece that is longer than the space the handler was given. -/
def Taken.TooLong (taken : Taken) (data : NetPacket) : Prop :=
  taken.data = some data ∧ taken.freeSpace < NetContainer.getTotalLength data

namespace MacSchedule

/-- What was taken out of the FIFOs is in the frames that are complete, whole or in pieces
in the order of the FIFOs, or is back at the head of its FIFO, or was refused. -/
structure Conserved (handler : ReturnPacketHandler) (first : List (DvbFifo NetPacket))
    (s : MacSchedule) : Prop where
  length : s.fifos.length = first.length
  drained : ∀ k before after, first[k]? = some before → s.fifos[k]? = some after →
    Replay.Drains Taken.elem Taken.back before.queue (s.taken.filter (·.fifo = k)) after.queue
  emitted : s.taken.filterMap Taken.data =
    s.complete.flatMap (·.packets) ++ s.refused.toList
  explained : ∀ taken ∈ s.taken, taken.fifo < first.length ∧ taken.Explained handler
  refused : ∀ data, s.refused = some data → ∃ taken ∈ s.taken, taken.TooLong data

/-- The element whose packet is given to the handler. -/
def inHand (s : MacSchedule) (k : Nat) : List (FifoElement NetPacket) :=
  match s.state with
  | .getChunk elem _ => if s.fifoIt = k then [elem] else []
  | _ => []

/-- The piece to add in the frame. -/
def pieceInHand (s : MacSchedule) : List NetPacket :=
  match s.state with
  | .addData data => [data]
  | _ => []

/-- Where the packets are in the loop. -/
structure Accounted (handler : ReturnPacketHandler) (first : List (DvbFifo NetPacket))
    (s : MacSchedule) : Prop where
  length : s.fifos.length = first.length
  drained : ∀ k before after, first[k]? = some before → s.fifos[k]? = some after →
    Replay.Drains Taken.elem Taken.back before.queue (s.taken.filter (·.fifo = k))
      (s.inHand k ++ after.queue)
  placed : s.taken.filterMap Taken.data =
    s.complete.flatMap (·.packets) ++ s.current ++ s.pieceInHand ++ s.refused.toList
  explained : ∀ taken ∈ s.taken, taken.fifo < first.length ∧ taken.Explained handler
  held : ∀ elem packet, s.state = .getChunk elem packet → elem.elem = some packet
  asked : ∀ data frame, s.state = .addData data → s.incomplete = some frame →
    ∃ taken ∈ s.taken, taken.data = some data ∧ taken.freeSpace = frame.getFreeSpace
  longer : ∀ data, s.refused = some data → ∃ taken ∈ s.taken, taken.TooLong data
  unrefused : s.state ≠ .error → s.refused = none

variable {handler : ReturnPacketHandler} {maxBurstLengthB : Nat}
  {first : List (DvbFifo NetPacket)} {s s' : MacSchedule}

theorem inHand_eq_nil (none : ∀ elem packet, s.state ≠ .getChunk elem packet) (k : Nat) :
    s.inHand k = [] := by
  unfold inHand
  split
  next elem packet state => exact absurd state (none elem packet)
  next => rfl

theorem pieceInHand_eq_nil (none : ∀ data, s.state ≠ .addData data) : s.pieceInHand = [] := by
  unfold pieceInHand
  split
  next data state => exact absurd state (none data)
  next => rfl

/-- A turn without a packet of the FIFOs in hand, before it and after it, that at most moves
packets between the frames. -/
theorem Accounted.reframed (h : s.Accounted handler first) (running : s.state ≠ .error)
    (noChunk : ∀ elem packet, s.state ≠ .getChunk elem packet)
    (next : (∀ elem packet, s'.state ≠ .getChunk elem packet) ∧ ∀ data, s'.state ≠ .addData data)
    (fifos : s'.fifos = s.fifos) (taken : s'.taken = s.taken) (refused : s'.refused = s.refused)
    (frames : s'.complete.flatMap (·.packets) ++ s'.current =
      s.complete.flatMap (·.packets) ++ s.current ++ s.pieceInHand) :
    s'.Accounted handler first := by
  obtain ⟨noChunk', noData'⟩ := next
  refine ⟨?_, ?_, ?_, ?_, ?_, ?_, ?_, ?_⟩
  · rw [fifos]
    exact h.length
  · intro k
    rw [fifos, taken, inHand_eq_nil noChunk', ← inHand_eq_nil noChunk k]
    exact h.drained k
  · rw [taken, refused, pieceInHand_eq_nil noData', List.append_nil, frames]
    exact h.placed
  · rw [taken]
    exact h.explained
  · exact fun elem packet state => absurd state (noChunk' elem packet)
  · exact fun data frame state => absurd state (noData' data)
  · rw [refused, taken]
    exact h.longer
  · rw [refused]
    exact fun _ => h.unrefused running

/-- A turn that only goes from one state to another one. -/
theorem Accounted.aside (h : s.Accounted handler first) (fifoIt : Nat) {next : SchedState}
    (idle : s.state = .nextFifo ∨ s.state = .getFifo ∨ s.state = .nextEncapPkt)
    (goes : (∀ elem packet, next ≠ .getChunk elem packet) ∧ ∀ data, next ≠ .addData data) :
    Accounted handler first { s with fifoIt := fifoIt, state := next } := by
  have noData : ∀ data, s.state ≠ .addData data := by
    rintro data state
    simp [state] at idle
  refine h.reframed ?_ ?_ goes rfl rfl rfl ?_
  · intro state
    simp [state] at idle
  · intro elem packet state
    simp [state] at idle
  · rw [pieceInHand_eq_nil noData, List.append_nil]
    rfl

/-- The FIFOs once a packet in hand is recorded. -/
theorem Accounted.drained_taken (h : s.Accounted handler first) {elem : FifoElement NetPacket}
    {packet : NetPacket} (state : s.state = .getChunk elem packet) {taken : Taken}
    (own : taken.fifo = s.fifoIt) (from_elem : taken.elem = elem) {fifo fifo' : DvbFifo NetPacket}
    (fifoAt : s.fifos[s.fifoIt]? = some fifo) (queue : fifo'.queue = taken.back ++ fifo.queue)
    {k : Nat} {before after : DvbFifo NetPacket} (firstAt : first[k]? = some before)
    (afterAt : (s.fifos.set s.fifoIt fifo')[k]? = some after) :
    Replay.Drains Taken.elem Taken.back before.queue ((s.taken ++ [taken]).filter (·.fifo = k))
      after.queue := by
  rw [List.filter_append]
  by_cases same : s.fifoIt = k
  · subst same
    rw [List.getElem?_set_self (List.getElem?_eq_some_iff.mp fifoAt).1] at afterAt
    cases afterAt
    have drained := h.drained s.fifoIt before fifo firstAt fifoAt
    simp only [inHand, state, if_true, List.singleton_append] at drained
    rw [← from_elem] at drained
    rw [List.filter_cons_of_pos (by simpa using own), List.filter_nil, queue]
    exact drained.snoc
  · rw [List.getElem?_set_ne same] at afterAt
    rw [List.filter_cons_of_neg (by rw [own]; simpa using same), List.filter_nil, List.append_nil]
    have drained := h.drained k before after firstAt afterAt
    simp only [inHand, state, if_neg same, List.nil_append] at drained
    exact drained

/-- The record of a packet in hand. -/
theorem Accounted.explained_record (h : s.Accounted handler first)
    {elem : FifoElement NetPacket} {packet : NetPacket} (state : s.state = .getChunk elem packet)
    (frame : DvbRcsFrame) {fifo : DvbFifo NetPacket} (fifoAt : s.fifos[s.fifoIt]? = some fifo) :
    ∀ taken ∈ s.taken ++ [s.record handler elem packet frame],
      taken.fifo < first.length ∧ taken.Explained handler := by
  intro taken mem
  rcases List.mem_append.mp mem with old | new
  · exact h.explained taken old
  · rw [List.mem_singleton.mp new, ← h.length]
    exact ⟨(List.getElem?_eq_some_iff.mp fifoAt).1, s.history ++ s.taken, packet,
      h.held elem packet state, rfl⟩

/-- A packet is taken out of its FIFO. -/
theorem Accounted.pop (h : s.Accounted handler first) {fifo fifo' : DvbFifo NetPacket}
    {elem : FifoElement NetPacket} {packet : NetPacket} (state : s.state = .nextEncapPkt)
    (fifoAt : s.fifos[s.fifoIt]? = some fifo) (queue : fifo.queue = elem :: fifo'.queue)
    (held : elem.elem = some packet) :
    Accounted handler first { s.setFifo fifo' with state := .getChunk elem packet } := by
  have none_in_hand : ∀ k, s.inHand k = [] := inHand_eq_nil (by simp [state])
  have placed := h.placed
  rw [pieceInHand_eq_nil (by simp [state])] at placed
  refine ⟨List.length_set.trans h.length, ?_, placed, h.explained, ?_, by simp, h.longer, ?_⟩
  · intro k before after firstAt afterAt
    dsimp only [setFifo] at afterAt ⊢
    by_cases same : s.fifoIt = k
    · subst same
      rw [List.getElem?_set_self (List.getElem?_eq_some_iff.mp fifoAt).1] at afterAt
      cases afterAt
      have drained := h.drained s.fifoIt before fifo firstAt fifoAt
      rw [none_in_hand, queue] at drained
      simpa [inHand] using drained
    · rw [List.getElem?_set_ne same] at afterAt
      have drained := h.drained k before after firstAt afterAt
      rw [none_in_hand] at drained
      simpa [inHand, same] using drained
  · intro elem' packet' same
    cases same
    exact held
  · exact fun _ => h.unrefused (by simp [state])

/-- What was refused before is still recorded. -/
theorem Accounted.longer_record (h : s.Accounted handler first) (taken : Taken) :
    ∀ data, s.refused = some data → ∃ taken' ∈ s.taken ++ [taken], taken'.TooLong data := by
  intro data refused
  obtain ⟨taken', mem, long⟩ := h.longer data refused
  exact ⟨taken', List.mem_append_left _ mem, long⟩

/-- The handler gives nothing for a packet. -/
theorem Accounted.refuse (h : s.Accounted handler first) {elem : FifoElement NetPacket}
    {packet : NetPacket} {frame : DvbRcsFrame} {fifo : DvbFifo NetPacket}
    (state : s.state = .getChunk elem packet) (fifoAt : s.fifos[s.fifoIt]? = some fifo)
    (answer : (s.record handler elem packet frame).answer = none) :
    Accounted handler first { s with
      taken := s.taken ++ [s.record handler elem packet frame]
      state := .nextEncapPkt } := by
  have nothing : (s.record handler elem packet frame).data = none := by
    rw [Taken.data, answer]
    rfl
  have queue : fifo.queue = (s.record handler elem packet frame).back ++ fifo.queue := by
    rw [Taken.back, answer]
    rfl
  have placed := h.placed
  rw [pieceInHand_eq_nil (by simp [state])] at placed
  refine ⟨h.length, ?_, ?_, h.explained_record state frame fifoAt, by simp, by simp,
    h.longer_record _, fun _ => h.unrefused (by simp [state])⟩
  · intro k before after firstAt afterAt
    have same : s.fifos.set s.fifoIt fifo = s.fifos := by
      obtain ⟨lt, rfl⟩ := List.getElem?_eq_some_iff.mp fifoAt
      exact List.set_getElem_self lt
    dsimp only at afterAt
    rw [← same] at afterAt
    exact h.drained_taken state rfl rfl fifoAt queue firstAt afterAt
  · rw [List.filterMap_append, List.filterMap_cons_none nothing, List.filterMap_nil,
      List.append_nil]
    exact placed

/-- The handler gives a piece of a packet, or what is left of it, or both. -/
theorem Accounted.chunk (alive : s.Alive) (h : s.Accounted handler first)
    {elem : FifoElement NetPacket} {packet : NetPacket} {frame : DvbRcsFrame}
    {fifo fifo' : DvbFifo NetPacket} {data remaining : Option NetPacket}
    (state : s.state = .getChunk elem packet) (incomplete : s.incomplete = some frame)
    (fifoAt : s.fifos[s.fifoIt]? = some fifo)
    (answer : (s.record handler elem packet frame).answer = some (data, remaining))
    (reinserted : reinsertPacket fifo elem remaining = some fifo') :
    Accounted handler first { s with
      fifos := s.fifos.set s.fifoIt fifo'
      taken := s.taken ++ [s.record handler elem packet frame]
      state := .afterChunk data } := by
  have queue : fifo'.queue = (s.record handler elem packet frame).back ++ fifo.queue := by
    rw [reinsertPacket_eq (alive.room elem packet state fifo fifoAt) reinserted, Taken.back,
      answer]
    cases remaining with
    | none => rfl
    | some packet => rfl
  have piece : (s.record handler elem packet frame).data = data := by
    rw [Taken.data, answer]
    rfl
  have noChunk : ∀ elem packet, SchedState.afterChunk data ≠ .getChunk elem packet := by
    intro elem packet same
    cases data with
    | none => cases same
    | some data => cases same
  have placed := h.placed
  rw [pieceInHand_eq_nil (by simp [state]), h.unrefused (by simp [state])] at placed
  refine ⟨List.length_set.trans h.length, ?_, ?_, h.explained_record state frame fifoAt,
    fun elem packet same => absurd same (noChunk elem packet), ?_, h.longer_record _,
    fun _ => h.unrefused (by simp [state])⟩
  · intro k before after firstAt afterAt
    rw [inHand_eq_nil noChunk]
    exact h.drained_taken state rfl rfl fifoAt queue firstAt afterAt
  · rw [List.filterMap_append, placed]
    dsimp only
    rw [h.unrefused (by simp [state])]
    cases data with
    | none => simp [piece, pieceInHand, SchedState.afterChunk, current]
    | some data => simp [piece, pieceInHand, SchedState.afterChunk, current]
  · intro data' frame' next same
    rw [incomplete] at same
    cases same
    cases data with
    | none => cases next
    | some data =>
        cases next
        exact ⟨_, List.mem_append_right _ List.mem_cons_self, piece, rfl⟩

/-- A piece is longer than the space left in its frame. -/
theorem Accounted.reject (h : s.Accounted handler first) {data : NetPacket} {frame : DvbRcsFrame}
    (state : s.state = .addData data) (incomplete : s.incomplete = some frame)
    (longer : frame.getFreeSpace < NetContainer.getTotalLength data) :
    Accounted handler first { s with state := .error, refused := some data } := by
  have placed := h.placed
  rw [show s.pieceInHand = [data] by simp [pieceInHand, state], h.unrefused (by simp [state])]
    at placed
  refine ⟨h.length, ?_, ?_, h.explained, by simp, by simp, ?_, fun safe => absurd rfl safe⟩
  · intro k
    have drained := h.drained k
    rw [inHand_eq_nil (by simp [state])] at drained
    exact drained
  · rw [placed]
    simp [pieceInHand, current]
  · intro data' refused
    cases refused
    obtain ⟨taken, mem, piece, space⟩ := h.asked data frame state incomplete
    exact ⟨taken, mem, piece, by rw [space]; exact longer⟩

theorem Act.accounted (alive : s.Alive) (h : s.Accounted handler first)
    (act : Act handler maxBurstLengthB s s') : s'.Accounted handler first := by
  cases act with
  | skip state => exact h.aside _ (.inl state) ⟨by simp, by simp⟩
  | finish state => exact h.aside _ (.inr (.inl state)) ⟨by simp, by simp⟩
  | ignore state => exact h.aside _ (.inr (.inl state)) ⟨by simp, by simp⟩
  | enter state => exact h.aside _ (.inr (.inl state)) ⟨by simp, by simp⟩
  | leave state => exact h.aside _ (.inr (.inr state)) ⟨by simp, by simp⟩
  | pop state fifoAt queue room held => exact h.pop state fifoAt queue held
  | refuse state incomplete fifoAt answer => exact h.refuse state fifoAt answer
  | chunk state incomplete fifoAt answer reinserted =>
      exact h.chunk alive state incomplete fifoAt answer reinserted
  | reject state incomplete longer => exact h.reject state incomplete longer
  | @add data frame frame' next state incomplete enough maxSize packets goes =>
      have others : (∀ elem packet, next ≠ .getChunk elem packet) ∧
          ∀ data, next ≠ .addData data := by
        rcases goes with rfl | ⟨rfl, -⟩
        · exact ⟨by simp, by simp⟩
        · exact ⟨by simp, by simp⟩
      refine h.reframed (by simp [state]) (by simp [state]) others rfl rfl rfl ?_
      rw [show s.pieceInHand = [data] by simp [pieceInHand, state], Formed.current_eq incomplete,
        Formed.current_eq rfl, packets, List.append_assoc]
  | starve state =>
      refine h.reframed (by simp [state]) (by simp [state]) ⟨by simp, by simp⟩ rfl rfl rfl ?_
      rw [pieceInHand_eq_nil (by simp [state]), List.append_nil]
      rfl
  | last state incomplete =>
      refine h.reframed (by simp [state]) (by simp [state]) ⟨by simp, by simp⟩ rfl rfl rfl ?_
      rw [pieceInHand_eq_nil (by simp [state]), Formed.current_eq incomplete]
      simp [current]
  | renew state incomplete _ _ allocated =>
      refine h.reframed (by simp [state]) (by simp [state]) ⟨by simp, by simp⟩ rfl rfl rfl ?_
      rw [pieceInHand_eq_nil (by simp [state]), Formed.current_eq incomplete]
      simp [current, (allocateDvbRcsFrame_eq allocated).1]

/-! ### The end of the loop -/

/-- A piece that is too long for a frame that has packets already. -/
def Refuses (s : MacSchedule) : Prop :=
  ∃ data frame, s.state = .addData data ∧ s.incomplete = some frame ∧
    frame.getFreeSpace < NetContainer.getTotalLength data ∧ frame.packets ≠ []

/-- No packet is in a frame that is deleted. -/
def Spares (s : MacSchedule) : Prop := s.state = .error → s.current = []

theorem Spares.of_ne (state : s.state ≠ .error) : s.Spares := fun failed => absurd failed state

theorem Refuses.state {s : MacSchedule} (h : s.Refuses) : ∃ data, s.state = .addData data := by
  obtain ⟨data, -, state, -⟩ := h
  exact ⟨data, state⟩

/-- A turn spares the packets exactly when it does not refuse a piece. -/
theorem Act.spares_iff (alive : s.Alive) (act : Act handler maxBurstLengthB s s') :
    s'.Spares ↔ ¬ s.Refuses := by
  have aside : s'.state ≠ .error → (∀ data, s.state ≠ .addData data) → (s'.Spares ↔ ¬ s.Refuses) := by
    intro safe other
    refine ⟨fun _ refuses => ?_, fun _ => .of_ne safe⟩
    obtain ⟨data, state⟩ := refuses.state
    exact other data state
  cases act with
  | skip state => exact aside nofun (by simp [state])
  | finish state => exact aside nofun (by simp [state])
  | ignore state => exact aside nofun (by simp [state])
  | enter state => exact aside nofun (by simp [state])
  | leave state => exact aside nofun (by simp [state])
  | pop state => exact aside nofun (by simp [state])
  | refuse state => exact aside nofun (by simp [state])
  | @chunk elem packet frame fifo fifo' data remaining state =>
      refine aside ?_ (by simp [state])
      cases data with
      | none => exact nofun
      | some data => exact nofun
  | last state => exact aside nofun (by simp [state])
  | renew state => exact aside nofun (by simp [state])
  | @reject data frame state incomplete longer =>
      constructor
      · rintro spares ⟨data', frame', state', incomplete', -, packets⟩
        rw [incomplete] at incomplete'
        cases incomplete'
        have nothing : s.current = [] := spares rfl
        rw [Formed.current_eq incomplete] at nothing
        exact packets nothing
      · intro accepts _
        by_contra exist
        exact accepts ⟨data, frame, state, incomplete, longer,
          fun none => exist ((Formed.current_eq incomplete).trans none)⟩
  | @add data frame frame' next state incomplete enough maxSize packets goes =>
      constructor
      · rintro - ⟨data', frame', state', incomplete', longer, -⟩
        rw [state] at state'
        rw [incomplete] at incomplete'
        cases state'
        cases incomplete'
        omega
      · rintro -
        refine .of_ne ?_
        rcases goes with rfl | ⟨rfl, -⟩
        · exact nofun
        · exact nofun
  | @starve frame state incomplete none =>
      rw [alive.formed.getNumPackets_eq incomplete] at none
      have nothing : s.current = [] := by
        rw [Formed.current_eq incomplete]
        exact List.length_eq_zero_iff.mp none
      refine ⟨fun _ refuses => ?_, fun _ _ => nothing⟩
      obtain ⟨data, state'⟩ := refuses.state
      rw [state] at state'
      cases state'

theorem close_conserved_iff (formed : s.Formed) (accounted : s.Accounted handler first)
    (halt : halted s = true) : (close s).2.Conserved handler first ↔ s.Spares := by
  have drained : ∀ k before after, first[k]? = some before → s.fifos[k]? = some after →
      Replay.Drains Taken.elem Taken.back before.queue (s.taken.filter (·.fifo = k))
        after.queue := by
    intro k before after firstAt afterAt
    have drained := accounted.drained k before after firstAt afterAt
    unfold inHand at drained
    split at drained
    next state =>
      rw [halted, state] at halt
      cases halt
    next => exact drained
  have placed := accounted.placed
  have piece : s.pieceInHand = [] := by
    unfold pieceInHand
    split
    next state =>
      rw [halted, state] at halt
      cases halt
    next => rfl
  rw [piece, List.append_nil] at placed
  unfold close
  split
  next failed =>
    constructor
    · intro conserved _
      have emitted := conserved.emitted
      dsimp only at emitted
      rw [placed] at emitted
      simpa using emitted
    · intro spares
      rw [spares failed, List.append_nil] at placed
      exact ⟨accounted.length, drained, placed, accounted.explained, accounted.longer⟩
  next safe =>
    refine ⟨fun _ => .of_ne safe, fun _ => ?_⟩
    have unrefused := accounted.unrefused safe
    rw [unrefused, Option.toList_none, List.append_nil] at placed
    split
    next none =>
      rw [current, none, Option.elim_none, List.append_nil] at placed
      refine ⟨accounted.length, drained, ?_, accounted.explained, accounted.longer⟩
      rw [unrefused, Option.toList_none, List.append_nil]
      exact placed
    next frame incomplete =>
      rw [Formed.current_eq incomplete] at placed
      split
      next =>
        refine ⟨accounted.length, drained, ?_, accounted.explained, accounted.longer⟩
        dsimp only
        rw [unrefused, placed]
        simp
      next none =>
        rw [formed.getNumPackets_eq incomplete] at none
        have nothing : frame.packets = [] :=
          List.length_eq_zero_iff.mp (Nat.eq_zero_of_not_pos none)
        refine ⟨accounted.length, drained, ?_, accounted.explained, accounted.longer⟩
        dsimp only
        rw [unrefused, placed, nothing]
        rfl

theorem start_accounted (history : List Taken) (remainingAllocationB : Nat)
    {frame : Option DvbRcsFrame} (empty : frame.elim [] (·.packets) = []) :
    (start first history remainingAllocationB frame).Accounted handler first where
  length := rfl
  drained := by
    intro k before after firstAt afterAt
    rw [show first[k]? = some after from afterAt] at firstAt
    cases firstAt
    exact .nil _
  placed := by
    rw [current, show (start first history remainingAllocationB frame).incomplete = frame from rfl,
      empty]
    rfl
  explained := nofun
  held := nofun
  asked := nofun
  longer := nofun
  unrefused _ := rfl

/-- A call that takes no packet. -/
theorem start_conserved (history : List Taken) (remainingAllocationB : Nat) :
    (start first history remainingAllocationB none).Conserved handler first := by
  have accounted := @start_accounted handler first history remainingAllocationB none rfl
  exact ⟨rfl, accounted.drained, rfl, nofun, nofun⟩

/-- **The return scheduling conserves the packets** exactly when no piece is too long for a
frame that has packets already; and it ends. -/
theorem schedule_conserves_iff (chunks : handler.Chunks) (maxBurstLengthB : Nat)
    (fifos : List (DvbFifo NetPacket)) (history : List Taken) (remainingAllocationB : Nat)
    (filled : ∀ fifo ∈ fifos, ∀ elem ∈ fifo.queue, elem.elem.isSome) :
    ∃ fuel out, (∀ more ≥ fuel, schedule handler maxBurstLengthB more fifos history
        remainingAllocationB = some out) ∧
      (out.2.Conserved handler fifos ↔ ∀ frame mid,
        allocateDvbRcsFrame maxBurstLengthB = some frame →
          Reaches halted (turn handler maxBurstLengthB)
            (start fifos history remainingAllocationB (some frame)) mid → ¬ mid.Refuses) := by
  obtain ⟨fuel, out, ended⟩ := @schedule_ends handler maxBurstLengthB chunks fifos history
    remainingAllocationB filled
  refine ⟨fuel, out, ended, ?_⟩
  have result := ended fuel le_rfl
  cases allocated : allocateDvbRcsFrame maxBurstLengthB with
  | none =>
      have out_eq : out.2 = start fifos history remainingAllocationB none := by
        unfold schedule macSchedule at result
        rw [allocated] at result
        split at result
        next => rw [← Option.some.inj result]
        next => rw [← Option.some.inj result]
      rw [out_eq]
      exact ⟨fun _ _ _ none => absurd none (by simp), fun _ => start_conserved _ _⟩
  | some frame =>
      have burst := one_le_of_allocated allocated
      unfold schedule macSchedule at result
      rw [if_neg (by omega), allocated] at result
      obtain ⟨last, looped, rfl⟩ := Option.map_eq_some_iff.mp result
      have alive := @start_alive _ _ history remainingAllocationB _ filled allocated
      have accounted := @start_accounted handler fifos history remainingAllocationB (some frame)
        (allocateDvbRcsFrame_eq allocated).1
      have keep : ∀ s s', s.Alive ∧ s.Accounted handler fifos →
          Turn halted (turn handler maxBurstLengthB) s s' →
            s'.Alive ∧ s'.Accounted handler fifos := by
        rintro s s' ⟨alive, accounted⟩ taken
        have act := act_of_turn burst taken
        exact ⟨act.alive chunks alive, act.accounted alive accounted⟩
      have running : ∀ s s', Turn halted (turn handler maxBurstLengthB) s s' → s.Spares := by
        rintro s s' ⟨running, -⟩
        refine .of_ne fun failed => ?_
        rw [halted, failed] at running
        cases running
      have exact_loop := exec_iff (P := Spares) (C := fun s => ¬ s.Refuses) keep
        (fun s s' _ taken _ => running s s' taken)
        (fun s s' inv _ taken => (act_of_turn burst taken).spares_iff inv.1)
        ⟨alive, accounted⟩ (.of_ne (by simp [start])) looped
      obtain ⟨reached, halt⟩ := exec_reaches looped
      obtain ⟨aliveLast, accountedLast⟩ := reached.keeps keep ⟨alive, accounted⟩
      rw [close_conserved_iff aliveLast.formed accountedLast halt, exact_loop]
      constructor
      · rintro spared _ mid ⟨⟩ later refuses
        obtain ⟨data, state⟩ := refuses.state
        exact spared mid later (by rw [halted, state]) refuses
      · intro spared mid later _
        exact spared frame mid rfl later

/-- A handler that gives whole packets, whatever the space. -/
def wholePackets : ReturnPacketHandler where
  encapNextPacket _ packet _ _ := if packet.data = [] then none else some (some packet, none)

theorem wholePackets_chunks : wholePackets.Chunks where
  answers := by
    intro before packet freeSpace newBurst answer
    unfold wholePackets at answer
    dsimp only at answer
    split at answer
    next => cases answer
    next => cases answer
  piece := by
    intro before packet freeSpace newBurst data remaining answer
    unfold wholePackets at answer
    dsimp only at answer
    split at answer
    next => cases answer
    next some =>
      cases answer
      exact List.length_pos_iff.mpr some

/-- A FIFO with a packet of 10 bytes and one of 100 bytes. -/
def twoPackets : DvbFifo NetPacket :=
  { (DvbFifo.new (.return .damaRbdc) 0 100 : DvbFifo NetPacket) with
    queue := [sampleElement 0 10, sampleElement 0 100]
    curLengthBytes := 110
    queue_le := show 2 ≤ 100 by decide }

theorem twoPackets_filled : ∀ fifo ∈ [twoPackets], ∀ elem ∈ fifo.queue, elem.elem.isSome := by
  decide

/-- In bursts of 50 bytes. -/
theorem twoPackets_conserves_iff :
    ∃ fuel out, (∀ more ≥ fuel, schedule wholePackets 400 more [twoPackets] [] 100000 =
        some out) ∧
      (out.2.Conserved wholePackets [twoPackets] ↔ ∀ frame mid,
        allocateDvbRcsFrame 400 = some frame →
          Reaches halted (turn wholePackets 400) (start [twoPackets] [] 100000 (some frame)) mid →
            ¬ mid.Refuses) :=
  schedule_conserves_iff wholePackets_chunks 400 [twoPackets] [] 100000 twoPackets_filled

/-- The first packet is lost with the frame that refuses the second one. -/
theorem twoPackets_not_conserved :
    ∃ out, schedule wholePackets 400 20 [twoPackets] [] 100000 = some out ∧
      ¬ out.2.Conserved wholePackets [twoPackets] := by
  have lengths : (schedule wholePackets 400 20 [twoPackets] [] 100000).map (fun out =>
      ((out.2.taken.filterMap Taken.data).length,
        (out.2.complete.flatMap (·.packets) ++ out.2.refused.toList).length)) = some (2, 1) := by
    decide +kernel
  obtain ⟨out, ended, eq⟩ := Option.map_eq_some_iff.mp lengths
  refine ⟨out, ended, fun conserved => ?_⟩
  rw [conserved.emitted] at eq
  have same := Prod.mk.inj eq
  omega

end MacSchedule

end OpenSand
