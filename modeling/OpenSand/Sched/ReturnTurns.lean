import OpenSand.Sched.LoopMoves
import OpenSand.Sched.Return

/-!
The turns of the loop of the return scheduling, and why it ends.

`Act` says once what a turn can do; the invariants of the loop are proved by cases on it.
The loop ends because a packet is added in a frame, which has less space, or a frame is
completed, which leaves less allocation, or there are less packets or less FIFOs to see.
-/

namespace OpenSand

open OpenSand.Loop OpenSand.Word

/-- What the schedulers rely on: an answer has a piece of the packet or its remainder, and
a piece is not empty. -/
structure ReturnPacketHandler.Chunks (handler : ReturnPacketHandler) : Prop where
  answers : ∀ before packet freeSpace newBurst,
    handler.encapNextPacket before packet freeSpace newBurst ≠ some (none, none)
  piece : ∀ before packet freeSpace newBurst data remaining,
    handler.encapNextPacket before packet freeSpace newBurst = some (some data, remaining) →
      0 < NetContainer.getTotalLength data

namespace Taken

/-- What is inserted again at the head of the FIFO. -/
def back (taken : Taken) : List (FifoElement NetPacket) :=
  match taken.answer with
  | some (_, some packet) => [taken.elem.setElem packet]
  | _ => []

/-- What is to be put in a frame. -/
def data (taken : Taken) : Option NetPacket := taken.answer.bind (·.1)

end Taken

namespace MacSchedule

variable (handler : ReturnPacketHandler) (maxBurstLengthB : Nat)

/-- What a packet taken out of a FIFO is recorded as. -/
def record (s : MacSchedule) (elem : FifoElement NetPacket) (packet : NetPacket)
    (frame : DvbRcsFrame) : Taken where
  fifo := s.fifoIt
  elem := elem
  freeSpace := frame.getFreeSpace
  newBurst := frame.getNumPackets = 0
  answer := handler.encapNextPacket (s.history ++ s.taken) packet frame.getFreeSpace
    (frame.getNumPackets = 0)

/-- What a turn does from a state. -/
inductive Act (s : MacSchedule) : MacSchedule → Prop where
  | skip (state : s.state = .nextFifo) :
      Act s { s with fifoIt := s.fifoIt + 1, state := .getFifo }
  | finish (state : s.state = .getFifo) (fifoAt : s.fifos[s.fifoIt]? = none) :
      Act s { s with state := .done }
  | ignore {fifo : DvbFifo NetPacket} (state : s.state = .getFifo)
      (fifoAt : s.fifos[s.fifoIt]? = some fifo)
      (saloha : fifo.accessType.same (.return .saloha) = true) :
      Act s { s with state := .nextFifo }
  | enter {fifo : DvbFifo NetPacket} (state : s.state = .getFifo)
      (fifoAt : s.fifos[s.fifoIt]? = some fifo)
      (dama : fifo.accessType.same (.return .saloha) = false) :
      Act s { s with state := .nextEncapPkt }
  | leave {fifo : DvbFifo NetPacket} (state : s.state = .nextEncapPkt)
      (fifoAt : s.fifos[s.fifoIt]? = some fifo) (empty : fifo.getCurrentSize = 0) :
      Act s { s with state := .nextFifo }
  | pop {fifo fifo' : DvbFifo NetPacket} {elem : FifoElement NetPacket} {packet : NetPacket}
      (state : s.state = .nextEncapPkt) (fifoAt : s.fifos[s.fifoIt]? = some fifo)
      (queue : fifo.queue = elem :: fifo'.queue) (room : fifo'.queue.length < fifo'.maxSizePkt)
      (held : elem.elem = some packet) :
      Act s { s.setFifo fifo' with state := .getChunk elem packet }
  | refuse {elem : FifoElement NetPacket} {packet : NetPacket} {frame : DvbRcsFrame}
      {fifo : DvbFifo NetPacket} (state : s.state = .getChunk elem packet)
      (incomplete : s.incomplete = some frame) (fifoAt : s.fifos[s.fifoIt]? = some fifo)
      (answer : (s.record handler elem packet frame).answer = none) :
      Act s { s with
        taken := s.taken ++ [s.record handler elem packet frame]
        state := .nextEncapPkt }
  | chunk {elem : FifoElement NetPacket} {packet : NetPacket} {frame : DvbRcsFrame}
      {fifo fifo' : DvbFifo NetPacket} {data remaining : Option NetPacket}
      (state : s.state = .getChunk elem packet) (incomplete : s.incomplete = some frame)
      (fifoAt : s.fifos[s.fifoIt]? = some fifo)
      (answer : (s.record handler elem packet frame).answer = some (data, remaining))
      (reinserted : reinsertPacket fifo elem remaining = some fifo') :
      Act s { s with
        fifos := s.fifos.set s.fifoIt fifo'
        taken := s.taken ++ [s.record handler elem packet frame]
        state := .afterChunk data }
  | reject {data : NetPacket} {frame : DvbRcsFrame} (state : s.state = .addData data)
      (incomplete : s.incomplete = some frame)
      (longer : frame.getFreeSpace < NetContainer.getTotalLength data) :
      Act s { s with state := .error, refused := some data }
  | add {data : NetPacket} {frame frame' : DvbRcsFrame} {next : SchedState}
      (state : s.state = .addData data) (incomplete : s.incomplete = some frame)
      (enough : NetContainer.getTotalLength data ≤ frame.getFreeSpace)
      (maxSize : frame'.maxSize = frame.maxSize) (packets : frame'.packets = frame.packets ++ [data])
      (goes : next = .finalizeFrame ∨ next = .nextEncapPkt ∧ addW 32 s.frameLengthB
        (NetContainer.getTotalLength data * 8) < s.remainingAllocationB) :
      Act s { s with
        incomplete := some frame'
        frameLengthB := addW 32 s.frameLengthB (NetContainer.getTotalLength data * 8)
        state := next }
  | starve {frame : DvbRcsFrame} (state : s.state = .finalizeFrame)
      (incomplete : s.incomplete = some frame) (none : frame.getNumPackets = 0) :
      Act s { s with frameLengthB := 0, state := .error }
  | last {frame : DvbRcsFrame} (state : s.state = .finalizeFrame)
      (incomplete : s.incomplete = some frame) (some : frame.getNumPackets ≠ 0)
      (spent : subToZero s.remainingAllocationB s.frameLengthB = 0) :
      Act s { s with
        complete := s.complete ++ [frame]
        remainingAllocationB := subToZero s.remainingAllocationB s.frameLengthB
        incomplete := Option.none
        state := .done }
  | renew {frame frame' : DvbRcsFrame} (state : s.state = .finalizeFrame)
      (incomplete : s.incomplete = Option.some frame) (some : frame.getNumPackets ≠ 0)
      (left : subToZero s.remainingAllocationB s.frameLengthB ≠ 0)
      (allocated : allocateDvbRcsFrame maxBurstLengthB = Option.some frame') :
      Act s { s with
        complete := s.complete ++ [frame]
        remainingAllocationB := subToZero s.remainingAllocationB s.frameLengthB
        incomplete := Option.some frame'
        frameLengthB := 0
        state := .nextEncapPkt }

variable {handler maxBurstLengthB} {s s' : MacSchedule}

theorem addPacket_eq_some {frame frame' : DvbRcsFrame} {packet : NetPacket}
    (h : frame.addPacket packet = some frame') :
    NetContainer.getTotalLength packet ≤ frame.getFreeSpace ∧ frame'.maxSize = frame.maxSize ∧
      frame'.packets = frame.packets ++ [packet] := by
  unfold DvbRcsFrame.addPacket at h
  split at h
  next enough =>
    cases h
    exact ⟨enough, rfl, rfl⟩
  next => cases h

/-- A turn acts, as long as frames can be allocated. -/
theorem act_of_turn (burst : 1 ≤ maxBurstLengthB / 8)
    (h : Turn halted (turn handler maxBurstLengthB) s s') : Act handler maxBurstLengthB s s' := by
  obtain ⟨running, h⟩ := h
  unfold turn at h
  cases state : s.state with
  | nextFifo =>
      rw [state] at h
      cases h
      exact .skip state
  | getFifo =>
      rw [state] at h
      cases h
      unfold getFifo
      cases fifoAt : s.fifos[s.fifoIt]? with
      | none => exact .finish state fifoAt
      | some fifo =>
          cases saloha : fifo.accessType.same (.return .saloha) with
          | true => simpa [saloha] using Act.ignore state fifoAt saloha
          | false => simpa [saloha] using Act.enter state fifoAt saloha
  | nextEncapPkt =>
      rw [state] at h
      obtain ⟨fifo, fifoAt, h⟩ := Option.bind_eq_some_iff.mp h
      split at h
      next empty =>
        cases h
        exact .leave state fifoAt empty
      next =>
        obtain ⟨⟨popped, fifo'⟩, hpop, h⟩ := Option.bind_eq_some_iff.mp h
        obtain ⟨elem, rfl, h⟩ := Option.bind_eq_some_iff.mp h
        obtain ⟨queue, room⟩ := pop_queue hpop
        obtain ⟨packet, held⟩ := Option.isSome_iff_exists.mp (pop_elem hpop)
        dsimp only [Option.bind_some, FifoElement.getElem] at h
        rw [held] at h
        cases h
        exact .pop state fifoAt queue room held
  | getChunk elem packet =>
      rw [state] at h
      obtain ⟨frame, incomplete, h⟩ := Option.bind_eq_some_iff.mp h
      obtain ⟨fifo, fifoAt, h⟩ := Option.bind_eq_some_iff.mp h
      dsimp only at h
      split at h
      next answer =>
        cases h
        exact .refuse state incomplete fifoAt answer
      next data remaining answer =>
        obtain ⟨fifo', reinserted, rfl⟩ := Option.map_eq_some_iff.mp h
        exact .chunk state incomplete fifoAt answer reinserted
  | addData data =>
      rw [state] at h
      obtain ⟨frame, incomplete, rfl⟩ := Option.map_eq_some_iff.mp h
      cases added : frame.addPacket data with
      | none =>
          have longer : frame.getFreeSpace < NetContainer.getTotalLength data := by
            by_contra enough
            simp [DvbRcsFrame.addPacket, Nat.not_lt.mp enough] at added
          simpa [added] using Act.reject state incomplete longer
      | some frame' =>
          obtain ⟨enough, maxSize, packets⟩ := addPacket_eq_some added
          refine .add state incomplete enough maxSize packets ?_
          by_cases full : frame'.getFreeSpace = 0
          · exact .inl (if_pos full)
          · by_cases spent : s.remainingAllocationB ≤
                addW 32 s.frameLengthB (NetContainer.getTotalLength data * 8)
            · exact .inl (by rw [if_neg full, if_pos spent])
            · exact .inr ⟨by rw [if_neg full, if_neg spent], Nat.lt_of_not_le spent⟩
  | finalizeFrame =>
      rw [state] at h
      obtain ⟨frame, incomplete, rfl⟩ := Option.map_eq_some_iff.mp h
      by_cases none : frame.getNumPackets = 0
      · rw [if_pos none]
        exact .starve state incomplete none
      · rw [if_neg none]
        dsimp only
        by_cases spent : subToZero s.remainingAllocationB s.frameLengthB = 0
        · rw [if_pos spent]
          exact .last state incomplete none spent
        · rw [if_neg spent]
          have allocated : allocateDvbRcsFrame maxBurstLengthB = some _ := dif_pos burst
          rw [allocated]
          exact .renew state incomplete none spent allocated
  | done =>
      rw [halted, state] at running
      cases running
  | error =>
      rw [halted, state] at running
      cases running

/-! ### The current frame -/

/-- The packets of the current frame. -/
def current (s : MacSchedule) : List NetPacket := s.incomplete.elim [] (·.packets)

/-- The bits of some packets. -/
def bits (packets : List NetPacket) : Nat := (packets.map NetContainer.getTotalLength).sum * 8

theorem bits_append (packets packets' : List NetPacket) :
    bits (packets ++ packets') = bits packets + bits packets' := by
  simp [bits, Nat.add_mul]

/-- The frame in construction has packets that are not empty, whose bits are counted. -/
structure Formed (s : MacSchedule) : Prop where
  opened : halted s = false → s.incomplete.isSome
  piece : ∀ data, s.state = .addData data → 0 < NetContainer.getTotalLength data
  packet : ∀ packet ∈ s.current, 0 < NetContainer.getTotalLength packet
  maxSize : ∀ frame, s.incomplete = some frame → frame.maxSize ≤ msgDvbRcsSizeMax
  frameLength : s.incomplete.isSome → s.state ≠ .error → s.frameLengthB = bits s.current

theorem Formed.current_eq {frame : DvbRcsFrame} (incomplete : s.incomplete = some frame) :
    s.current = frame.packets := by
  rw [current, incomplete]
  rfl

theorem length_le_sum {packets : List NetPacket}
    (positive : ∀ packet ∈ packets, 0 < NetContainer.getTotalLength packet) :
    packets.length ≤ (packets.map NetContainer.getTotalLength).sum := by
  induction packets with
  | nil => simp
  | cons packet rest ih =>
      have first := positive packet List.mem_cons_self
      have others := ih fun packet mem => positive packet (List.mem_cons_of_mem _ mem)
      simp only [List.length_cons, List.map_cons, List.sum_cons]
      omega

/-- The bits of a frame, and what is added to them, hold in 32 bits. -/
theorem Formed.bits_le (formed : s.Formed) {frame : DvbRcsFrame}
    (incomplete : s.incomplete = some frame) :
    bits frame.packets + frame.getFreeSpace * 8 ≤ (msgDvbRcsSizeMax - encapBurstLength) * 8 := by
  have le := formed.maxSize frame incomplete
  have length := frame.length_le
  simp only [bits, DvbRcsFrame.getFreeSpace, DvbRcsFrame.getTotalLength]
  omega

/-- The number of packets in the frame is not truncated. -/
theorem Formed.getNumPackets_eq (formed : s.Formed) {frame : DvbRcsFrame}
    (incomplete : s.incomplete = some frame) : frame.getNumPackets = frame.packets.length := by
  have positive := formed.packet
  rw [Formed.current_eq incomplete] at positive
  have few := length_le_sum positive
  have le := formed.maxSize frame incomplete
  have length := frame.length_le
  refine wrap_of_lt ?_
  simp only [msgDvbRcsSizeMax] at le
  omega

/-- What does not concern the frame. -/
theorem Formed.aside (formed : s.Formed) (running : halted s = false)
    (piece : ∀ data, s'.state = .addData data → 0 < NetContainer.getTotalLength data)
    (incomplete : s'.incomplete = s.incomplete) (frameLength : s'.frameLengthB = s.frameLengthB) :
    s'.Formed where
  opened _ := by
    rw [incomplete]
    exact formed.opened running
  piece := piece
  packet := by
    rw [current, incomplete]
    exact formed.packet
  maxSize := by
    rw [incomplete]
    exact formed.maxSize
  frameLength := by
    intro _ _
    rw [frameLength, current, incomplete]
    refine formed.frameLength (formed.opened running) ?_
    intro failed
    rw [halted, failed] at running
    cases running

theorem allocateDvbRcsFrame_eq {frame : DvbRcsFrame}
    (h : allocateDvbRcsFrame maxBurstLengthB = some frame) :
    frame.packets = [] ∧ frame.maxSize ≤ msgDvbRcsSizeMax := by
  unfold allocateDvbRcsFrame at h
  split at h
  next =>
    cases h
    exact ⟨rfl, min_le_right _ _⟩
  next => cases h

/-- A new frame has no packet. -/
theorem Formed.new {frame : DvbRcsFrame} (allocated : allocateDvbRcsFrame maxBurstLengthB =
    some frame) (incomplete : s.incomplete = some frame) (frameLength : s.frameLengthB = 0)
    (piece : ∀ data, s.state = .addData data → 0 < NetContainer.getTotalLength data) :
    s.Formed := by
  obtain ⟨packets, maxSize⟩ := allocateDvbRcsFrame_eq allocated
  have nothing : s.current = [] := by rw [Formed.current_eq incomplete, packets]
  refine ⟨fun _ => by simp [incomplete], piece, by simp [nothing], ?_, ?_⟩
  · intro other same
    rw [incomplete] at same
    cases same
    exact maxSize
  · intro _ _
    rw [frameLength, nothing]
    rfl

theorem Act.formed (chunks : handler.Chunks) (formed : s.Formed)
    (act : Act handler maxBurstLengthB s s') : s'.Formed := by
  cases act with
  | skip state => exact formed.aside (by simp [halted, state]) nofun rfl rfl
  | finish state => exact formed.aside (by simp [halted, state]) nofun rfl rfl
  | ignore state => exact formed.aside (by simp [halted, state]) nofun rfl rfl
  | enter state => exact formed.aside (by simp [halted, state]) nofun rfl rfl
  | leave state => exact formed.aside (by simp [halted, state]) nofun rfl rfl
  | pop state => exact formed.aside (by simp [halted, state]) nofun rfl rfl
  | refuse state => exact formed.aside (by simp [halted, state]) nofun rfl rfl
  | @chunk elem packet frame fifo fifo' data remaining state incomplete fifoAt answer =>
      refine formed.aside (by simp [halted, state]) ?_ rfl rfl
      intro piece next
      cases data with
      | none => cases next
      | some data =>
          cases next
          exact chunks.piece _ _ _ _ _ _ answer
  | reject state incomplete =>
      have running : halted s = false := by simp [halted, state]
      exact ⟨nofun, nofun, formed.packet, formed.maxSize, fun _ safe => absurd rfl safe⟩
  | @add data frame frame' next state incomplete enough maxSize packets goes =>
      have running : halted s = false := by simp [halted, state]
      have before := formed.frameLength (formed.opened running) (by simp [state])
      have le := formed.bits_le incomplete
      rw [Formed.current_eq incomplete] at before
      refine ⟨fun _ => rfl, ?_, ?_, ?_, ?_⟩
      · rintro other rfl
        rcases goes with goes | ⟨goes, -⟩
        · cases goes
        · cases goes
      · intro packet mem
        rw [Formed.current_eq rfl, packets] at mem
        rcases List.mem_append.mp mem with old | new
        · exact formed.packet packet (by rw [Formed.current_eq incomplete]; exact old)
        · rw [List.mem_singleton.mp new]
          exact formed.piece data state
      · intro other same
        cases same
        rw [maxSize]
        exact formed.maxSize frame incomplete
      · intro _ _
        dsimp only
        rw [before, Formed.current_eq rfl, packets, bits_append]
        have one : bits [data] = NetContainer.getTotalLength data * 8 := by simp [bits]
        rw [one]
        refine addW_of_lt ?_
        simp only [msgDvbRcsSizeMax, encapBurstLength] at le
        omega
  | starve state incomplete none =>
      exact ⟨nofun, nofun, formed.packet, formed.maxSize, fun _ safe => absurd rfl safe⟩
  | last => exact ⟨nofun, nofun, nofun, nofun, nofun⟩
  | renew _ _ _ _ allocated => exact .new allocated rfl rfl nofun

/-! ### The loop ends -/

/-- The loop can always take a turn. -/
structure Alive (s : MacSchedule) : Prop where
  formed : s.Formed
  inside : halted s = false → s.state ≠ .getFifo → s.fifoIt < s.fifos.length
  filled : ∀ fifo ∈ s.fifos, ∀ elem ∈ fifo.queue, elem.elem.isSome
  room : ∀ elem packet, s.state = .getChunk elem packet → ∀ fifo,
    s.fifos[s.fifoIt]? = some fifo → fifo.queue.length < fifo.maxSizePkt

theorem reinsertPacket_eq {fifo fifo' : DvbFifo NetPacket} {elem : FifoElement NetPacket}
    {remaining : Option NetPacket} (room : fifo.queue.length < fifo.maxSizePkt)
    (h : reinsertPacket fifo elem remaining = some fifo') :
    fifo'.queue = (remaining.map elem.setElem).toList ++ fifo.queue := by
  cases remaining with
  | none =>
      cases h
      rfl
  | some packet =>
      simp only [reinsertPacket, DvbFifo.pushFront, DvbFifo.reinsert, room, dite_true,
        Option.map_eq_some_iff] at h
      obtain ⟨_, ⟨total, _, rfl⟩, rfl⟩ := h
      rfl

theorem reinsertPacket_isSome {fifo : DvbFifo NetPacket} {elem : FifoElement NetPacket}
    (remaining : Option NetPacket) (room : fifo.queue.length < fifo.maxSizePkt) :
    (reinsertPacket fifo elem remaining).isSome := by
  cases remaining with
  | none => rfl
  | some packet =>
      simp [reinsertPacket, DvbFifo.pushFront, DvbFifo.reinsert, room,
        FifoElement.getTotalLength, FifoElement.setElem]

theorem Act.alive (chunks : handler.Chunks) (alive : s.Alive)
    (act : Act handler maxBurstLengthB s s') : s'.Alive := by
  have formed := act.formed chunks alive.formed
  cases act with
  | skip state => exact ⟨formed, fun _ other => absurd rfl other, alive.filled, nofun⟩
  | finish state => exact ⟨formed, nofun, alive.filled, nofun⟩
  | ignore state fifoAt =>
      exact ⟨formed, fun _ _ => (List.getElem?_eq_some_iff.mp fifoAt).1, alive.filled, nofun⟩
  | enter state fifoAt =>
      exact ⟨formed, fun _ _ => (List.getElem?_eq_some_iff.mp fifoAt).1, alive.filled, nofun⟩
  | leave state fifoAt =>
      exact ⟨formed, fun _ _ => (List.getElem?_eq_some_iff.mp fifoAt).1, alive.filled, nofun⟩
  | @pop fifo fifo' elem packet state fifoAt queue room held =>
      have lt := (List.getElem?_eq_some_iff.mp fifoAt).1
      refine ⟨formed, fun _ _ => by simpa [setFifo] using lt, ?_, ?_⟩
      · intro other mem elem' queued
        rcases List.mem_or_eq_of_mem_set mem with old | rfl
        · exact alive.filled other old elem' queued
        · refine alive.filled fifo (List.mem_of_getElem? fifoAt) elem' ?_
          rw [queue]
          exact List.mem_cons_of_mem _ queued
      · intro _ _ _ other fifoAt'
        dsimp only [setFifo] at fifoAt'
        rw [List.getElem?_set_self lt] at fifoAt'
        cases fifoAt'
        exact room
  | refuse state =>
      have inside := alive.inside (by simp [halted, state]) (by simp [state])
      exact ⟨formed, fun _ _ => inside, alive.filled, nofun⟩
  | @chunk elem packet frame fifo fifo' data remaining state incomplete fifoAt answer reinserted =>
      have lt := (List.getElem?_eq_some_iff.mp fifoAt).1
      have queue := reinsertPacket_eq (alive.room elem packet state fifo fifoAt) reinserted
      refine ⟨formed, fun _ _ => by simpa using lt, ?_, ?_⟩
      · intro other mem elem' queued
        rcases List.mem_or_eq_of_mem_set mem with old | rfl
        · exact alive.filled other old elem' queued
        · rw [queue] at queued
          rcases List.mem_append.mp queued with new | old
          · cases remaining with
            | none => cases new
            | some packet =>
                rw [Option.map_some, Option.toList_some, List.mem_singleton] at new
                rw [new]
                rfl
          · exact alive.filled fifo (List.mem_of_getElem? fifoAt) elem' old
      · intro _ _ next
        cases data with
        | none => cases next
        | some data => cases next
  | reject state => exact ⟨formed, nofun, alive.filled, nofun⟩
  | add state incomplete enough maxSize packets goes =>
      have inside := alive.inside (by simp [halted, state]) (by simp [state])
      refine ⟨formed, fun _ _ => inside, alive.filled, ?_⟩
      rintro elem packet rfl
      rcases goes with goes | ⟨goes, -⟩
      · cases goes
      · cases goes
  | starve state => exact ⟨formed, nofun, alive.filled, nofun⟩
  | last state => exact ⟨formed, nofun, alive.filled, nofun⟩
  | renew state =>
      have inside := alive.inside (by simp [halted, state]) (by simp [state])
      exact ⟨formed, fun _ _ => inside, alive.filled, nofun⟩

theorem pop_isSome {fifo : DvbFifo NetPacket} (busy : fifo.getCurrentSize ≠ 0)
    (filled : ∀ elem ∈ fifo.queue, elem.elem.isSome) :
    ∃ elem fifo', fifo.pop = some (some elem, fifo') := by
  unfold DvbFifo.pop
  split
  next empty => simp [DvbFifo.getCurrentSize, empty, wrap] at busy
  next elem rest queue =>
    obtain ⟨packet, held⟩ := Option.isSome_iff_exists.mp
      (filled elem (by rw [queue]; exact List.mem_cons_self))
    simp [FifoElement.getTotalLength, held]

theorem Alive.turn_isSome (alive : s.Alive) (running : halted s = false) :
    ∃ s', turn handler maxBurstLengthB s = some s' := by
  obtain ⟨frame, incomplete⟩ := Option.isSome_iff_exists.mp (alive.formed.opened running)
  unfold turn
  cases state : s.state with
  | nextFifo => exact ⟨_, rfl⟩
  | getFifo => exact ⟨_, rfl⟩
  | done => exact ⟨_, rfl⟩
  | error => exact ⟨_, rfl⟩
  | addData data =>
      dsimp only
      rw [addData, incomplete]
      exact ⟨_, rfl⟩
  | finalizeFrame =>
      dsimp only
      rw [finalizeFrame, incomplete]
      exact ⟨_, rfl⟩
  | nextEncapPkt =>
      have fifoAt := List.getElem?_eq_getElem (alive.inside running (by simp [state]))
      dsimp only
      rw [nextEncapPkt, fifoAt, Option.bind_some]
      split
      next => exact ⟨_, rfl⟩
      next busy =>
        obtain ⟨elem, fifo', popped⟩ := pop_isSome busy
          (alive.filled _ (List.mem_of_getElem? fifoAt))
        rw [popped]
        dsimp only [Option.bind_some]
        split
        next => exact ⟨_, rfl⟩
        next => exact ⟨_, rfl⟩
  | getChunk elem packet =>
      have fifoAt := List.getElem?_eq_getElem (alive.inside running (by simp [state]))
      have room := alive.room elem packet state _ fifoAt
      dsimp only
      rw [getChunk, incomplete, fifoAt]
      dsimp only [Option.bind_some]
      split
      next => exact ⟨_, rfl⟩
      next data remaining answer =>
        have reinserted := @reinsertPacket_isSome _ elem remaining room
        obtain ⟨fifo', reinserted⟩ := Option.isSome_iff_exists.mp reinserted
        rw [reinserted]
        exact ⟨_, rfl⟩

theorem subToZero_lt {a b : Nat} (positive : 0 < b) (small : b < 2 ^ 31)
    (left : subToZero a b ≠ 0) : subToZero a b < a := by
  unfold subToZero at left ⊢
  split at left
  next below =>
    rw [if_pos below]
    rcases Nat.lt_or_ge a (2 ^ 32) with word | wide
    · rcases Nat.lt_or_ge a b with less | enough
      · rw [subW_of_gt (by omega) less] at below
        omega
      · rw [subW_of_le word enough]
        omega
    · omega
  next => exact absurd rfl left

/-- The allocation left, the space in the frame, the packets to see and what is done next. -/
def measure (s : MacSchedule) : Nat × Nat × Nat × Nat :=
  let fifosLeft := s.fifos.length - s.fifoIt
  let packets := (s.fifos.map (·.queue.length)).sum
  (s.remainingAllocationB, s.incomplete.elim 0 (·.getFreeSpace),
    match s.state with
    | .nextFifo => (packets, 6 * fifosLeft)
    | .finalizeFrame => (packets, 6 * fifosLeft + 1)
    | .addData _ => (packets, 6 * fifosLeft + 2)
    | .getChunk _ _ => (packets + 1, 6 * fifosLeft + 3)
    | .nextEncapPkt => (packets, 6 * fifosLeft + 4)
    | .getFifo => (packets, 6 * fifosLeft + 5)
    | .done => (packets, 0)
    | .error => (packets, 0))

/-- The order that the turns go down. -/
def Down : MacSchedule → MacSchedule → Prop :=
  InvImage (Prod.Lex (· < ·) (Prod.Lex (· < ·) (Prod.Lex (· < ·) (· < ·)))) measure

theorem down_wf : WellFounded Down :=
  InvImage.wf measure (Prod.lex Nat.lt_wfRel (Prod.lex Nat.lt_wfRel
    (Prod.lex Nat.lt_wfRel Nat.lt_wfRel))).wf

theorem sum_set {lengths : List Nat} {k length length' : Nat} (at_k : lengths[k]? = some length) :
    (lengths.set k length').sum + length = lengths.sum + length' := by
  induction lengths generalizing k with
  | nil => cases at_k
  | cons first rest ih =>
      cases k with
      | zero =>
          cases at_k
          simp only [List.set_cons_zero, List.sum_cons]
          omega
      | succ k =>
          have others := ih at_k
          simp only [List.set_cons_succ, List.sum_cons] at others ⊢
          omega

/-- The packets in the FIFOs once one FIFO has changed. -/
theorem sum_setFifo {fifos : List (DvbFifo NetPacket)} {k : Nat} {fifo : DvbFifo NetPacket}
    (fifoAt : fifos[k]? = some fifo) (length' : Nat) :
    ((fifos.map (·.queue.length)).set k length').sum + fifo.queue.length =
      (fifos.map (·.queue.length)).sum + length' := by
  refine sum_set ?_
  rw [List.getElem?_map, fifoAt]
  rfl

theorem Act.down (alive : s.Alive) (act : Act handler maxBurstLengthB s s') : Down s' s := by
  unfold Down InvImage measure
  simp only [Prod.lex_def]
  cases act with
  | skip state =>
      have inside := alive.inside (by simp [halted, state]) (by simp [state])
      simp [state]
      omega
  | finish state fifoAt => simp [state]
  | ignore state fifoAt => simp [state]
  | enter state fifoAt => simp [state]
  | leave state fifoAt => simp [state]
  | @pop fifo fifo' elem packet state fifoAt queue =>
      have sum := sum_setFifo fifoAt fifo'.queue.length
      rw [queue, List.length_cons] at sum
      simp [state, setFifo]
      omega
  | refuse state => simp [state]
  | @chunk elem packet frame fifo fifo' data remaining state incomplete fifoAt answer reinserted =>
      have sum := sum_setFifo fifoAt fifo'.queue.length
      have queue := reinsertPacket_eq (alive.room elem packet state fifo fifoAt) reinserted
      have back : fifo'.queue.length ≤ fifo.queue.length + 1 := by
        rw [queue]
        cases remaining <;> simp [Nat.add_comm]
      cases data with
      | none =>
          simp [state, SchedState.afterChunk]
          omega
      | some data =>
          simp [state, SchedState.afterChunk]
          omega
  | reject state => simp [state]
  | @add data frame frame' next state incomplete enough maxSize packets goes =>
      have positive := alive.formed.piece data state
      have less : frame'.getFreeSpace < frame.getFreeSpace := by
        simp only [DvbRcsFrame.getFreeSpace, DvbRcsFrame.getTotalLength, maxSize, packets,
          List.map_append, List.sum_append, List.map_cons, List.map_nil, List.sum_singleton]
          at enough ⊢
        omega
      simp [incomplete, less]
  | starve state incomplete => simp [state]
  | last state incomplete some spent =>
      rcases Nat.eq_zero_or_pos s.remainingAllocationB with zero | positive
      · rw [zero] at spent
        simp [state, spent, zero, incomplete]
        omega
      · exact .inl (by rw [spent]; exact positive)
  | @renew frame frame' state incomplete some left =>
      have counted := alive.formed.frameLength (by simp [incomplete]) (by simp [state])
      have packets := alive.formed.packet
      rw [Formed.current_eq incomplete] at counted packets
      have many := length_le_sum packets
      have most := alive.formed.bits_le incomplete
      rw [alive.formed.getNumPackets_eq incomplete] at some
      refine .inl (subToZero_lt ?_ ?_ left)
      · rw [counted, bits]
        omega
      · simp only [msgDvbRcsSizeMax, encapBurstLength] at most
        omega

/-- From a state where it can take a turn, the loop ends. -/
theorem Alive.exec_ends (chunks : handler.Chunks) (burst : 1 ≤ maxBurstLengthB / 8)
    (alive : s.Alive) : ∃ fuel s', exec halted (turn handler maxBurstLengthB) fuel s = some s' := by
  refine Loop.exec_ends (P := Alive) down_wf ?_ alive
  intro s alive running
  obtain ⟨s', taken⟩ := alive.turn_isSome running
  have act : Act handler maxBurstLengthB s s' := act_of_turn burst ⟨running, taken⟩
  exact ⟨s', taken, act.alive chunks alive, act.down alive⟩

/-- The loop starts with an empty frame and FIFOs whose elements have packets. -/
theorem start_alive {fifos : List (DvbFifo NetPacket)} {history : List Taken}
    {remainingAllocationB : Nat} {frame : DvbRcsFrame}
    (filled : ∀ fifo ∈ fifos, ∀ elem ∈ fifo.queue, elem.elem.isSome)
    (allocated : allocateDvbRcsFrame maxBurstLengthB = some frame) :
    (start fifos history remainingAllocationB (some frame)).Alive :=
  ⟨.new allocated rfl rfl nofun, fun _ other => absurd rfl other, filled, nofun⟩

theorem one_le_of_allocated {frame : DvbRcsFrame}
    (allocated : allocateDvbRcsFrame maxBurstLengthB = some frame) : 1 ≤ maxBurstLengthB / 8 := by
  unfold allocateDvbRcsFrame at allocated
  split at allocated
  next one => exact one
  next => cases allocated

/-- **The return scheduling ends**: from some fuel on, it has a result. -/
theorem schedule_ends (chunks : handler.Chunks) {fifos : List (DvbFifo NetPacket)}
    (history : List Taken) (remainingAllocationB : Nat)
    (filled : ∀ fifo ∈ fifos, ∀ elem ∈ fifo.queue, elem.elem.isSome) :
    ∃ fuel out, ∀ more ≥ fuel,
      schedule handler maxBurstLengthB more fifos history remainingAllocationB = some out := by
  by_cases none : maxBurstLengthB = 0
  · exact ⟨0, _, fun _ _ => if_pos none⟩
  · cases allocated : allocateDvbRcsFrame maxBurstLengthB with
    | none =>
        refine ⟨0, (false, start fifos history remainingAllocationB Option.none), fun _ _ => ?_⟩
        rw [schedule, if_neg none, macSchedule, allocated]
    | some frame =>
        have alive := @start_alive _ _ history remainingAllocationB _ filled allocated
        obtain ⟨fuel, s', ended⟩ := alive.exec_ends chunks (one_le_of_allocated allocated)
        refine ⟨fuel, close s', fun more le => ?_⟩
        rw [schedule, if_neg none, macSchedule, allocated]
        dsimp only
        rw [exec_mono le ended]
        rfl

end MacSchedule

end OpenSand
