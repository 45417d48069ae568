import OpenSand.Lib.Run
import OpenSand.Physical.DelayFifo

/-!
The satellite delay of a ground channel.

A packet waits in the delay FIFO until its output tick, which the channel computes in words of 32
bits. A line labels the packets with what they were pushed with: its clock, their delay and their
rank. `ready_iff` says when all leave at their time and in the order of their times: when no
packet waits past the last word at a call that forwards.
-/

namespace OpenSand.GroundPhysicalChannel

open OpenSand.Bisect OpenSand.Run

variable {π : Type}

/-! ### The channel -/

def pushPacket (delayFifo : DelayFifo π) (currentTime delay : UInt32) (pkt : π) :
    Option (Bool × DelayFifo π) :=
  delayFifo.push ⟨some pkt, currentTime.toNat, (currentTime + delay).toNat⟩

/-- The FIFO, and the packets given to `forwardPacket` so far. -/
structure Forwarding (π : Type) where
  delayFifo : DelayFifo π
  forwarded : List π

def notReady (currentTime : UInt32) (s : Forwarding π) : Bool :=
  ¬ (s.delayFifo.getCurrentSize > 0 ∧ s.delayFifo.getTickOut ≤ currentTime.toNat)

def forwardNext (s : Forwarding π) : Option (Forwarding π) :=
  match s.delayFifo.pop with
  | (none, _) => none
  | (some elem, delayFifo) => elem.getElem.1.map fun pkt => ⟨delayFifo, s.forwarded ++ [pkt]⟩

def forwardReadyPackets (delayFifo : DelayFifo π) (currentTime : UInt32) : Option (Forwarding π) :=
  Loop.exec (notReady currentTime) forwardNext (delayFifo.queue.length + 1) ⟨delayFifo, []⟩

/-! ### Lines -/

/-- A packet with its rank, the time of its push and its delay. -/
structure Stamped (π : Type) where
  arrival : Nat
  time : UInt32
  delay : UInt32
  packet : π
deriving DecidableEq

namespace Stamped

/-- The time a packet is due at. -/
def due (x : Stamped π) : Nat := x.time.toNat + x.delay.toNat

/-- The output tick it is given. -/
def tick (x : Stamped π) : Nat := (x.time + x.delay).toNat

def element (x : Stamped π) : FifoElement (Stamped π) := ⟨some x, x.time.toNat, x.tick⟩

/-- By a time, then by rank. -/
def Before (key : Stamped π → Nat) (a b : Stamped π) : Prop :=
  key a < key b ∨ key a = key b ∧ a.arrival < b.arrival

theorem tick_eq (x : Stamped π) : x.tick = x.due % 2 ^ 32 := UInt32.toNat_add _ _

end Stamped

structure Line (π : Type) where
  delayFifo : DelayFifo (Stamped π)
  clock : UInt32
  pushed : Nat
  accepted : List (Stamped π)
  forwarded : List (Stamped π)

inductive Event (π : Type) where
  | push (time delay : UInt32) (packet : π)
  | forward (time : UInt32)

def Event.time : Event π → UInt32
  | .push time _ _ => time
  | .forward time => time

namespace Line

def new (maxSizePkt : Fin (2 ^ 16)) : Line π := ⟨DelayFifo.new maxSizePkt, 0, 0, [], []⟩

/-- The packets in the FIFO. -/
def waiting (line : Line π) : List (Stamped π) := line.delayFifo.queue.filterMap FifoElement.elem

def step (line : Line π) : Event π → Option (Line π)
  | .push time delay packet =>
      let stamped : Stamped π := ⟨line.pushed, time, delay, packet⟩
      (pushPacket line.delayFifo time delay stamped).map fun (ok, delayFifo) =>
        { line with
          delayFifo := delayFifo
          clock := time
          pushed := line.pushed + 1
          accepted := if ok then line.accepted ++ [stamped] else line.accepted }
  | .forward time =>
      (forwardReadyPackets line.delayFifo time).map fun out =>
        { line with
          delayFifo := out.delayFifo
          clock := time
          forwarded := line.forwarded ++ out.forwarded }

/-- Every accepted packet was forwarded once or waits, and those forwarded left by due time and by
rank. -/
structure InOrder (line : Line π) : Prop where
  numbered : line.accepted.Pairwise fun a b => a.arrival < b.arrival
  once : line.accepted.Perm (line.forwarded ++ line.waiting)
  sorted : line.forwarded.Pairwise (Stamped.Before Stamped.due)

/-- A push is accepted exactly when the FIFO has room; a call forwards the packets that are due
and no other. -/
def Ready (line : Line π) (event : Event π) (line' : Line π) : Prop :=
  match event with
  | .push time delay packet =>
      line'.forwarded = line.forwarded ∧
        line'.accepted = if line.delayFifo.queue.length < line.delayFifo.maxSizePkt then
          line.accepted ++ [⟨line.pushed, time, delay, packet⟩] else line.accepted
  | .forward time =>
      line'.accepted = line.accepted ∧ ∃ out, line'.forwarded = line.forwarded ++ out ∧
        ∀ x, x ∈ out ↔ x ∈ line.waiting ∧ x.due ≤ time.toNat

/-- At a call that forwards, no packet waits past the last word. -/
def InTime (line : Line π) : Event π → Prop
  | .push _ _ _ => True
  | .forward _ => ∀ x ∈ line.waiting, x.due < 2 ^ 32

end Line

/-! ### One call -/

/-- A call forwards the first packets up to its time. -/
theorem exec_forwardNext {list : List (Stamped π)} {currentTime : UInt32} {s : Forwarding (Stamped π)}
    {fuel : Nat} (queue : s.delayFifo.queue = list.map Stamped.element)
    (enough : list.length < fuel) :
    ∃ s', Loop.exec (notReady currentTime) forwardNext fuel s = some s' ∧
      s'.delayFifo.queue = (list.dropWhile (·.tick ≤ currentTime.toNat)).map Stamped.element ∧
      s'.forwarded = s.forwarded ++ list.takeWhile (·.tick ≤ currentTime.toNat) := by
  induction fuel generalizing list s with
  | zero => exact absurd enough (Nat.not_lt_zero _)
  | succ fuel ih =>
      rw [Loop.exec]
      cases list with
      | nil =>
          refine ⟨s, if_pos ?_, queue, (List.append_nil _).symm⟩
          simp [notReady, queue]
      | cons x rest =>
          by_cases ready : x.tick ≤ currentTime.toNat
          · have running : ¬ notReady currentTime s = true := by
              simpa [notReady, DelayFifo.getTickOut, queue, Stamped.element] using ready
            obtain ⟨fifo, popped, queue'⟩ := DelayFifo.pop_cons queue
            have next : forwardNext s = some ⟨fifo, s.forwarded ++ [x]⟩ := by
              rw [forwardNext, popped]
              rfl
            obtain ⟨s', forwarded, left, out⟩ :=
              @ih rest ⟨fifo, s.forwarded ++ [x]⟩ queue' (Nat.lt_of_succ_lt_succ enough)
            rw [if_neg running, next, List.dropWhile_cons_of_pos (by simpa using ready),
              List.takeWhile_cons_of_pos (by simpa using ready)]
            refine ⟨s', forwarded, left, ?_⟩
            rw [out, List.append_assoc]
            rfl
          · have halted : notReady currentTime s = true := by
              simpa [notReady, DelayFifo.getTickOut, queue, Stamped.element] using ready
            rw [List.dropWhile_cons_of_neg (by simpa using ready),
              List.takeWhile_cons_of_neg (by simpa using ready), List.append_nil]
            exact ⟨s, if_pos halted, queue, rfl⟩

namespace Line

variable {line line' : Line π}

/-- What every line keeps: the FIFO holds the waiting packets by tick, and what left before
comes before them. -/
structure Kept (line : Line π) : Prop extends InOrder line where
  queue : line.delayFifo.queue = line.waiting.map Stamped.element
  ticks : line.waiting.Pairwise (Stamped.Before Stamped.tick)
  pushed : ∀ x ∈ line.accepted, x.arrival < line.pushed
  entered : ∀ x ∈ line.accepted, x.time ≤ line.clock
  past : ∀ x ∈ line.forwarded, x.due ≤ line.clock.toNat
  later : ∀ x ∈ line.forwarded, ∀ y ∈ line.waiting, x.Before Stamped.due y

theorem Kept.new (maxSizePkt : Fin (2 ^ 16)) : (Line.new maxSizePkt : Line π).Kept where
  numbered := .nil
  once := .nil
  sorted := .nil
  queue := rfl
  ticks := .nil
  pushed := by simp [Line.new]
  entered := by simp [Line.new]
  past := by simp [Line.new]
  later := by simp [Line.new]

theorem waiting_of_queue {list : List (Stamped π)}
    (queue : line.delayFifo.queue = list.map Stamped.element) : line.waiting = list := by
  rw [waiting, queue, List.filterMap_map]
  exact List.filterMap_some

theorem Kept.ordered (kept : line.Kept) :
    Bisect.Ordered FifoElement.tickOut line.delayFifo.queue := by
  rw [kept.queue, Bisect.Ordered, List.pairwise_map]
  exact kept.ticks.imp fun before => by
    rcases before with lt | ⟨eq, -⟩
    · exact Nat.le_of_lt lt
    · exact Nat.le_of_eq eq

/-! ### One event -/

/-- A refused packet changes nothing but the clock; an accepted one is put behind the packets up
to its tick. -/
theorem Kept.step_push (kept : line.Kept) (time delay : UInt32) (packet : π) :
    ∃ line', line.step (.push time delay packet) = some line' ∧
      line'.clock = time ∧ line'.pushed = line.pushed + 1 ∧ line'.forwarded = line.forwarded ∧
      (line.delayFifo.maxSizePkt ≤ line.delayFifo.queue.length ∧
          line'.delayFifo = line.delayFifo ∧ line'.accepted = line.accepted ∨
        line.delayFifo.queue.length < line.delayFifo.maxSizePkt ∧
          line'.accepted = line.accepted ++ [⟨line.pushed, time, delay, packet⟩] ∧
          ∃ pos, Cut Stamped.tick line.waiting (time + delay).toNat pos ∧
            line'.delayFifo.queue = (line.waiting.insertIdx pos
              ⟨line.pushed, time, delay, packet⟩).map Stamped.element) := by
  rcases DelayFifo.push_cases kept.ordered (Stamped.element ⟨line.pushed, time, delay, packet⟩) with
    ⟨pos, room, cut, pushed⟩ | ⟨full, pushed⟩
  · refine ⟨_, congrArg (Option.map _) pushed, rfl, rfl, rfl, .inr ⟨room, rfl, pos, ?_, ?_⟩⟩
    · rw [kept.queue] at cut
      exact cut.of_map
    · rw [List.map_insertIdx, ← kept.queue]
      rfl
  · exact ⟨_, congrArg (Option.map _) pushed, rfl, rfl, rfl, .inl ⟨full, rfl, rfl⟩⟩

/-- A push that is refused moves the clock. -/
theorem Kept.refused (kept : line.Kept) (le : line.clock ≤ line'.clock)
    (counted : line'.pushed = line.pushed + 1) (forwarded : line'.forwarded = line.forwarded)
    (fifo : line'.delayFifo = line.delayFifo) (accepted : line'.accepted = line.accepted) :
    line'.Kept := by
  have waiting : line'.waiting = line.waiting := by rw [Line.waiting, fifo, Line.waiting]
  constructor
  case toInOrder =>
    refine ⟨accepted ▸ kept.numbered, ?_, forwarded ▸ kept.sorted⟩
    exact accepted ▸ forwarded ▸ waiting ▸ kept.once
  case queue => exact fifo ▸ waiting ▸ kept.queue
  case ticks => exact waiting ▸ kept.ticks
  case pushed =>
    rw [accepted, counted]
    exact fun x mem => Nat.lt_succ_of_lt (kept.pushed x mem)
  case entered =>
    rw [accepted]
    exact fun x mem => UInt32.le_trans (kept.entered x mem) le
  case past =>
    rw [forwarded]
    exact fun x mem => (kept.past x mem).trans le
  case later => exact forwarded ▸ waiting ▸ kept.later

/-- A packet has its place behind the packets up to its tick, which came before it, and is due
after those that left. -/
theorem Kept.inserted (kept : line.Kept) {x : Stamped π} {pos : Nat}
    (cut : Cut Stamped.tick line.waiting x.tick pos) (last : x.arrival = line.pushed)
    (le : line.clock ≤ x.time) (clock : line'.clock = x.time)
    (counted : line'.pushed = line.pushed + 1) (forwarded : line'.forwarded = line.forwarded)
    (accepted : line'.accepted = line.accepted ++ [x])
    (queue : line'.delayFifo.queue = (line.waiting.insertIdx pos x).map Stamped.element) :
    line'.Kept := by
  have waiting := waiting_of_queue queue
  have inserted := List.perm_insertIdx x line.waiting cut.inside
  have before : ∀ y ∈ line.accepted, y.arrival < x.arrival := last.symm ▸ kept.pushed
  constructor
  case toInOrder =>
    refine ⟨?_, ?_, forwarded ▸ kept.sorted⟩
    · rw [accepted]
      refine List.pairwise_append.mpr ⟨kept.numbered, List.pairwise_singleton _ _, ?_⟩
      rintro y mem z mem'
      rw [List.mem_singleton.mp mem']
      exact before y mem
    · rw [accepted, forwarded, waiting]
      refine (kept.once.append_right _).trans ?_
      rw [List.append_assoc]
      exact ((List.perm_append_singleton _ _).trans inserted.symm).append_left _
  case queue => rw [waiting, queue]
  case ticks =>
    rw [waiting]
    refine cut.pairwise_insertIdx rfl kept.ticks (fun y mem le => ?_) fun y mem lt => .inl lt
    have known := before y (kept.once.mem_iff.mpr (List.mem_append_right _ mem))
    exact (Nat.lt_or_eq_of_le le).imp_right fun eq => ⟨eq, known⟩
  case pushed =>
    rw [accepted, counted]
    refine List.forall_mem_append.mpr ⟨fun y mem => Nat.lt_succ_of_lt (kept.pushed y mem), ?_⟩
    exact List.forall_mem_singleton.mpr (last ▸ Nat.lt_succ_self _)
  case entered =>
    rw [accepted, clock]
    refine List.forall_mem_append.mpr ⟨fun y mem => UInt32.le_trans (kept.entered y mem) le, ?_⟩
    exact List.forall_mem_singleton.mpr (UInt32.le_refl _)
  case past =>
    rw [forwarded, clock]
    exact fun y mem => (kept.past y mem).trans le
  case later =>
    rw [forwarded, waiting]
    intro y left z mem
    rcases List.mem_cons.mp (inserted.mem_iff.mp mem) with rfl | old
    · have due : y.due ≤ z.due := ((kept.past y left).trans le).trans (Nat.le_add_right _ _)
      have known := before y (kept.once.mem_iff.mpr (List.mem_append_left _ left))
      exact (Nat.lt_or_eq_of_le due).imp_right fun eq => ⟨eq, known⟩
    · exact kept.later y left z old

theorem Kept.push (kept : line.Kept) {time delay : UInt32} {packet : π} (le : line.clock ≤ time) :
    ∃ line', line.step (.push time delay packet) = some line' ∧
      line.Ready (.push time delay packet) line' ∧ line'.Kept := by
  obtain ⟨line', stepped, clock, counted, forwarded, changed⟩ := kept.step_push time delay packet
  rcases changed with ⟨full, fifo, accepted⟩ | ⟨room, accepted, pos, cut, queue⟩
  · refine ⟨line', stepped, ⟨forwarded, ?_⟩, ?_⟩
    · rw [if_neg (Nat.not_lt.mpr full), accepted]
    · exact kept.refused (clock.symm ▸ le) counted forwarded fifo accepted
  · refine ⟨line', stepped, ⟨forwarded, ?_⟩, ?_⟩
    · rw [if_pos room, accepted]
    · exact kept.inserted (x := ⟨line.pushed, time, delay, packet⟩) cut rfl le clock counted
        forwarded accepted queue

/-! ### Calls that forward -/

theorem Kept.step_forward (kept : line.Kept) (time : UInt32) :
    ∃ line', line.step (.forward time) = some line' ∧
      line'.clock = time ∧ line'.pushed = line.pushed ∧ line'.accepted = line.accepted ∧
      line'.forwarded = line.forwarded ++ line.waiting.takeWhile (·.tick ≤ time.toNat) ∧
      line'.delayFifo.queue =
        (line.waiting.dropWhile (·.tick ≤ time.toNat)).map Stamped.element := by
  have enough : line.waiting.length < line.delayFifo.queue.length + 1 := by
    rw [kept.queue, List.length_map]
    exact Nat.lt_succ_self _
  obtain ⟨out, exec, queue, forwarded⟩ :=
    @exec_forwardNext _ _ time ⟨line.delayFifo, []⟩ _ kept.queue enough
  exact ⟨_, congrArg (Option.map _) exec, rfl, rfl, rfl,
    congrArg (line.forwarded ++ ·) forwarded, queue⟩

/-- What leaves is what has a tick up to the time. -/
theorem Kept.mem_takeWhile (kept : line.Kept) {time : UInt32} {x : Stamped π} :
    x ∈ line.waiting.takeWhile (·.tick ≤ time.toNat) ↔ x ∈ line.waiting ∧ x.tick ≤ time.toNat := by
  have ordered := kept.ordered
  rw [kept.queue, Bisect.Ordered, List.pairwise_map] at ordered
  exact Bisect.Ordered.mem_takeWhile ordered

theorem Kept.forward (kept : line.Kept) {time : UInt32} (le : line.clock ≤ time)
    (inTime : line.InTime (.forward time)) :
    ∃ line', line.step (.forward time) = some line' ∧ line.Ready (.forward time) line' ∧
      line'.Kept := by
  obtain ⟨line', stepped, clock, counted, accepted, forwarded, queue⟩ := kept.step_forward time
  have waiting := waiting_of_queue queue
  have tick : ∀ x ∈ line.waiting, x.tick = x.due := fun x mem => by
    rw [x.tick_eq, Nat.mod_eq_of_lt (inTime x mem)]
  have mem_out : ∀ x, x ∈ line.waiting.takeWhile (·.tick ≤ time.toNat) ↔
      x ∈ line.waiting ∧ x.due ≤ time.toNat := fun x =>
    kept.mem_takeWhile.trans (and_congr_right fun mem => by rw [tick x mem])
  have parts : line.waiting.takeWhile (·.tick ≤ time.toNat) ++
      line.waiting.dropWhile (·.tick ≤ time.toNat) = line.waiting :=
    List.takeWhile_append_dropWhile
  have dues : line.waiting.Pairwise (Stamped.Before Stamped.due) :=
    kept.ticks.imp_of_mem fun {a b} mem mem' before => by
      rwa [Stamped.Before, tick a mem, tick b mem'] at before
  rw [← parts, List.pairwise_append] at dues
  refine ⟨line', stepped, ⟨accepted, _, forwarded, mem_out⟩, ?_⟩
  constructor
  case toInOrder =>
    refine ⟨accepted ▸ kept.numbered, ?_, ?_⟩
    · rw [accepted, forwarded, waiting, List.append_assoc, parts]
      exact kept.once
    · rw [forwarded]
      exact List.pairwise_append.mpr ⟨kept.sorted, dues.1,
        fun x left y mem => kept.later x left y ((mem_out y).mp mem).1⟩
  case queue => rw [waiting, queue]
  case ticks =>
    rw [waiting]
    exact kept.ticks.sublist (List.dropWhile_sublist _)
  case pushed => exact accepted ▸ counted ▸ kept.pushed
  case entered =>
    rw [accepted, clock]
    exact fun x mem => UInt32.le_trans (kept.entered x mem) le
  case past =>
    rw [forwarded, clock]
    intro x mem
    rcases List.mem_append.mp mem with old | out
    · exact (kept.past x old).trans le
    · exact ((mem_out x).mp out).2
  case later =>
    rw [forwarded, waiting]
    intro x mem y mem'
    rcases List.mem_append.mp mem with old | out
    · exact kept.later x old y ((List.dropWhile_sublist _).mem mem')
    · exact dues.2.2 x out y mem'

/-- A call with a packet past the last word forwards it at once. -/
theorem Kept.not_ready (kept : line.Kept) {time : UInt32} (le : line.clock ≤ time)
    (stepped : line.step (.forward time) = some line') (ready : line.Ready (.forward time) line') :
    line.InTime (.forward time) := by
  intro x mem
  obtain ⟨line'', stepped', -, -, -, forwarded, -⟩ := kept.step_forward time
  cases stepped.symm.trans stepped'
  obtain ⟨-, out, forwarded', mem_out⟩ := ready
  obtain rfl := List.append_cancel_left (forwarded.symm.trans forwarded')
  by_contra large
  have entered : x.time.toNat ≤ time.toNat :=
    (kept.entered x (kept.once.mem_iff.mpr (List.mem_append_right _ mem))).trans le
  have wrapped : x.tick ≤ time.toNat := by
    have := x.delay.toNat_lt
    have := x.time.toNat_lt
    rw [x.tick_eq]
    simp only [Stamped.due] at large ⊢
    omega
  have := ((mem_out x).mp (kept.mem_takeWhile.mpr ⟨mem, wrapped⟩)).2
  exact large (Nat.lt_of_le_of_lt this time.toNat_lt)

/-! ### Runs -/

/-- The calls come in the order of the clock. -/
def Later (line : Line π) (event : Event π) : Prop := line.clock ≤ event.time

theorem step_clock {event : Event π} (stepped : line.step event = some line') :
    line'.clock = event.time := by
  cases event <;>
  · obtain ⟨out, -, rfl⟩ := Option.map_eq_some_iff.mp stepped
    rfl

theorem allTries_later {events : List (Event π)} (first : ∀ event ∈ events, line.Later event)
    (sorted : events.Pairwise fun a b => a.time ≤ b.time) : AllTries step Later line events := by
  induction events generalizing line with
  | nil => trivial
  | cons event rest ih =>
      obtain ⟨next, sorted⟩ := List.pairwise_cons.mp sorted
      refine ⟨first event List.mem_cons_self, fun line' stepped => ih (fun event' mem => ?_) sorted⟩
      rw [Later, step_clock stepped]
      exact next event' mem

/-- Under a clock that does not go back, every accepted packet is forwarded once, by the first
call of its due time and in order, and a push is refused exactly when the FIFO is full, as long
as no packet waits past the last word at a call that forwards; and only then. -/
theorem ready_iff (maxSizePkt : Fin (2 ^ 16)) (events : List (Event π))
    (sorted : events.Pairwise fun a b => a.time ≤ b.time) :
    Survives step InOrder Ready (new maxSizePkt) events ↔
      AllTries step InTime (new maxSizePkt) events := by
  have domain : AllTries step Later (new maxSizePkt) events :=
    allTries_later (fun event _ => UInt32.zero_le) sorted
  refine survives_iff_allTries_of_keep (Kept.new maxSizePkt) domain (fun line kept => kept.toInOrder)
    (fun line event kept le => ?_) fun line event line' kept le inTime stepped => ?_
  · cases event with
    | push time delay packet =>
        obtain ⟨line', stepped, ready, kept'⟩ := kept.push le
        exact iff_of_true ⟨line', stepped, ready, kept'.toInOrder⟩ trivial
    | forward time =>
        constructor
        · rintro ⟨line', stepped, ready, -⟩
          exact kept.not_ready le stepped ready
        · intro inTime
          obtain ⟨line', stepped, ready, kept'⟩ := kept.forward le inTime
          exact ⟨line', stepped, ready, kept'.toInOrder⟩
  · cases event with
    | push time delay packet =>
        obtain ⟨line'', stepped', -, kept'⟩ := kept.push le
        cases stepped.symm.trans stepped'
        exact kept'
    | forward time =>
        obtain ⟨line'', stepped', -, kept'⟩ := kept.forward le inTime
        cases stepped.symm.trans stepped'
        exact kept'

/-- Two packets, of which the later one is due first. -/
theorem ready_overtaking : Survives step InOrder Ready (new 2)
    [.push 1 5 true, .push 2 1 false, .forward 3, .forward 6] ↔
      AllTries step InTime (new 2) [.push 1 5 true, .push 2 1 false, .forward 3, .forward 6] :=
  ready_iff 2 _ (by decide)

/-- At the last word of the clock, a packet with a delay of 5 is forwarded at once. -/
theorem forwarded_at_once : ¬ Survives step InOrder Ready (new 10000)
    [.push 4294967295 5 (), .forward 4294967295] := by
  rintro ⟨-, line', stepped, -, -, line'', forwarded, ⟨-, out, left, mem_out⟩, -⟩
  cases stepped
  cases forwarded
  have early := (mem_out ⟨0, 4294967295, 5, ()⟩).mp (by
    have : out = [⟨0, 4294967295, 5, ()⟩] := left.symm
    exact this ▸ List.mem_singleton_self _)
  exact absurd early.2 (by decide)

end Line

end OpenSand.GroundPhysicalChannel
