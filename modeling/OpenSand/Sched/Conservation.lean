import OpenSand.Sched.Moves
import Mathlib.Algebra.BigOperators.Group.Finset.Piecewise

/-!
Where the packets of the FIFOs are.

`Drains` replays the packets taken out of a FIFO: each of them is its head, and what
remains of it is put back there. `Packed` says that the FIFOs are what the replay
leaves, that the frames hold exactly the data of the record, and that the record is
explained by the selection of the MODCODs and by the encapsulation. It follows that
any amount that the encapsulation conserves is conserved by a scheduling.
-/

namespace OpenSand

/-! ### The replay of a FIFO -/

/-- The packets taken out of a queue, one after the other, and the queue left. -/
inductive Drains :
    List (FifoElement NetPacket) → List Popped → List (FifoElement NetPacket) → Prop where
  | nil (queue : List (FifoElement NetPacket)) : Drains queue [] queue
  | cons {popped : Popped} {rest queue : List (FifoElement NetPacket)} {record : List Popped} :
      Drains (popped.back ++ rest) record queue → Drains (popped.elem :: rest) (popped :: record) queue

/-- One more packet is taken out. -/
theorem Drains.snoc {arrived rest : List (FifoElement NetPacket)} {record : List Popped}
    {popped : Popped} (h : Drains arrived record (popped.elem :: rest)) :
    Drains arrived (record ++ [popped]) (popped.back ++ rest) := by
  generalize queue : popped.elem :: rest = left at h
  induction h with
  | nil =>
      subst queue
      exact .cons (.nil _)
  | cons _ ih => exact .cons (ih queue)

/-- Packets that arrive at the tail do not change the replay. -/
theorem Drains.arrive {arrived queue : List (FifoElement NetPacket)} {record : List Popped}
    (h : Drains arrived record queue) (new : List (FifoElement NetPacket)) :
    Drains (arrived ++ new) record (queue ++ new) := by
  induction h with
  | nil => exact .nil _
  | cons _ ih =>
      rw [List.append_assoc] at ih
      exact .cons ih

/-! ### Where the packets are -/

/-- The data of a record that was put in a frame. -/
def Popped.dataIn (f : Nat) (popped : Popped) : Option NetPacket :=
  match popped.outcome with
  | .skipped => none
  | .framed g data _ => if g = f then data else none

/-- A packet is skipped only when no MODCOD is selected for it; otherwise its data are
the encapsulation of the packet in the frame of its MODCOD. -/
def Popped.Explained (link : S2Link) (bbframes : BBFrames) (popped : Popped) : Prop :=
  ∃ packet, popped.elem.elem = some packet ∧
    match popped.outcome with
    | .skipped => link.select popped.sts popped.fmtGroup packet = .skipped
    | .framed f data remaining =>
        f < bbframes.allocated ∧
        link.select popped.sts popped.fmtGroup packet = .modcod (bbframes.modcod f) ∧
        ∃ before freeSpace isNew,
          link.handler.encapNextPacket before packet freeSpace isNew = some (data, remaining)

def queueAt (fifos : List (DvbFifo NetPacket)) (k : Nat) : List (FifoElement NetPacket) :=
  (fifos[k]?).elim [] (·.queue)

/-- The packets that arrived on the FIFOs are in the FIFOs, in the frames or skipped. -/
structure Packed (link : S2Link) (arrived : Nat → List (FifoElement NetPacket))
    (bbframes : BBFrames) (fifos : List (DvbFifo NetPacket)) (popped : List Popped) : Prop where
  drained : ∀ k fifo, fifos[k]? = some fifo →
    Drains (arrived k) (popped.filter (·.fifo = k)) fifo.queue
  framed : ∀ f < bbframes.allocated,
    (bbframes.frame f).packets = popped.filterMap (Popped.dataIn f)
  explained : ∀ record ∈ popped, record.fifo < fifos.length ∧ record.Explained link bbframes

section Moves

variable {link : S2Link} {arrived : Nat → List (FifoElement NetPacket)} {bbframes : BBFrames}
  {fifos : List (DvbFifo NetPacket)} {record : List Popped}

/-- The FIFOs once a record is added. -/
theorem Packed.drained_taken (h : Packed link arrived bbframes fifos record) {popped : Popped}
    {fifo fifo' : DvbFifo NetPacket} {rest : List (FifoElement NetPacket)}
    (fifoAt : fifos[popped.fifo]? = some fifo) (queue : fifo.queue = popped.elem :: rest)
    (back : fifo'.queue = popped.back ++ rest) (k : Nat) (left : DvbFifo NetPacket)
    (leftAt : (fifos.set popped.fifo fifo')[k]? = some left) :
    Drains (arrived k) ((record ++ [popped]).filter (·.fifo = k)) left.queue := by
  rw [List.filter_append]
  by_cases same : popped.fifo = k
  · subst same
    rw [List.getElem?_set_self (List.getElem?_eq_some_iff.mp fifoAt).1] at leftAt
    cases leftAt
    have before := h.drained popped.fifo fifo fifoAt
    rw [queue] at before
    rw [back, List.filter_cons_of_pos (by simp), List.filter_nil]
    exact before.snoc
  · rw [List.getElem?_set_ne same] at leftAt
    rw [List.filter_cons_of_neg (by simpa using same), List.filter_nil, List.append_nil]
    exact h.drained k left leftAt

theorem Popped.Explained.create {popped : Popped} (h : popped.Explained link bbframes)
    (table : FmtDefinitionTable) (modcodId : UInt8) :
    popped.Explained link (bbframes.createIncompleteBBFrame table modcodId) := by
  obtain ⟨packet, elem, why⟩ := h
  refine ⟨packet, elem, ?_⟩
  cases outcome : popped.outcome with
  | skipped =>
      rw [outcome] at why
      exact why
  | framed f data remaining =>
      rw [outcome] at why
      obtain ⟨lt, selected, encap⟩ := why
      refine ⟨Nat.lt_succ_of_lt lt, ?_, encap⟩
      rw [BBFrames.createIncompleteBBFrame_modcod, if_neg (Nat.ne_of_lt lt)]
      exact selected

theorem Popped.Explained.addData {popped : Popped} {bbframes' : BBFrames} {f : Nat}
    {data : Option NetPacket} (h : popped.Explained link bbframes)
    (added : bbframes.addData f data = some bbframes') : popped.Explained link bbframes' := by
  obtain ⟨packet, elem, why⟩ := h
  refine ⟨packet, elem, ?_⟩
  cases outcome : popped.outcome with
  | skipped =>
      rw [outcome] at why
      exact why
  | framed g data remaining =>
      rw [outcome] at why
      obtain ⟨lt, selected, encap⟩ := why
      refine ⟨?_, ?_, encap⟩
      · rw [BBFrames.addData_eq added]
        exact lt
      · rw [BBFrames.addData_modcod added]
        exact selected

/-- A frame that is not allocated yet has no data in the record. -/
theorem Packed.filterMap_dataIn_eq_nil (h : Packed link arrived bbframes fifos record) {f : Nat}
    (new : bbframes.allocated ≤ f) : record.filterMap (Popped.dataIn f) = [] := by
  rw [List.filterMap_eq_nil_iff]
  intro popped mem
  obtain ⟨-, packet, -, why⟩ := h.explained popped mem
  unfold Popped.dataIn
  cases outcome : popped.outcome with
  | skipped => rfl
  | framed g data remaining =>
      rw [outcome] at why
      exact if_neg (Nat.ne_of_lt (why.1.trans_le new))

/-- The containers of the frames do not matter for the packets. -/
theorem Packed.moved {bbframes' : BBFrames} (h : Packed link arrived bbframes fifos record)
    (allocated : bbframes'.allocated = bbframes.allocated)
    (frame : bbframes'.frame = bbframes.frame) : Packed link arrived bbframes' fifos record where
  drained := h.drained
  framed := by
    rw [allocated, frame]
    exact h.framed
  explained := by
    intro popped mem
    refine ⟨(h.explained popped mem).1, ?_⟩
    have why := (h.explained popped mem).2
    unfold Popped.Explained BBFrames.modcod at why ⊢
    rw [allocated, frame]
    exact why

/-- A packet that is recorded was taken out of one of the FIFOs. -/
theorem Move.fifo_lt {position : Nat × Nat} {licence : Licence} {s s' : Serving}
    (h : ∀ record ∈ s.popped, record.fifo < s.fifos.length)
    (move : Move link position licence s s') :
    ∀ record ∈ s'.popped, record.fifo < s'.fifos.length := by
  have taken {popped : Popped} {fifo fifo' : DvbFifo NetPacket}
      (fifoAt : s.fifos[popped.fifo]? = some fifo) :
      ∀ record ∈ s.popped ++ [popped], record.fifo < (s.fifos.set popped.fifo fifo').length := by
    intro record mem
    rw [List.length_set]
    rcases List.mem_append.mp mem with old | new
    · exact h record old
    · rw [List.mem_singleton.mp new]
      exact (List.getElem?_eq_some_iff.mp fifoAt).1
  cases move with
  | skip fifoAt => exact taken fifoAt
  | encap fifoAt => exact taken fifoAt
  | lose =>
      intro record mem
      rw [List.length_set]
      exact h record mem
  | create => exact h
  | complete => exact h
  | pend => exact h
  | resume => exact h
  | forget => exact h
  | capacity => exact h
  | carriers => exact h

/-- Whatever is lost, what is recorded stays explained. -/
theorem Move.explained {position : Nat × Nat} {licence : Licence} {s s' : Serving}
    (linked : s.bbframes.Linked link.modcodDef)
    (h : ∀ record ∈ s.popped, record.Explained link s.bbframes)
    (move : Move link position licence s s') :
    ∀ record ∈ s'.popped, record.Explained link s'.bbframes := by
  cases move with
  | create => exact fun record mem => (h record mem).create _ _
  | @skip popped fifo fifo' packet fifoAt queue outcome elem selected =>
      intro record mem
      rcases List.mem_append.mp mem with old | new
      · exact h record old
      · rw [List.mem_singleton.mp new]
        refine ⟨packet, elem, ?_⟩
        rw [outcome]
        exact selected
  | @encap popped fifo fifo' packet rest f freeSpace isNew data remaining modcodId bbframes' fifoAt
      queue back outcome elem selected found encap added =>
      have entry := (linked.mirrored modcodId f).mp found
      intro record mem
      rcases List.mem_append.mp mem with old | new
      · exact (h record old).addData added
      · rw [List.mem_singleton.mp new]
        refine ⟨packet, elem, ?_⟩
        rw [outcome]
        refine ⟨?_, ?_, _, freeSpace, isNew, encap⟩
        · rw [BBFrames.addData_eq added]
          exact linked.incomplete_lt entry.1
        · rw [BBFrames.addData_modcod added, entry.2]
          exact selected
  | lose => exact h
  | complete => exact h
  | pend => exact h
  | resume => exact h
  | forget => exact h
  | capacity => exact h
  | carriers => exact h

theorem Move.packed {position : Nat × Nat} {licence : Licence} {s s' : Serving}
    (safe : ¬ licence.lose) (linked : s.bbframes.Linked link.modcodDef)
    (h : Packed link arrived s.bbframes s.fifos s.popped)
    (move : Move link position licence s s') :
    Packed link arrived s'.bbframes s'.fifos s'.popped := by
  have fifo_lt := move.fifo_lt fun record mem => (h.explained record mem).1
  have why := move.explained linked fun record mem => (h.explained record mem).2
  have explained := fun record mem => And.intro (fifo_lt record mem) (why record mem)
  cases move with
  | create fresh =>
      refine ⟨h.drained, ?_, explained⟩
      intro f lt
      dsimp only [BBFrames.createIncompleteBBFrame] at lt ⊢
      rcases Nat.lt_succ_iff_lt_or_eq.mp lt with old | rfl
      · rw [Function.update_of_ne (Nat.ne_of_lt old)]
        exact h.framed f old
      · rw [Function.update_self, h.filterMap_dataIn_eq_nil le_rfl]
  | @skip popped fifo fifo' packet fifoAt queue outcome elem selected =>
      have back : fifo'.queue = popped.back ++ fifo'.queue := by
        rw [Popped.back, outcome]
        rfl
      refine ⟨h.drained_taken fifoAt queue back, ?_, explained⟩
      intro f lt
      have nothing : popped.dataIn f = none := by rw [Popped.dataIn, outcome]
      rw [List.filterMap_append, List.filterMap_cons_none nothing, List.filterMap_nil,
        List.append_nil]
      exact h.framed f lt
  | @encap popped fifo fifo' packet rest f freeSpace isNew data remaining modcodId bbframes' fifoAt
      queue back outcome elem selected found encap added =>
      refine ⟨h.drained_taken fifoAt queue back, ?_, explained⟩
      intro g lt
      dsimp only at lt ⊢
      rw [BBFrames.addData_eq added] at lt ⊢
      rw [List.filterMap_append, ← h.framed g lt]
      by_cases same : f = g
      · subst same
        have own : popped.dataIn f = data := by rw [Popped.dataIn, outcome]; exact if_pos rfl
        cases data with
        | none => simp [own]
        | some packet => simp [own]
      · have other : popped.dataIn g = none := by rw [Popped.dataIn, outcome]; exact if_neg same
        simp [other, Ne.symm same]
  | lose allowed => exact absurd allowed safe
  | complete => exact h.moved rfl rfl
  | pend => exact h.moved rfl rfl
  | resume => exact h.moved rfl rfl
  | forget => exact h.moved rfl rfl
  | capacity => exact h
  | carriers => exact h

theorem Evolves.packed {position : Nat × Nat} {licence : Licence} {s s' : Serving}
    (evolves : Evolves link position licence s s') (safe : ¬ licence.lose)
    (linked : s.bbframes.Linked link.modcodDef)
    (h : Packed link arrived s.bbframes s.fifos s.popped) :
    Packed link arrived s'.bbframes s'.fifos s'.popped := by
  refine (evolves.keeps (P := fun s => s.bbframes.Linked link.modcodDef ∧
    Packed link arrived s.bbframes s.fifos s.popped) ?_ ⟨linked, h⟩).2
  rintro s s' ⟨linked, packed⟩ move
  exact ⟨move.linked linked, move.packed safe linked packed⟩

end Moves

/-! ### Arrivals -/

/-- The FIFOs with what arrived on them. -/
structure Arrivals where
  fifos : List (DvbFifo NetPacket)
  arrived : Nat → List (FifoElement NetPacket)

/-- A packet pushed in a FIFO, which drops it when it is full. -/
def Arrivals.push (state : Arrivals) (arrival : Nat × FifoElement NetPacket) : Option Arrivals :=
  match state.fifos[arrival.1]? with
  | none => some state
  | some fifo =>
      (fifo.push arrival.2).map fun (pushed, fifo) =>
        { fifos := state.fifos.set arrival.1 fifo
          arrived := if pushed then
              Function.update state.arrived arrival.1 (state.arrived arrival.1 ++ [arrival.2])
            else state.arrived }

theorem push_queue {fifo fifo' : DvbFifo NetPacket} {elem : FifoElement NetPacket} {pushed : Bool}
    (h : fifo.push elem = some (pushed, fifo')) :
    fifo'.queue = fifo.queue ++ if pushed then [elem] else [] := by
  obtain ⟨total, -, eq⟩ := Option.map_eq_some_iff.mp h
  dsimp only at eq
  split at eq
  · cases eq
    rfl
  · cases eq
    exact (List.append_nil _).symm

theorem Packed.push {link : S2Link} {bbframes : BBFrames} {record : List Popped}
    {state state' : Arrivals} {arrival : Nat × FifoElement NetPacket}
    (h : Packed link state.arrived bbframes state.fifos record)
    (pushed : state.push arrival = some state') :
    Packed link state'.arrived bbframes state'.fifos record := by
  unfold Arrivals.push at pushed
  cases fifoAt : state.fifos[arrival.1]? with
  | none =>
      rw [fifoAt] at pushed
      cases pushed
      exact h
  | some fifo =>
      rw [fifoAt] at pushed
      obtain ⟨⟨accepted, fifo'⟩, called, rfl⟩ := Option.map_eq_some_iff.mp pushed
      refine ⟨?_, h.framed, fun popped mem => by
        rw [List.length_set]; exact h.explained popped mem⟩
      intro k left leftAt
      by_cases same : arrival.1 = k
      · subst same
        rw [List.getElem?_set_self (List.getElem?_eq_some_iff.mp fifoAt).1] at leftAt
        cases leftAt
        have arrives := (h.drained arrival.1 fifo fifoAt).arrive
          (if accepted then [arrival.2] else [])
        rw [← push_queue called] at arrives
        cases accepted with
        | true => simpa using arrives
        | false => simpa using arrives
      · rw [List.getElem?_set_ne same] at leftAt
        have before := h.drained k left leftAt
        cases accepted with
        | true => simpa [Function.update_of_ne (Ne.symm same)] using before
        | false => exact before

theorem Packed.pushes {link : S2Link} {bbframes : BBFrames} {record : List Popped}
    {arrivals : List (Nat × FifoElement NetPacket)} {state state' : Arrivals}
    (h : Packed link state.arrived bbframes state.fifos record)
    (pushed : arrivals.foldlM Arrivals.push state = some state') :
    Packed link state'.arrived bbframes state'.fifos record := by
  induction arrivals generalizing state with
  | nil =>
      cases pushed
      exact h
  | cons arrival arrivals ih =>
      rw [List.foldlM_cons] at pushed
      obtain ⟨mid, first, rest⟩ := Option.bind_eq_some_iff.mp pushed
      exact ih (h.push first) rest

/-- At the beginning everything that arrived is in the FIFOs. -/
theorem Packed.initial (link : S2Link) (fifos : List (DvbFifo NetPacket)) :
    Packed link (queueAt fifos) BBFrames.empty fifos [] where
  drained := by
    intro k fifo fifoAt
    rw [queueAt, fifoAt]
    exact .nil _
  framed := by
    intro f lt
    exact absurd lt (Nat.not_lt_zero f)
  explained := by
    intro popped mem
    exact absurd mem List.not_mem_nil

/-! ### Conserved amounts -/

section Payload

variable {M : Type*} [AddCommMonoid M] (payload : NetPacket → M)

/-- An amount that is shared between the two parts of an encapsulation. -/
def EncapPacketHandler.Conserves (handler : EncapPacketHandler) : Prop :=
  ∀ before packet freeSpace isNew data remaining,
    handler.encapNextPacket before packet freeSpace isNew = some (data, remaining) →
      payload packet = data.elim 0 payload + remaining.elim 0 payload

/-- Fragments share the bytes of a packet. -/
theorem EncapPacketHandler.fragmenting_conserves :
    fragmenting.Conserves fun packet => (packet.data : Multiset UInt8) := by
  intro before packet freeSpace isNew data remaining encap
  unfold fragmenting at encap
  dsimp only at encap
  split at encap
  · cases encap
    simp
  · cases encap
    simp only [Option.elim_some, Multiset.coe_add, List.take_append_drop]

def queuePayload (queue : List (FifoElement NetPacket)) : M :=
  (queue.map fun elem => elem.elem.elim 0 payload).sum

namespace Popped

def skippedPayload (popped : Popped) : M :=
  match popped.outcome with
  | .skipped => popped.elem.elem.elim 0 payload
  | .framed .. => 0

def framedPayload (popped : Popped) : M :=
  match popped.outcome with
  | .skipped => 0
  | .framed _ data _ => data.elim 0 payload

end Popped

variable {payload} {link : S2Link} {bbframes : BBFrames}

/-- A packet is shared between the frame and the head of the FIFO, or skipped. -/
theorem Popped.Explained.payload_eq {popped : Popped} (h : popped.Explained link bbframes)
    (conserves : link.handler.Conserves payload) :
    popped.elem.elem.elim 0 payload =
      queuePayload payload popped.back +
        (popped.skippedPayload payload + popped.framedPayload payload) := by
  obtain ⟨packet, elem, why⟩ := h
  unfold Popped.back Popped.skippedPayload Popped.framedPayload queuePayload
  cases outcome : popped.outcome with
  | skipped => simp
  | framed f data remaining =>
      rw [outcome] at why
      obtain ⟨-, -, before, freeSpace, isNew, encap⟩ := why
      rw [elem, Option.elim_some, conserves before packet freeSpace isNew data remaining encap]
      cases remaining with
      | none => simp
      | some rest => simp [FifoElement.setElem, add_comm]

theorem Drains.payload_eq {arrived queue : List (FifoElement NetPacket)} {record : List Popped}
    (h : Drains arrived record queue) (conserves : link.handler.Conserves payload)
    (explained : ∀ popped ∈ record, popped.Explained link bbframes) :
    queuePayload payload arrived = queuePayload payload queue +
      (record.map fun popped =>
        popped.skippedPayload payload + popped.framedPayload payload).sum := by
  induction h with
  | nil => simp
  | @cons popped rest queue record _ ih =>
      have later := ih fun popped mem => explained popped (List.mem_cons_of_mem _ mem)
      have first := (explained popped List.mem_cons_self).payload_eq conserves
      simp only [queuePayload, List.map_append, List.sum_append, List.map_cons, List.sum_cons]
        at later first ⊢
      rw [first, add_right_comm, later, add_assoc]
      exact congrArg _ (add_comm _ _)

/-- Sums over a list of what each element gives to each index. -/
theorem sum_range_sum_map {α : Type*} (l : List α) (g : α → Nat → M) (n : Nat) :
    ∑ k ∈ Finset.range n, (l.map fun a => g a k).sum =
      (l.map fun a => ∑ k ∈ Finset.range n, g a k).sum := by
  induction l with
  | nil => simp
  | cons a l ih => simp [Finset.sum_add_distrib, ih]

/-- What the records of all FIFOs add up to. -/
theorem sum_range_filter_fifo {record : List Popped} {n : Nat} (g : Popped → M)
    (bound : ∀ popped ∈ record, popped.fifo < n) :
    ∑ k ∈ Finset.range n, ((record.filter (·.fifo = k)).map g).sum = (record.map g).sum := by
  have split : ∀ k, ((record.filter (·.fifo = k)).map g).sum =
      (record.map fun popped => if popped.fifo = k then g popped else 0).sum := by
    intro k
    induction record with
    | nil => rfl
    | cons popped record ih =>
        have later := ih fun popped mem => bound popped (List.mem_cons_of_mem _ mem)
        by_cases same : popped.fifo = k
        · simp [same, later]
        · simp [same, later]
  simp only [split, sum_range_sum_map]
  refine congrArg List.sum (List.map_congr_left fun popped mem => ?_)
  rw [Finset.sum_ite_eq, if_pos (Finset.mem_range.mpr (bound popped mem))]

/-- What the frames hold is what the records put in them. -/
theorem sum_range_dataIn {record : List Popped} {n : Nat}
    (bound : ∀ popped ∈ record, ∀ f data remaining,
      popped.outcome = .framed f data remaining → f < n) :
    ∑ f ∈ Finset.range n, ((record.filterMap (Popped.dataIn f)).map payload).sum =
      (record.map (Popped.framedPayload payload)).sum := by
  have split : ∀ f, ((record.filterMap (Popped.dataIn f)).map payload).sum =
      (record.map fun popped => (popped.dataIn f).elim 0 payload).sum := by
    intro f
    induction record with
    | nil => rfl
    | cons popped record ih =>
        have later := ih fun popped mem => bound popped (List.mem_cons_of_mem _ mem)
        cases data : popped.dataIn f with
        | none => simp [data, later]
        | some packet => simp [data, later]
  simp only [split, sum_range_sum_map]
  refine congrArg List.sum (List.map_congr_left fun popped mem => ?_)
  unfold Popped.framedPayload Popped.dataIn
  cases outcome : popped.outcome with
  | skipped => simp
  | framed g data remaining =>
      have lt := bound popped mem g data remaining outcome
      dsimp only
      rw [Finset.sum_eq_single g]
      · rw [if_pos rfl]
      · intro f _ ne
        rw [if_neg (Ne.symm ne)]
        rfl
      · intro notMem
        exact absurd (Finset.mem_range.mpr lt) notMem

/-- **Conservation.** What arrived on the FIFOs is in the FIFOs, in the frames, or was
skipped for want of a MODCOD. -/
theorem Packed.payload_eq {arrived : Nat → List (FifoElement NetPacket)}
    {fifos : List (DvbFifo NetPacket)} {record : List Popped}
    (h : Packed link arrived bbframes fifos record)
    (conserves : link.handler.Conserves payload) :
    ∑ k ∈ Finset.range fifos.length, queuePayload payload (arrived k) =
      ∑ k ∈ Finset.range fifos.length, queuePayload payload (queueAt fifos k) +
        ((record.map (Popped.skippedPayload payload)).sum +
          ∑ f ∈ Finset.range bbframes.allocated,
            ((bbframes.frame f).packets.map payload).sum) := by
  have fifo : ∀ k ∈ Finset.range fifos.length, queuePayload payload (arrived k) =
      queuePayload payload (queueAt fifos k) + ((record.filter (·.fifo = k)).map fun popped =>
        popped.skippedPayload payload + popped.framedPayload payload).sum := by
    intro k mem
    have at_ := List.getElem?_eq_getElem (Finset.mem_range.mp mem)
    rw [queueAt, at_]
    exact (h.drained k _ at_).payload_eq conserves
      fun popped mem => (h.explained popped (List.mem_filter.mp mem).1).2
  have frames : ∀ f ∈ Finset.range bbframes.allocated,
      ((bbframes.frame f).packets.map payload).sum =
        ((record.filterMap (Popped.dataIn f)).map payload).sum := by
    intro f mem
    rw [h.framed f (Finset.mem_range.mp mem)]
  rw [Finset.sum_congr rfl fifo, Finset.sum_add_distrib,
    sum_range_filter_fifo _ fun popped mem => (h.explained popped mem).1, List.sum_map_add,
    Finset.sum_congr rfl frames, sum_range_dataIn]
  intro popped mem f data remaining outcome
  obtain ⟨-, packet, -, why⟩ := h.explained popped mem
  rw [outcome] at why
  exact why.1

end Payload

end OpenSand
