import OpenSand.Sched.PacketLoop
import Mathlib.Data.List.Perm.Basic
import Mathlib.Logic.Relation

/-!
What the loops of the S2 schedulers do, as moves of frames and packets.

`Filed` says that the containers are consistent. From a state where they are, every
part of a scheduling is a sequence of moves (`Evolves`), and a move keeps them so;
the other invariants are then proved once for each move.
-/

namespace OpenSand

open OpenSand.Word Std

/-! ### Consistent containers -/

/-- Every frame is in one container, the map and the list of incomplete frames agree,
and the size of the pending frames is known. -/
structure BBFrames.Filed (table : FmtDefinitionTable) (bbframes : BBFrames) : Prop where
  placed : (bbframes.complete.map (·.frame) ++ bbframes.pending ++
    bbframes.incompleteOrdered).Perm (List.range bbframes.allocated)
  mirrored : ∀ modcodId f, bbframes.incomplete[modcodId]? = some f ↔
    f ∈ bbframes.incompleteOrdered ∧ bbframes.modcod f = modcodId
  known : ∀ f ∈ bbframes.pending, (bbframes.sizeSym table f).isSome

/-- What is left of it when pending frames are forgotten. -/
structure BBFrames.Linked (table : FmtDefinitionTable) (bbframes : BBFrames) : Prop where
  mirrored : ∀ modcodId f, bbframes.incomplete[modcodId]? = some f ↔
    f ∈ bbframes.incompleteOrdered ∧ bbframes.modcod f = modcodId
  known : ∀ f ∈ bbframes.pending, (bbframes.sizeSym table f).isSome
  nodup : bbframes.incompleteOrdered.Nodup
  bound : ∀ f ∈ bbframes.incompleteOrdered ++ bbframes.pending, f < bbframes.allocated

theorem BBFrames.Filed.lt_of_mem {table : FmtDefinitionTable} {bbframes : BBFrames} {f : Nat}
    (h : bbframes.Filed table) (mem : f ∈ bbframes.complete.map (·.frame) ++ bbframes.pending ++
      bbframes.incompleteOrdered) : f < bbframes.allocated :=
  List.mem_range.mp (h.placed.mem_iff.mp mem)

theorem BBFrames.Filed.linked {table : FmtDefinitionTable} {bbframes : BBFrames}
    (h : bbframes.Filed table) : bbframes.Linked table where
  mirrored := h.mirrored
  known := h.known
  nodup := (List.nodup_append.mp (h.placed.nodup_iff.mpr List.nodup_range)).2.1
  bound f mem := by
    rcases List.mem_append.mp mem with incomplete | pending
    · exact h.lt_of_mem (List.mem_append_right _ incomplete)
    · exact h.lt_of_mem (List.mem_append_left _ (List.mem_append_right _ pending))

theorem BBFrames.Linked.incomplete_lt {table : FmtDefinitionTable} {bbframes : BBFrames} {f : Nat}
    (h : bbframes.Linked table) (mem : f ∈ bbframes.incompleteOrdered) : f < bbframes.allocated :=
  h.bound f (List.mem_append_left _ mem)

theorem BBFrames.empty_filed (table : FmtDefinitionTable) : BBFrames.empty.Filed table where
  placed := List.Perm.refl _
  mirrored := by
    intro modcodId f
    simp [BBFrames.empty]
  known := by
    intro f mem
    exact absurd mem List.not_mem_nil

/-! ### Moves -/

/-- What an outcome leaves at the head of the FIFO. -/
def Popped.back (popped : Popped) : List (FifoElement NetPacket) :=
  match popped.outcome with
  | .framed _ _ (some packet) => [popped.elem.setElem packet]
  | _ => []

/-- Carriers whose capacities may differ. -/
structure CarriersGroupDama.SameGroup (carriers carriers' : CarriersGroupDama) : Prop where
  carriersId : carriers'.carriersId = carriers.carriersId
  fmtGroup : carriers'.fmtGroup = carriers.fmtGroup
  capacitySym : carriers'.capacitySym = carriers.capacitySym
  carriersNumber : carriers'.carriersNumber = carriers.carriersNumber

/-- What a part of a scheduling may do: the MODCODs of the frames it opens and completes,
whether a packet may be lost, whether the capacity may be read again and whether a
pending frame may be forgotten. -/
structure Licence where
  serves : UInt8 → Prop
  lose : Prop
  refill : Prop
  forget : Prop

/-- A move of a frame or of a packet. -/
inductive Move (link : S2Link) (position : Nat × Nat) (licence : Licence) :
    Serving → Serving → Prop where
  | create {s : Serving} {modcodId : UInt8}
      (fresh : s.bbframes.incomplete[modcodId]? = none) (suitable : licence.serves modcodId) :
      Move link position licence s
        { s with bbframes := s.bbframes.createIncompleteBBFrame link.modcodDef modcodId }
  | skip {s : Serving} {popped : Popped} {fifo fifo' : DvbFifo NetPacket} {packet : NetPacket}
      (fifoAt : s.fifos[popped.fifo]? = some fifo) (queue : fifo.queue = popped.elem :: fifo'.queue)
      (outcome : popped.outcome = .skipped) (elem : popped.elem.elem = some packet)
      (selected : link.select popped.sts popped.fmtGroup packet = .skipped) :
      Move link position licence s
        { s with fifos := s.fifos.set popped.fifo fifo', popped := s.popped ++ [popped] }
  | encap {s : Serving} {popped : Popped} {fifo fifo' : DvbFifo NetPacket} {packet : NetPacket}
      {rest : List (FifoElement NetPacket)} {f freeSpace : Nat} {isNew : Bool}
      {data remaining : Option NetPacket} {modcodId : UInt8} {bbframes : BBFrames}
      (fifoAt : s.fifos[popped.fifo]? = some fifo) (queue : fifo.queue = popped.elem :: rest)
      (back : fifo'.queue = popped.back ++ rest)
      (outcome : popped.outcome = .framed f data remaining)
      (elem : popped.elem.elem = some packet)
      (selected : link.select popped.sts popped.fmtGroup packet = .modcod modcodId)
      (found : s.bbframes.incomplete[modcodId]? = some f)
      (encap : link.handler.encapNextPacket s.popped packet freeSpace isNew =
        some (data, remaining))
      (added : s.bbframes.addData f data = some bbframes) :
      Move link position licence s
        { s with
          fifos := s.fifos.set popped.fifo fifo'
          popped := s.popped ++ [popped]
          bbframes := bbframes }
  | lose {s : Serving} {k : Nat} {fifo fifo' : DvbFifo NetPacket} {elem : FifoElement NetPacket}
      (allowed : licence.lose) (fifoAt : s.fifos[k]? = some fifo)
      (queue : fifo.queue = elem :: fifo'.queue) :
      Move link position licence s { s with fifos := s.fifos.set k fifo' }
  | complete {s : Serving} {f sizeSym : Nat} (mem : f ∈ s.bbframes.incompleteOrdered)
      (size : s.bbframes.sizeSym link.modcodDef f = some sizeSym)
      (enough : sizeSym ≤ s.capacitySym) (suitable : licence.serves (s.bbframes.modcod f)) :
      Move link position licence s
        { s with
          bbframes := { s.bbframes.removeIncomplete f with
            complete := s.bbframes.complete ++ [⟨f, position, sizeSym⟩] }
          capacitySym := s.capacitySym - sizeSym }
  | pend {s : Serving} {f : Nat} (mem : f ∈ s.bbframes.incompleteOrdered)
      (size : (s.bbframes.sizeSym link.modcodDef f).isSome) :
      Move link position licence s
        { s with bbframes := { s.bbframes.removeIncomplete f with
          pending := s.bbframes.pending ++ [f] } }
  | resume {s : Serving} {kept rest : List Nat} {f sizeSym : Nat}
      (pending : s.bbframes.pending = kept ++ f :: rest)
      (size : s.bbframes.sizeSym link.modcodDef f = some sizeSym)
      (enough : sizeSym ≤ s.capacitySym) (suitable : licence.serves (s.bbframes.modcod f)) :
      Move link position licence s
        { s with
          bbframes := { s.bbframes with
            pending := kept ++ rest
            complete := s.bbframes.complete ++ [⟨f, position, sizeSym⟩] }
          capacitySym := s.capacitySym - sizeSym }
  | forget {s : Serving} {kept rest : List Nat} {f : Nat} (allowed : licence.forget)
      (pending : s.bbframes.pending = kept ++ f :: rest) :
      Move link position licence s
        { s with bbframes := { s.bbframes with pending := kept ++ rest } }
  | capacity {s : Serving} {capacitySym : Nat}
      (allowed : licence.refill ∨ capacitySym ≤ s.capacitySym) :
      Move link position licence s { s with capacitySym := capacitySym }
  | carriers {s : Serving} {carriers : CarriersGroupDama}
      (same : s.carriers.SameGroup carriers) :
      Move link position licence s { s with carriers := carriers }

/-- A sequence of moves. -/
def Evolves (link : S2Link) (position : Nat × Nat) (licence : Licence) :
    Serving → Serving → Prop :=
  Relation.ReflTransGen (Move link position licence)

section Moves

variable {link : S2Link} {position : Nat × Nat} {licence : Licence} {s s' s'' : Serving}

theorem Evolves.refl (s : Serving) : Evolves link position licence s s :=
  Relation.ReflTransGen.refl

theorem Evolves.trans (h : Evolves link position licence s s')
    (h' : Evolves link position licence s' s'') : Evolves link position licence s s'' :=
  Relation.ReflTransGen.trans h h'

theorem Move.evolves (h : Move link position licence s s') : Evolves link position licence s s' :=
  .single h

/-- What every move keeps, a sequence of them keeps. -/
theorem Evolves.keeps {P : Serving → Prop}
    (keep : ∀ s s', P s → Move link position licence s s' → P s') (init : P s)
    (h : Evolves link position licence s s') : P s' := by
  induction h with
  | refl => exact init
  | tail _ move ih => exact keep _ _ ih move

/-! ### Moves keep the containers consistent -/

theorem BBFrames.sizeSym_of_frame {table : FmtDefinitionTable} {bbframes bbframes' : BBFrames}
    {f : Nat} (same : bbframes'.frame f = bbframes.frame f) :
    bbframes'.sizeSym table f = bbframes.sizeSym table f := by
  rw [BBFrames.sizeSym, BBFrames.sizeSym, BBFrames.modcod, BBFrames.modcod, same]

theorem BBFrames.createIncompleteBBFrame_modcod (bbframes : BBFrames)
    (table : FmtDefinitionTable) (modcodId : UInt8) (f : Nat) :
    (bbframes.createIncompleteBBFrame table modcodId).modcod f =
      if f = bbframes.allocated then modcodId else bbframes.modcod f := by
  unfold BBFrames.modcod BBFrames.createIncompleteBBFrame
  by_cases new : f = bbframes.allocated
  · simp [new]
  · simp [new]

theorem BBFrames.Linked.create {table : FmtDefinitionTable} {bbframes : BBFrames}
    (h : bbframes.Linked table) {modcodId : UInt8}
    (fresh : bbframes.incomplete[modcodId]? = none) :
    (bbframes.createIncompleteBBFrame table modcodId).Linked table where
  mirrored := by
    intro modcodId' f
    rw [BBFrames.createIncompleteBBFrame_modcod]
    have notNew : f ∈ bbframes.incompleteOrdered → f ≠ bbframes.allocated :=
      fun mem => Nat.ne_of_lt (h.incomplete_lt mem)
    have unused : ∀ f ∈ bbframes.incompleteOrdered, bbframes.modcod f ≠ modcodId := by
      intro f mem same
      rw [(h.mirrored modcodId f).mpr ⟨mem, same⟩] at fresh
      exact Option.some_ne_none f fresh
    have before := h.mirrored modcodId' f
    simp only [BBFrames.createIncompleteBBFrame, TreeMap.getElem?_insert, List.mem_append,
      List.mem_singleton, Std.compare_eq_iff_eq]
    grind
  known := by
    intro f mem
    have lt := h.bound f (List.mem_append_right _ mem)
    rw [@BBFrames.sizeSym_of_frame table bbframes]
    · exact h.known f mem
    · exact Function.update_of_ne (Nat.ne_of_lt lt) _ _
  nodup := by
    refine List.nodup_append.mpr ⟨h.nodup, List.pairwise_singleton _ _, ?_⟩
    intro f mem new isNew
    rw [List.mem_singleton.mp isNew]
    exact Nat.ne_of_lt (h.incomplete_lt mem)
  bound := by
    intro f mem
    rcases List.mem_append.mp mem with incomplete | pending
    · rcases List.mem_append.mp incomplete with old | new
      · exact Nat.lt_succ_of_lt (h.incomplete_lt old)
      · exact Nat.lt_succ_of_le (List.mem_singleton.mp new).le
    · exact Nat.lt_succ_of_lt (h.bound f (List.mem_append_right _ pending))

/-- Adding data to a frame only extends its packets. -/
theorem BBFrames.addData_eq {bbframes bbframes' : BBFrames} {f : Nat} {data : Option NetPacket}
    (h : bbframes.addData f data = some bbframes') :
    bbframes' = { bbframes with
      frame := Function.update bbframes.frame f { bbframes.frame f with
        packets := (bbframes.frame f).packets ++ data.toList } } := by
  cases data with
  | none =>
      cases h
      simp
  | some packet =>
      simp only [BBFrames.addData, BBFrames.addPacket, BBFrame.addPacket,
        Option.map_eq_some_iff] at h
      obtain ⟨frame, added, rfl⟩ := h
      split at added
      · cases added
      · cases added
        rfl

theorem BBFrames.addData_modcod {bbframes bbframes' : BBFrames} {f : Nat}
    {data : Option NetPacket} (h : bbframes.addData f data = some bbframes') (f' : Nat) :
    bbframes'.modcod f' = bbframes.modcod f' := by
  rw [BBFrames.addData_eq h, BBFrames.modcod, BBFrames.modcod]
  by_cases same : f' = f
  · simp [same]
  · simp [same]

theorem BBFrames.addData_sizeSym {table : FmtDefinitionTable} {bbframes bbframes' : BBFrames}
    {f : Nat} {data : Option NetPacket} (h : bbframes.addData f data = some bbframes') (f' : Nat) :
    bbframes'.sizeSym table f' = bbframes.sizeSym table f' := by
  rw [BBFrames.sizeSym, BBFrames.sizeSym, BBFrames.addData_modcod h, BBFrames.addData_eq h]
  by_cases same : f' = f
  · simp [same]
  · simp [same]

theorem BBFrames.Linked.addData {table : FmtDefinitionTable} {bbframes bbframes' : BBFrames}
    (h : bbframes.Linked table) {f : Nat} {data : Option NetPacket}
    (added : bbframes.addData f data = some bbframes') : bbframes'.Linked table where
  mirrored := by
    intro modcodId f'
    rw [BBFrames.addData_modcod added, BBFrames.addData_eq added]
    exact h.mirrored modcodId f'
  known := by
    intro f' mem
    rw [BBFrames.addData_eq added] at mem
    rw [BBFrames.addData_sizeSym added]
    exact h.known f' mem
  nodup := by
    rw [BBFrames.addData_eq added]
    exact h.nodup
  bound := by
    rw [BBFrames.addData_eq added]
    exact h.bound

/-- The other incomplete frames keep their places. -/
theorem BBFrames.Linked.mirrored_removed {table : FmtDefinitionTable} {bbframes : BBFrames}
    (h : bbframes.Linked table) {f : Nat} (mem : f ∈ bbframes.incompleteOrdered)
    (modcodId : UInt8) (f' : Nat) :
    (bbframes.removeIncomplete f).incomplete[modcodId]? = some f' ↔
      f' ∈ (bbframes.removeIncomplete f).incompleteOrdered ∧ bbframes.modcod f' = modcodId := by
  have entry : bbframes.incomplete[bbframes.modcod f]? = some f :=
    (h.mirrored _ f).mpr ⟨mem, rfl⟩
  simp only [BBFrames.removeIncomplete, TreeMap.getElem?_erase, Std.compare_eq_iff_eq,
    List.mem_filter, decide_eq_true_eq]
  by_cases own : bbframes.modcod f = modcodId
  · subst own
    simp only [if_pos]
    constructor
    · intro none
      exact absurd none.symm (Option.some_ne_none f')
    · rintro ⟨⟨mem', ne⟩, same⟩
      have entry' := (h.mirrored _ f').mpr ⟨mem', same⟩
      rw [entry] at entry'
      exact absurd (Option.some.inj entry').symm ne
  · rw [if_neg own, h.mirrored]
    constructor
    · rintro ⟨mem', same⟩
      refine ⟨⟨mem', ?_⟩, same⟩
      rintro rfl
      exact own same
    · rintro ⟨⟨mem', _⟩, same⟩
      exact ⟨mem', same⟩

/-- A frame that is no longer incomplete, and may be pending. -/
theorem BBFrames.Linked.remove {table : FmtDefinitionTable} {bbframes : BBFrames}
    (h : bbframes.Linked table) {f : Nat} (mem : f ∈ bbframes.incompleteOrdered)
    {pending : List Nat} (waits : ∀ g ∈ pending, g ∈ bbframes.pending ∨
      g = f ∧ (bbframes.sizeSym table f).isSome) (complete : List CompleteFrame) :
    BBFrames.Linked table { bbframes.removeIncomplete f with
      pending := pending
      complete := complete } where
  mirrored := h.mirrored_removed mem
  known := by
    intro g waiting
    rcases waits g waiting with before | ⟨rfl, size⟩
    · exact h.known g before
    · exact size
  nodup := h.nodup.filter _
  bound := by
    intro g among
    rcases List.mem_append.mp among with incomplete | waiting
    · exact h.incomplete_lt (List.mem_filter.mp incomplete).1
    · rcases waits g waiting with before | ⟨rfl, -⟩
      · exact h.bound g (List.mem_append_right _ before)
      · exact h.incomplete_lt mem

/-- A frame that is no longer pending. -/
theorem BBFrames.Linked.resume {table : FmtDefinitionTable} {bbframes : BBFrames}
    (h : bbframes.Linked table) {f : Nat} {kept rest : List Nat}
    (pending : bbframes.pending = kept ++ f :: rest) (complete : List CompleteFrame) :
    BBFrames.Linked table { bbframes with
      pending := kept ++ rest
      complete := complete } := by
  have among : ∀ g ∈ kept ++ rest, g ∈ bbframes.pending := by
    intro g mem
    rw [pending]
    rcases List.mem_append.mp mem with before | after
    · exact List.mem_append_left _ before
    · exact List.mem_append_right _ (List.mem_cons_of_mem _ after)
  refine ⟨h.mirrored, fun g mem => h.known g (among g mem), h.nodup, ?_⟩
  intro g mem
  rcases List.mem_append.mp mem with incomplete | waiting
  · exact h.incomplete_lt incomplete
  · exact h.bound g (List.mem_append_right _ (among g waiting))

theorem Move.linked (h : s.bbframes.Linked link.modcodDef)
    (move : Move link position licence s s') : s'.bbframes.Linked link.modcodDef := by
  cases move with
  | create fresh => exact h.create fresh
  | skip => exact h
  | encap _ _ _ _ _ _ _ _ added => exact h.addData added
  | lose => exact h
  | complete mem => exact h.remove mem (fun _ => .inl) _
  | pend mem size =>
      refine h.remove mem (fun g waiting => ?_) _
      exact (List.mem_append.mp waiting).imp_right fun new => ⟨List.mem_singleton.mp new, size⟩
  | resume pending => exact h.resume pending _
  | forget _ pending => exact h.resume pending _
  | capacity => exact h
  | carriers => exact h

theorem Evolves.linked (evolves : Evolves link position licence s s')
    (h : s.bbframes.Linked link.modcodDef) : s'.bbframes.Linked link.modcodDef :=
  evolves.keeps (fun _ _ => Move.linked) h

/-! ### Moves keep every frame in one container -/

theorem BBFrames.Linked.ordered_perm {table : FmtDefinitionTable} {bbframes : BBFrames}
    (h : bbframes.Linked table) {f : Nat} (mem : f ∈ bbframes.incompleteOrdered) :
    bbframes.incompleteOrdered.Perm
      (f :: (bbframes.removeIncomplete f).incompleteOrdered) := by
  have erased := List.perm_cons_erase mem
  have others : bbframes.incompleteOrdered.erase f =
      (bbframes.removeIncomplete f).incompleteOrdered := by
    rw [h.nodup.erase_eq_filter]
    apply List.filter_congr
    intro g _
    rw [Bool.eq_iff_iff, bne_iff_ne, decide_eq_true_eq]
  rw [others] at erased
  exact erased

theorem Move.filed (keeps : ¬ licence.forget) (h : s.bbframes.Filed link.modcodDef)
    (move : Move link position licence s s') : s'.bbframes.Filed link.modcodDef := by
  have linked := move.linked h.linked
  refine ⟨?_, linked.mirrored, linked.known⟩
  cases move with
  | create fresh =>
      rw [BBFrames.createIncompleteBBFrame, List.range_succ, ← List.append_assoc]
      exact h.placed.append_right _
  | encap _ _ _ _ _ _ _ _ added =>
      rw [BBFrames.addData_eq added]
      exact h.placed
  | complete mem =>
      refine List.Perm.trans ?_ h.placed
      apply List.perm_iff_count.mpr
      intro g
      have count := (h.linked.ordered_perm mem).count_eq g
      simp only [List.map_append, List.map_cons, List.map_nil, List.count_append, count,
        List.count_cons, List.count_nil, BBFrames.removeIncomplete]
      omega
  | pend mem =>
      refine List.Perm.trans ?_ h.placed
      apply List.perm_iff_count.mpr
      intro g
      have count := (h.linked.ordered_perm mem).count_eq g
      simp only [List.count_append, count, List.count_cons, List.count_nil,
        BBFrames.removeIncomplete]
      omega
  | resume pending =>
      refine List.Perm.trans ?_ h.placed
      apply List.perm_iff_count.mpr
      intro g
      simp only [pending, List.map_append, List.map_cons, List.map_nil, List.count_append,
        List.count_cons, List.count_nil]
      omega
  | forget allowed => exact absurd allowed keeps
  | skip => exact h.placed
  | lose => exact h.placed
  | capacity => exact h.placed
  | carriers => exact h.placed

theorem Evolves.filed (evolves : Evolves link position licence s s') (keeps : ¬ licence.forget)
    (h : s.bbframes.Filed link.modcodDef) : s'.bbframes.Filed link.modcodDef :=
  evolves.keeps (fun _ _ => Move.filed keeps) h

end Moves

end OpenSand
