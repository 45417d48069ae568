import OpenSand.Sched.Moves

/-!
The loops of the S2 schedulers are sequences of moves.

Each loop is read once here: from consistent containers it only makes the moves of
its licence. A loop that reports an error may lose the packet it has just taken.
-/

namespace OpenSand

open OpenSand.Word

/-- The three outcomes of `addCompleteBBFrame`. -/
theorem BBFrames.addCompleteBBFrame_cases (bbframes : BBFrames) (table : FmtDefinitionTable)
    (position : Nat × Nat) (f capacitySym : Nat) :
    (bbframes.sizeSym table f = none ∧
      bbframes.addCompleteBBFrame table position f capacitySym = (.error, bbframes, capacitySym)) ∨
    ∃ sizeSym, bbframes.sizeSym table f = some sizeSym ∧
      ((capacitySym < sizeSym ∧ bbframes.addCompleteBBFrame table position f capacitySym =
          (.full, bbframes, capacitySym)) ∨
        (sizeSym ≤ capacitySym ∧ bbframes.addCompleteBBFrame table position f capacitySym =
          (.ok, { bbframes with complete := bbframes.complete ++ [⟨f, position, sizeSym⟩] },
            capacitySym - sizeSym))) := by
  unfold BBFrames.addCompleteBBFrame
  cases size : bbframes.sizeSym table f with
  | none => exact .inl ⟨rfl, rfl⟩
  | some sizeSym =>
      refine .inr ⟨sizeSym, rfl, ?_⟩
      dsimp only
      by_cases less : capacitySym < sizeSym
      · exact .inl ⟨less, if_pos less⟩
      · exact .inr ⟨Nat.le_of_not_lt less, if_neg less⟩

theorem CarriersGroupDama.SameGroup.setPreviousCapacity (carriers : CarriersGroupDama)
    (previous superframe : Nat) :
    carriers.SameGroup (carriers.setPreviousCapacity previous superframe) :=
  ⟨rfl, rfl, rfl, rfl⟩

theorem CarriersGroupDama.SameGroup.setRemainingCapacity (carriers : CarriersGroupDama)
    (remaining : Nat) : carriers.SameGroup (carriers.setRemainingCapacity remaining) :=
  ⟨rfl, rfl, rfl, rfl⟩

theorem CarriersGroupDama.SameGroup.refl (carriers : CarriersGroupDama) :
    carriers.SameGroup carriers :=
  ⟨rfl, rfl, rfl, rfl⟩

theorem CarriersGroupDama.SameGroup.trans {first second third : CarriersGroupDama}
    (h : first.SameGroup second) (h' : second.SameGroup third) : first.SameGroup third where
  carriersId := h'.carriersId.trans h.carriersId
  fmtGroup := h'.fmtGroup.trans h.fmtGroup
  capacitySym := h'.capacitySym.trans h.capacitySym
  carriersNumber := h'.carriersNumber.trans h.carriersNumber

theorem CarriersGroupDama.SameGroup.getFmtIds {carriers carriers' : CarriersGroupDama}
    (h : carriers.SameGroup carriers') : carriers'.getFmtIds = carriers.getFmtIds := by
  rw [CarriersGroupDama.getFmtIds, CarriersGroupDama.getFmtIds, h.fmtGroup]

theorem Evolves.sameGroup {link : S2Link} {position : Nat × Nat} {licence : Licence}
    {s s' : Serving} (h : Evolves link position licence s s') :
    s.carriers.SameGroup s'.carriers := by
  refine h.keeps (P := fun s' => s.carriers.SameGroup s'.carriers) ?_ (.refl _)
  intro mid mid' same move
  cases move with
  | carriers same' => exact same.trans same'
  | _ => exact same

section Loops

variable {link : S2Link} {call : SchedCall} {position : Nat × Nat} {licence : Licence}
  {s s' : Serving} {k : Nat}

/-! ### The packet loop -/

theorem closeFrame_evolves {f : Nat} (mem : f ∈ s.bbframes.incompleteOrdered)
    (suitable : licence.serves (s.bbframes.modcod f)) :
    Evolves link position licence s (s.closeFrame link call position f).2 := by
  unfold Serving.closeFrame
  rcases s.bbframes.addCompleteBBFrame_cases link.modcodDef position f s.capacitySym with
    ⟨_, eq⟩ | ⟨sizeSym, size, ⟨_, eq⟩ | ⟨enough, eq⟩⟩
  · rw [eq]
    exact .refl s
  · rw [eq]
    have known : (s.bbframes.sizeSym link.modcodDef f).isSome := by
      rw [size]
      rfl
    refine (Move.pend mem known).evolves.trans ?_
    refine (Move.carriers (.setPreviousCapacity _ s.capacitySym
      (call.superframe + 1))).evolves.trans ?_
    exact (Move.capacity (.inr (link.capacityWhenFull_le _))).evolves
  · rw [eq]
    exact (Move.complete mem size enough suitable).evolves

/-- The frame found or created for a MODCOD is its incomplete frame. -/
theorem getIncompleteBBFrame_evolves {modcodId : UInt8} (suitable : licence.serves modcodId) :
    Evolves link position licence s
        { s with bbframes := (s.bbframes.getIncompleteBBFrame link.modcodDef modcodId).2 } ∧
      (s.bbframes.getIncompleteBBFrame link.modcodDef modcodId).2.incomplete[modcodId]? =
        some (s.bbframes.getIncompleteBBFrame link.modcodDef modcodId).1 := by
  unfold BBFrames.getIncompleteBBFrame
  cases found : s.bbframes.incomplete[modcodId]? with
  | some f => exact ⟨.refl s, found⟩
  | none =>
      refine ⟨(Move.create found suitable).evolves, ?_⟩
      simp [BBFrames.createIncompleteBBFrame]

/-- The FIFO after the reinsertion of the remaining data. -/
theorem reinsertPacket_queue {fifo fifo' : DvbFifo NetPacket} {popped : Popped}
    {f : Nat} {data remaining : Option NetPacket} (outcome : popped.outcome = .framed f data remaining)
    (room : fifo.queue.length < fifo.maxSizePkt)
    (h : reinsertPacket fifo popped.elem remaining = some fifo') :
    fifo'.queue = popped.back ++ fifo.queue := by
  cases remaining with
  | none =>
      cases h
      rw [Popped.back, outcome]
      rfl
  | some packet =>
      simp only [reinsertPacket, DvbFifo.pushFront, DvbFifo.reinsert, room, dite_true,
        Option.map_eq_some_iff] at h
      obtain ⟨_, ⟨total, _, rfl⟩, rfl⟩ := h
      rw [Popped.back, outcome]
      rfl

theorem pop_queue {fifo fifo' : DvbFifo NetPacket} {elem : FifoElement NetPacket}
    (h : fifo.pop = some (some elem, fifo')) :
    fifo.queue = elem :: fifo'.queue ∧ fifo'.queue.length < fifo'.maxSizePkt := by
  unfold DvbFifo.pop at h
  split at h
  · cases h
  · rename_i head rest queue
    obtain ⟨total, _, eq⟩ := Option.map_eq_some_iff.mp h
    cases eq
    refine ⟨queue, ?_⟩
    have le := fifo.queue_le
    rw [queue] at le
    exact le

/-- A FIFO is not survived when it has no packet in its head element. -/
theorem pop_elem {fifo fifo' : DvbFifo NetPacket} {elem : FifoElement NetPacket}
    (h : fifo.pop = some (some elem, fifo')) : elem.elem.isSome := by
  unfold DvbFifo.pop at h
  split at h
  · cases h
  · obtain ⟨total, length, eq⟩ := Option.map_eq_some_iff.mp h
    cases eq
    obtain ⟨packet, held, -⟩ := Option.map_eq_some_iff.mp length
    rw [held]
    rfl

theorem encapsulate_evolves {fifo fifo' : DvbFifo NetPacket} {elem : FifoElement NetPacket}
    {packet : NetPacket} {modcodId : UInt8} {status : LoopStatus}
    (linked : s.bbframes.Linked link.modcodDef)
    (fifoAt : s.fifos[k]? = some fifo) (queue : fifo.queue = elem :: fifo'.queue)
    (room : fifo'.queue.length < fifo'.maxSizePkt) (held : elem.elem = some packet)
    (selected : link.select call.sts s.carriers.fmtGroup packet = .modcod modcodId)
    (suitable : licence.serves modcodId) (lose : status = .failed → licence.lose)
    (h : s.encapsulate link call position k fifo' elem packet modcodId = some (status, s')) :
    Evolves link position licence s s' := by
  unfold Serving.encapsulate at h
  obtain ⟨created, found⟩ := @getIncompleteBBFrame_evolves link position licence s modcodId suitable
  revert h created found
  generalize s.bbframes.getIncompleteBBFrame link.modcodDef modcodId = opened
  obtain ⟨f, bbframes⟩ := opened
  intro h created found
  dsimp only at h created found
  have linked' := created.linked linked
  obtain ⟨⟨data, remaining⟩, encap, h⟩ := Option.bind_eq_some_iff.mp h
  dsimp only at h
  split at h
  · cases h
  · split at h
    · -- The data is too long for the frame: the packet is lost.
      cases h
      exact created.trans (Move.lose (s := { s with bbframes := bbframes }) (lose rfl) fifoAt
        queue).evolves
    · rename_i bbframes' added
      obtain ⟨fifo'', reinserted, h⟩ := Option.map_eq_some_iff.mp h
      have back : fifo''.queue = (⟨k, elem, call.sts, s.carriers.fmtGroup,
          .framed f data remaining⟩ : Popped).back ++ fifo'.queue :=
        reinsertPacket_queue rfl room reinserted
      have move : Move link position licence { s with bbframes := bbframes }
          { s with
            fifos := s.fifos.set k fifo''
            popped := s.popped ++
              [⟨k, elem, call.sts, s.carriers.fmtGroup, .framed f data remaining⟩]
            bbframes := bbframes' } :=
        .encap fifoAt queue back rfl held selected found encap added
      have taken := created.trans move.evolves
      split at h
      · have mem := (linked'.mirrored modcodId f).mp found
        have closed := (congrArg Prod.snd h).symm
        dsimp only at closed
        rw [closed]
        refine taken.trans (closeFrame_evolves ?_ ?_)
        · rw [BBFrames.addData_eq added]
          exact mem.1
        · rw [BBFrames.addData_modcod added]
          exact mem.2 ▸ suitable
      · cases h
        exact taken

theorem packetStep_evolves {fifo : DvbFifo NetPacket} {status : LoopStatus}
    (linked : s.bbframes.Linked link.modcodDef) (fifoAt : s.fifos[k]? = some fifo)
    (suitable : ∀ packet modcodId,
      link.select call.sts s.carriers.fmtGroup packet = .modcod modcodId → licence.serves modcodId)
    (lose : status = .failed → licence.lose)
    (h : s.packetStep link call position k fifo = some (status, s')) :
    Evolves link position licence s s' := by
  obtain ⟨⟨popped, fifo'⟩, hpop, h⟩ := Option.bind_eq_some_iff.mp h
  obtain ⟨elem, rfl, h⟩ := Option.bind_eq_some_iff.mp h
  obtain ⟨queue, room⟩ := pop_queue hpop
  dsimp only [FifoElement.getElem, Option.bind_some] at h
  cases held : elem.elem with
  | none =>
      rw [held] at h
      cases h
      exact (Move.lose (lose rfl) fifoAt queue).evolves
  | some packet =>
      rw [held] at h
      dsimp only at h
      cases selected : link.select call.sts s.carriers.fmtGroup packet with
      | failed =>
          rw [selected] at h
          cases h
          exact (Move.lose (lose rfl) fifoAt queue).evolves
      | skipped =>
          rw [selected] at h
          cases h
          exact (@Move.skip link position licence s
            ⟨k, elem, call.sts, s.carriers.fmtGroup, .skipped⟩ fifo fifo' packet fifoAt queue rfl
            held selected).evolves
      | modcod modcodId =>
          rw [selected] at h
          exact encapsulate_evolves linked fifoAt queue room held selected
            (suitable packet modcodId selected) lose h

/-- The loop over the packets of a FIFO, which loses none unless it reports an error. -/
theorem packetLoop_evolves {fuel : Nat} {ok : Bool} (linked : s.bbframes.Linked link.modcodDef)
    (suitable : ∀ packet modcodId,
      link.select call.sts s.carriers.fmtGroup packet = .modcod modcodId → licence.serves modcodId)
    (lose : ok = false → licence.lose)
    (h : s.packetLoop link call position k fuel = some (ok, s')) :
    Evolves link position licence s s' := by
  induction fuel generalizing s with
  | zero => cases h
  | succ fuel ih =>
      obtain ⟨fifo, fifoAt, h⟩ := Option.bind_eq_some_iff.mp h
      split at h
      · cases h
        exact .refl _
      · obtain ⟨⟨status, mid⟩, hstep, h⟩ := Option.bind_eq_some_iff.mp h
        have lose' : status = .failed → licence.lose := by
          rintro rfl
          cases h
          exact lose rfl
        have first := packetStep_evolves linked fifoAt suitable lose' hstep
        cases status with
        | again =>
            refine first.trans (ih (first.linked linked) ?_ h)
            rw [first.sameGroup.fmtGroup]
            exact suitable
        | finished =>
            cases h
            exact first
        | failed =>
            cases h
            exact first

/-! ### Pending frames -/

/-- The symbols that some frames take on carriers of given MODCODs. -/
def BBFrames.symbolsOf (bbframes : BBFrames) (table : FmtDefinitionTable)
    (supported : List UInt8) (frames : List Nat) : Nat :=
  ((frames.filter (bbframes.modcod · ∈ supported)).map
    fun f => (bbframes.sizeSym table f).getD 0).sum

/-- The pending frames that are not completed stay pending, provided that they are kept
when they do not fit, or that they all fit; otherwise some may be forgotten. -/
theorem schedulePendingFrom_evolves {keepFull : Bool} {supported : List UInt8}
    (suitable : ∀ modcodId ∈ supported, licence.serves modcodId) (kept frames : List Nat)
    (bbframes : BBFrames) (capacitySym : Nat)
    (known : ∀ f ∈ frames, (bbframes.sizeSym link.modcodDef f).isSome)
    (fits : keepFull = false → licence.forget ∨
      bbframes.symbolsOf link.modcodDef supported frames ≤ capacitySym) :
    Evolves link position licence
      { s with
        bbframes := { bbframes with pending := kept ++ frames }
        capacitySym := capacitySym }
      { s with
        bbframes := (schedulePendingFrom keepFull link.modcodDef position supported kept frames
          bbframes capacitySym).1
        capacitySym := (schedulePendingFrom keepFull link.modcodDef position supported kept frames
          bbframes capacitySym).2 } := by
  induction frames generalizing kept bbframes capacitySym with
  | nil =>
      rw [List.append_nil]
      exact .refl _
  | cons f rest ih =>
      have later : ∀ g ∈ rest, (bbframes.sizeSym link.modcodDef g).isSome :=
        fun g mem => known g (List.mem_cons_of_mem _ mem)
      rw [schedulePendingFrom]
      by_cases supports : bbframes.modcod f ∈ supported
      · rw [if_pos supports]
        rcases bbframes.addCompleteBBFrame_cases link.modcodDef position f capacitySym with
          ⟨none, _⟩ | ⟨sizeSym, size, ⟨less, eq⟩ | ⟨enough, eq⟩⟩
        · have size := known f List.mem_cons_self
          rw [none] at size
          cases size
        · rw [eq]
          cases keepFull with
          | true =>
              have next := ih (kept ++ [f]) bbframes capacitySym later nofun
              rw [List.append_assoc] at next
              exact next
          | false =>
              rcases fits rfl with allowed | sum
              · have forgotten : Move link position licence
                    { s with
                      bbframes := { bbframes with pending := kept ++ f :: rest }
                      capacitySym := capacitySym }
                    { s with
                      bbframes := { bbframes with pending := kept ++ rest }
                      capacitySym := capacitySym } := .forget allowed rfl
                exact forgotten.evolves.trans (ih kept bbframes capacitySym later
                  fun _ => .inl allowed)
              · simp only [BBFrames.symbolsOf, List.filter_cons, supports, decide_true, if_true,
                  List.map_cons, List.sum_cons, size, Option.getD_some] at sum
                omega
        · rw [eq]
          have resumed : Move link position licence
              { s with
                bbframes := { bbframes with pending := kept ++ f :: rest }
                capacitySym := capacitySym }
              { s with
                bbframes := { bbframes with
                  pending := kept ++ rest
                  complete := bbframes.complete ++ [⟨f, position, sizeSym⟩] }
                capacitySym := capacitySym - sizeSym } :=
            .resume rfl size enough (suitable _ supports)
          refine resumed.evolves.trans (ih kept { bbframes with
            complete := bbframes.complete ++ [⟨f, position, sizeSym⟩] } (capacitySym - sizeSym)
              later ?_)
          intro forget
          refine (fits forget).imp_right fun sum => ?_
          simp only [BBFrames.symbolsOf, List.filter_cons, supports, decide_true, if_true,
            List.map_cons, List.sum_cons, size, Option.getD_some] at sum
          have same : BBFrames.symbolsOf { bbframes with
              complete := bbframes.complete ++ [⟨f, position, sizeSym⟩] } link.modcodDef supported
                rest = bbframes.symbolsOf link.modcodDef supported rest := rfl
          rw [same, BBFrames.symbolsOf]
          omega
      · rw [if_neg supports]
        have next := ih (kept ++ [f]) bbframes capacitySym later (fun forget => ?_)
        · rw [List.append_assoc] at next
          exact next
        · refine (fits forget).imp_right fun sum => ?_
          simp only [BBFrames.symbolsOf, List.filter_cons, supports, decide_false,
            Bool.false_eq_true, if_false] at sum
          exact sum

/-! ### Incomplete frames -/

/-- The first frames that the capacity is enough for. -/
def flushable (size : Nat → Option Nat) : List Nat → Nat → List Nat
  | [], _ => []
  | f :: rest, capacitySym =>
      if capacitySym = 0 then []
      else
        match size f with
        | none => []
        | some sizeSym =>
            if capacitySym < sizeSym then []
            else f :: flushable size rest (capacitySym - sizeSym)

/-- The frames that the capacity is enough for are among those given. -/
theorem mem_of_mem_flushable {size : Nat → Option Nat} {frames : List Nat} {capacitySym f : Nat}
    (mem : f ∈ flushable size frames capacitySym) : f ∈ frames := by
  induction frames generalizing capacitySym with
  | nil => exact mem
  | cons g rest ih =>
      unfold flushable at mem
      split at mem
      · cases mem
      · split at mem
        · cases mem
        · split at mem
          · cases mem
          · rcases List.mem_cons.mp mem with rfl | later
            · exact List.mem_cons_self
            · exact List.mem_cons_of_mem _ (ih later)

/-- The frames after the first one is completed. -/
def BBFrames.completeFirst (bbframes : BBFrames) (position : Nat × Nat) (f : Nat)
    (rest : List Nat) (sizeSym : Nat) : BBFrames :=
  { bbframes with
    incomplete := bbframes.incomplete.erase (bbframes.modcod f)
    incompleteOrdered := rest
    complete := bbframes.complete ++ [⟨f, position, sizeSym⟩] }

/-- A turn of the loop that fills the capacity with the incomplete frames. -/
theorem flushIncomplete_cons (bbframes : BBFrames) (table : FmtDefinitionTable)
    (position : Nat × Nat) (f : Nat) (rest : List Nat) (capacitySym : Nat) :
    (flushable (bbframes.sizeSym table) (f :: rest) capacitySym = [] ∧
      ∃ status, flushIncomplete table position (f :: rest) bbframes capacitySym =
        (status, bbframes, capacitySym)) ∨
    ∃ sizeSym, bbframes.sizeSym table f = some sizeSym ∧ sizeSym ≤ capacitySym ∧
      flushable (bbframes.sizeSym table) (f :: rest) capacitySym =
        f :: flushable (bbframes.sizeSym table) rest (capacitySym - sizeSym) ∧
      flushIncomplete table position (f :: rest) bbframes capacitySym =
        flushIncomplete table position rest (bbframes.completeFirst position f rest sizeSym)
          (capacitySym - sizeSym) := by
  rw [flushable, flushIncomplete]
  by_cases exhausted : capacitySym = 0
  · rw [if_pos exhausted, if_pos exhausted]
    exact .inl ⟨rfl, .ok, rfl⟩
  · rw [if_neg exhausted, if_neg exhausted]
    rcases bbframes.addCompleteBBFrame_cases table position f capacitySym with
      ⟨none, eq⟩ | ⟨sizeSym, size, ⟨less, eq⟩ | ⟨enough, eq⟩⟩
    · rw [eq, none]
      exact .inl ⟨rfl, .error, rfl⟩
    · rw [eq, size]
      exact .inl ⟨if_pos less, .full, rfl⟩
    · rw [eq, size]
      exact .inr ⟨sizeSym, rfl, enough, if_neg (Nat.not_lt_of_le enough), rfl⟩

theorem flushIncomplete_evolves (frames : List Nat) (linked : s.bbframes.Linked link.modcodDef)
    (ordered : s.bbframes.incompleteOrdered = frames)
    (suitable : ∀ f ∈ flushable (s.bbframes.sizeSym link.modcodDef) frames s.capacitySym,
      licence.serves (s.bbframes.modcod f)) :
    Evolves link position licence s
      { s with
        bbframes := (flushIncomplete link.modcodDef position frames s.bbframes s.capacitySym).2.1
        capacitySym :=
          (flushIncomplete link.modcodDef position frames s.bbframes s.capacitySym).2.2 } := by
  induction frames generalizing s with
  | nil => exact .refl s
  | cons f rest ih =>
      rcases flushIncomplete_cons s.bbframes link.modcodDef position f rest s.capacitySym with
        ⟨_, status, stopped⟩ | ⟨sizeSym, size, enough, first, next⟩
      · rw [stopped]
        exact .refl s
      · rw [first] at suitable
        have nodup := linked.nodup
        rw [ordered, List.nodup_cons] at nodup
        have mem : f ∈ s.bbframes.incompleteOrdered := by
          rw [ordered]
          exact List.mem_cons_self
        have others : s.bbframes.incompleteOrdered.filter (· ≠ f) = rest := by
          rw [ordered, List.filter_cons_of_neg (by simp), List.filter_eq_self]
          intro g memRest
          rw [decide_eq_true_eq]
          rintro rfl
          exact nodup.1 memRest
        have completed : Move link position licence s
            { s with
              bbframes := s.bbframes.completeFirst position f rest sizeSym
              capacitySym := s.capacitySym - sizeSym } := by
          have move : Move link position licence s _ :=
            .complete mem size enough (suitable f List.mem_cons_self)
          rw [BBFrames.removeIncomplete, others] at move
          exact move
        rw [next]
        exact completed.evolves.trans (ih (completed.linked linked) rfl
          fun g memRest => suitable g (List.mem_cons_of_mem f memRest))

/-- The frames completed are the first ones that the capacity is enough for. -/
theorem flushIncomplete_complete (table : FmtDefinitionTable) (position : Nat × Nat)
    (frames : List Nat) (bbframes : BBFrames) (capacitySym : Nat) :
    ∃ completed : List CompleteFrame,
      (flushIncomplete table position frames bbframes capacitySym).2.1.complete =
        bbframes.complete ++ completed ∧
      completed.map (·.frame) = flushable (bbframes.sizeSym table) frames capacitySym ∧
      ∀ entry ∈ completed, entry.carriers = position := by
  induction frames generalizing bbframes capacitySym with
  | nil => exact ⟨[], (List.append_nil _).symm, rfl, nofun⟩
  | cons f rest ih =>
      rcases flushIncomplete_cons bbframes table position f rest capacitySym with
        ⟨first, status, stopped⟩ | ⟨sizeSym, _, _, first, next⟩
      · rw [stopped, first]
        exact ⟨[], (List.append_nil _).symm, rfl, nofun⟩
      · obtain ⟨completed, complete, frames, carriers⟩ := ih
          (bbframes.completeFirst position f rest sizeSym) (capacitySym - sizeSym)
        refine ⟨⟨f, position, sizeSym⟩ :: completed, ?_, ?_, ?_⟩
        · rw [next, complete]
          exact List.append_cons .. |>.symm
        · rw [first, List.map_cons, frames]
          rfl
        · intro entry mem
          rcases List.mem_cons.mp mem with rfl | later
          · rfl
          · exact carriers entry later

end Loops

end OpenSand
