import OpenSand.Sched.LoopMoves

/-!
When the loops of the S2 schedulers report no error.

An error comes from a MODCOD that has no definition, from a packet without MODCOD or from
data that is too long for the space left. It follows from the definitions of the MODCODs
that are selected and from a handler that respects the space it is given that there is
none.
-/

namespace OpenSand

/-- The data fits in the space left. -/
def EncapPacketHandler.Fits (handler : EncapPacketHandler) : Prop :=
  ∀ before packet freeSpace isNew data remaining,
    handler.encapNextPacket before packet freeSpace isNew = some (some data, remaining) →
      NetContainer.getTotalLength data ≤ freeSpace

theorem EncapPacketHandler.fragmenting_fits : fragmenting.Fits := by
  intro before packet freeSpace isNew data remaining encap
  unfold fragmenting at encap
  dsimp only at encap
  split at encap
  next fits =>
    cases encap
    exact fits
  next longer =>
    cases encap
    show (packet.data.take freeSpace).length ≤ freeSpace
    exact List.length_take_le _ _

/-- The MODCOD has a definition. -/
def FmtDefinitionTable.Knows (table : FmtDefinitionTable) (modcodId : UInt8) : Prop :=
  (table.getDefinition modcodId).isSome

theorem BBFrames.sizeSym_isSome_iff {table : FmtDefinitionTable} {bbframes : BBFrames} {f : Nat} :
    (bbframes.sizeSym table f).isSome ↔ table.Knows (bbframes.modcod f) := by
  rw [BBFrames.sizeSym, getBBFrameSizeSym, Option.isSome_map]
  rfl

/-- The MODCODs of the incomplete frames have definitions. -/
def BBFrames.Opened (table : FmtDefinitionTable) (bbframes : BBFrames) : Prop :=
  ∀ f ∈ bbframes.incompleteOrdered, table.Knows (bbframes.modcod f)

section Moves

variable {link : S2Link} {call : SchedCall} {position : Nat × Nat} {licence : Licence}
  {s s' : Serving} {k : Nat}

theorem Move.opened (suitable : ∀ modcodId, licence.serves modcodId → link.modcodDef.Knows modcodId)
    (linked : s.bbframes.Linked link.modcodDef) (h : s.bbframes.Opened link.modcodDef)
    (move : Move link position licence s s') : s'.bbframes.Opened link.modcodDef := by
  cases move with
  | create fresh serves =>
      intro f mem
      rw [BBFrames.createIncompleteBBFrame_modcod]
      rcases List.mem_append.mp mem with old | new
      · rw [if_neg (Nat.ne_of_lt (linked.incomplete_lt old))]
        exact h f old
      · rw [if_pos (List.mem_singleton.mp new)]
        exact suitable _ serves
  | encap _ _ _ _ _ _ _ _ added =>
      intro f mem
      rw [BBFrames.addData_modcod added]
      rw [BBFrames.addData_eq added] at mem
      exact h f mem
  | complete => exact fun f mem => h f (List.mem_filter.mp mem).1
  | pend => exact fun f mem => h f (List.mem_filter.mp mem).1
  | skip => exact h
  | lose => exact h
  | resume => exact h
  | forget => exact h
  | capacity => exact h
  | carriers => exact h

theorem Evolves.opened
    (suitable : ∀ modcodId, licence.serves modcodId → link.modcodDef.Knows modcodId)
    (linked : s.bbframes.Linked link.modcodDef) (h : s.bbframes.Opened link.modcodDef)
    (evolves : Evolves link position licence s s') : s'.bbframes.Opened link.modcodDef := by
  refine (evolves.keeps (P := fun s => s.bbframes.Linked link.modcodDef ∧
    s.bbframes.Opened link.modcodDef) ?_ ⟨linked, h⟩).2
  rintro s s' ⟨linked, opened⟩ move
  exact ⟨move.linked linked, move.opened suitable linked opened⟩

/-! ### The packet loop -/

theorem closeFrame_ok {f : Nat} (known : link.modcodDef.Knows (s.bbframes.modcod f)) :
    (s.closeFrame link call position f).1 ≠ .failed := by
  have size := BBFrames.sizeSym_isSome_iff.mpr known
  unfold Serving.closeFrame
  rcases s.bbframes.addCompleteBBFrame_cases link.modcodDef position f s.capacitySym with
    ⟨none, _⟩ | ⟨sizeSym, _, ⟨_, eq⟩ | ⟨_, eq⟩⟩
  · rw [none] at size
    cases size
  · rw [eq]
    exact nofun
  · rw [eq]
    exact nofun

/-- Data that fits in the space left is added. -/
theorem addData_isSome {bbframes : BBFrames} {f : Nat} {data : Option NetPacket}
    (fits : ∀ packet, data = some packet →
      NetContainer.getTotalLength packet ≤ (bbframes.frame f).getFreeSpace) :
    (bbframes.addData f data).isSome := by
  cases data with
  | none => rfl
  | some packet =>
      rw [BBFrames.addData, BBFrames.addPacket, Option.isSome_map, BBFrame.addPacket,
        if_neg (Nat.not_lt_of_le (fits packet rfl))]
      rfl

theorem encapsulate_ok {fifo : DvbFifo NetPacket} {elem : FifoElement NetPacket}
    {packet : NetPacket} {modcodId : UInt8} {status : LoopStatus} (fits : link.handler.Fits)
    (linked : s.bbframes.Linked link.modcodDef) (known : link.modcodDef.Knows modcodId)
    (h : s.encapsulate link call position k fifo elem packet modcodId = some (status, s')) :
    status ≠ .failed := by
  unfold Serving.encapsulate at h
  obtain ⟨created, found⟩ := @getIncompleteBBFrame_evolves link position ⟨fun _ => True, True, False,
    False⟩ s modcodId trivial
  revert h created found
  generalize s.bbframes.getIncompleteBBFrame link.modcodDef modcodId = opened
  obtain ⟨f, bbframes⟩ := opened
  intro h created found
  dsimp only at h created found
  obtain ⟨⟨data, remaining⟩, encap, h⟩ := Option.bind_eq_some_iff.mp h
  dsimp only at h
  split at h
  · cases h
  · split at h
    next rejected =>
      have accepted : (bbframes.addData f data).isSome := addData_isSome fun packet' held => by
        subst held
        exact fits _ _ _ _ _ _ encap
      rw [rejected] at accepted
      cases accepted
    next bbframes' added =>
      obtain ⟨fifo', -, h⟩ := Option.map_eq_some_iff.mp h
      split at h
      · have own : bbframes'.modcod f = modcodId := by
          rw [BBFrames.addData_modcod added]
          exact (((created.linked linked).mirrored modcodId f).mp found).2
        have closed : (Serving.closeFrame link call position _ f).1 = status :=
          congrArg Prod.fst h
        rw [← closed]
        refine closeFrame_ok ?_
        dsimp only [Serving.record, Serving.setFifo]
        rw [own]
        exact known
      · cases h
        exact nofun

theorem packetStep_ok {fifo : DvbFifo NetPacket} {status : LoopStatus} (fits : link.handler.Fits)
    (linked : s.bbframes.Linked link.modcodDef)
    (selects : ∀ packet, ∃ modcodId,
      link.select call.sts s.carriers.fmtGroup packet = .modcod modcodId ∧
        link.modcodDef.Knows modcodId)
    (h : s.packetStep link call position k fifo = some (status, s')) : status ≠ .failed := by
  obtain ⟨⟨popped, fifo'⟩, hpop, h⟩ := Option.bind_eq_some_iff.mp h
  obtain ⟨elem, rfl, h⟩ := Option.bind_eq_some_iff.mp h
  dsimp only [FifoElement.getElem, Option.bind_some] at h
  cases held : elem.elem with
  | none => exact absurd (pop_elem hpop) (by simp [held])
  | some packet =>
      obtain ⟨modcodId, selected, known⟩ := selects packet
      rw [held] at h
      dsimp only at h
      rw [selected] at h
      exact encapsulate_ok fits linked known h

/-- The loop over the packets of a FIFO reports no error. -/
theorem packetLoop_ok {fuel : Nat} {ok : Bool} (fits : link.handler.Fits)
    (linked : s.bbframes.Linked link.modcodDef)
    (selects : ∀ packet, ∃ modcodId,
      link.select call.sts s.carriers.fmtGroup packet = .modcod modcodId ∧
        link.modcodDef.Knows modcodId)
    (h : s.packetLoop link call position k fuel = some (ok, s')) : ok = true := by
  induction fuel generalizing s with
  | zero => cases h
  | succ fuel ih =>
      obtain ⟨fifo, fifoAt, h⟩ := Option.bind_eq_some_iff.mp h
      split at h
      · cases h
        rfl
      · obtain ⟨⟨status, mid⟩, hstep, h⟩ := Option.bind_eq_some_iff.mp h
        have fine := packetStep_ok fits linked selects hstep
        have first := @packetStep_evolves link call position ⟨fun _ => True, True, False, False⟩ s
          mid k fifo status linked fifoAt (fun _ _ _ => trivial) (fun _ => trivial) hstep
        cases status with
        | again =>
            refine ih (first.linked linked) ?_ h
            rw [first.sameGroup.fmtGroup]
            exact selects
        | finished =>
            cases h
            rfl
        | failed => exact absurd rfl fine

/-! ### The incomplete frames -/

theorem flushIncomplete_ok {table : FmtDefinitionTable} {frames : List Nat} {bbframes : BBFrames}
    {capacitySym : Nat} (known : ∀ f ∈ frames, table.Knows (bbframes.modcod f)) :
    (flushIncomplete table position frames bbframes capacitySym).1 ≠ .error := by
  induction frames generalizing bbframes capacitySym with
  | nil => simp [flushIncomplete]
  | cons f rest ih =>
      rw [flushIncomplete]
      by_cases exhausted : capacitySym = 0
      · rw [if_pos exhausted]
        simp
      · rw [if_neg exhausted]
        have size := BBFrames.sizeSym_isSome_iff.mpr (known f List.mem_cons_self)
        rcases bbframes.addCompleteBBFrame_cases table position f capacitySym with
          ⟨none, _⟩ | ⟨sizeSym, _, ⟨_, eq⟩ | ⟨_, eq⟩⟩
        · rw [none] at size
          cases size
        · rw [eq]
          simp
        · rw [eq]
          exact ih fun g mem => known g (List.mem_cons_of_mem _ mem)

end Moves

end OpenSand
