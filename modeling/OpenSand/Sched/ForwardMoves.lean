import OpenSand.Sched.Forward
import OpenSand.Sched.LoopMoves

/-!
The forward scheduling as a sequence of moves.

The pending frames and the packet loop only complete frames whose MODCOD belongs to
the FMT group of the carriers. The incomplete frames that fill the capacity left are
not checked, so their MODCODs are a condition here.
-/

namespace OpenSand

open OpenSand.Word

/-- The MODCOD selected for a packet is one of the FMT group. -/
theorem ForwardSchedulingS2.select_mem {sts : StFmtSimuList} {fmtGroup : FmtGroup}
    {packet : NetPacket} {modcodId : UInt8}
    (h : ForwardSchedulingS2.select sts fmtGroup packet = .modcod modcodId) :
    modcodId ∈ fmtGroup.getFmtIds := by
  unfold ForwardSchedulingS2.select at h
  generalize (if packet.dstTalId = BROADCAST_TAL_ID then sts.getTalIdWithLowerModcod
    else packet.dstTalId) = talId at h
  dsimp only at h
  split at h
  · cases h
  · split at h
    · cases h
    · split at h
      · cases h
      · split at h
        · cases h
        · rename_i found
          cases h
          exact FmtGroup.getNearest_mem found

section Serving

variable {handler : EncapPacketHandler} {table : FmtDefinitionTable} {call : SchedCall}
  {position : Nat × Nat} {licence : Licence} {s s' : Serving} {fuel initCapa : Nat} {ok : Bool}

theorem forwardEncapPackets_evolves {k : Nat} (linked : s.bbframes.Linked table)
    (suitable : ∀ modcodId ∈ s.carriers.getFmtIds, licence.serves modcodId)
    (lose : ok = false → licence.lose)
    (h : s.forwardEncapPackets (ForwardSchedulingS2.link handler table) call position fuel
      initCapa k = some (ok, s')) :
    Evolves (ForwardSchedulingS2.link handler table) position licence s s' := by
  obtain ⟨fifo, -, h⟩ := Option.bind_eq_some_iff.mp h
  split at h
  · cases h
    exact .refl s
  · have pending := @schedulePendingFrom_evolves (ForwardSchedulingS2.link handler table) position
      licence s true _ suitable [] s.bbframes.pending s.bbframes s.capacitySym linked.known nofun
    revert h pending
    generalize schedulePendingFrom true (ForwardSchedulingS2.link handler table).modcodDef position
      s.carriers.getFmtIds [] s.bbframes.pending s.bbframes s.capacitySym = left
    obtain ⟨bbframes, capacitySym⟩ := left
    intro h pending
    dsimp only at h pending
    have limited : (if bbframes.incomplete.isEmpty then min initCapa capacitySym
        else capacitySym) ≤ capacitySym := by
      split
      · exact min_le_right _ _
      · exact le_rfl
    have started := pending.trans (Move.capacity (.inr limited)).evolves
    split at h
    · cases h
      exact started
    · refine started.trans (packetLoop_evolves (started.linked linked) ?_ lose h)
      intro packet modcodId selected
      exact suitable modcodId (ForwardSchedulingS2.select_mem selected)

theorem forwardFifos_evolves {vcmCarriers : Nat} {ks : List Nat} (linked : s.bbframes.Linked table)
    (suitable : ∀ modcodId ∈ s.carriers.getFmtIds, licence.serves modcodId)
    (lose : ok = false → licence.lose)
    (h : s.forwardFifos (ForwardSchedulingS2.link handler table) call position fuel initCapa
      vcmCarriers ks = some (ok, s')) :
    Evolves (ForwardSchedulingS2.link handler table) position licence s s' := by
  induction ks generalizing s with
  | nil =>
      cases h
      exact .refl _
  | cons k ks ih =>
      obtain ⟨fifo, -, h⟩ := Option.bind_eq_some_iff.mp h
      split at h
      · exact ih linked suitable h
      · obtain ⟨⟨done, mid⟩, called, h⟩ := Option.bind_eq_some_iff.mp h
        dsimp only at h
        cases done with
        | false =>
            cases h
            exact forwardEncapPackets_evolves linked suitable lose called
        | true =>
            have fine : true = false → licence.lose := nofun
            have first := forwardEncapPackets_evolves linked suitable fine called
            split at h
            · cases ‹true = false›
            · split at h
              · cases h
                exact first
              · refine first.trans (ih (first.linked linked) ?_ h)
                rw [first.sameGroup.getFmtIds]
                exact suitable

/-- The flush only changes the capacities of the carriers. -/
theorem forwardFlush_eq :
    ∃ carriers, s.carriers.SameGroup carriers ∧
      (s.forwardFlush (ForwardSchedulingS2.link handler table) call position initCapa).2 =
        { s with
          bbframes := (flushIncomplete table position s.bbframes.incompleteOrdered s.bbframes
            s.capacitySym).2.1
          capacitySym := (flushIncomplete table position s.bbframes.incompleteOrdered s.bbframes
            s.capacitySym).2.2
          carriers := carriers } := by
  unfold Serving.forwardFlush
  have table_eq : (ForwardSchedulingS2.link handler table).modcodDef = table := rfl
  rw [table_eq]
  generalize flushIncomplete table position s.bbframes.incompleteOrdered s.bbframes
    s.capacitySym = left
  obtain ⟨status, bbframes, capacitySym⟩ := left
  cases status with
  | error => exact ⟨_, .setPreviousCapacity _ _ _, rfl⟩
  | ok => exact ⟨_, (CarriersGroupDama.SameGroup.setPreviousCapacity _ _ _).trans
      (.setRemainingCapacity _ _), rfl⟩
  | full => exact ⟨_, (CarriersGroupDama.SameGroup.setPreviousCapacity _ _ _).trans
      ((CarriersGroupDama.SameGroup.setPreviousCapacity _ _ _).trans
        (.setRemainingCapacity _ _)), rfl⟩

/-- The capacity is filled with the first incomplete frames, whatever their MODCODs. -/
theorem forwardFlush_evolves (linked : s.bbframes.Linked table)
    (suitable : ∀ f ∈ flushable (s.bbframes.sizeSym table) s.bbframes.incompleteOrdered
      s.capacitySym, licence.serves (s.bbframes.modcod f)) :
    Evolves (ForwardSchedulingS2.link handler table) position licence s
      (s.forwardFlush (ForwardSchedulingS2.link handler table) call position initCapa).2 := by
  have flushed := @flushIncomplete_evolves (ForwardSchedulingS2.link handler table) position
    licence s s.bbframes.incompleteOrdered linked rfl suitable
  obtain ⟨carriers, same, eq⟩ := @forwardFlush_eq handler table call position s initCapa
  rw [eq]
  refine flushed.trans (Move.evolves ?_)
  exact .carriers same

/-- The frames it completes are the first ones that the capacity is enough for. -/
theorem forwardFlush_complete :
    ∃ completed : List CompleteFrame,
      (s.forwardFlush (ForwardSchedulingS2.link handler table) call position
        initCapa).2.bbframes.complete = s.bbframes.complete ++ completed ∧
      completed.map (·.frame) = flushable (s.bbframes.sizeSym table) s.bbframes.incompleteOrdered
        s.capacitySym ∧
      ∀ entry ∈ completed, entry.carriers = position := by
  obtain ⟨carriers, -, eq⟩ := @forwardFlush_eq handler table call position s initCapa
  rw [eq]
  exact flushIncomplete_complete table position _ _ _

/-- Without an error, what is left of the capacity remains to the carriers. -/
theorem forwardFlush_remaining
    (h : (s.forwardFlush (ForwardSchedulingS2.link handler table) call position initCapa).1 =
      true) :
    (s.forwardFlush (ForwardSchedulingS2.link handler table) call position
        initCapa).2.carriers.remainingCapacity =
      min (s.forwardFlush (ForwardSchedulingS2.link handler table) call position
        initCapa).2.capacitySym initCapa := by
  revert h
  unfold Serving.forwardFlush
  generalize flushIncomplete (ForwardSchedulingS2.link handler table).modcodDef position
    s.bbframes.incompleteOrdered s.bbframes s.capacitySym = left
  obtain ⟨status, bbframes, capacitySym⟩ := left
  intro h
  cases status with
  | error => cases h
  | ok => rfl
  | full => rfl

end Serving

/-! ### Some carriers -/

namespace ForwardSchedulingS2

variable {handler : EncapPacketHandler} {table : FmtDefinitionTable} {call : SchedCall}
  {position : Nat × Nat} {licence : Licence} {sched sched' : ForwardSchedulingS2} {fuel : Nat}
  {ok : Bool}

/-- The carriers once the FIFOs are served: the incomplete frames are flushed. -/
theorem serve_flushed {vcmCarriers : Nat} {carriers : CarriersGroupDama} {s : Serving}
    (found : sched.vcm position = some (vcmCarriers, carriers))
    (called : fifosOn handler table fuel call sched position vcmCarriers carriers = some (true, s))
    (h : serve handler table fuel call sched position = some (ok, sched')) :
    sched' = sched.store position
      (s.forwardFlush (link handler table) call position (initialCapacities call carriers).1).2 := by
  rw [serve, found, Option.bind_some] at h
  dsimp only at h
  rw [called, Option.map_some] at h
  exact (congrArg Prod.snd (Option.some.inj h)).symm

/-- A call on some carriers is a sequence of moves from what they start with. -/
theorem serve_evolves (linked : sched.bbframes.Linked table)
    (h : serve handler table fuel call sched position = some (ok, sched')) :
    ∃ vcmCarriers carriers s', sched.vcm position = some (vcmCarriers, carriers) ∧
      sched' = sched.store position s' ∧
      (ok = true → s'.carriers.remainingCapacity =
        min s'.capacitySym (initialCapacities call carriers).1) ∧
      ∀ licence : Licence, (ok = false → licence.lose) →
        (∀ modcodId ∈ carriers.getFmtIds, licence.serves modcodId) →
        (∀ s, fifosOn handler table fuel call sched position vcmCarriers carriers =
            some (true, s) →
          ∀ f ∈ flushable (s.bbframes.sizeSym table) s.bbframes.incompleteOrdered s.capacitySym,
            licence.serves (s.bbframes.modcod f)) →
        Evolves (link handler table) position licence (sched.serving call carriers) s' := by
  obtain ⟨⟨vcmCarriers, carriers⟩, found, h⟩ := Option.bind_eq_some_iff.mp h
  obtain ⟨⟨done, s⟩, called, h⟩ := Option.map_eq_some_iff.mp h
  have fmtIds : (sched.serving call carriers).carriers.getFmtIds = carriers.getFmtIds := rfl
  dsimp only at h called
  cases done with
  | false =>
      obtain ⟨rfl, rfl⟩ := Prod.mk.inj h
      refine ⟨vcmCarriers, carriers, s, found, rfl, by simp, fun licence lose suitable _ => ?_⟩
      exact forwardFifos_evolves linked suitable lose called
  | true =>
      obtain ⟨rfl, rfl⟩ := Prod.mk.inj h
      refine ⟨vcmCarriers, carriers, _, found, rfl, forwardFlush_remaining,
        fun licence lose suitable flushed => ?_⟩
      have fine : true = false → licence.lose := by simp
      have first : Evolves (link handler table) position licence (sched.serving call carriers) s :=
        forwardFifos_evolves linked suitable fine called
      exact first.trans (forwardFlush_evolves (first.linked linked) (flushed s called))

end ForwardSchedulingS2

end OpenSand
