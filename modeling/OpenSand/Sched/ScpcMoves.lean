import OpenSand.Sched.LoopMoves
import OpenSand.Sched.Scpc

/-!
The SCPC scheduling as a sequence of moves.

The pending frames that do not fit in the capacity are forgotten. Without the licence to
do so, a call for a FIFO is a sequence of moves when the pending frames that the carriers
support fit in the capacity that they have then (`PendingFit`).
-/

namespace OpenSand

open OpenSand.Run OpenSand.Word

/-- A packet always has a MODCOD. -/
theorem ScpcScheduling.select_eq (gwId : Nat) (table : FmtDefinitionTable) (sts : StFmtSimuList)
    (fmtGroup : FmtGroup) (packet : NetPacket) :
    ∃ modcodId, ScpcScheduling.select gwId table sts fmtGroup packet = .modcod modcodId :=
  ⟨_, rfl⟩

/-- The pending frames that the carriers support fit in their capacity. -/
def Serving.PendingFit (table : FmtDefinitionTable) (call : SchedCall) (s : Serving) (_ : Nat) :
    Prop :=
  s.bbframes.symbolsOf table s.carriers.getFmtIds s.bbframes.pending ≤ (s.scpcCapacities call).2

instance (table : FmtDefinitionTable) (call : SchedCall) (s : Serving) (k : Nat) :
    Decidable (s.PendingFit table call k) :=
  inferInstanceAs (Decidable (_ ≤ _))

section Serving

variable {handler : EncapPacketHandler} {table : FmtDefinitionTable} {gwId : Nat}
  {call : SchedCall} {position : Nat × Nat} {licence : Licence} {s s' : Serving}
  {fuel initCapa : Nat} {ok : Bool}

/-- From the capacity that is read first, a call for a FIFO is a sequence of moves. -/
theorem scpcEncapPackets_evolves {k : Nat}
    (supported : ∀ modcodId ∈ s.carriers.getFmtIds, licence.serves modcodId)
    (selected : ∀ packet modcodId, ScpcScheduling.select gwId table call.sts s.carriers.fmtGroup
      packet = .modcod modcodId → licence.serves modcodId)
    (lose : ok = false → licence.lose) (linked : s.bbframes.Linked table)
    (fit : licence.forget ∨ s.PendingFit table call k)
    (h : s.scpcEncapPackets (ScpcScheduling.link handler table gwId) call position fuel k =
      some (ok, s')) :
    Evolves (ScpcScheduling.link handler table gwId) position licence
      { s with capacitySym := (s.scpcCapacities call).2 } s' := by
  obtain ⟨fifo, -, h⟩ := Option.bind_eq_some_iff.mp h
  dsimp only at h
  split at h
  · cases h
    refine Move.evolves ?_
    exact .carriers ((CarriersGroupDama.SameGroup.setPreviousCapacity _ _ _).trans
      (.setRemainingCapacity _ _))
  · have pending := @schedulePendingFrom_evolves (ScpcScheduling.link handler table gwId) position
      licence s false _ supported [] s.bbframes.pending s.bbframes
      (s.scpcCapacities call).2 linked.known (fun _ => fit)
    revert h pending
    generalize schedulePendingFrom false (ScpcScheduling.link handler table gwId).modcodDef position
      s.carriers.getFmtIds [] s.bbframes.pending s.bbframes (s.scpcCapacities call).2 = left
    obtain ⟨bbframes, capacitySym⟩ := left
    intro h pending
    dsimp only at h pending
    have limited : (if bbframes.incomplete.isEmpty then min (s.scpcCapacities call).1 capacitySym
        else capacitySym) ≤ capacitySym := by
      split
      · exact min_le_right _ _
      · exact le_rfl
    have resumed := pending.trans (Move.evolves (.capacity (.inr limited)))
    split at h
    · cases h
      refine resumed.trans (Move.evolves ?_)
      exact .carriers ((CarriersGroupDama.SameGroup.setPreviousCapacity _ _ _).trans
        (.setRemainingCapacity _ _))
    · obtain ⟨⟨done, last⟩, looped, h⟩ := Option.map_eq_some_iff.mp h
      have reset := resumed.trans (Move.evolves (.carriers
        (CarriersGroupDama.SameGroup.setPreviousCapacity s.carriers 0 0)))
      have lose' : done = false → licence.lose := by
        rintro rfl
        cases h
        exact lose rfl
      have linked' : BBFrames.Linked table
        { s with capacitySym := (s.scpcCapacities call).2 }.bbframes := linked
      have served := reset.trans (packetLoop_evolves (reset.linked linked') selected lose' looped)
      cases done with
      | false =>
          cases h
          exact served
      | true =>
          cases h
          exact served.trans (Move.evolves (.carriers (.setRemainingCapacity _ _)))

/-- The flush only changes the capacities of the carriers. -/
theorem scpcFlush_eq :
    ∃ carriers, s.carriers.SameGroup carriers ∧
      (s.scpcFlush (ScpcScheduling.link handler table gwId) call position initCapa).2 =
        { s with
          bbframes := (flushIncomplete table position s.bbframes.incompleteOrdered s.bbframes
            s.carriers.remainingCapacity).2.1
          capacitySym := (flushIncomplete table position s.bbframes.incompleteOrdered s.bbframes
            s.carriers.remainingCapacity).2.2
          carriers := carriers } := by
  unfold Serving.scpcFlush
  have table_eq : (ScpcScheduling.link handler table gwId).modcodDef = table := rfl
  rw [table_eq]
  generalize flushIncomplete table position s.bbframes.incompleteOrdered s.bbframes
    s.carriers.remainingCapacity = left
  obtain ⟨status, bbframes, capacitySym⟩ := left
  cases status with
  | error => exact ⟨_, .refl _, rfl⟩
  | ok => exact ⟨_, .setRemainingCapacity _ _, rfl⟩
  | full => exact ⟨_, (CarriersGroupDama.SameGroup.setPreviousCapacity _ _ _).trans
      (.setRemainingCapacity _ _), rfl⟩

theorem scpcFlush_evolves (linked : s.bbframes.Linked table)
    (suitable : ∀ f ∈ s.bbframes.incompleteOrdered, licence.serves (s.bbframes.modcod f)) :
    Evolves (ScpcScheduling.link handler table gwId) position licence
      { s with capacitySym := s.carriers.remainingCapacity }
      (s.scpcFlush (ScpcScheduling.link handler table gwId) call position initCapa).2 := by
  have linked' : BBFrames.Linked (ScpcScheduling.link handler table gwId).modcodDef
    { s with capacitySym := s.carriers.remainingCapacity }.bbframes := linked
  have flushed := @flushIncomplete_evolves (ScpcScheduling.link handler table gwId) position
    licence _ s.bbframes.incompleteOrdered linked' rfl
      fun f mem => suitable f (mem_of_mem_flushable mem)
  obtain ⟨carriers, same, eq⟩ := @scpcFlush_eq handler table gwId call position s initCapa
  rw [eq]
  refine flushed.trans (Move.evolves ?_)
  exact .carriers same

end Serving

end OpenSand
