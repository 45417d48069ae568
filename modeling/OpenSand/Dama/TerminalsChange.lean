import OpenSand.Dama.TerminalsHold
import OpenSand.Lib.Pointwise

/-!
How the allocations of a superframe change the terminals.

The terminals before and after an allocation are compared one by one. Any preorder that the
setters of an allocation respect relates the terminals before and after it; the terminals
stay where they are in their category.
-/

namespace OpenSand

open OpenSand.Run Allocation

namespace Allocation

/-- The terminals before and after, one by one. -/
def Changes (R : TerminalContextDamaRcs → TerminalContextDamaRcs → Prop) (run run' : Allocation) :
    Prop :=
  Pointwise (fun _ => R) run.terminals run'.terminals

section Preorders

variable {R : TerminalContextDamaRcs → TerminalContextDamaRcs → Prop}

theorem Changes.refl (refl : ∀ terminal, R terminal terminal) (run : Allocation) :
    Changes R run run :=
  Pointwise.refl _ fun _ terminal _ => refl terminal

theorem Changes.trans (trans : ∀ first second third, R first second → R second third →
    R first third) {run mid run' : Allocation} (h : Changes R run mid) (h' : Changes R mid run') :
    Changes R run run' :=
  Pointwise.trans h h' fun _ first _ second third => trans first second third

theorem update_changes (refl : ∀ terminal, R terminal terminal) (run : Allocation) {i : Nat}
    {f : TerminalContextDamaRcs → TerminalContextDamaRcs} (kept : ∀ terminal, R terminal (f terminal)) :
    Changes R run (run.update i f) :=
  Pointwise.modify (fun terminal _ => kept terminal) fun _ _ terminal _ => refl terminal

theorem foldl_changes (refl : ∀ terminal, R terminal terminal)
    (trans : ∀ first second third, R first second → R second third → R first third)
    {body : Allocation → Nat → Allocation} (step : ∀ run i, Changes R run (body run i))
    (tal : List Nat) (run : Allocation) : Changes R run (tal.foldl body run) := by
  induction tal generalizing run with
  | nil => exact Changes.refl refl run
  | cons i tal ih => exact (step run i).trans trans (ih (body run i))

theorem forServed_changes (refl : ∀ terminal, R terminal terminal)
    {body : Allocation → Nat → TerminalContextDamaRcs → FmtDefinition → Allocation}
    {run : Allocation} {i : Nat}
    (step : ∀ terminal fmt, Changes R run (body (run.withEfficiency fmt) i terminal fmt)) :
    Changes R run (forServed body run i) := by
  unfold forServed
  split
  · exact Changes.refl refl run
  · split
    · exact Changes.refl refl run
    · exact step _ _

variable (refl : ∀ terminal, R terminal terminal)
  (trans : ∀ first second third, R first second → R second third → R first third)

include refl trans

theorem computeDamaCraPerCarrier_changes
    (kept : ∀ terminal kbps, R terminal (terminal.setCraAllocation kbps)) (run : Allocation) :
    Changes R run run.computeDamaCraPerCarrier := by
  refine foldl_changes refl trans (fun run i => ?_) run.start.inCarriersGroup run.start
  apply forServed_changes refl
  intro terminal fmt
  dsimp only
  split
  · exact Changes.refl refl run
  · exact update_changes refl run fun terminal => kept terminal _

theorem rbdcInteger_changes
    (kept : ∀ terminal kbps, R terminal (terminal.setRbdcAllocation kbps))
    (credited : ∀ terminal credit, R terminal (terminal.addRbdcCredit credit))
    (requests : Std.TreeMap Nat Nat) (ratio : ℚ) (run : Allocation) (i : Nat) :
    Changes R run (rbdcInteger requests ratio run i) := by
  apply forServed_changes refl
  intro terminal fmt
  have integer := fun kbps => update_changes refl run (i := i) fun terminal => kept terminal kbps
  dsimp only
  split
  · refine Changes.trans trans ?_ (update_changes refl _ fun terminal => credited terminal _)
    exact integer _
  · exact integer _

theorem rbdcDecimals_changes
    (kept : ∀ terminal kbps, R terminal (terminal.setRbdcAllocation kbps))
    (credited : ∀ terminal credit, R terminal (terminal.addRbdcCredit credit))
    (run : Allocation) (tal : List Nat) : Changes R run (rbdcDecimals run tal) := by
  have step : ∀ run i, Changes R run (rbdcDecimal run i) := by
    intro run i
    apply forServed_changes refl
    intro terminal fmt
    dsimp only
    split
    · exact update_changes refl run fun terminal =>
        trans _ _ _ (kept terminal _) (credited _ _)
    · exact Changes.refl refl run
  induction tal generalizing run with
  | nil => exact Changes.refl refl run
  | cons i tal ih =>
      rw [rbdcDecimals]
      split
      · exact (step run i).trans trans (ih _)
      · exact Changes.refl refl run

theorem computeDamaRbdcPerCarrier_changes
    (kept : ∀ terminal kbps, R terminal (terminal.setRbdcAllocation kbps))
    (credited : ∀ terminal credit, R terminal (terminal.addRbdcCredit credit))
    (run : Allocation) : Changes R run run.computeDamaRbdcPerCarrier := by
  have requested :
      Changes R run (run.start.rbdcRequests run.start.inCarriersGroup).1.resetAlloc := by
    have same : (run.start.rbdcRequests run.start.inCarriersGroup).1.terminals = run.terminals :=
      rbdcRequests_terminals run.start ⟨∅, 0⟩ run.start.inCarriersGroup
    show Pointwise _ _ (run.start.rbdcRequests run.start.inCarriersGroup).1.terminals
    rw [same]
    exact Changes.refl refl run
  unfold computeDamaRbdcPerCarrier
  dsimp only
  split
  · exact Changes.refl refl run
  · split
    · exact requested
    · have integers := fun requests ratio => requested.trans trans
        (foldl_changes refl trans (rbdcInteger_changes refl trans kept credited requests ratio)
          run.start.inCarriersGroup _)
      split
      · exact (integers _ _).trans trans (rbdcDecimals_changes refl trans kept credited _ _)
      · exact integers _ _

theorem computeDamaVbdcPerCarrier_changes
    (kept : ∀ terminal kb, R terminal (terminal.setVbdcAllocation kb)) (run : Allocation) :
    Changes R run run.computeDamaVbdcPerCarrier := by
  have step : ∀ run i, Changes R run (vbdcTerminal run i) := by
    intro run i
    apply forServed_changes refl
    intro terminal fmt
    dsimp only
    split
    · exact Changes.refl refl run
    · exact update_changes refl run fun terminal => kept terminal _
  have loop : ∀ (tal : List Nat) (run : Allocation), Changes R run (vbdcTerminals run tal) := by
    intro tal
    induction tal with
    | nil => exact Changes.refl refl
    | cons i tal ih =>
        intro run
        rw [vbdcTerminals]
        split
        · exact (step run i).trans trans (ih _)
        · refine foldl_changes refl trans (fun run _ => ?_) _ run
          exact Changes.refl refl run
  unfold computeDamaVbdcPerCarrier
  dsimp only
  split
  · exact Changes.refl refl run
  · split
    · exact Changes.refl refl run
    · exact loop _ run.start

theorem computeDamaFcaPerCarrier_changes
    (kept : ∀ terminal kbps, R terminal (terminal.setFcaAllocation kbps)) (fuel : Nat)
    (run : Allocation) : Changes R run (run.computeDamaFcaPerCarrier fuel).1 := by
  have loop : ∀ (fuel : Nat) (tal : List Nat) (run : Allocation),
      Changes R run (fcaTerminals fuel run tal).1 := by
    intro fuel
    induction fuel with
    | zero => exact fun _ run => Changes.refl refl run
    | succ fuel ih =>
        intro tal run
        cases tal with
        | nil => exact Changes.refl refl run
        | cons i tal =>
            rw [fcaTerminals]
            split
            · split
              · exact ih _ run
              · refine Changes.trans trans ?_ (ih _ _)
                exact update_changes refl run fun terminal => kept terminal _
            · exact Changes.refl refl run
  unfold computeDamaFcaPerCarrier
  dsimp only
  split
  · exact Changes.refl refl run
  · split
    · exact loop _ _ run.start
    · exact loop _ _ run.start

end Preorders

end Allocation

namespace DamaCtrlRcs2Legacy

/-- The terminals of the categories before and after, one by one; the relation may depend on
the position of the category. -/
def Changes (R : Nat → TerminalContextDamaRcs → TerminalContextDamaRcs → Prop)
    (legacy legacy' : DamaCtrlRcs2Legacy) : Prop :=
  Pointwise (fun c before after => Pointwise (fun _ => R c) before.terminals after.terminals)
    legacy.categories legacy'.categories

variable {R S T : Nat → TerminalContextDamaRcs → TerminalContextDamaRcs → Prop}
  {legacy mid legacy' : DamaCtrlRcs2Legacy}

theorem Changes.refl (refl : ∀ c terminal, R c terminal terminal) (legacy : DamaCtrlRcs2Legacy) :
    Changes R legacy legacy :=
  Pointwise.refl _ fun c _ _ => Pointwise.refl _ fun _ terminal _ => refl c terminal

theorem Changes.mono (h : Changes R legacy legacy')
    (weaker : ∀ c before after, R c before after → S c before after) : Changes S legacy legacy' :=
  Pointwise.mono h fun c _ _ _ changed =>
    Pointwise.mono changed fun _ before _ after => weaker c before after

theorem Changes.trans (h : Changes R legacy mid) (h' : Changes S mid legacy')
    (comp : ∀ c first second third, R c first second → S c second third → T c first third) :
    Changes T legacy legacy' :=
  Pointwise.trans h h' fun c _ _ _ _ changed changed' =>
    Pointwise.trans changed changed' fun _ first _ second third => comp c first second third

theorem mapTerminals_changes {f : TerminalContextDamaRcs → TerminalContextDamaRcs}
    (mapped : ∀ c, ∀ terminal ∈ legacy.terminals, R c terminal (f terminal)) :
    Changes R legacy (legacy.mapTerminals f) :=
  Pointwise.map fun c _ mem => Pointwise.map fun _ terminal on =>
    mapped c terminal (List.mem_flatMap.mpr ⟨_, mem, on⟩)

/-- Only the terminals of the category of the group change. -/
theorem store_changes {R : TerminalContextDamaRcs → TerminalContextDamaRcs → Prop}
    {position : Nat × Nat} {run run' : Allocation} (found : legacy.group position = some run)
    (changed : Allocation.Changes R run run') :
    Changes (fun c before after => after = before ∨ c = position.1 ∧ R before after) legacy
      (legacy.store position run') := by
  obtain ⟨category, hcategory, carriers, -, rfl⟩ := group_eq_some_iff.mp found
  refine Pointwise.modify (fun own hown => ?_) fun _ _ _ _ => ?_
  · obtain rfl : category = own := Option.some.inj (hcategory.symm.trans hown)
    exact Pointwise.mono changed fun _ _ _ _ related => .inr ⟨rfl, related⟩
  · exact Pointwise.refl _ fun _ _ _ => .inl rfl

/-- An allocation on a group, by what it does to the terminals. -/
theorem onGroup_changes {R : TerminalContextDamaRcs → TerminalContextDamaRcs → Prop}
    {phase : Allocation → Allocation} {position : Nat × Nat}
    (changed : ∀ run, legacy.group position = some run → Allocation.Changes R run (phase run)) :
    Changes (fun c before after => after = before ∨ c = position.1 ∧ R before after) legacy
      (legacy.onGroup phase position) := by
  cases found : legacy.group position with
  | none =>
      rw [onGroup_of_none found]
      exact Changes.refl (fun _ _ => .inl rfl) legacy
  | some run =>
      rw [onGroup_of_some found]
      exact store_changes found (changed run found)

/-- A superframe starts from the reset of the terminals with their new wave forms. -/
theorem prepare_changes (waveForms : Nat → Nat × Option FmtDefinition) :
    Changes (fun _ before after => after =
      (TerminalContextDamaRcs.reset legacy.ctrl.converter { before with
        carrierId := (waveForms before.talId).1
        fmt := (waveForms before.talId).2 }).2) legacy (legacy.prepare waveForms).2 := by
  have converter : (legacy.resetCarriersCapacity.updateWaveForms waveForms).ctrl.converter =
      legacy.ctrl.converter := foldl_resetCategory_converter legacy.categories legacy.ctrl
  have capacities : Changes (fun _ before after => after = before) legacy
      legacy.resetCarriersCapacity :=
    Pointwise.map fun _ _ _ => Pointwise.refl _ fun _ _ _ => rfl
  have updated : Changes (fun _ before after => after = { before with
      carrierId := (waveForms before.talId).1
      fmt := (waveForms before.talId).2 }) legacy.resetCarriersCapacity
      (legacy.resetCarriersCapacity.updateWaveForms waveForms) :=
    mapTerminals_changes fun _ _ _ => rfl
  have reset := @mapTerminals_changes
    (fun _ before after => after = (TerminalContextDamaRcs.reset legacy.ctrl.converter before).2)
    (legacy.resetCarriersCapacity.updateWaveForms waveForms)
    (fun terminal => (TerminalContextDamaRcs.reset
      (legacy.resetCarriersCapacity.updateWaveForms waveForms).ctrl.converter terminal).2)
    fun _ terminal _ => by rw [converter]
  refine (capacities.trans updated (T := fun _ before after => after = { before with
    carrierId := (waveForms before.talId).1
    fmt := (waveForms before.talId).2 }) ?_).trans reset ?_
  · rintro _ before _ after rfl rfl
    rfl
  · rintro _ before _ after rfl rfl
    rfl

/-- An allocation on a group, given that a preorder allows what the four of them set. -/
theorem allocateGroup_changes {R : TerminalContextDamaRcs → TerminalContextDamaRcs → Prop}
    (refl : ∀ terminal, R terminal terminal)
    (trans : ∀ first second third, R first second → R second third → R first third)
    {allocation : GroupAllocation}
    (cra : ∀ terminal kbps, R terminal (terminal.setCraAllocation kbps))
    (rbdc : ∀ terminal kbps, R terminal (terminal.setRbdcAllocation kbps))
    (credited : ∀ terminal credit, R terminal (terminal.addRbdcCredit credit))
    (vbdc : (∃ position, allocation = .vbdc position) →
      ∀ run, Allocation.Changes R run run.computeDamaVbdcPerCarrier)
    (fca : ∀ terminal kbps, R terminal (terminal.setFcaAllocation kbps))
    (taken : legacy.allocateGroup allocation = some legacy') :
    Changes (fun _ => R) legacy legacy' := by
  have weaker : ∀ (c position : Nat) (before after : TerminalContextDamaRcs), after = before ∨ c = position ∧ R before after →
      R before after := by
    rintro c position before after (rfl | ⟨-, related⟩)
    · exact refl after
    · exact related
  cases allocation with
  | cra position =>
      cases taken
      exact (onGroup_changes fun run _ => computeDamaCraPerCarrier_changes refl trans cra run).mono
        fun c => weaker c _
  | rbdc position =>
      cases taken
      exact (onGroup_changes fun run _ =>
        computeDamaRbdcPerCarrier_changes refl trans rbdc credited run).mono fun c => weaker c _
  | vbdc position =>
      cases taken
      exact (onGroup_changes fun run _ => vbdc ⟨position, rfl⟩ run).mono fun c => weaker c _
  | fca fuel position =>
      unfold allocateGroup at taken
      dsimp only at taken
      split at taken
      next =>
        cases taken
        exact Changes.refl (fun _ => refl) legacy
      next run found =>
        split at taken
        next =>
          cases taken
          exact (store_changes found
            (computeDamaFcaPerCarrier_changes refl trans fca fuel run)).mono fun c => weaker c _
        next => cases taken

/-- The allocations on the groups, one after the other. -/
theorem run_allocateGroup_changes {R : TerminalContextDamaRcs → TerminalContextDamaRcs → Prop}
    (refl : ∀ terminal, R terminal terminal)
    (trans : ∀ first second third, R first second → R second third → R first third)
    {allocations : List GroupAllocation}
    (cra : ∀ terminal kbps, R terminal (terminal.setCraAllocation kbps))
    (rbdc : ∀ terminal kbps, R terminal (terminal.setRbdcAllocation kbps))
    (credited : ∀ terminal credit, R terminal (terminal.addRbdcCredit credit))
    (vbdc : ∀ terminal kb, R terminal (terminal.setVbdcAllocation kb))
    (fca : ∀ terminal kbps, R terminal (terminal.setFcaAllocation kbps))
    (ends : Run.run allocateGroup legacy allocations = some legacy') :
    Changes (fun _ => R) legacy legacy' := by
  induction allocations generalizing legacy with
  | nil =>
      cases ends
      exact Changes.refl (fun _ => refl) _
  | cons allocation rest ih =>
      obtain ⟨mid, taken, ends'⟩ := Option.bind_eq_some_iff.mp ends
      refine (allocateGroup_changes refl trans cra rbdc credited ?_ fca taken).trans (ih ends') ?_
      · exact fun _ run => computeDamaVbdcPerCarrier_changes refl trans vbdc run
      · exact fun _ => trans

/-- A superframe, given that a preorder also allows the reset with new wave forms. -/
theorem runOnSuperFrameChange_changes
    {R : TerminalContextDamaRcs → TerminalContextDamaRcs → Prop}
    (refl : ∀ terminal, R terminal terminal)
    (trans : ∀ first second third, R first second → R second third → R first third)
    {waveForms : Nat → Nat × Option FmtDefinition} {fuel : Nat}
    (reset : ∀ (terminal : TerminalContextDamaRcs) carrierId fmt, R terminal
      (TerminalContextDamaRcs.reset legacy.ctrl.converter
        { terminal with carrierId := carrierId, fmt := fmt }).2)
    (cra : ∀ terminal kbps, R terminal (terminal.setCraAllocation kbps))
    (rbdc : ∀ terminal kbps, R terminal (terminal.setRbdcAllocation kbps))
    (credited : ∀ terminal credit, R terminal (terminal.addRbdcCredit credit))
    (vbdc : ∀ terminal kb, R terminal (terminal.setVbdcAllocation kb))
    (fca : ∀ terminal kbps, R terminal (terminal.setFcaAllocation kbps))
    (allocated : legacy.runOnSuperFrameChange waveForms fuel = some legacy') :
    Changes (fun _ => R) legacy legacy' := by
  have prepared : Changes (fun _ => R) legacy (legacy.prepare waveForms).2 := by
    refine (prepare_changes waveForms).mono ?_
    rintro _ before after rfl
    exact reset before _ _
  unfold runOnSuperFrameChange at allocated
  dsimp only at allocated
  split at allocated
  · exact prepared.trans (run_allocateGroup_changes refl trans cra rbdc credited vbdc fca allocated)
      fun _ => trans
  · cases allocated
    exact prepared

theorem Changes.terminals {R : TerminalContextDamaRcs → TerminalContextDamaRcs → Prop}
    (h : Changes (fun _ => R) legacy legacy') :
    List.Forall₂ R legacy.terminals legacy'.terminals := by
  have categories := Pointwise.forall₂ h
  exact List.rel_flatMap categories fun _ _ changed => Pointwise.forall₂ changed

end DamaCtrlRcs2Legacy

end OpenSand
