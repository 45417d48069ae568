import OpenSand.Dama.Requests

/-!
What the allocations of a superframe keep of the terminals.

A property of the terminals that the setters of an allocation keep is kept by the
allocation on a group, and by the allocations on all groups.
-/

namespace OpenSand

open OpenSand.Run Allocation

namespace Allocation

/-- A property of the terminals of an allocation. -/
def Holds (property : TerminalContextDamaRcs → Prop) (run : Allocation) : Prop :=
  ∀ terminal ∈ run.terminals, property terminal

variable {property : TerminalContextDamaRcs → Prop} {run : Allocation} {i : Nat}
  {f : TerminalContextDamaRcs → TerminalContextDamaRcs}

theorem Holds.update_at (h : run.Holds property)
    (kept : ∀ terminal, run.terminals[i]? = some terminal → property terminal →
      property (f terminal)) : (run.update i f).Holds property := by
  intro terminal mem
  obtain ⟨j, found⟩ := List.mem_iff_getElem?.mp mem
  simp only [Allocation.update, List.getElem?_modify] at found
  obtain ⟨before, found', rfl⟩ := Option.map_eq_some_iff.mp found
  by_cases same : i = j
  · subst same
    simpa using kept before found' (h before (List.mem_of_getElem? found'))
  · simpa [same] using h before (List.mem_of_getElem? found')

theorem Holds.update (h : run.Holds property)
    (kept : ∀ terminal, property terminal → property (f terminal)) :
    (run.update i f).Holds property :=
  h.update_at fun terminal _ => kept terminal

theorem foldl_holds {body : Allocation → Nat → Allocation}
    (step : ∀ run i, run.Holds property → (body run i).Holds property) (tal : List Nat)
    (h : run.Holds property) : (tal.foldl body run).Holds property := by
  induction tal generalizing run with
  | nil => exact h
  | cons i tal ih => exact ih (step run i h)

theorem forServed_holds
    {body : Allocation → Nat → TerminalContextDamaRcs → FmtDefinition → Allocation}
    (h : run.Holds property)
    (step : ∀ terminal fmt, run.terminals[i]? = some terminal → terminal.fmt = some fmt →
      (body (run.withEfficiency fmt) i terminal fmt).Holds property) :
    (forServed body run i).Holds property := by
  unfold forServed
  split
  next => exact h
  next terminal found =>
    split
    next => exact h
    next fmt served => exact step terminal fmt found served

theorem rbdcRequests_terminals (run : Allocation) (requests : RbdcRequests) (tal : List Nat) :
    (tal.foldl rbdcRequest (run, requests)).1.terminals = run.terminals := by
  induction tal generalizing run requests with
  | nil => rfl
  | cons i tal ih =>
      have first : (rbdcRequest (run, requests) i).1.terminals = run.terminals := by
        unfold rbdcRequest
        split
        · rfl
        · split
          · rfl
          · rfl
      exact (ih _ _).trans first

/-- What the CRA of a terminal keeps, the CRA of a group keeps. -/
theorem computeDamaCraPerCarrier_holds
    (kept : ∀ terminal kbps, property terminal → property (terminal.setCraAllocation kbps))
    (h : run.Holds property) : run.computeDamaCraPerCarrier.Holds property := by
  have start : run.start.Holds property := h
  refine foldl_holds (fun run i h => ?_) run.start.inCarriersGroup start
  refine forServed_holds h fun terminal fmt found served => ?_
  dsimp only
  split
  · exact h
  · refine Holds.update ?_ fun terminal => kept terminal _
    exact h

theorem computeDamaVbdcPerCarrier_holds
    (kept : ∀ terminal kb, property terminal → property (terminal.setVbdcAllocation kb))
    (h : run.Holds property) : run.computeDamaVbdcPerCarrier.Holds property := by
  have loop : ∀ (tal : List Nat) {run : Allocation}, run.Holds property →
      (vbdcTerminals run tal).Holds property := by
    intro tal
    induction tal with
    | nil => exact fun h => h
    | cons i tal ih =>
        intro run h
        rw [vbdcTerminals]
        split
        · refine ih (forServed_holds h fun terminal fmt found served => ?_)
          dsimp only
          split
          · exact h
          · refine Holds.update ?_ fun terminal => kept terminal _
            exact h
        · refine foldl_holds (fun run _ h => ?_) _ h
          exact h
  unfold computeDamaVbdcPerCarrier
  dsimp only
  split
  · exact h
  · split
    · exact h
    · exact loop _ h

theorem computeDamaFcaPerCarrier_holds
    (kept : ∀ terminal kbps, property terminal → property (terminal.setFcaAllocation kbps))
    (fuel : Nat) (h : run.Holds property) :
    (run.computeDamaFcaPerCarrier fuel).1.Holds property := by
  have loop : ∀ (fuel : Nat) (tal : List Nat) {run : Allocation}, run.Holds property →
      (fcaTerminals fuel run tal).1.Holds property := by
    intro fuel
    induction fuel with
    | zero => exact fun _ _ h => h
    | succ fuel ih =>
        intro tal run h
        cases tal with
        | nil => exact h
        | cons i tal =>
            rw [fcaTerminals]
            split
            · split
              · exact ih _ h
              · refine ih _ (Holds.update ?_ fun terminal => kept terminal _)
                exact h
            · exact h
  unfold computeDamaFcaPerCarrier
  dsimp only
  split
  · exact h
  · split
    · exact loop _ _ h
    · exact loop _ _ h

end Allocation

namespace DamaCtrlRcs2Legacy

variable {property : TerminalContextDamaRcs → Prop} {legacy legacy' : DamaCtrlRcs2Legacy}

/-- A property of the terminals of the controller. -/
def Holds (property : TerminalContextDamaRcs → Prop) (legacy : DamaCtrlRcs2Legacy) : Prop :=
  ∀ terminal ∈ legacy.terminals, property terminal

theorem Holds.group (h : legacy.Holds property) {position : Nat × Nat} {run : Allocation}
    (found : legacy.group position = some run) : run.Holds property := by
  obtain ⟨category, hcategory, carriers, -, rfl⟩ := group_eq_some_iff.mp found
  intro terminal mem
  exact h terminal (List.mem_flatMap.mpr ⟨category, List.mem_of_getElem? hcategory, mem⟩)

theorem Holds.store (h : legacy.Holds property) {position : Nat × Nat} {run : Allocation}
    (kept : run.Holds property) : (legacy.store position run).Holds property := by
  intro terminal mem
  obtain ⟨category, mem', on⟩ := List.mem_flatMap.mp mem
  obtain ⟨j, found⟩ := List.mem_iff_getElem?.mp mem'
  simp only [DamaCtrlRcs2Legacy.store, List.getElem?_modify] at found
  obtain ⟨before, found', rfl⟩ := Option.map_eq_some_iff.mp found
  by_cases same : position.1 = j
  · rw [if_pos same] at on
    exact kept terminal on
  · rw [if_neg same] at on
    exact h terminal (List.mem_flatMap.mpr ⟨before, List.mem_of_getElem? found', on⟩)

theorem onGroup_holds {phase : Allocation → Allocation}
    (kept : ∀ run : Allocation, run.Holds property → (phase run).Holds property) (h : legacy.Holds property)
    (position : Nat × Nat) : (legacy.onGroup phase position).Holds property := by
  cases found : legacy.group position with
  | none =>
      rw [onGroup_of_none found]
      exact h
  | some run =>
      rw [onGroup_of_some found]
      exact h.store (kept run (h.group found))

/-- An allocation on a group, given what each of the four keeps. -/
theorem allocateGroup_holds {allocation : GroupAllocation}
    (cra : ∀ terminal kbps, property terminal → property (terminal.setCraAllocation kbps))
    (rbdc : (∃ position, allocation = .rbdc position) →
      ∀ run : Allocation, run.Holds property → run.computeDamaRbdcPerCarrier.Holds property)
    (vbdc : ∀ terminal kb, property terminal → property (terminal.setVbdcAllocation kb))
    (fca : ∀ terminal kbps, property terminal → property (terminal.setFcaAllocation kbps))
    (h : legacy.Holds property) (taken : legacy.allocateGroup allocation = some legacy') :
    legacy'.Holds property := by
  cases allocation with
  | cra position =>
      cases taken
      exact onGroup_holds (fun run h => computeDamaCraPerCarrier_holds cra h) h position
  | rbdc position =>
      cases taken
      exact onGroup_holds (rbdc ⟨position, rfl⟩) h position
  | vbdc position =>
      cases taken
      exact onGroup_holds (fun run h => computeDamaVbdcPerCarrier_holds vbdc h) h position
  | fca fuel position =>
      unfold allocateGroup at taken
      dsimp only at taken
      split at taken
      next =>
        cases taken
        exact h
      next run found =>
        split at taken
        next =>
          cases taken
          exact h.store (computeDamaFcaPerCarrier_holds fca fuel (h.group found))
        next => cases taken

/-- The allocations on the groups, one after the other. -/
theorem run_allocateGroup_holds {allocations : List GroupAllocation}
    (cra : ∀ terminal kbps, property terminal → property (terminal.setCraAllocation kbps))
    (rbdc : (∃ position, .rbdc position ∈ allocations) →
      ∀ run : Allocation, run.Holds property → run.computeDamaRbdcPerCarrier.Holds property)
    (vbdc : ∀ terminal kb, property terminal → property (terminal.setVbdcAllocation kb))
    (fca : ∀ terminal kbps, property terminal → property (terminal.setFcaAllocation kbps))
    (h : legacy.Holds property)
    (ends : Run.run allocateGroup legacy allocations = some legacy') :
    legacy'.Holds property := by
  induction allocations generalizing legacy with
  | nil =>
      cases ends
      exact h
  | cons allocation rest ih =>
      obtain ⟨mid, taken, ends'⟩ := Option.bind_eq_some_iff.mp ends
      refine ih ?_ (allocateGroup_holds cra ?_ vbdc fca h taken) ends'
      · rintro ⟨position, mem⟩
        exact rbdc ⟨position, List.mem_cons_of_mem _ mem⟩
      · rintro ⟨position, rfl⟩
        exact rbdc ⟨position, List.mem_cons_self⟩

theorem mapTerminals_holds {f : TerminalContextDamaRcs → TerminalContextDamaRcs}
    (mapped : ∀ terminal ∈ legacy.terminals, property (f terminal)) :
    (legacy.mapTerminals f).Holds property := by
  intro terminal mem
  obtain ⟨category, mem', on⟩ := List.mem_flatMap.mp mem
  obtain ⟨before, mem'', rfl⟩ := List.mem_map.mp mem'
  obtain ⟨terminal', on', rfl⟩ := List.mem_map.mp on
  exact mapped terminal' (List.mem_flatMap.mpr ⟨before, mem'', on'⟩)

theorem mem_mapTerminals {f : TerminalContextDamaRcs → TerminalContextDamaRcs}
    {terminal : TerminalContextDamaRcs} (mem : terminal ∈ (legacy.mapTerminals f).terminals) :
    ∃ before ∈ legacy.terminals, terminal = f before :=
  have holds : (legacy.mapTerminals f).Holds fun terminal =>
      ∃ before ∈ legacy.terminals, terminal = f before :=
    mapTerminals_holds fun before mem => ⟨before, mem, rfl⟩
  holds terminal mem

end DamaCtrlRcs2Legacy

end OpenSand
