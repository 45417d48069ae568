import OpenSand.Dama.TerminalsHold

/-!
The expiry of the RBDC requests.

A request starts a timer, which a superframe decrements; but the allocations never look at
it, and the packet of credit that a superframe adds to the request starts it again. So a
request only expires when nothing is left of it.
-/

namespace OpenSand

open OpenSand.Run OpenSand.Word Allocation Std

/-- The terminals with an identifier have no RBDC, and nothing to get one from. -/
def Silent (talId : Nat) (terminal : TerminalContextDamaRcs) : Prop :=
  terminal.talId = talId → terminal.rbdcAllocKbps = 0 ∧
    (terminal.fmt = none ∨ terminal.rbdcRequestKbps = 0 ∧ terminal.rbdcCredit = 0)

namespace Allocation

variable {talId : Nat} {run : Allocation} {i : Nat}

/-! ### RBDC without request -/

theorem packets_zero (format : Nat × Nat) (fmt : FmtDefinition) : packets format fmt 0 = 0 := by
  simp [packets, FmtDefinition.addFec, UnitConverterFixedSymbolLength.kbpsToPktpf, ceilW, wrap]

theorem foldl_add_getD_zero {format : Nat × Nat} {group : List Demand}
    (zero : ∀ demand ∈ group, demand.talId = talId → ∀ request,
      rbdcPackets format demand = some request → request = 0)
    {requests : RbdcRequests} (none : requests.talRequestPktpf.getD talId 0 = 0) :
    (group.foldl (RbdcRequests.add format) requests).talRequestPktpf.getD talId 0 = 0 := by
  induction group generalizing requests with
  | nil => exact none
  | cons demand group ih =>
      refine ih (fun demand' mem => zero demand' (List.mem_cons_of_mem _ mem)) ?_
      cases asked : rbdcPackets format demand with
      | none =>
          rw [RbdcRequests.add_of_none asked]
          exact none
      | some request =>
          rw [RbdcRequests.add_of_some asked]
          dsimp only
          rw [TreeMap.getD_insert]
          split
          next same =>
            exact zero demand List.mem_cons_self (Nat.compare_eq_eq.mp same) request asked
          next => exact none

/-- No packet is requested for a silent terminal. -/
theorem rbdcRequests_silent (h : run.Holds (Silent talId)) (tal : List Nat) :
    (run.rbdcRequests tal).2.talRequestPktpf.getD talId 0 = 0 := by
  rw [rbdcRequests, (foldl_rbdcRequest run ⟨∅, 0⟩ tal).2]
  refine foldl_add_getD_zero (fun demand mem same request asked => ?_) TreeMap.getD_emptyc
  obtain ⟨i, -, found⟩ := List.mem_filterMap.mp mem
  rw [demands, List.getElem?_map] at found
  obtain ⟨terminal, found', rfl⟩ := Option.map_eq_some_iff.mp found
  obtain ⟨-, unserved | ⟨nothing, -⟩⟩ := h terminal (List.mem_of_getElem? found') same
  · rw [rbdcPackets, show terminal.demand.fmt = none from unserved] at asked
    cases asked
  · obtain ⟨fmt, -, rfl⟩ := Option.map_eq_some_iff.mp asked
    rw [show terminal.demand.rbdcRequestKbps = 0 from nothing, packets_zero]

theorem removeFec_pktpfToKbps_zero (converter : UnitConverterFixedSymbolLength)
    (fmt : FmtDefinition) : fmt.removeFec (converter.pktpfToKbps 0) = 0 := by
  simp [FmtDefinition.removeFec, UnitConverterFixedSymbolLength.pktpfToKbps, ceilW, wrap]

/-- The terminal at a position has another identifier. -/
def OtherAt (talId i : Nat) (run : Allocation) : Prop :=
  ∀ terminal, run.terminals[i]? = some terminal → terminal.talId ≠ talId

theorem Holds.update_other {f : TerminalContextDamaRcs → TerminalContextDamaRcs}
    (sameId : ∀ terminal, (f terminal).talId = terminal.talId)
    (h : run.Holds (Silent talId) ∧ OtherAt talId i run) :
    (run.update i f).Holds (Silent talId) ∧ OtherAt talId i (run.update i f) := by
  obtain ⟨silent, other⟩ := h
  refine ⟨silent.update_at fun terminal found _ same => ?_, fun terminal found => ?_⟩
  · rw [sameId] at same
    exact absurd same (other terminal found)
  · simp only [Allocation.update, List.getElem?_modify, if_pos] at found
    obtain ⟨before, found', rfl⟩ := Option.map_eq_some_iff.mp found
    rw [sameId]
    exact other before found'

theorem rbdcInteger_silent {requests : TreeMap Nat Nat} (ratio : ℚ) (i : Nat)
    (none : requests.getD talId 0 = 0) (h : run.Holds (Silent talId)) :
    (rbdcInteger requests ratio run i).Holds (Silent talId) := by
  refine forServed_holds h fun terminal fmt found served => ?_
  have start : (run.withEfficiency fmt).Holds (Silent talId) := h
  dsimp only
  by_cases same : terminal.talId = talId
  · rw [same, none]
    simp only [Nat.cast_zero, zero_div, Nat.floor_zero, wrap, Nat.zero_mod, sub_zero, zero_mul,
      removeFec_pktpfToKbps_zero]
    have integer : ((run.withEfficiency fmt).update i (·.setRbdcAllocation 0)).Holds
        (Silent talId) :=
      start.update fun terminal silent same => ⟨rfl, (silent same).2⟩
    split
    · refine Holds.update ?_ fun terminal silent same => ?_
      · exact integer
      · simpa [TerminalContextDamaRcs.addRbdcCredit] using silent same
    · exact integer
  · have other : OtherAt talId i (run.withEfficiency fmt) := by
      intro terminal' found'
      obtain rfl : terminal = terminal' := Option.some.inj (found.symm.trans found')
      exact same
    have integer := fun kbps => Holds.update_other
      (f := (·.setRbdcAllocation kbps)) (fun _ => rfl) ⟨start, other⟩
    split
    · refine (Holds.update_other ?_ ?_).1
      · exact fun _ => rfl
      · exact integer _
    · exact (integer _).1

theorem rbdcDecimal_silent (h : run.Holds (Silent talId)) :
    (rbdcDecimal run i).Holds (Silent talId) := by
  refine forServed_holds h fun terminal fmt found served => ?_
  have start : (run.withEfficiency fmt).Holds (Silent talId) := h
  dsimp only
  split
  next enough =>
    have other : OtherAt talId i (run.withEfficiency fmt) := by
      intro terminal' found' same
      obtain rfl : terminal = terminal' := Option.some.inj (found.symm.trans found')
      obtain ⟨-, unserved | ⟨-, none⟩⟩ := h terminal (List.mem_of_getElem? found) same
      · rw [served] at unserved
        cases unserved
      · rw [none] at enough
        exact absurd enough.1 (Nat.cast_nonneg _).not_gt
    have decimal := fun (slotKbps : Nat) (credit : ℚ) => Holds.update_other
      (f := fun terminal => (terminal.setRbdcAllocation
        (addW 16 terminal.rbdcAllocKbps slotKbps)).addRbdcCredit credit)
      (fun _ => rfl) ⟨start, other⟩
    exact (decimal _ _).1
  next => exact start

theorem rbdcDecimals_silent (tal : List Nat) (h : run.Holds (Silent talId)) :
    (rbdcDecimals run tal).Holds (Silent talId) := by
  induction tal generalizing run with
  | nil => exact h
  | cons i tal ih =>
      rw [rbdcDecimals]
      split
      · exact ih (rbdcDecimal_silent h)
      · exact h

theorem computeDamaRbdcPerCarrier_silent (h : run.Holds (Silent talId)) :
    run.computeDamaRbdcPerCarrier.Holds (Silent talId) := by
  have start : run.start.Holds (Silent talId) := h
  have none := rbdcRequests_silent start run.start.inCarriersGroup
  have requested :
      (run.start.rbdcRequests run.start.inCarriersGroup).1.resetAlloc.Holds (Silent talId) := by
    show (run.start.rbdcRequests run.start.inCarriersGroup).1.Holds (Silent talId)
    rw [Allocation.Holds, rbdcRequests, rbdcRequests_terminals]
    exact h
  unfold computeDamaRbdcPerCarrier
  dsimp only
  split
  · exact start
  · split
    · exact requested
    · have integers := fun ratio => foldl_holds
        (fun run i h => rbdcInteger_silent ratio i none h)
        run.start.inCarriersGroup requested
      split
      · exact rbdcDecimals_silent _ (integers _)
      · exact integers _

end Allocation

/-! ### The requests and the resets -/

namespace TerminalContextDamaRcs

theorem foldl_hereIsRequest_rbdcAllocKbps (requests : List DecodedCr)
    (terminal : TerminalContextDamaRcs) :
    (requests.foldl hereIsRequest terminal).rbdcAllocKbps = terminal.rbdcAllocKbps := by
  refine foldl_hereIsRequest (fun terminal cr => ?_) requests terminal
  unfold hereIsRequest
  split <;> rfl

variable (converter : UnitConverterFixedSymbolLength) (terminal : TerminalContextDamaRcs)

/-- A terminal without credit keeps its request. -/
theorem reset_of_not_hasCredit (none : terminal.hasCredit = false) :
    terminal.reset converter = (true, terminal.resetAllocations.decrementTimer) := by
  unfold reset
  rw [if_neg (by rw [none]; exact Bool.false_ne_true)]

theorem reset_spec : (terminal.reset converter).2.talId = terminal.talId ∧
    (terminal.reset converter).2.fmt = terminal.fmt ∧
      (terminal.reset converter).2.rbdcAllocKbps = 0 := by
  cases credit : terminal.hasCredit with
  | false =>
      rw [reset_of_not_hasCredit _ _ credit, resetAllocations_eq]
      exact ⟨rfl, rfl, rfl⟩
  | true =>
      unfold reset
      rw [if_pos credit, resetAllocations_eq]
      cases served : terminal.fmt with
      | none => exact ⟨rfl, rfl, rfl⟩
      | some fmt => exact ⟨rfl, rfl, rfl⟩

end TerminalContextDamaRcs

namespace DamaCtrlRcs2Legacy

variable {legacy : DamaCtrlRcs2Legacy} {waveForms : Nat → Nat × Option FmtDefinition}

/-- The terminals that a superframe starts from. -/
theorem mem_prepare {terminal : TerminalContextDamaRcs}
    (mem : terminal ∈ (legacy.prepare waveForms).2.terminals) :
    ∃ before ∈ legacy.terminals, terminal =
      (TerminalContextDamaRcs.reset legacy.ctrl.converter { before with
        carrierId := (waveForms before.talId).1
        fmt := (waveForms before.talId).2 }).2 := by
  have converter : (legacy.resetCarriersCapacity.updateWaveForms waveForms).ctrl.converter =
      legacy.ctrl.converter := foldl_resetCategory_converter legacy.categories legacy.ctrl
  obtain ⟨reset, mem', rfl⟩ := mem_mapTerminals mem
  obtain ⟨before, mem'', rfl⟩ := mem_mapTerminals mem'
  refine ⟨before, ?_, by rw [converter]⟩
  simpa [terminals, resetCarriersCapacity, List.flatMap_map] using mem''

/-- The superframe comes to the RBDC. -/
def rbdcComputed (legacy : DamaCtrlRcs2Legacy) (waveForms : Nat → Nat × Option FmtDefinition) :
    Bool :=
  (legacy.prepare waveForms).1 && (legacy.prepare waveForms).2.enableRbdc &&
    (legacy.prepare waveForms).2.craAccepted

theorem notMem_superframe {fuel : Nat}
    (skipped : legacy.enableRbdc = false ∨ legacy.craAccepted = false) (position : Nat × Nat) :
    .rbdc position ∉ legacy.superframe fuel := by
  unfold superframe
  rcases skipped with disabled | refused
  · rw [disabled]
    split
    · simp only [Bool.false_eq_true, ↓reduceIte, List.nil_append, List.mem_append, List.mem_map,
        reduceCtorEq, and_false, exists_false, false_or, not_or]
      constructor
      · split
        · simp
        · simp
      · split
        · simp
        · simp
    · simp
  · rw [refused]
    simp

end DamaCtrlRcs2Legacy

/-! ### Runs -/

/-- The controller and, for each terminal, the superframes since its last RBDC request. -/
structure RbdcWatch where
  legacy : DamaCtrlRcs2Legacy
  age : Nat → Option Nat

namespace RbdcWatch

variable {isGw : Nat → Bool} {timeoutSf : Nat} {watch watch' : RbdcWatch}

/-- A controller that has received no request. -/
def start (legacy : DamaCtrlRcs2Legacy) : RbdcWatch := ⟨legacy, fun _ => none⟩

def nextAge (watch : RbdcWatch) : DamaEvent → Nat → Option Nat
  | .sac talId requests =>
      if watch.legacy.terminals.any (·.talId = talId) &&
          requests.any (·.type = some .damaRbdc) then Function.update watch.age talId (some 0)
      else watch.age
  | .superframe _ _ => fun talId => (watch.age talId).map (· + 1)

def step (isGw : Nat → Bool) (watch : RbdcWatch) (event : DamaEvent) : Option RbdcWatch :=
  (watch.legacy.step isGw event).map fun legacy => ⟨legacy, watch.nextAge event⟩

/-- There was a request, more than a timeout ago. -/
def Old (timeoutSf : Nat) (age : Option Nat) : Prop := ∃ sf, age = some sf ∧ timeoutSf < sf

instance (timeoutSf : Nat) (age : Option Nat) : Decidable (Old timeoutSf age) :=
  decidable_of_iff (age.any fun sf => timeoutSf < sf) (by simp [Old, Option.any_eq_true])

/-- No RBDC is allocated to the terminals whose last request has expired. -/
def Expires (timeoutSf : Nat) (watch : RbdcWatch) : Prop :=
  ∀ terminal ∈ watch.legacy.terminals, Old timeoutSf (watch.age terminal.talId) →
    terminal.rbdcAllocKbps = 0

/-- A superframe that computes the RBDC finds nothing left of the requests that expire. -/
def Exhausted (timeoutSf : Nat) (watch : RbdcWatch) : DamaEvent → Prop
  | .sac _ _ => True
  | .superframe waveForms _ =>
      watch.legacy.rbdcComputed waveForms = true →
        ∀ terminal ∈ watch.legacy.terminals,
          Old timeoutSf ((watch.age terminal.talId).map (· + 1)) →
            (waveForms terminal.talId).2 = none ∨
              terminal.rbdcRequestKbps = 0 ∧ terminal.rbdcCredit = 0

instance (timeoutSf : Nat) (watch : RbdcWatch) :
    ∀ event, Decidable (watch.Exhausted timeoutSf event)
  | .sac _ _ => isTrue trivial
  | .superframe waveForms _ =>
      inferInstanceAs (Decidable (watch.legacy.rbdcComputed waveForms = true → ∀ _, _))

theorem sac_expires {talId : Nat} {requests : List DecodedCr} (expires : watch.Expires timeoutSf)
    (taken : watch.step isGw (.sac talId requests) = some watch') :
    watch'.Expires timeoutSf := by
  obtain ⟨legacy, received, rfl⟩ := Option.map_eq_some_iff.mp taken
  unfold DamaCtrlRcs2Legacy.step DamaCtrlRcs2Legacy.hereIsSAC at received
  dsimp only at received
  split at received
  next known =>
    cases received
    intro terminal mem old
    obtain ⟨before, mem', rfl⟩ := DamaCtrlRcs2Legacy.mem_mapTerminals mem
    have kept : (if before.talId = talId then requests.foldl (·.hereIsRequest) before
        else before).talId = before.talId ∧ (if before.talId = talId then
          requests.foldl (·.hereIsRequest) before else before).rbdcAllocKbps =
            before.rbdcAllocKbps := by
      split
      · exact ⟨TerminalContextDamaRcs.foldl_hereIsRequest_talId requests before,
          TerminalContextDamaRcs.foldl_hereIsRequest_rbdcAllocKbps requests before⟩
      · exact ⟨rfl, rfl⟩
    rw [kept.1] at old
    rw [kept.2]
    unfold nextAge at old
    dsimp only at old
    split at old
    next asked =>
      by_cases same : before.talId = talId
      · obtain ⟨sf, now, less⟩ := old
        rw [same, Function.update_self] at now
        cases now
        omega
      · rw [Function.update_of_ne same] at old
        exact expires before mem' old
    next => exact expires before mem' old
  next unknown =>
    have same : watch.nextAge (.sac talId requests) = watch.age := by
      rw [nextAge, Bool.eq_false_of_not_eq_true unknown]
      rfl
    split at received
    · cases received
    · cases received
      rw [same]
      exact expires

theorem superframe_expires {waveForms : Nat → Nat × Option FmtDefinition} {fuel : Nat}
    (exhausted : watch.Exhausted timeoutSf (.superframe waveForms fuel))
    (taken : watch.step isGw (.superframe waveForms fuel) = some watch') :
    watch'.Expires timeoutSf := by
  obtain ⟨legacy, allocated, rfl⟩ := Option.map_eq_some_iff.mp taken
  intro terminal mem old
  unfold DamaCtrlRcs2Legacy.step DamaCtrlRcs2Legacy.runOnSuperFrameChange at allocated
  dsimp only at allocated
  by_cases computed : watch.legacy.rbdcComputed waveForms = true
  · -- the terminal was silent after its reset, and no allocation changes that
    have silent : (watch.legacy.prepare waveForms).2.Holds (Silent terminal.talId) := by
      intro prepared mem' same
      obtain ⟨first, mem'', rfl⟩ := DamaCtrlRcs2Legacy.mem_prepare mem'
      obtain ⟨talId, fmt, alloc⟩ := TerminalContextDamaRcs.reset_spec
        watch.legacy.ctrl.converter { first with
          carrierId := (waveForms first.talId).1
          fmt := (waveForms first.talId).2 }
      refine ⟨alloc, ?_⟩
      rw [fmt]
      have id : first.talId = terminal.talId := talId.symm.trans same
      rcases exhausted computed first mem'' (id ▸ old) with unserved | ⟨none, credit⟩
      · exact .inl unserved
      · right
        rw [TerminalContextDamaRcs.reset_of_not_hasCredit _ _
          (by simp [TerminalContextDamaRcs.hasCredit, credit]),
          TerminalContextDamaRcs.resetAllocations_eq]
        exact ⟨none, credit⟩
    split at allocated
    next ok =>
      have kept := DamaCtrlRcs2Legacy.run_allocateGroup_holds
        (fun _ _ silent same => silent same)
        (fun _ _ h => computeDamaRbdcPerCarrier_silent h) (fun _ _ silent same => silent same)
        (fun _ _ silent same => silent same) silent allocated
      exact (kept terminal mem rfl).1
    next failed =>
      cases allocated
      exact (silent terminal mem rfl).1
  · -- the reset takes the allocations back, and the RBDC is not computed
    have none : (watch.legacy.prepare waveForms).2.Holds (·.rbdcAllocKbps = 0) := by
      intro prepared mem'
      obtain ⟨first, -, rfl⟩ := DamaCtrlRcs2Legacy.mem_prepare mem'
      exact (TerminalContextDamaRcs.reset_spec _ _).2.2
    split at allocated
    next ok =>
      have skipped : (watch.legacy.prepare waveForms).2.enableRbdc = false ∨
          (watch.legacy.prepare waveForms).2.craAccepted = false := by
        rw [DamaCtrlRcs2Legacy.rbdcComputed, ok, Bool.true_and, Bool.and_eq_true, not_and_or]
          at computed
        rcases computed with disabled | refused
        · exact .inl (Bool.eq_false_of_not_eq_true disabled)
        · exact .inr (Bool.eq_false_of_not_eq_true refused)
      have kept := DamaCtrlRcs2Legacy.run_allocateGroup_holds (fun _ _ none => none)
        (fun ⟨position, scheduled⟩ =>
          absurd scheduled (DamaCtrlRcs2Legacy.notMem_superframe skipped position))
        (fun _ _ none => none) (fun _ _ none => none) none allocated
      exact kept terminal mem
    next failed =>
      cases allocated
      exact none terminal mem

/-- **The RBDC requests expire** in the runs whose superframes find nothing left of them. -/
theorem expires_of_exhausted (isGw : Nat → Bool) (timeoutSf : Nat) (legacy : DamaCtrlRcs2Legacy)
    (events : List DamaEvent)
    (exhausted : AllSteps (step isGw) (Exhausted timeoutSf) (start legacy) events) :
    AllStates (step isGw) (Expires timeoutSf) (start legacy) events := by
  refine allStates_of_allSteps (fun _ _ ⟨_, never, _⟩ => nomatch never) ?_ exhausted
  intro watch event watch' expires exhausted taken
  cases event with
  | sac talId requests => exact sac_expires expires taken
  | superframe waveForms fuel => exact superframe_expires exhausted taken

/-! ### A request that does not expire -/

/-- One terminal, with an RBDC timeout of one superframe. -/
def timedLegacy : DamaCtrlRcs2Legacy :=
  { DamaCtrlRcs2Legacy.wideLegacy 0 [] with
    categories := [⟨"Standard", [{ DamaCtrlRcs2Legacy.askingTerminal 0 1 with rbdcTimeoutSf := 1 }],
      [DamaCtrlRcs2Legacy.wideCarriers]⟩] }

/-- The wave forms of QPSK 1/2 on the first group. -/
def sampleWaveForms : Nat → Nat × Option FmtDefinition :=
  fun _ => (0, some ⟨7, 2, 1 / 2, "1/2", 99 / 100, 1⟩)

def rbdcRequestOf (kbps : Nat) : DamaEvent := .sac 1 [⟨0, some .damaRbdc, kbps⟩]

/-- A request that is taken back before it is too old. -/
theorem takenBack_expires :
    AllStates (step fun _ => false) (Expires 1) (start timedLegacy)
      [rbdcRequestOf 100, .superframe sampleWaveForms 0, rbdcRequestOf 0,
        .superframe sampleWaveForms 0, .superframe sampleWaveForms 0] :=
  expires_of_exhausted (fun _ => false) 1 timedLegacy _ (by decide +kernel)

/-- Two superframes after the request, it is still served. -/
theorem timedLegacy_not_expires :
    ¬ AllStates (step fun _ => false) (Expires 1) (start timedLegacy)
      [rbdcRequestOf 100, .superframe sampleWaveForms 0, .superframe sampleWaveForms 0] := by
  have served : (run (step fun _ => false) (start timedLegacy)
      [rbdcRequestOf 100, .superframe sampleWaveForms 0, .superframe sampleWaveForms 0]).map
        (fun watch => (watch.legacy.terminals.map fun terminal =>
          (terminal.talId, terminal.rbdcAllocKbps), watch.age 1)) = some ([(1, 100)], some 2) := by
    decide +kernel
  obtain ⟨watch, ends, seen⟩ := Option.map_eq_some_iff.mp served
  obtain ⟨allocated, age⟩ := Prod.mk.inj seen
  intro states
  have mem : (1, 100) ∈ watch.legacy.terminals.map fun terminal =>
      (terminal.talId, terminal.rbdcAllocKbps) := by
    rw [allocated]
    exact List.mem_singleton_self _
  obtain ⟨terminal, on, same⟩ := List.mem_map.mp mem
  obtain ⟨talId, alloc⟩ := Prod.mk.inj same
  have expired := states.last ends terminal on ⟨2, by rw [talId, age], by decide⟩
  omega

end RbdcWatch

end OpenSand
