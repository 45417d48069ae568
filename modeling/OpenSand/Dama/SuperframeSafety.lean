import OpenSand.Dama.PhaseCapacity

/-!
Capacity safety of the DAMA allocations of a superframe.

The controller goes over all groups in each of the four allocations. What the safety
of a group depends on (`view`) is only changed by the allocation on that group, so
the four of them follow each other on it as if it were alone.
-/

namespace OpenSand

open OpenSand.Word OpenSand.FairShare Allocation

namespace DamaCtrlRcs2Legacy

/-- What the safety of a group depends on, and the packets granted on it. -/
def view (legacy : DamaCtrlRcs2Legacy) (position : Nat × Nat) : Option (Outlook × List Nat) :=
  (legacy.group position).map fun run => (run.outlook, run.grants)

theorem group_eq_some_iff {legacy : DamaCtrlRcs2Legacy} {position : Nat × Nat}
    {run : Allocation} :
    legacy.group position = some run ↔
      ∃ category, legacy.categories[position.1]? = some category ∧
        ∃ carriers, category.carriersGroups[position.2]? = some carriers ∧
          run = ⟨legacy.ctrl, category.label, category.terminals, carriers, 0, 0, 0,
            legacy.grants position⟩ := by
  simp only [group, Option.bind_eq_bind, Option.bind_eq_some_iff, Option.some.injEq, @eq_comm _ run]

/-! ### The groups of the controller -/

theorem mem_positions {legacy : DamaCtrlRcs2Legacy} {position : Nat × Nat} {run : Allocation}
    (h : legacy.group position = some run) : position ∈ legacy.positions := by
  obtain ⟨category, hcategory, carriers, hcarriers, -⟩ := group_eq_some_iff.mp h
  refine Grid.mem_positions ?_ (List.getElem?_eq_some_iff.mp hcarriers).1
  rw [List.getElem?_map, hcategory]
  rfl

theorem positions_nodup (legacy : DamaCtrlRcs2Legacy) : legacy.positions.Nodup :=
  Grid.positions_nodup _

theorem view_eq (legacy : DamaCtrlRcs2Legacy) (position : Nat × Nat) :
    legacy.view position =
      (legacy.categories[position.1]?).bind fun category =>
        (category.carriersGroups[position.2]?).map fun carriers =>
          (⟨category.terminals.map (·.demand),
            (legacy.ctrl.converter.frameDurationMs, legacy.ctrl.converter.packetLengthSym),
            carriers⟩, legacy.grants position) := by
  rw [view, group]
  cases legacy.categories[position.1]? with
  | none => rfl
  | some category =>
      dsimp only [Option.bind_eq_bind, Option.bind_some]
      cases category.carriersGroups[position.2]? <;> rfl

theorem view_store_self {legacy : DamaCtrlRcs2Legacy} {position : Nat × Nat} {before : Allocation}
    (h : legacy.group position = some before) (run : Allocation) :
    (legacy.store position run).view position = some (run.outlook, run.grants) := by
  obtain ⟨category, hcategory, carriers, hcarriers, -⟩ := group_eq_some_iff.mp h
  have bound := (List.getElem?_eq_some_iff.mp hcarriers).1
  rw [view_eq, store]
  simp only [List.getElem?_modify, hcategory, if_pos, Option.map_eq_map, Option.map_some,
    Option.bind_some, List.getElem?_set_self bound, Function.update_self]
  rfl

/-- An allocation on another group changes nothing that matters for this one. -/
theorem view_store_of_ne {legacy : DamaCtrlRcs2Legacy} {position other : Nat × Nat}
    {before run : Allocation} (h : legacy.group other = some before) (kept : Kept before run)
    (ne : other ≠ position) : (legacy.store other run).view position = legacy.view position := by
  obtain ⟨category, hcategory, carriers, hcarriers, rfl⟩ := group_eq_some_iff.mp h
  have format : (run.ctrl.converter.frameDurationMs, run.ctrl.converter.packetLengthSym) =
      (legacy.ctrl.converter.frameDurationMs, legacy.ctrl.converter.packetLengthSym) :=
    kept.packetFormat
  have demands : run.terminals.map (·.demand) = category.terminals.map (·.demand) := kept.demands
  rw [view_eq, view_eq, store]
  simp only [List.getElem?_modify, format, Function.update_of_ne ne.symm]
  by_cases same : other.1 = position.1
  · have groups : other.2 ≠ position.2 := fun eq => ne (Prod.ext same eq)
    rw [← same, hcategory]
    simp [demands, List.getElem?_set_ne groups]
  · simp [same]

/-! ### One allocation over all groups -/

section Phase

variable {phase : Allocation → Allocation}

theorem onGroup_of_none {legacy : DamaCtrlRcs2Legacy} {position : Nat × Nat}
    (h : legacy.group position = none) : onGroup phase legacy position = legacy := by
  rw [onGroup, h]

theorem onGroup_of_some {legacy : DamaCtrlRcs2Legacy} {position : Nat × Nat} {run : Allocation}
    (h : legacy.group position = some run) :
    onGroup phase legacy position = legacy.store position (phase run) := by
  rw [onGroup, h]

theorem view_onGroup_of_ne (kept : ∀ run, Kept run (phase run)) (legacy : DamaCtrlRcs2Legacy)
    {position other : Nat × Nat} (ne : other ≠ position) :
    (onGroup phase legacy other).view position = legacy.view position := by
  cases h : legacy.group other with
  | none => rw [onGroup_of_none h]
  | some run => rw [onGroup_of_some h, view_store_of_ne h (kept run) ne]

theorem view_foldl_of_notMem (kept : ∀ run, Kept run (phase run)) {position : Nat × Nat}
    (positions : List (Nat × Nat)) (notMem : position ∉ positions) (legacy : DamaCtrlRcs2Legacy) :
    (positions.foldl (onGroup phase) legacy).view position = legacy.view position := by
  induction positions generalizing legacy with
  | nil => rfl
  | cons other positions ih =>
      rw [List.mem_cons, not_or] at notMem
      rw [List.foldl_cons, ih notMem.2, view_onGroup_of_ne kept legacy (Ne.symm notMem.1)]

theorem foldl_onGroup_enableRbdc (positions : List (Nat × Nat)) (legacy : DamaCtrlRcs2Legacy) :
    (positions.foldl (onGroup phase) legacy).enableRbdc = legacy.enableRbdc := by
  induction positions generalizing legacy with
  | nil => rfl
  | cons position positions ih =>
      rw [List.foldl_cons, ih]
      cases h : legacy.group position with
      | none => rw [onGroup_of_none h]
      | some run => rw [onGroup_of_some h]; rfl

/-- The allocation over all groups is, for one of them, the allocation on it. -/
theorem view_foldl (kept : ∀ run, Kept run (phase run)) {legacy : DamaCtrlRcs2Legacy}
    {position : Nat × Nat} {outlook : Outlook} {granted : List Nat}
    (h : legacy.view position = some (outlook, granted)) :
    ∃ run, run.outlook = outlook ∧ run.grants = granted ∧
      (legacy.positions.foldl (onGroup phase) legacy).view position =
        some ((phase run).outlook, (phase run).grants) := by
  obtain ⟨_, hgroup, -⟩ := Option.map_eq_some_iff.mp h
  obtain ⟨before, after, split, notBefore, notAfter⟩ :=
    Grid.positions_split (mem_positions hgroup)
  have arrived := view_foldl_of_notMem kept before notBefore legacy
  rw [h] at arrived
  obtain ⟨run, hrun, same⟩ := Option.map_eq_some_iff.mp arrived
  refine ⟨run, congrArg Prod.fst same, congrArg Prod.snd same, ?_⟩
  rw [positions, split, List.foldl_append, List.foldl_cons,
    view_foldl_of_notMem kept after notAfter, onGroup_of_some hrun, view_store_self hrun]

end Phase

/-! ### The CRA of all groups -/

/-- The CRA of a group allocates at least what its terminals request. -/
def accepts (seen : Option (Outlook × List Nat)) : Bool :=
  seen.all fun (outlook, _) => outlook.craTally.request ≤ outlook.craTally.alloc

/-- The CRA is allocated on every group. -/
def craAccepted (legacy : DamaCtrlRcs2Legacy) : Bool :=
  legacy.positions.all fun position => accepts (legacy.view position)

theorem craGroup_eq (state : DamaCtrlRcs2Legacy × Bool) (position : Nat × Nat) :
    craGroup state position =
      (onGroup computeDamaCraPerCarrier state.1 position,
        state.2 && accepts (state.1.view position)) := by
  unfold craGroup
  cases h : state.1.group position with
  | none => rw [onGroup_of_none h, view, h, Option.map_none, accepts, Option.all_none, Bool.and_true]
  | some run =>
      have tally := run.computeDamaCraPerCarrier_craTally
      rw [onGroup_of_some h, view, h, Option.map_some, accepts, Option.all_some]
      dsimp only
      rw [← tally]
      rfl

theorem foldl_craGroup (positions : List (Nat × Nat)) (nodup : positions.Nodup)
    (legacy : DamaCtrlRcs2Legacy) (accepted : Bool) :
    positions.foldl craGroup (legacy, accepted) =
      (positions.foldl (onGroup computeDamaCraPerCarrier) legacy,
        accepted && positions.all fun position => accepts (legacy.view position)) := by
  induction positions generalizing legacy accepted with
  | nil => rw [List.all_nil, Bool.and_true]; rfl
  | cons other positions ih =>
      rw [List.nodup_cons] at nodup
      have others : (positions.all fun position =>
          accepts ((onGroup computeDamaCraPerCarrier legacy other).view position)) =
            positions.all fun position => accepts (legacy.view position) := by
        rw [Bool.eq_iff_iff, List.all_eq_true, List.all_eq_true]
        apply forall₂_congr
        intro position mem
        rw [view_onGroup_of_ne computeDamaCraPerCarrier_kept]
        rintro rfl
        exact nodup.1 mem
      rw [List.foldl_cons, craGroup_eq, ih nodup.2, others, List.all_cons, Bool.and_assoc]
      rfl

theorem computeTerminalsCraAllocation_eq (legacy : DamaCtrlRcs2Legacy) :
    legacy.computeTerminalsCraAllocation =
      (legacy.positions.foldl (onGroup computeDamaCraPerCarrier) legacy, legacy.craAccepted) :=
  foldl_craGroup legacy.positions legacy.positions_nodup legacy true

/-! ### The four allocations on a group -/

end DamaCtrlRcs2Legacy

/-- What a group offers after some grants. -/
def Outlook.after (outlook : Outlook) (granted : List Nat) : Outlook :=
  { outlook with
    carriers := outlook.carriers.setRemainingCapacity
      (spend 16 outlook.carriers.remainingCapacity granted) }

theorem Allocation.Served.outlook {run run' : Allocation} {granted : List Nat}
    (h : Served run run' granted) : run'.outlook = run.outlook.after granted := by
  rw [Allocation.outlook, h.demands, h.packetFormat, h.carriers]
  rfl

theorem Outlook.after_lt {outlook : Outlook} (word : outlook.carriers.remainingCapacity < 2 ^ 16)
    (granted : List Nat) : (outlook.after granted).carriers.remainingCapacity < 2 ^ 16 :=
  spend_lt word granted

namespace DamaCtrlRcs2Legacy

variable {legacy : DamaCtrlRcs2Legacy} {position : Nat × Nat} {outlook : Outlook}
  {before : List Nat}

theorem grants_of_view (h : legacy.view position = some (outlook, before)) :
    legacy.grants position = before := by
  obtain ⟨run, hgroup, same⟩ := Option.map_eq_some_iff.mp h
  obtain ⟨_, _, _, _, rfl⟩ := group_eq_some_iff.mp hgroup
  exact congrArg Prod.snd same

theorem view_cra (h : legacy.view position = some (outlook, before))
    (word : outlook.carriers.remainingCapacity < 2 ^ 16) :
    ∃ granted, granted.sum ≤ outlook.carriers.remainingCapacity ∧
      (outlook.after granted).carriers.remainingCapacity = outlook.craTally.remainingPktpf ∧
      legacy.computeTerminalsCraAllocation.1.view position =
        some (outlook.after granted, before ++ granted) := by
  obtain ⟨run, rfl, rfl, seen⟩ := view_foldl computeDamaCraPerCarrier_kept h
  obtain ⟨granted, served, le⟩ := computeDamaCraPerCarrier_served word
  refine ⟨granted, le, ?_, ?_⟩
  · rw [← served.outlook, ← run.computeDamaCraPerCarrier_craTally]
    rfl
  · rw [computeTerminalsCraAllocation_eq, seen, served.outlook, served.grants]

theorem view_rbdc (h : legacy.view position = some (outlook, before))
    (word : outlook.carriers.remainingCapacity < 2 ^ 16)
    (nodup : (outlook.onGroup.map (·.talId)).Nodup) :
    ∃ granted,
      (granted.sum ≤ outlook.carriers.remainingCapacity ↔
        FairSharesFit outlook.carriers.remainingCapacity outlook.rbdcRequests) ∧
      legacy.computeTerminalsRbdcAllocation.view position =
        some (outlook.after granted, before ++ granted) := by
  obtain ⟨run, rfl, rfl, seen⟩ := view_foldl computeDamaRbdcPerCarrier_kept h
  obtain ⟨granted, served, fits⟩ := computeDamaRbdcPerCarrier_served word nodup
  refine ⟨granted, fits, ?_⟩
  rw [computeTerminalsRbdcAllocation, seen, served.outlook, served.grants]

theorem view_vbdc (h : legacy.view position = some (outlook, before))
    (word : outlook.carriers.remainingCapacity < 2 ^ 16) :
    ∃ granted, granted.sum ≤ outlook.carriers.remainingCapacity ∧
      legacy.computeTerminalsVbdcAllocation.view position =
        some (outlook.after granted, before ++ granted) := by
  obtain ⟨run, rfl, rfl, seen⟩ := view_foldl computeDamaVbdcPerCarrier_kept h
  obtain ⟨granted, served, le⟩ := computeDamaVbdcPerCarrier_served word
  refine ⟨granted, le, ?_⟩
  rw [computeTerminalsVbdcAllocation, seen, served.outlook, served.grants]

theorem grants_fcaGroups_of_notMem (fuel : Nat) (positions : List (Nat × Nat))
    (notMem : position ∉ positions) (h : legacy.view position = some (outlook, before)) :
    (fcaGroups fuel legacy positions).grants position = before := by
  induction positions generalizing legacy with
  | nil => exact grants_of_view h
  | cons other positions ih =>
      rw [List.mem_cons, not_or] at notMem
      rw [fcaGroups]
      cases hgroup : legacy.group other with
      | none => exact ih notMem.2 h
      | some run =>
          obtain ⟨_, kept, -, -⟩ := computeDamaFcaPerCarrier_affords fuel run
          have seen := view_store_of_ne hgroup kept (Ne.symm notMem.1)
          rw [h] at seen
          dsimp only
          split
          · exact ih notMem.2 seen
          · exact grants_of_view seen

theorem grants_fcaGroups (fuel : Nat) (positions : List (Nat × Nat)) (nodup : positions.Nodup)
    (h : legacy.view position = some (outlook, before)) :
    ∃ granted, granted.sum ≤ wrap 16 outlook.carriers.remainingCapacity ∧
      (fcaGroups fuel legacy positions).grants position = before ++ granted := by
  induction positions generalizing legacy with
  | nil => exact ⟨[], Nat.zero_le _, by rw [List.append_nil]; exact grants_of_view h⟩
  | cons other positions ih =>
      rw [List.nodup_cons] at nodup
      rw [fcaGroups]
      cases hgroup : legacy.group other with
      | none => exact ih nodup.2 h
      | some run =>
          obtain ⟨granted, kept, grants, le⟩ := computeDamaFcaPerCarrier_affords fuel run
          dsimp only
          by_cases same : other = position
          · subst same
            have seen := view_store_self hgroup (run.computeDamaFcaPerCarrier fuel).1
            rw [view, hgroup] at h
            obtain ⟨rfl, rfl⟩ := Prod.mk.inj (Option.some.inj h)
            refine ⟨granted, le, ?_⟩
            split
            · rw [grants_fcaGroups_of_notMem fuel positions nodup.1 seen, grants]
            · rw [grants_of_view seen, grants]
          · have seen := view_store_of_ne hgroup kept same
            rw [h] at seen
            split
            · exact ih nodup.2 seen
            · exact ⟨[], Nat.zero_le _, by rw [List.append_nil]; exact grants_of_view seen⟩

theorem grants_fca (fuel : Nat) (h : legacy.view position = some (outlook, before))
    (word : outlook.carriers.remainingCapacity < 2 ^ 16) :
    ∃ granted, granted.sum ≤ outlook.carriers.remainingCapacity ∧
      (legacy.computeTerminalsFcaAllocation fuel).grants position = before ++ granted := by
  unfold computeTerminalsFcaAllocation
  split
  · exact ⟨[], Nat.zero_le _, by rw [List.append_nil]; exact grants_of_view h⟩
  · obtain ⟨granted, le, grants⟩ := grants_fcaGroups fuel _ legacy.positions_nodup h
    rw [wrap_of_lt word] at le
    exact ⟨granted, le, grants⟩

/-- What comes after RBDC never grants more than what remains. -/
theorem grants_after_rbdc (fuel : Nat) (h : legacy.view position = some (outlook, before))
    (word : outlook.carriers.remainingCapacity < 2 ^ 16) :
    ∃ granted, granted.sum ≤ outlook.carriers.remainingCapacity ∧
      (computeTerminalsFcaAllocation fuel
        (if legacy.enableVbdc then legacy.computeTerminalsVbdcAllocation else legacy)).grants
          position = before ++ granted := by
  split
  · obtain ⟨volumes, le, seen⟩ := view_vbdc h word
    obtain ⟨granted, le', grants⟩ := grants_fca fuel seen (Outlook.after_lt word volumes)
    refine ⟨volumes ++ granted, ?_, by rw [grants, List.append_assoc]⟩
    rw [Outlook.after, CarriersGroupDama.setRemainingCapacity, spend_of_sum_le word le] at le'
    rw [List.sum_append]
    dsimp only at le'
    omega
  · exact grants_fca fuel h word

/-- A sequence of allocations that pays for all its grants but those of RBDC. -/
theorem sum_grants_le_iff {total : Nat} (word : total < 2 ^ 16) {cra rbdc rest : List Nat}
    (hcra : cra.sum ≤ total)
    (hrest : rest.sum ≤ spend 16 (spend 16 total cra) rbdc) :
    (cra ++ (rbdc ++ rest)).sum ≤ total ↔ rbdc.sum ≤ spend 16 total cra := by
  have left := spend_of_sum_le word hcra
  rw [List.sum_append, List.sum_append]
  constructor
  · omega
  · intro fits
    rw [spend_of_sum_le (by omega) fits] at hrest
    omega

/-! ### The superframe -/

/-- What a group offers at the beginning of the superframe. -/
def offer (legacy : DamaCtrlRcs2Legacy) (category : TerminalCategoryDama)
    (carriers : CarriersGroupDama) : Outlook where
  demands := category.terminals.map (·.demand)
  format := (legacy.ctrl.converter.frameDurationMs, legacy.ctrl.converter.packetLengthSym)
  carriers := carriers.setRemainingCapacity
    (legacy.ctrl.converter.symToPkt carriers.getTotalCapacity)

/-- The packets granted on a group from the reset of the capacities on never exceed its
total capacity, and no decrement of its remaining capacity wraps. -/
def CapacitySafe (legacy : DamaCtrlRcs2Legacy) (position : Nat × Nat)
    (carriers : CarriersGroupDama) : Prop :=
  ∀ fuel,
    let total := legacy.ctrl.converter.symToPkt carriers.getTotalCapacity
    let grants := (legacy.resetCarriersCapacity.computeTerminalsAllocations fuel).grants position
    grants.sum ≤ total ∧ NoWrap 16 total grants

theorem foldl_resetCategory_converter (categories : List TerminalCategoryDama) (ctrl : DamaCtrl) :
    (categories.foldl DamaCtrl.resetCategory ctrl).converter = ctrl.converter := by
  induction categories generalizing ctrl with
  | nil => rfl
  | cons category categories ih => exact (ih _).trans rfl

theorem view_resetCarriersCapacity {category : TerminalCategoryDama}
    {carriers : CarriersGroupDama}
    (hcategory : legacy.categories[position.1]? = some category)
    (hcarriers : category.carriersGroups[position.2]? = some carriers) :
    legacy.resetCarriersCapacity.view position = some (legacy.offer category carriers, []) := by
  rw [view_eq, resetCarriersCapacity]
  dsimp only
  rw [foldl_resetCategory_converter, List.getElem?_map, hcategory, Option.map_some,
    Option.bind_some, List.getElem?_map, hcarriers]
  rfl

theorem computeTerminalsAllocations_of_refused (fuel : Nat)
    (refused : legacy.craAccepted = false) :
    legacy.computeTerminalsAllocations fuel = legacy.computeTerminalsCraAllocation.1 := by
  rw [computeTerminalsAllocations, computeTerminalsCraAllocation_eq]
  simp [refused]

theorem computeTerminalsAllocations_of_accepted (fuel : Nat)
    (accepted : legacy.craAccepted = true) :
    legacy.computeTerminalsAllocations fuel =
      let legacy := if legacy.enableRbdc then
        legacy.computeTerminalsCraAllocation.1.computeTerminalsRbdcAllocation
          else legacy.computeTerminalsCraAllocation.1
      computeTerminalsFcaAllocation fuel
        (if legacy.enableVbdc then legacy.computeTerminalsVbdcAllocation else legacy) := by
  rw [computeTerminalsAllocations, computeTerminalsCraAllocation_eq]
  simp [accepted, foldl_onGroup_enableRbdc]

/-- The packets granted on a group exceed what it offers when RBDC is run and its
shares do not fit. -/
theorem sum_grants_computeTerminalsAllocations_le_iff (fuel : Nat)
    (h : legacy.view position = some (outlook, []))
    (word : outlook.carriers.remainingCapacity < 2 ^ 16)
    (nodup : (outlook.onGroup.map (·.talId)).Nodup) :
    ((legacy.computeTerminalsAllocations fuel).grants position).sum ≤
        outlook.carriers.remainingCapacity ↔
      legacy.enableRbdc = false ∨ legacy.craAccepted = false ∨
        FairSharesFit outlook.craTally.remainingPktpf outlook.rbdcRequests := by
  obtain ⟨cra, hcra, remaining, seen⟩ := view_cra h word
  have word' := Outlook.after_lt word cra
  rw [List.nil_append] at seen
  cases accepted : legacy.craAccepted with
  | false =>
      rw [computeTerminalsAllocations_of_refused fuel accepted, grants_of_view seen]
      simp [hcra]
  | true =>
      rw [computeTerminalsAllocations_of_accepted fuel accepted]
      dsimp only
      cases legacy.enableRbdc with
      | false =>
          obtain ⟨rest, hrest, grants⟩ := grants_after_rbdc fuel seen word'
          rw [if_neg Bool.false_ne_true, grants, ← List.nil_append rest,
            sum_grants_le_iff word hcra hrest]
          simp
      | true =>
          obtain ⟨rbdc, fits, seen'⟩ := view_rbdc seen word' nodup
          obtain ⟨rest, hrest, grants⟩ :=
            grants_after_rbdc fuel seen' (Outlook.after_lt word' rbdc)
          rw [if_pos rfl, grants, List.append_assoc, sum_grants_le_iff word hcra hrest, ← remaining]
          refine fits.trans ?_
          simp only [Bool.true_eq_false, false_or]
          exact Iff.rfl

/-- A terminal on the first group, in QPSK 1/2. -/
def askingTerminal (rbdcRequestKbps talId : Nat) : TerminalContextDamaRcs where
  talId := talId
  carrierId := 0
  fmt := some ⟨7, 2, 1 / 2, "1/2", 99 / 100, 1⟩
  craRequestKbps := 0
  maxRbdcKbps := 32000
  rbdcTimeoutSf := 0
  maxVbdcKb := 0
  timerSf := 0
  rbdcRequestKbps := rbdcRequestKbps
  rbdcCredit := 0
  vbdcRequestKb := 0
  craAllocKbps := 0
  rbdcAllocKbps := 0
  vbdcAllocKb := 0
  fcaAllocKbps := 0

/-- A group of 10000 packets of 100 symbols, in superframes of 53 ms. -/
def wideCarriers : CarriersGroupDama := ⟨0, ⟨[⟨7, 1⟩], ∅⟩, 1000000, 1, 0, 0, 0⟩

def wideCategory (rbdcRequestKbps : Nat) (talIds : List Nat) : TerminalCategoryDama :=
  ⟨"Standard", talIds.map (askingTerminal rbdcRequestKbps), [wideCarriers]⟩

def wideLegacy (rbdcRequestKbps : Nat) (talIds : List Nat) : DamaCtrlRcs2Legacy where
  ctrl := ⟨⟨53, 100, 2⟩, 0, 0, fun _ => 0, fun _ _ => 0⟩
  enableRbdc := true
  enableVbdc := true
  categories := [wideCategory rbdcRequestKbps talIds]
  grants := fun _ => []

end DamaCtrlRcs2Legacy

end OpenSand
