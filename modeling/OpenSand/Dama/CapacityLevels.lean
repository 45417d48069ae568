import Mathlib.Algebra.BigOperators.Ring.Finset
import OpenSand.Dama.CapacityAccounting

/-!
The remaining capacities of the gateway, the categories and the carriers groups.

The allocations of a superframe are steps on one group each. The three levels agree after
any of them; the capacity of a group is what was not granted as long as the steps take what
their packets are worth.
-/

namespace OpenSand

open OpenSand.Run Allocation

/-! ### Charging one group -/

/-- The category capacities add up to the one of the gateway, the ones of the groups to the
one of their category; the layout gives the labels and the identifiers. -/
structure Capacities.Agree (capacities : Capacities) (layout : List (String × List Nat)) :
    Prop where
  gw : capacities.gw = (layout.map fun entry => capacities.category entry.1).sum
  category : ∀ entry ∈ layout,
    capacities.category entry.1 = (entry.2.map (capacities.carrier entry.1)).sum

section Sums

variable {κ : Type*} [DecidableEq κ] {f : κ → Int} {key : κ} {value : Int}

theorem map_update_of_notMem {keys : List κ} (notMem : key ∉ keys) :
    keys.map (Function.update f key value) = keys.map f := by
  refine List.map_congr_left fun other mem => Function.update_of_ne ?_ _ _
  rintro rfl
  exact notMem mem

theorem sum_map_update {keys : List κ} (nodup : keys.Nodup) (mem : key ∈ keys) (amount : Int) :
    (keys.map (Function.update f key (f key - amount))).sum = (keys.map f).sum - amount := by
  induction keys with
  | nil => cases mem
  | cons first keys ih =>
      rw [List.nodup_cons] at nodup
      rw [List.map_cons, List.map_cons, List.sum_cons, List.sum_cons]
      rcases List.mem_cons.mp mem with rfl | later
      · rw [Function.update_self, map_update_of_notMem nodup.1]
        omega
      · have ne : first ≠ key := by
          rintro rfl
          exact nodup.1 later
        rw [Function.update_of_ne ne, ih nodup.2 later]
        omega

end Sums

theorem Capacities.Agree.charge {capacities : Capacities} {layout : List (String × List Nat)}
    (agree : capacities.Agree layout) (labels : (layout.map Prod.fst).Nodup) {label : String}
    {ids : List Nat} (mem : (label, ids) ∈ layout) (nodup : ids.Nodup) {carrierId : Nat}
    (on : carrierId ∈ ids) (amount : Nat) :
    (capacities.charge label carrierId amount).Agree layout where
  gw := by
    have sum := sum_map_update (f := capacities.category) labels
      (List.mem_map.mpr ⟨_, mem, rfl⟩) amount
    rw [List.map_map, List.map_map] at sum
    show capacities.gw - amount = _
    rw [agree.gw]
    exact sum.symm
  category := by
    intro entry mem'
    by_cases same : entry.1 = label
    · have entry_eq : entry = (label, ids) :=
        List.inj_on_of_nodup_map labels mem' mem same
      have total := agree.category _ mem
      dsimp only at total
      subst entry_eq
      simp only [Capacities.charge, Function.update_self]
      rw [sum_map_update nodup on, ← total]
    · simp only [Capacities.charge, Function.update_of_ne same]
      exact agree.category entry mem'

/-- An allocation on a group, by the positions of the category and of the group in it. -/
inductive GroupAllocation where
  | cra (position : Nat × Nat)
  | rbdc (position : Nat × Nat)
  | vbdc (position : Nat × Nat)
  | fca (fuel : Nat) (position : Nat × Nat)

namespace DamaCtrlRcs2Legacy

variable {legacy : DamaCtrlRcs2Legacy} {position other : Nat × Nat} {run run' : Allocation}
  {granted : List Nat} {amount : Nat}

/-- The labels of the categories with the identifiers of their groups. -/
def layout (legacy : DamaCtrlRcs2Legacy) : List (String × List Nat) :=
  legacy.categories.map fun category =>
    (category.label, category.carriersGroups.map (·.carriersId))

/-- Categories have different labels, and the groups of a category different identifiers. -/
structure WellFormed (legacy : DamaCtrlRcs2Legacy) : Prop where
  labels : (legacy.layout.map Prod.fst).Nodup
  carriersIds : ∀ entry ∈ legacy.layout, entry.2.Nodup

theorem WellFormed.of_layout {legacy legacy' : DamaCtrlRcs2Legacy} (formed : legacy.WellFormed)
    (layout : legacy'.layout = legacy.layout) : legacy'.WellFormed :=
  ⟨layout ▸ formed.labels, layout ▸ formed.carriersIds⟩

/-- The three levels agree: the gateway with its categories, a category with its groups, and
a group with its total capacity without the packets granted. -/
structure Agrees (legacy : DamaCtrlRcs2Legacy) : Prop where
  levels : legacy.ctrl.capacities.Agree legacy.layout
  carriers : ∀ position run, legacy.group position = some run →
    legacy.ctrl.carrierReturnRemainingCapacity run.label run.carriers.carriersId =
      run.carriers.getTotalCapacity - symps run.packetFormat run.grants

theorem layout_getElem? (h : legacy.group position = some run) :
    ∃ ids, legacy.layout[position.1]? = some (run.label, ids) ∧
      ids[position.2]? = some run.carriers.carriersId := by
  obtain ⟨category, hcategory, carriers, hcarriers, rfl⟩ := group_eq_some_iff.mp h
  refine ⟨category.carriersGroups.map (·.carriersId), ?_, ?_⟩
  · rw [layout, List.getElem?_map, hcategory]
    rfl
  · rw [List.getElem?_map, hcarriers]
    rfl

theorem layout_store (h : legacy.group position = some run)
    (carriersId : run'.carriers.carriersId = run.carriers.carriersId) :
    (legacy.store position run').layout = legacy.layout := by
  obtain ⟨category, hcategory, carriers, hcarriers, rfl⟩ := group_eq_some_iff.mp h
  apply List.ext_getElem?
  intro i
  simp only [layout, store, List.getElem?_map, List.getElem?_modify]
  by_cases same : position.1 = i
  · subst same
    have ids : (category.carriersGroups.set position.2 run'.carriers).map (·.carriersId) =
        category.carriersGroups.map (·.carriersId) := by
      obtain ⟨bound, own⟩ := List.getElem?_eq_some_iff.mp hcarriers
      have own' : carriers.carriersId =
          (category.carriersGroups.map (·.carriersId)).get ⟨position.2, by simpa using bound⟩ := by
        simp [own]
      rw [List.map_set, carriersId]
      dsimp only
      rw [own']
      exact List.set_getElem_self _
    simp [hcategory, ids]
  · simp [same]

theorem group_store_self (h : legacy.group position = some run) {after : Allocation}
    (found : (legacy.store position run').group position = some after) :
    after.label = run.label ∧ after.carriers = run'.carriers ∧ after.grants = run'.grants ∧
      after.packetFormat = run'.packetFormat := by
  obtain ⟨category, hcategory, carriers, hcarriers, rfl⟩ := group_eq_some_iff.mp h
  have bound := (List.getElem?_eq_some_iff.mp hcarriers).1
  obtain ⟨category', hcategory', carriers', hcarriers', rfl⟩ := group_eq_some_iff.mp found
  simp only [store, List.getElem?_modify, if_pos, hcategory, Option.map_eq_map, Option.map_some,
    Option.some.injEq] at hcategory'
  subst hcategory'
  rw [List.getElem?_set_self bound] at hcarriers'
  cases hcarriers'
  exact ⟨rfl, rfl, by simp [store], rfl⟩

theorem group_store_of_ne (h : legacy.group position = some run) (ne : position ≠ other)
    {after : Allocation} (found : (legacy.store position run').group other = some after) :
    ∃ before, legacy.group other = some before ∧ after.label = before.label ∧
      after.carriers = before.carriers ∧ after.grants = before.grants ∧
      after.packetFormat = run'.packetFormat := by
  obtain ⟨category, hcategory, carriers, hcarriers, rfl⟩ := group_eq_some_iff.mp h
  obtain ⟨category', hcategory', carriers', hcarriers', rfl⟩ := group_eq_some_iff.mp found
  have grants : (legacy.store position run').grants other = legacy.grants other := by
    simp [store, Function.update_of_ne ne.symm]
  simp only [store, List.getElem?_modify] at hcategory'
  by_cases same : position.1 = other.1
  · have groups : position.2 ≠ other.2 := fun eq => ne (Prod.ext same eq)
    rw [same] at hcategory
    simp only [same, ↓reduceIte, hcategory, Option.map_eq_map, Option.map_some,
      Option.some.injEq] at hcategory'
    subst hcategory'
    rw [List.getElem?_set_ne groups] at hcarriers'
    exact ⟨_, group_eq_some_iff.mpr ⟨category, hcategory, carriers', hcarriers', rfl⟩,
      rfl, rfl, grants, rfl⟩
  · simp only [if_neg same, Option.map_eq_map, Option.map_id_fun', id] at hcategory'
    exact ⟨_, group_eq_some_iff.mpr ⟨category', hcategory', carriers', hcarriers', rfl⟩,
      rfl, rfl, grants, rfl⟩

/-- Two groups of one category have different identifiers. -/
theorem WellFormed.carriersId_ne (formed : legacy.WellFormed) {before : Allocation}
    (h : legacy.group position = some run) (h' : legacy.group other = some before)
    (ne : position ≠ other) (same : run.label = before.label) :
    run.carriers.carriersId ≠ before.carriers.carriersId := by
  obtain ⟨ids, entry, on⟩ := layout_getElem? h
  obtain ⟨ids', entry', on'⟩ := layout_getElem? h'
  intro eq
  have rows : position.1 = other.1 := by
    refine (List.getElem?_inj ?_ formed.labels).mp ?_
    · rw [List.length_map]
      exact (List.getElem?_eq_some_iff.mp entry).1
    · rw [List.getElem?_map, List.getElem?_map, entry, entry']
      exact congrArg some same
  rw [rows, entry', Option.some.injEq, Prod.mk.injEq] at entry
  obtain ⟨-, rfl⟩ := entry
  have nodup := formed.carriersIds _ (List.mem_of_getElem? entry')
  refine ne (Prod.ext rows ((List.getElem?_inj (List.getElem?_eq_some_iff.mp on).1 nodup).mp ?_))
  rw [on, on', eq]

theorem WellFormed.store (formed : legacy.WellFormed) (h : legacy.group position = some run)
    (charges : Charges run run' granted amount) : (legacy.store position run').WellFormed := by
  obtain ⟨remaining, carriers⟩ := charges.carriers
  have layout : (legacy.store position run').layout = legacy.layout :=
    layout_store h (by rw [carriers]; rfl)
  exact formed.of_layout layout

/-- An allocation on a group keeps the agreement exactly when what it takes is worth what
it grants. -/
theorem agrees_store_iff (formed : legacy.WellFormed) (agrees : legacy.Agrees)
    (h : legacy.group position = some run) (charges : Charges run run' granted amount) :
    (legacy.store position run').Agrees ↔ amount = symps run.packetFormat granted := by
  obtain ⟨ids, entry, on⟩ := layout_getElem? h
  obtain ⟨remaining, carriers⟩ := charges.carriers
  have own := agrees.carriers position run h
  have mem := List.mem_of_getElem? entry
  have capacities : (legacy.store position run').ctrl.capacities =
      legacy.ctrl.capacities.charge run.label run.carriers.carriersId amount := by
    obtain ⟨category, -, carriers', -, rfl⟩ := group_eq_some_iff.mp h
    exact charges.capacities
  have carrier : (legacy.store position run').ctrl.carrierReturnRemainingCapacity =
      (legacy.ctrl.capacities.charge run.label run.carriers.carriersId amount).carrier :=
    congrArg Capacities.carrier capacities
  have left : (legacy.store position run').ctrl.carrierReturnRemainingCapacity run.label
      run.carriers.carriersId = legacy.ctrl.carrierReturnRemainingCapacity run.label
        run.carriers.carriersId - amount := by
    rw [carrier]
    simp [Capacities.charge, DamaCtrl.capacities]
  constructor
  · intro agrees'
    obtain ⟨after, found, -⟩ := Option.map_eq_some_iff.mp (view_store_self h run')
    obtain ⟨label, carriers', grants, format⟩ := group_store_self h found
    have own' := agrees'.carriers position after found
    rw [label, carriers', carriers, grants, charges.grants, format, charges.packetFormat,
      symps_append] at own'
    have total : (run.carriers.setRemainingCapacity remaining).getTotalCapacity =
        run.carriers.getTotalCapacity := rfl
    have id : (run.carriers.setRemainingCapacity remaining).carriersId =
        run.carriers.carriersId := rfl
    rw [total, id, left] at own'
    omega
  · intro worth
    refine ⟨?_, ?_⟩
    · rw [capacities, layout_store h (by rw [carriers]; rfl)]
      exact agrees.levels.charge formed.labels mem (formed.carriersIds _ mem)
        (List.mem_of_getElem? on) amount
    · intro other after found
      by_cases same : position = other
      · subst same
        obtain ⟨label, carriers', grants, format⟩ := group_store_self h found
        rw [label, carriers', carriers, grants, charges.grants, format, charges.packetFormat,
          symps_append]
        show (legacy.store position run').ctrl.carrierReturnRemainingCapacity run.label
          run.carriers.carriersId = run.carriers.getTotalCapacity - _
        rw [left]
        omega
      · obtain ⟨before, found', label, carriers', grants, format⟩ := group_store_of_ne h same found
        have others := agrees.carriers other before found'
        have distinct := formed.carriersId_ne h found' same
        have formats : before.packetFormat = run.packetFormat := by
          obtain ⟨_, -, _, -, rfl⟩ := group_eq_some_iff.mp h
          obtain ⟨_, -, _, -, rfl⟩ := group_eq_some_iff.mp found'
          rfl
        rw [label, carriers', grants, format, charges.packetFormat, ← formats, ← others, carrier]
        by_cases labels : run.label = before.label
        · simp only [Capacities.charge, labels, Function.update_self]
          rw [Function.update_of_ne (distinct labels).symm]
          rfl
        · simp only [Capacities.charge, Function.update_of_ne (Ne.symm labels)]
          rfl

/-! ### The reset of the capacities -/

/-- The capacities of the groups of a category. -/
def resetCarriers (capacities : Nat → Int) (carriersGroups : List CarriersGroupDama) : Nat → Int :=
  carriersGroups.foldl (fun capacities carriers =>
    Function.update capacities carriers.carriersId carriers.getTotalCapacity) capacities

theorem resetCarriers_of_notMem {carriersGroups : List CarriersGroupDama} {carrierId : Nat}
    (notMem : carrierId ∉ carriersGroups.map (·.carriersId)) (capacities : Nat → Int) :
    resetCarriers capacities carriersGroups carrierId = capacities carrierId := by
  induction carriersGroups generalizing capacities with
  | nil => rfl
  | cons first rest ih =>
      rw [List.map_cons, List.mem_cons, not_or] at notMem
      refine (ih notMem.2 _).trans ?_
      exact Function.update_of_ne notMem.1 _ _

theorem resetCarriers_of_mem {carriersGroups : List CarriersGroupDama}
    (nodup : (carriersGroups.map (·.carriersId)).Nodup) {carriers : CarriersGroupDama}
    (mem : carriers ∈ carriersGroups) (capacities : Nat → Int) :
    resetCarriers capacities carriersGroups carriers.carriersId = carriers.getTotalCapacity := by
  induction carriersGroups generalizing capacities with
  | nil => cases mem
  | cons first rest ih =>
      rw [List.map_cons, List.nodup_cons] at nodup
      rcases List.mem_cons.mp mem with rfl | later
      · refine (resetCarriers_of_notMem nodup.1 _).trans ?_
        exact Function.update_self _ _ _
      · exact ih nodup.2 later _

theorem foldl_resetCategory_of_notMem {categories : List TerminalCategoryDama} {label : String}
    (notMem : label ∉ categories.map (·.label)) (ctrl : DamaCtrl) :
    (categories.foldl DamaCtrl.resetCategory ctrl).categoryReturnRemainingCapacity label =
        ctrl.categoryReturnRemainingCapacity label ∧
      (categories.foldl DamaCtrl.resetCategory ctrl).carrierReturnRemainingCapacity label =
        ctrl.carrierReturnRemainingCapacity label := by
  induction categories generalizing ctrl with
  | nil => exact ⟨rfl, rfl⟩
  | cons first rest ih =>
      rw [List.map_cons, List.mem_cons, not_or] at notMem
      obtain ⟨category, carrier⟩ := ih notMem.2 (ctrl.resetCategory first)
      exact ⟨category.trans (Function.update_of_ne notMem.1 _ _),
        carrier.trans (Function.update_of_ne notMem.1 _ _)⟩

theorem foldl_resetCategory_of_mem {categories : List TerminalCategoryDama}
    (nodup : (categories.map (·.label)).Nodup) {category : TerminalCategoryDama}
    (mem : category ∈ categories) (ctrl : DamaCtrl) :
    (categories.foldl DamaCtrl.resetCategory ctrl).categoryReturnRemainingCapacity category.label =
        ((category.carriersGroups.map (·.getTotalCapacity)).sum : Nat) ∧
      ∃ before, (categories.foldl DamaCtrl.resetCategory ctrl).carrierReturnRemainingCapacity
        category.label = resetCarriers before category.carriersGroups := by
  induction categories generalizing ctrl with
  | nil => cases mem
  | cons first rest ih =>
      rw [List.map_cons, List.nodup_cons] at nodup
      rcases List.mem_cons.mp mem with rfl | later
      · obtain ⟨total, carrier⟩ := foldl_resetCategory_of_notMem nodup.1 (ctrl.resetCategory category)
        exact ⟨total.trans (Function.update_self _ _ _),
          ctrl.carrierReturnRemainingCapacity category.label,
          carrier.trans (Function.update_self _ _ _)⟩
      · exact ih nodup.2 later _

theorem layout_resetCarriersCapacity (legacy : DamaCtrlRcs2Legacy) :
    legacy.resetCarriersCapacity.layout = legacy.layout := by
  simp [layout, resetCarriersCapacity, CarriersGroupDama.setRemainingCapacity, Function.comp_def]

theorem resetCarriersCapacity_wellFormed (formed : legacy.WellFormed) :
    legacy.resetCarriersCapacity.WellFormed := by
  refine ⟨?_, ?_⟩
  · rw [layout_resetCarriersCapacity]
    exact formed.labels
  · rw [layout_resetCarriersCapacity]
    exact formed.carriersIds

theorem resetCarriersCapacity_agrees (formed : legacy.WellFormed) :
    legacy.resetCarriersCapacity.Agrees := by
  have labels : (legacy.categories.map (·.label)).Nodup := by
    have labels := formed.labels
    rw [layout, List.map_map] at labels
    exact labels
  have carriersIds : ∀ category ∈ legacy.categories,
      (category.carriersGroups.map (·.carriersId)).Nodup := fun category mem =>
    formed.carriersIds _ (List.mem_map.mpr ⟨category, mem, rfl⟩)
  refine ⟨⟨?_, ?_⟩, ?_⟩
  · rw [layout_resetCarriersCapacity, layout, List.map_map]
    show (((legacy.categories.map fun category =>
      (category.carriersGroups.map (·.getTotalCapacity)).sum).sum : Nat) : Int) = _
    rw [Nat.cast_list_sum, List.map_map]
    refine congrArg List.sum (List.map_congr_left fun category mem => ?_)
    exact (foldl_resetCategory_of_mem labels mem legacy.ctrl).1.symm
  · rw [layout_resetCarriersCapacity]
    intro entry mem
    obtain ⟨category, exist, rfl⟩ := List.mem_map.mp mem
    obtain ⟨total, before, carrier⟩ := foldl_resetCategory_of_mem labels exist legacy.ctrl
    refine total.trans ?_
    show _ = ((category.carriersGroups.map (·.carriersId)).map
      ((legacy.categories.foldl DamaCtrl.resetCategory legacy.ctrl).carrierReturnRemainingCapacity
        category.label)).sum
    rw [carrier, Nat.cast_list_sum, List.map_map, List.map_map]
    refine congrArg List.sum (List.map_congr_left fun carriers on => ?_)
    exact (resetCarriers_of_mem (carriersIds category exist) on before).symm
  · intro position run found
    obtain ⟨category', hcategory', carriers', hcarriers', rfl⟩ := group_eq_some_iff.mp found
    simp only [resetCarriersCapacity, List.getElem?_map, Option.map_eq_some_iff] at hcategory'
    obtain ⟨category, hcategory, rfl⟩ := hcategory'
    simp only [List.getElem?_map, Option.map_eq_some_iff] at hcarriers'
    obtain ⟨carriers, hcarriers, rfl⟩ := hcarriers'
    have mem := List.mem_of_getElem? hcategory
    obtain ⟨-, before, carrier⟩ := foldl_resetCategory_of_mem labels mem legacy.ctrl
    show (legacy.categories.foldl DamaCtrl.resetCategory legacy.ctrl).carrierReturnRemainingCapacity
      category.label carriers.carriersId = carriers.getTotalCapacity - (0 : Nat)
    rw [carrier, resetCarriers_of_mem (carriersIds category mem) (List.mem_of_getElem? hcarriers)]
    simp

/-! ### The allocations of a superframe, group after group -/

/-- The controller after an allocation on a group; there is none when the loop of the FCA
is not over. -/
def allocateGroup (legacy : DamaCtrlRcs2Legacy) : GroupAllocation → Option DamaCtrlRcs2Legacy
  | .cra position => some (legacy.onGroup computeDamaCraPerCarrier position)
  | .rbdc position => some (legacy.onGroup computeDamaRbdcPerCarrier position)
  | .vbdc position => some (legacy.onGroup computeDamaVbdcPerCarrier position)
  | .fca fuel position =>
      match legacy.group position with
      | none => some legacy
      | some run =>
          let (run, ended) := run.computeDamaFcaPerCarrier fuel
          if ended then some (legacy.store position run) else none

/-- The CRA packets of the group have no symbol rate, and the rate of its FCA packets in
kbit/s is their symbol rate. -/
def Balanced (legacy : DamaCtrlRcs2Legacy) : GroupAllocation → Prop
  | .cra position => ∀ run, legacy.group position = some run →
      symps run.packetFormat run.craGrants = 0
  | .fca _ position => ∀ run, legacy.group position = some run →
      fcaRate run.ctrl.converter run.fcaGrants =
        symps run.packetFormat (run.fcaGrants.map Prod.snd)
  | _ => True

/-- What an allocation on a group takes, and when the packets are worth it. -/
theorem onGroup_cases {allocate : Allocation → Allocation} {balanced : Allocation → Prop}
    {position : Nat × Nat} {all : Prop}
    (all_iff : all ↔ ∀ run, legacy.group position = some run → balanced run)
    (charges : ∀ run, ∃ granted amount, Charges run (allocate run) granted amount ∧
      (balanced run ↔ amount = symps run.packetFormat granted)) :
    (legacy.onGroup allocate position = legacy ∧ all) ∨
      ∃ position' run run' granted amount, legacy.group position' = some run ∧
        Charges run run' granted amount ∧
        legacy.onGroup allocate position = legacy.store position' run' ∧
        (all ↔ amount = symps run.packetFormat granted) := by
  cases found : legacy.group position with
  | none =>
      refine .inl ⟨onGroup_of_none found, all_iff.mpr fun run found' => ?_⟩
      rw [found] at found'
      cases found'
  | some run =>
      obtain ⟨granted, amount, taken, worth⟩ := charges run
      refine .inr ⟨position, run, _, granted, amount, found, taken, onGroup_of_some found, ?_⟩
      rw [all_iff, ← worth]
      constructor
      · exact fun every => every run found
      · intro own run' found'
        cases found.symm.trans found'
        exact own

/-- An allocation on a group takes an amount for some packets, which are worth it exactly
when the allocation is balanced. -/
theorem allocateGroup_cases {allocation : GroupAllocation} {legacy' : DamaCtrlRcs2Legacy}
    (h : legacy.allocateGroup allocation = some legacy') :
    (legacy' = legacy ∧ legacy.Balanced allocation) ∨
      ∃ position run run' granted amount, legacy.group position = some run ∧
        Charges run run' granted amount ∧ legacy' = legacy.store position run' ∧
        (legacy.Balanced allocation ↔ amount = symps run.packetFormat granted) := by
  cases allocation with
  | cra position =>
      cases h
      exact onGroup_cases Iff.rfl fun run => ⟨_, 0, computeDamaCraPerCarrier_charges run, eq_comm⟩
  | rbdc position =>
      cases h
      refine @onGroup_cases _ _ (fun _ => True) _ _ (by simp [Balanced]) fun run => ?_
      obtain ⟨granted, charges⟩ := computeDamaRbdcPerCarrier_accounts run
      exact ⟨granted, _, charges, fun _ => rfl, fun _ => trivial⟩
  | vbdc position =>
      cases h
      refine @onGroup_cases _ _ (fun _ => True) _ _ (by simp [Balanced]) fun run => ?_
      obtain ⟨granted, charges⟩ := computeDamaVbdcPerCarrier_accounts run
      exact ⟨granted, _, charges, fun _ => rfl, fun _ => trivial⟩
  | fca fuel position =>
      cases found : legacy.group position with
      | none =>
          left
          rw [allocateGroup, found] at h
          cases h
          exact ⟨rfl, fun run found' => by rw [found] at found'; cases found'⟩
      | some run =>
          right
          rw [allocateGroup, found] at h
          dsimp only at h
          split at h
          next ended =>
            cases h
            refine ⟨position, run, _, _, _, found, computeDamaFcaPerCarrier_charges fuel run ended,
              rfl, ?_⟩
            constructor
            · exact fun balanced => balanced run found
            · intro worth run' found'
              cases found.symm.trans found'
              exact worth
          next => cases h

/-- The allocations of a superframe, the last three of them when the CRA is accepted. -/
def superframe (fuel : Nat) (legacy : DamaCtrlRcs2Legacy) : List GroupAllocation :=
  legacy.positions.map .cra ++
    if legacy.craAccepted then
      (if legacy.enableRbdc then legacy.positions.map .rbdc else []) ++
        ((if legacy.enableVbdc then legacy.positions.map .vbdc else []) ++
          (if legacy.ctrl.fcaKbps = 0 then [] else legacy.positions.map (.fca fuel)))
    else []

/-- What the allocations on the groups do not change in the controller. -/
structure Steady (legacy legacy' : DamaCtrlRcs2Legacy) : Prop where
  positions : legacy'.positions = legacy.positions
  enableVbdc : legacy'.enableVbdc = legacy.enableVbdc
  enableRbdc : legacy'.enableRbdc = legacy.enableRbdc
  fcaKbps : legacy'.ctrl.fcaKbps = legacy.ctrl.fcaKbps

theorem positions_eq_layout (legacy : DamaCtrlRcs2Legacy) :
    legacy.positions = Grid.positions (legacy.layout.map fun entry => entry.2.length) := by
  simp [positions, layout, Function.comp_def]

theorem steady_store (h : legacy.group position = some run)
    (charges : Charges run run' granted amount) : Steady legacy (legacy.store position run') where
  positions := by
    obtain ⟨remaining, carriers⟩ := charges.carriers
    rw [positions_eq_layout, layout_store h (by rw [carriers]; rfl), positions_eq_layout]
  enableVbdc := rfl
  enableRbdc := rfl
  fcaKbps := by
    obtain ⟨category, -, carriers, -, rfl⟩ := group_eq_some_iff.mp h
    exact charges.fcaKbps

theorem foldl_onGroup_steady {phase : Allocation → Allocation}
    (charges : ∀ run, ∃ granted amount, Charges run (phase run) granted amount)
    (positions : List (Nat × Nat)) (legacy : DamaCtrlRcs2Legacy) :
    Steady legacy (positions.foldl (onGroup phase) legacy) := by
  induction positions generalizing legacy with
  | nil => exact ⟨rfl, rfl, rfl, rfl⟩
  | cons position positions ih =>
      have rest := ih (onGroup phase legacy position)
      cases found : legacy.group position with
      | none =>
          rw [onGroup_of_none found] at rest
          rw [List.foldl_cons, onGroup_of_none found]
          exact rest
      | some run =>
          obtain ⟨granted, amount, taken⟩ := charges run
          have first := steady_store found taken
          rw [onGroup_of_some found] at rest
          rw [List.foldl_cons, onGroup_of_some found]
          exact ⟨rest.positions.trans first.positions, rest.enableVbdc.trans first.enableVbdc,
            rest.enableRbdc.trans first.enableRbdc, rest.fcaKbps.trans first.fcaKbps⟩

theorem run_map_onGroup (phase : Allocation → Allocation)
    {allocation : Nat × Nat → GroupAllocation}
    (same : ∀ legacy position, allocateGroup legacy (allocation position) =
      some (legacy.onGroup phase position)) (positions : List (Nat × Nat))
    (legacy : DamaCtrlRcs2Legacy) :
    Run.run allocateGroup legacy (positions.map allocation) =
      some (positions.foldl (onGroup phase) legacy) := by
  induction positions generalizing legacy with
  | nil => rfl
  | cons position positions ih =>
      rw [List.map_cons, Run.run, same, Option.bind_some, ih, List.foldl_cons]

/-- An allocation that may be disabled. -/
theorem run_enabled (phase : Allocation → Allocation)
    {allocation : Nat × Nat → GroupAllocation}
    (same : ∀ legacy position, allocateGroup legacy (allocation position) =
      some (legacy.onGroup phase position)) (enabled : Bool) (positions : List (Nat × Nat))
    (legacy : DamaCtrlRcs2Legacy) :
    Run.run allocateGroup legacy (if enabled then positions.map allocation else []) =
      some (if enabled then positions.foldl (onGroup phase) legacy else legacy) := by
  cases enabled with
  | true => exact run_map_onGroup phase same positions legacy
  | false => rfl

theorem enabled_steady {phase : Allocation → Allocation}
    (charges : ∀ run, ∃ granted amount, Charges run (phase run) granted amount) (enabled : Bool)
    (legacy : DamaCtrlRcs2Legacy) :
    Steady legacy (if enabled then legacy.positions.foldl (onGroup phase) legacy else legacy) := by
  cases enabled with
  | true => exact foldl_onGroup_steady charges legacy.positions legacy
  | false => exact ⟨rfl, rfl, rfl, rfl⟩

theorem run_map_fca {fuel : Nat} {positions : List (Nat × Nat)} {legacy' : DamaCtrlRcs2Legacy}
    (h : Run.run allocateGroup legacy (positions.map (.fca fuel)) = some legacy') :
    fcaGroups fuel legacy positions = legacy' := by
  induction positions generalizing legacy with
  | nil => exact Option.some.inj h
  | cons position positions ih =>
      obtain ⟨mid, taken, rest⟩ := Option.bind_eq_some_iff.mp h
      unfold allocateGroup at taken
      dsimp only at taken
      rw [fcaGroups]
      cases found : legacy.group position with
      | none =>
          rw [found] at taken
          cases taken
          exact ih rest
      | some run =>
          rw [found] at taken
          dsimp only at taken ⊢
          split at taken
          next ended =>
            cases taken
            rw [if_pos ended]
            exact ih rest
          next => cases taken

/-- A superframe whose FCA is over runs its allocations group after group. -/
theorem computeTerminalsAllocations_of_run {fuel : Nat} {legacy' : DamaCtrlRcs2Legacy}
    (h : Run.run allocateGroup legacy (legacy.superframe fuel) = some legacy') :
    legacy.computeTerminalsAllocations fuel = legacy' := by
  have cra := foldl_onGroup_steady
    (fun run => ⟨_, _, computeDamaCraPerCarrier_charges run⟩) legacy.positions legacy
  unfold superframe at h
  rw [run_append, run_map_onGroup computeDamaCraPerCarrier (fun _ _ => rfl),
    Option.bind_some] at h
  rw [computeTerminalsAllocations, computeTerminalsCraAllocation_eq]
  dsimp only
  generalize legacy.positions.foldl (onGroup computeDamaCraPerCarrier) legacy = afterCra at h cra ⊢
  by_cases accepted : legacy.craAccepted = true
  · rw [if_pos accepted, ← cra.positions, ← cra.enableRbdc, ← cra.enableVbdc, ← cra.fcaKbps,
      run_append, run_enabled computeDamaRbdcPerCarrier (fun _ _ => rfl),
      Option.bind_some] at h
    have rbdc := enabled_steady
      (fun run => ⟨_, _, (computeDamaRbdcPerCarrier_accounts run).choose_spec⟩)
      afterCra.enableRbdc afterCra
    rw [if_pos accepted]
    unfold computeTerminalsRbdcAllocation
    generalize (if afterCra.enableRbdc = true then
      afterCra.positions.foldl (onGroup computeDamaRbdcPerCarrier) afterCra else afterCra) =
        afterRbdc at h rbdc ⊢
    rw [← rbdc.positions, ← rbdc.enableVbdc, ← rbdc.fcaKbps, run_append,
      run_enabled computeDamaVbdcPerCarrier (fun _ _ => rfl), Option.bind_some] at h
    have vbdc := enabled_steady
      (fun run => ⟨_, _, (computeDamaVbdcPerCarrier_accounts run).choose_spec⟩)
      afterRbdc.enableVbdc afterRbdc
    unfold computeTerminalsVbdcAllocation
    generalize (if afterRbdc.enableVbdc = true then
      afterRbdc.positions.foldl (onGroup computeDamaVbdcPerCarrier) afterRbdc else afterRbdc) =
        afterVbdc at h vbdc ⊢
    rw [← vbdc.positions, ← vbdc.fcaKbps] at h
    unfold computeTerminalsFcaAllocation
    split at h
    next disabled =>
      rw [if_pos disabled]
      exact Option.some.inj h
    next enabled =>
      rw [if_neg enabled]
      exact run_map_fca h
  · rw [if_neg accepted] at h
    rw [if_neg accepted]
    exact Option.some.inj h

/-! ### A terminal with a CRA -/

/-- A terminal of the first group that is given a CRA. -/
def craLegacy : DamaCtrlRcs2Legacy :=
  { wideLegacy 0 [] with
    categories := [⟨"Standard", [{ askingTerminal 0 1 with craRequestKbps := 100 }],
      [wideCarriers]⟩] }

theorem wideLegacy_wellFormed (rbdcRequestKbps : Nat) (talIds : List Nat) :
    (wideLegacy rbdcRequestKbps talIds).WellFormed where
  labels := List.nodup_singleton _
  carriersIds := by
    intro entry mem
    rw [List.mem_singleton.mp mem]
    exact List.nodup_singleton _

end DamaCtrlRcs2Legacy

end OpenSand
