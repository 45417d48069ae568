import OpenSand.Dvb.Band

/-!
What the transfer of carriers does to the groups of the two categories.

The transfer of one rate reads and changes the groups of this rate alone, so that the rates of
a transfer, which are different ones, can be looked at one by one in the state before it. The
statements also cover a category that gives carriers to itself.
-/

namespace OpenSand

open OpenSand.Word

def groupsOf (categories : TerminalCategories) (label : String) : List CarriersGroupVcm :=
  (categories label).elim [] (·.carriersGroups)

/-! ### Additions to a category -/

/-- What the word of the number of carriers of the first group grows by. -/
def gain (number : Nat) (receivers : List CarriersGroupVcm) : ℚ :=
  receivers.head?.elim number fun group =>
    addW 32 number group.carriersNumber - group.carriersNumber

theorem gain_eq_iff {number : Nat} {receivers : List CarriersGroupVcm} :
    gain number receivers = number ↔
      ∀ group, receivers.head? = some group → number + group.carriersNumber < 2 ^ 32 := by
  unfold gain
  cases receivers.head? with
  | none => exact ⟨fun _ group same => absurd same (Option.some_ne_none group).symm, fun _ => rfl⟩
  | some group =>
      rw [Option.elim_some, sub_eq_iff_eq_add, ← Nat.cast_add, Nat.cast_inj, addW_eq_iff]
      constructor
      · rintro fits group' same
        obtain rfl : group = group' := Option.some.inj same
        exact fits
      · exact fun fits => fits group rfl

/-- A category with more carriers of one rate. -/
structure Added (before after : TerminalCategory) (rate : ℚ) (number ratio : Nat) : Prop where
  tally : ∀ weight, tally weight after.carriersGroups =
    tally weight before.carriersGroups +
      gain number (groupsAt rate before.carriersGroups) * weight rate
  others : ∀ other, other ≠ rate →
    groupsAt other after.carriersGroups = groupsAt other before.carriersGroups
  otherCarriers : after.otherCarriers = before.otherCarriers
  merged : (groupsAt rate before.carriersGroups).head? ≠ none →
    after.carriersGroups = mergeCarriers rate number ratio before.carriersGroups

theorem mergeCarriers_carriersId {rate : ℚ} {number ratio : Nat} {groups : List CarriersGroupVcm} :
    (mergeCarriers rate number ratio groups).map (·.carriersId) = groups.map (·.carriersId) := by
  induction groups with
  | nil => rfl
  | cons group groups ih =>
      unfold mergeCarriers
      split
      · rfl
      · rw [List.map_cons, List.map_cons, ih]

theorem deallocate_carriersId {rate : ℚ} {number : Nat} {groups : List CarriersGroupVcm} :
    (deallocate rate number groups).carriersGroups.map (·.carriersId) =
      groups.map (·.carriersId) := by
  induction groups generalizing number with
  | nil => rfl
  | cons group groups ih =>
      unfold deallocate
      split
      · split
        · exact congrArg (group.carriersId :: ·) ih
        · rfl
      · exact congrArg (group.carriersId :: ·) ih

namespace TerminalCategory

variable {category : TerminalCategory} {carriersId number ratio durationMs : Nat}
  {fmtGroup : Option FmtGroup} {rate : ℚ}

/-- A new group divides by its ratio. -/
theorem newCarriersGroup_eq (access : AccessType) :
    (ratio = 0 → newCarriersGroup carriersId fmtGroup number ratio rate access durationMs = none) ∧
      (ratio ≠ 0 → ∃ group,
        newCarriersGroup carriersId fmtGroup number ratio rate access durationMs = some group ∧
          group.carriersId = carriersId ∧ group.carriersNumber = number ∧
          group.symbolRateSymps = rate) := by
  constructor
  · intro zero
    exact if_pos ⟨zero, List.cons_ne_nil _ _⟩
  · intro some
    exact ⟨_, if_neg fun zero => some zero.1, rfl, rfl, rfl⟩

/-- With an identifier above the ones of its groups, a category that has no group of the rate
and is given no ratio cannot take the carriers; otherwise it takes them. -/
theorem addCarriersGroup_cases
    (fresh : ∀ group ∈ category.carriersGroups, group.carriersId < carriersId) :
    ((groupsAt rate category.carriersGroups).head? = none ∧ ratio = 0 →
        category.addCarriersGroup carriersId fmtGroup number ratio rate category.desiredAccess
          durationMs = none) ∧
      (¬ ((groupsAt rate category.carriersGroups).head? = none ∧ ratio = 0) → ∃ after,
        category.addCarriersGroup carriersId fmtGroup number ratio rate category.desiredAccess
          durationMs = some after ∧ Added category after rate number ratio ∧
        ∀ group ∈ after.carriersGroups, group.carriersId ≤ carriersId) := by
  have unused : ¬ category.carriersGroups.any (·.carriersId = carriersId) = true := by
    rw [List.any_eq_true]
    rintro ⟨group, mem, same⟩
    exact (fresh group mem).ne (of_decide_eq_true same)
  unfold addCarriersGroup
  rw [searchCarriersGroup_eq]
  cases found : (groupsAt rate category.carriersGroups).head? with
  | none =>
      dsimp only
      rw [if_neg unused, if_pos rfl]
      obtain ⟨zero, nonzero⟩ := @newCarriersGroup_eq carriersId number ratio durationMs fmtGroup rate
        category.desiredAccess
      constructor
      · rintro ⟨-, none⟩
        rw [zero none]
        rfl
      · intro some
        obtain ⟨group, new, id, count, symbolRate⟩ := nonzero fun none => some ⟨rfl, none⟩
        rw [new]
        refine ⟨_, rfl, ⟨?_, ?_, rfl, fun some => absurd found some⟩, ?_⟩
        · intro weight
          rw [tally_append, tally_cons, count, symbolRate, gain, found]
          exact congrArg (_ + ·) (add_zero _)
        · intro other ne
          dsimp only
          rw [groupsAt, List.filter_append, ← groupsAt, ← groupsAt,
            groupsAt_cons_of_ne (symbolRate.trans_ne ne.symm)]
          exact List.append_nil _
        · intro group' mem
          rcases List.mem_append.mp mem with old | new
          · exact (fresh group' old).le
          · rw [List.mem_singleton.mp new, id]
  | some group =>
      refine ⟨fun none => absurd none.1 (Option.some_ne_none group),
        fun _ => ⟨_, rfl, ⟨?_, ?_, rfl, fun _ => rfl⟩, ?_⟩⟩
      · intro weight
        rw [eq_sub_of_add_eq (mergeCarriers_tally weight found), gain, found, Option.elim_some]
        ring
      · exact fun other ne => groupsAt_mergeCarriers_of_ne ne
      · intro group' mem
        have same : group'.carriersId ∈ category.carriersGroups.map (·.carriersId) := by
          rw [← mergeCarriers_carriersId]
          exact List.mem_map_of_mem mem
        obtain ⟨old, mem', id⟩ := List.mem_map.mp same
        exact id ▸ (fresh old mem').le

/-- A deallocation fails when the groups do not hold the carriers. -/
theorem deallocateCarriers_eq :
    category.deallocateCarriers rate number =
      (decide (number ≤ held rate category.carriersGroups),
        (deallocate rate number category.carriersGroups).associatedRatio,
        { category with
          carriersGroups := (deallocate rate number category.carriersGroups).carriersGroups }) := by
  unfold deallocateCarriers
  dsimp only
  rw [deallocate_missing, decide_eq_decide.mpr Nat.sub_eq_zero_iff_le]

end TerminalCategory

/-! ### The transfer of one rate -/

section Transfer

variable {categories after : TerminalCategories} {first second : String} {rate : ℚ}
  {number highestId durationMs : Nat}

/-- The groups of the rate in the second category, once the carriers are taken. -/
def receivers (categories : TerminalCategories) (first second : String) (rate : ℚ) (number : Nat) :
    List CarriersGroupVcm :=
  if first = second then
    (deallocate rate number (groupsAt rate (groupsOf categories first))).carriersGroups
  else groupsAt rate (groupsOf categories second)

/-- The ratio that goes with the carriers. -/
def givenRatio (categories : TerminalCategories) (first : String) (rate : ℚ) (number : Nat) : Nat :=
  (deallocate rate number (groupsAt rate (groupsOf categories first))).associatedRatio

/-- The first category holds the carriers; their number fits in the group that receives them, or
the new group has a ratio. -/
structure Transferable (categories : TerminalCategories) (first second : String) (rate : ℚ)
    (number : Nat) : Prop where
  enough : number ≤ held rate (groupsOf categories first)
  fits : ∀ group, (receivers categories first second rate number).head? = some group →
    number + group.carriersNumber < 2 ^ 32
  ratio : (receivers categories first second rate number).head? = none →
    givenRatio categories first rate number ≠ 0

/-- Both categories exist, and the next identifier is not used in the second one. -/
structure Ready (categories : TerminalCategories) (first second : String) (highestId : Nat) :
    Prop where
  gives : ∃ category, categories first = some category
  takes : ∃ category, categories second = some category
  bounded : ∀ group ∈ groupsOf categories second, group.carriersId ≤ highestId

def othersOf (categories : TerminalCategories) (label : String) : List CarriersGroup :=
  (categories label).elim [] (·.otherCarriers)

/-- The carriers leave the first category, and the second one gains what its words say. -/
structure Transferred (first second : String) (before after : TerminalCategories) (rate : ℚ)
    (number : Nat) : Prop where
  tally : ∀ label weight, tally weight (groupsOf after label) =
    tally weight (groupsOf before label) - (if label = first then number * weight rate else 0) +
      if label = second then gain number (receivers before first second rate number) * weight rate
      else 0
  others : ∀ label other, other ≠ rate →
    groupsAt other (groupsOf after label) = groupsAt other (groupsOf before label)
  otherCarriers : ∀ label, othersOf after label = othersOf before label
  merged : first = second → (receivers before first second rate number).head? ≠ none →
    groupsOf after first = mergeCarriers rate number (givenRatio before first rate number)
      (deallocate rate number (groupsOf before first)).carriersGroups

theorem groupsOf_update (category : TerminalCategory) (label : String) :
    groupsOf (Function.update categories first (some category)) label =
      if label = first then category.carriersGroups else groupsOf categories label := by
  unfold groupsOf
  rw [Function.update_apply]
  split
  · rfl
  · rfl

theorem othersOf_update (category : TerminalCategory) (label : String) :
    othersOf (Function.update categories first (some category)) label =
      if label = first then category.otherCarriers else othersOf categories label := by
  unfold othersOf
  rw [Function.update_apply]
  split
  · rfl
  · rfl

/-- Without enough carriers, the ones that are there are lost. -/
theorem transferRate_of_lt (ready : Ready categories first second highestId)
    (lacking : held rate (groupsOf categories first) < number) :
    ∃ after, transferRate durationMs first second (highestId + 1) rate number categories =
        some (false, after) ∧
      groupsOf after first = (deallocate rate number (groupsOf categories first)).carriersGroups ∧
      ∀ label, label ≠ first → groupsOf after label = groupsOf categories label := by
  obtain ⟨category, found⟩ := ready.gives
  have own : groupsOf categories first = category.carriersGroups := by rw [groupsOf, found]; rfl
  rw [own] at lacking
  unfold transferRate
  rw [found, Option.bind_some, TerminalCategory.deallocateCarriers_eq,
    decide_eq_false (not_le_of_gt lacking)]
  refine ⟨_, rfl, ?_, ?_⟩
  · rw [groupsOf_update, if_pos rfl, own]
  · intro label ne
    rw [groupsOf_update, if_neg ne]

theorem groupsAt_deallocate_self {groups : List CarriersGroupVcm} :
    groupsAt rate (deallocate rate number groups).carriersGroups =
      (deallocate rate number (groupsAt rate groups)).carriersGroups := by
  rw [groupsAt_deallocate]

/-- The carriers have left the first category. -/
structure Left (first : String) (rate : ℚ) (number : Nat)
    (before between : TerminalCategories) : Prop where
  groups : ∀ label, groupsOf between label =
    if label = first then (deallocate rate number (groupsOf before first)).carriersGroups
    else groupsOf before label
  otherCarriers : ∀ label, othersOf between label = othersOf before label
  known : ∀ label, (∃ category, before label = some category) →
    ∃ category, between label = some category

theorem left_update {category : TerminalCategory} (found : categories first = some category)
    (rate : ℚ) (number : Nat) :
    Left first rate number categories (Function.update categories first (some { category with
      carriersGroups := (deallocate rate number category.carriersGroups).carriersGroups })) where
  groups label := by
    have own : groupsOf categories first = category.carriersGroups := by rw [groupsOf, found]; rfl
    rw [groupsOf_update, own]
  otherCarriers label := by
    rw [othersOf_update]
    split
    next same =>
      rw [same, othersOf, found]
      rfl
    · rfl
  known label before := by
    rw [Function.update_apply]
    split
    · exact ⟨_, rfl⟩
    · exact before

section Left

variable {between : TerminalCategories} (left : Left first rate number categories between)

include left

theorem Left.receives (second : String) : groupsAt rate (groupsOf between second) =
    receivers categories first second rate number := by
  rw [left.groups, receivers]
  by_cases same : first = second
  · rw [if_pos same, if_pos same.symm, groupsAt_deallocate_self]
  · rw [if_neg same, if_neg (Ne.symm same)]

theorem Left.carriersId (label : String) : (groupsOf between label).map (·.carriersId) =
    (groupsOf categories label).map (·.carriersId) := by
  rw [left.groups]
  split
  next same => rw [deallocate_carriersId, same]
  · rfl

theorem Left.tally (enough : number ≤ held rate (groupsOf categories first)) (label : String)
    (weight : ℚ → ℚ) : tally weight (groupsOf between label) =
      OpenSand.tally weight (groupsOf categories label) -
        if label = first then number * weight rate else 0 := by
  rw [left.groups]
  split
  next same =>
    have law := @deallocate_tally rate number (groupsOf categories first) weight
    rw [Nat.min_eq_left enough] at law
    rw [same]
    exact eq_sub_of_add_eq law
  · exact (sub_zero _).symm

theorem Left.others {other : ℚ} (ne : other ≠ rate) (label : String) :
    groupsAt other (groupsOf between label) = groupsAt other (groupsOf categories label) := by
  rw [left.groups]
  split
  next same => rw [same, groupsAt_deallocate_of_ne ne]
  · rfl

/-- The second category then gains the carriers. -/
theorem Left.transferred (enough : number ≤ held rate (groupsOf categories first))
    {target target' : TerminalCategory} (found : between second = some target)
    (gains : Added target target' rate number
      (givenRatio categories first rate number)) :
    Transferred first second categories (Function.update between second (some target')) rate
      number := by
  have own : groupsOf between second = target.carriersGroups := by rw [groupsOf, found]; rfl
  refine ⟨?_, ?_, ?_, ?_⟩
  · intro label weight
    rw [← left.tally enough, groupsOf_update]
    split
    next same => rw [gains.tally, ← own, same, left.receives]
    · exact (add_zero _).symm
  · intro label other ne
    rw [← left.others ne, groupsOf_update]
    split
    next same => rw [gains.others other ne, ← own, same]
    · rfl
  · intro label
    rw [← left.otherCarriers, othersOf_update]
    split
    next same => rw [gains.otherCarriers, same, othersOf, found, Option.elim_some]
    · rfl
  · intro same some
    rw [← left.receives, own] at some
    rw [groupsOf_update, if_pos same, gains.merged some, ← own, left.groups, if_pos same.symm]

end Left

/-- Once the carriers are taken, only a new group without ratio stops the transfer. -/
theorem transferRate_of_le (ready : Ready categories first second highestId)
    (enough : number ≤ held rate (groupsOf categories first)) :
    ((receivers categories first second rate number).head? = none ∧
        givenRatio categories first rate number = 0 →
      transferRate durationMs first second (highestId + 1) rate number categories = none) ∧
    (¬ ((receivers categories first second rate number).head? = none ∧
        givenRatio categories first rate number = 0) →
      ∃ after, transferRate durationMs first second (highestId + 1) rate number categories =
          some (true, after) ∧
        Transferred first second categories after rate number ∧
        Ready after first second (highestId + 1)) := by
  obtain ⟨category, found⟩ := ready.gives
  have own : groupsOf categories first = category.carriersGroups := by rw [groupsOf, found]; rfl
  have left := left_update found rate number
  unfold transferRate
  rw [found, Option.bind_some, TerminalCategory.deallocateCarriers_eq,
    decide_eq_true (own ▸ enough)]
  dsimp only
  rw [show (deallocate rate number category.carriersGroups).associatedRatio =
    givenRatio categories first rate number by rw [givenRatio, groupsAt_deallocate, own]]
  generalize Function.update categories first _ = between at left ⊢
  obtain ⟨target, found'⟩ := left.known second ready.takes
  have own' : groupsOf between second = target.carriersGroups := by rw [groupsOf, found']; rfl
  have receives := left.receives second
  rw [own'] at receives
  have fresh : ∀ group ∈ target.carriersGroups, group.carriersId < highestId + 1 := by
    have ids := left.carriersId second
    rw [own'] at ids
    intro group mem
    obtain ⟨group', mem', id⟩ := List.mem_map.mp (ids ▸ List.mem_map_of_mem mem)
    exact id ▸ Nat.lt_succ_of_le (ready.bounded group' mem')
  obtain ⟨stops, adds⟩ := @TerminalCategory.addCarriersGroup_cases target (highestId + 1) number
    (givenRatio categories first rate number) durationMs target.getFmtGroup rate fresh
  rw [receives] at stops adds
  rw [found', Option.bind_some]
  constructor
  · intro none
    rw [stops none]
    rfl
  · intro some
    obtain ⟨target', added, gains, bounded⟩ := adds some
    rw [added]
    refine ⟨_, rfl, left.transferred enough found' gains, ?_, ⟨target', Function.update_self ..⟩,
      ?_⟩
    · rw [Function.update_apply]
      split
      · exact ⟨target', rfl⟩
      · exact left.known first ready.gives
    · rw [groupsOf_update, if_pos rfl]
      exact bounded

end Transfer

end OpenSand
