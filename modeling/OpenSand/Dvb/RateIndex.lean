import OpenSand.Dvb.CarriersUpdate
import OpenSand.Lib.Run

/-!
The symbol rate list of a category over its runs.

The list is an index: it should give each symbol rate the number of carriers of its groups. A
category starts without carriers and is changed by the operations of the band allocation. Each of
them has an exact condition under which the list still is the index of the groups: a deallocation
and an addition to a group that is there change numbers that the list does not follow.
-/

namespace OpenSand

open OpenSand.Word OpenSand.CountIndex OpenSand.Run

/-- A setter of a group. -/
inductive CarriersSetter where
  | carriersNumber (number : UInt32)
  | ratio (newRatio : UInt32)
  | capacity (capacitySym : UInt32)

def CarriersSetter.apply (group : CarriersGroupVcm) : CarriersSetter → Option CarriersGroupVcm
  | .carriersNumber number => some (group.setCarriersNumber number.toNat)
  | .ratio newRatio => some (group.setRatio newRatio.toNat)
  | .capacity capacitySym => group.setCapacity capacitySym.toNat

/-- The operations of the band allocation on a category; a setter is called on one of the groups
that `getCarriersGroups` returns. -/
inductive CategoryEvent where
  | addPlain (carriersId : Nat) (fmtGroup : Option FmtGroup) (ratio : UInt32) (rateSymps : ℚ)
      (access : AccessType)
  | add (carriersId : Nat) (fmtGroup : Option FmtGroup) (number ratio : UInt32) (rateSymps : ℚ)
      (access : AccessType) (durationMs : Nat)
  | update (carriersNumber : UInt32) (durationMs : Nat)
  | deallocate (symbolRate : ℚ) (number : UInt32)
  | set (index : Nat) (setter : CarriersSetter)

namespace TerminalCategory

variable (category : TerminalCategory)

def step : CategoryEvent → Option TerminalCategory
  | .addPlain carriersId fmtGroup ratio rateSymps access =>
      some (category.addPlainCarriersGroup carriersId fmtGroup ratio.toNat rateSymps access)
  | .add carriersId fmtGroup number ratio rateSymps access durationMs =>
      category.addCarriersGroup carriersId fmtGroup number.toNat ratio.toNat rateSymps access
        durationMs
  | .update carriersNumber durationMs =>
      category.updateCarriersGroups carriersNumber.toNat durationMs
  | .deallocate symbolRate number => some (category.deallocateCarriers symbolRate number.toNat).2.2
  | .set index setter =>
      match category.carriersGroups[index]? with
      | none => none
      | some group => (setter.apply group).map fun group' =>
          { category with carriersGroups := category.carriersGroups.set index group' }

/-- The symbol rates and the numbers of carriers of some groups. -/
def groupEntries (groups : List CarriersGroupVcm) : List (ℚ × Nat) :=
  groups.map fun group => (group.symbolRateSymps, group.carriersNumber)

/-- The ones of all the groups. -/
def entries : List (ℚ × Nat) :=
  groupEntries category.carriersGroups ++
    category.otherCarriers.map fun group => (group.symbolRateSymps, group.carriersNumber)

/-- The symbol rate list gives each rate of a group the number of its carriers. -/
def Indexed : Prop := Indexes category.symbolRateList category.entries

/-- The numbers are words, and the carriers of another access are not counted. -/
structure Counted : Prop where
  words : ∀ group ∈ category.carriersGroups, group.carriersNumber < 2 ^ 32
  others : ∀ group ∈ category.otherCarriers, group.carriersNumber = 0
  listed : Words 32 category.symbolRateList

/-- When an operation keeps the index. -/
def Keeps : CategoryEvent → Prop
  | .addPlain .. => True
  | .add carriersId _ number _ rateSymps access _ =>
      if (groupsAt rateSymps category.carriersGroups) ≠ [] then number = 0
      else category.carriersGroups.any (·.carriersId = carriersId) ∨ access = category.desiredAccess ∨
        number = 0 ∧ ∃ group ∈ category.otherCarriers, group.symbolRateSymps = rateSymps
  | .update carriersNumber _ =>
      (∀ group ∈ category.carriersGroups, held group.symbolRateSymps category.carriersGroups = 0 ∧
        (countAt group.symbolRateSymps (category.sharedCarriers carriersNumber.toNat)).getD 0 <
          2 ^ 32) ∧
        ∀ group ∈ category.otherCarriers, groupsAt group.symbolRateSymps category.carriersGroups ≠ []
  | .deallocate symbolRate number => number = 0 ∨ held symbolRate category.carriersGroups = 0
  | .set index (.carriersNumber number) =>
      ∀ group ∈ category.carriersGroups[index]?, number.toNat = group.carriersNumber
  | .set .. => True

end TerminalCategory

/-! ### The entries after the operations -/

open TerminalCategory

section

variable {category category' : TerminalCategory} {group group' : CarriersGroupVcm}
  {groups : List CarriersGroupVcm} {symbolRate : ℚ} {number ratio : Nat}

theorem mem_rates_iff : symbolRate ∈ (groupEntries groups).map Prod.fst ↔
    groupsAt symbolRate groups ≠ [] := by
  rw [groupEntries, List.map_map, List.mem_map, Ne, groupsAt, List.filter_eq_nil_iff]
  simp

theorem countAt_groupEntries :
    (countAt symbolRate (groupEntries groups)).getD 0 = held symbolRate groups := by
  induction groups with
  | nil => rfl
  | cons group groups ih =>
      rw [groupEntries, List.map_cons, ← groupEntries]
      by_cases same : group.symbolRateSymps = symbolRate
      · rw [held_cons_of_eq same, same, countAt_cons_self, Option.getD_some, ih]
      · rw [held_cons_of_ne same, countAt_cons_of_ne same, ih]

/-- Only the groups count. -/
theorem countAt_entries (counted : category.Counted) :
    (countAt symbolRate category.entries).getD 0 = held symbolRate category.carriersGroups := by
  rw [entries, countAt_getD_append, countAt_groupEntries]
  refine Nat.add_eq_left.mpr (countAt_getD_eq_zero fun entry mem => ?_)
  obtain ⟨group, other, rfl⟩ := List.mem_map.mp mem
  exact counted.others group other

/-- A VCM part changes neither the number nor the rate. -/
theorem groupEntries_addVcmTo (carriersId : Nat) (fmtGroup : Option FmtGroup) (ratio : Nat)
    (groups : List CarriersGroupVcm) :
    groupEntries (addVcmTo carriersId fmtGroup ratio groups) = groupEntries groups := by
  induction groups with
  | nil => rfl
  | cons group groups ih =>
      unfold addVcmTo
      split
      · rfl
      · exact congrArg (List.cons _) ih

/-- The groups of a symbol rate stay after a deallocation. -/
theorem rates_deallocate :
    (groupEntries (deallocate symbolRate number groups).carriersGroups).map Prod.fst =
      (groupEntries groups).map Prod.fst := by
  induction groups generalizing number with
  | nil => rfl
  | cons group groups ih =>
      unfold deallocate
      split
      · split
        · exact congrArg (List.cons _) ih
        · rfl
      · exact congrArg (List.cons _) ih

theorem deallocate_le (word : ∀ group ∈ groups, group.carriersNumber < 2 ^ 32) :
    ∀ group ∈ (deallocate symbolRate number groups).carriersGroups,
      group.carriersNumber < 2 ^ 32 := by
  induction groups generalizing number with
  | nil => exact word
  | cons group groups ih =>
      obtain ⟨here, later⟩ := List.forall_mem_cons.mp word
      unfold deallocate
      split
      · split
        · exact List.forall_mem_cons.mpr ⟨Nat.two_pow_pos 32, ih later⟩
        · refine List.forall_mem_cons.mpr ⟨?_, later⟩
          exact Nat.lt_of_le_of_lt (Nat.sub_le _ _) here
      · exact List.forall_mem_cons.mpr ⟨here, ih later⟩

/-- The groups before and after the first one of a symbol rate gets carriers. -/
theorem groupEntries_mergeCarriers (number ratio : Nat)
    (found : (groupsAt symbolRate groups).head? = some group) :
    ∃ rest, (groupEntries groups).Perm ((symbolRate, group.carriersNumber) :: rest) ∧
      (groupEntries (mergeCarriers symbolRate number ratio groups)).Perm
        ((symbolRate, addW 32 number group.carriersNumber) :: rest) := by
  induction groups with
  | nil => cases found
  | cons first groups ih =>
      unfold mergeCarriers
      split
      next same =>
        rw [groupsAt_cons_of_eq same] at found
        obtain rfl : first = group := Option.some.inj found
        subst same
        exact ⟨groupEntries groups, List.Perm.refl _, List.Perm.refl _⟩
      next ne =>
        rw [groupsAt_cons_of_ne ne] at found
        obtain ⟨rest, before, after⟩ := ih found
        refine ⟨(first.symbolRateSymps, first.carriersNumber) :: rest, ?_, ?_⟩
        · exact (before.cons _).trans (List.Perm.swap _ _ _)
        · exact (after.cons _).trans (List.Perm.swap _ _ _)

/-! ### What each operation keeps -/

/-- Other groups with the entries of the former ones. -/
theorem indexed_of_entries (indexed : category.Indexed)
    (same : groupEntries groups = groupEntries category.carriersGroups) :
    Indexed { category with carriersGroups := groups } := by
  unfold Indexed entries
  rw [same]
  exact indexed

theorem counted_of_words (counted : category.Counted)
    (words : ∀ group ∈ groups, group.carriersNumber < 2 ^ 32) :
    Counted { category with carriersGroups := groups } :=
  ⟨words, counted.others, counted.listed⟩

/-- The words of groups whose entries are some words. -/
theorem words_of_entries {words : List (ℚ × Nat)} (bound : ∀ entry ∈ words, entry.2 < 2 ^ 32)
    (perm : (groupEntries groups).Perm words) :
    ∀ group ∈ groups, group.carriersNumber < 2 ^ 32 :=
  fun _ mem => bound _ (perm.mem_iff.mp (List.mem_map_of_mem mem))

theorem TerminalCategory.Counted.entries_lt (counted : category.Counted) :
    ∀ entry ∈ groupEntries category.carriersGroups, entry.2 < 2 ^ 32 :=
  List.forall_mem_map.mpr counted.words

/-- Carriers that are added without a number. -/
theorem addPlain_keeps (indexed : category.Indexed) (counted : category.Counted) (carriersId : Nat)
    (fmtGroup : Option FmtGroup) (ratio : Nat) (rateSymps : ℚ) (access : AccessType) :
    (category.addPlainCarriersGroup carriersId fmtGroup ratio rateSymps access).Indexed ∧
      (category.addPlainCarriersGroup carriersId fmtGroup ratio rateSymps access).Counted := by
  unfold addPlainCarriersGroup
  split
  · have same := groupEntries_addVcmTo carriersId fmtGroup ratio category.carriersGroups
    exact ⟨indexed_of_entries indexed same,
      counted_of_words counted (words_of_entries counted.entries_lt (.of_eq same))⟩
  split
  · exact ⟨indexed, counted⟩
  have listed : Words 32 (enter rateSymps category.symbolRateList) := counted.listed.enter
  dsimp only
  split
  · refine ⟨(Indexes.enter indexed).perm ?_, ⟨?_, counted.others, listed⟩⟩
    · simp only [entries, groupEntries, List.map_append, List.append_assoc]
      exact List.perm_middle.symm
    · exact List.forall_mem_append.mpr
        ⟨counted.words, List.forall_mem_singleton.mpr (Nat.two_pow_pos 32)⟩
  · refine ⟨(Indexes.enter indexed).perm ?_, ⟨counted.words, ?_, listed⟩⟩
    · simp only [entries, List.map_append, ← List.append_assoc]
      exact (List.perm_append_singleton _ _).symm
    · exact List.forall_mem_append.mpr ⟨counted.others, List.forall_mem_singleton.mpr rfl⟩

/-- A new number of one group shows in the index. -/
theorem replaced_indexed_iff (indexed : category.Indexed) {rest : List (ℚ × Nat)} {former : Nat}
    (before : (groupEntries category.carriersGroups).Perm ((symbolRate, former) :: rest))
    (after : (groupEntries groups).Perm ((symbolRate, number) :: rest)) :
    Indexed { category with carriersGroups := groups } ↔ number = former := by
  unfold Indexed at indexed ⊢
  rw [indexes_iff_of_indexes indexed, ← countAt_replace_iff symbolRate
    (rest ++ category.otherCarriers.map fun group => (group.symbolRateSymps, group.carriersNumber))]
  refine forall_congr' fun other => ?_
  rw [entries, entries, countAt_perm (before.append_right _), countAt_perm (after.append_right _)]
  rfl

theorem replaced_words (counted : category.Counted) (word : number < 2 ^ 32)
    {rest : List (ℚ × Nat)} {former : Nat}
    (before : (groupEntries category.carriersGroups).Perm ((symbolRate, former) :: rest))
    (after : (groupEntries groups).Perm ((symbolRate, number) :: rest)) :
    Counted { category with carriersGroups := groups } := by
  refine counted_of_words counted (words_of_entries ?_ after)
  refine List.forall_mem_cons.mpr ⟨word, fun entry mem => counted.entries_lt entry ?_⟩
  exact before.mem_iff.mpr (List.mem_cons_of_mem _ mem)

/-- Carriers that are added with their number. -/
theorem add_indexed_iff (indexed : category.Indexed) (counted : category.Counted)
    (word : number < 2 ^ 32) {carriersId durationMs : Nat} {fmtGroup : Option FmtGroup}
    {rateSymps : ℚ} {access : AccessType}
    (added : category.addCarriersGroup carriersId fmtGroup number ratio rateSymps access durationMs =
      some category') :
    (category'.Indexed ↔
        if (groupsAt rateSymps category.carriersGroups) ≠ [] then number = 0
        else category.carriersGroups.any (·.carriersId = carriersId) ∨
          access = category.desiredAccess ∨
            number = 0 ∧ ∃ group ∈ category.otherCarriers, group.symbolRateSymps = rateSymps) ∧
      category'.Counted := by
  unfold addCarriersGroup at added
  rw [searchCarriersGroup_eq] at added
  dsimp only at added
  split at added
  next group found =>
    cases added
    obtain ⟨rest, before, after⟩ :=
      groupEntries_mergeCarriers number ratio found
    have some : groupsAt rateSymps category.carriersGroups ≠ [] := by
      rintro none
      rw [none] at found
      cases found
    have mem : group ∈ category.carriersGroups :=
      List.mem_of_mem_filter (List.mem_of_mem_head? found)
    rw [if_pos some]
    exact ⟨(replaced_indexed_iff indexed before after).trans
        (addW_eq_right_iff word (counted.words group mem)),
      replaced_words counted (addW_lt 32 _ _) before after⟩
  next absent =>
    have none : groupsAt rateSymps category.carriersGroups = [] := List.head?_eq_none_iff.mp absent
    have free : (countAt rateSymps category.entries).getD 0 = 0 := by
      rw [countAt_entries counted, held, none]
      rfl
    have listed : Words 32 (count 32 rateSymps number category.symbolRateList) :=
      counted.listed.count word
    rw [if_neg (not_not.mpr none)]
    split at added
    next same =>
      cases added
      have entries := groupEntries_addVcmTo carriersId fmtGroup ratio category.carriersGroups
      exact ⟨iff_of_true (indexed_of_entries indexed entries) (.inl same),
        counted_of_words counted (words_of_entries counted.entries_lt (.of_eq entries))⟩
    next other =>
      split at added
      next desired =>
        obtain ⟨group, created, rfl⟩ := Option.map_eq_some_iff.mp added
        obtain ⟨own, rate, -⟩ := CarriersGroupVcm.setCapacity_eq_some created
        refine ⟨iff_of_true ?_ (.inr (.inl desired)), ⟨?_, counted.others, listed⟩⟩
        · refine (Indexes.count_iff indexed word |>.mpr (by rwa [free])).perm ?_
          simp only [entries, groupEntries, List.map_append, List.append_assoc]
          rw [List.map_singleton, own, rate]
          exact List.perm_middle.symm
        · refine List.forall_mem_append.mpr ⟨counted.words, List.forall_mem_singleton.mpr ?_⟩
          rw [own]
          exact word
      next undesired =>
        cases added
        refine ⟨?_, ⟨counted.words, counted.others, listed⟩⟩
        refine (Indexes.count_alone_iff indexed counted.listed word).trans ?_
        rw [or_iff_right other, or_iff_right undesired]
        refine and_congr_right fun _ => ?_
        rw [entries, List.map_append, List.mem_append, mem_rates_iff, or_iff_right (not_not.mpr none),
          List.map_map, List.mem_map]
        rfl

/-- The index follows a deallocation that takes nothing. -/
theorem deallocate_indexed_iff (indexed : category.Indexed) (counted : category.Counted)
    (symbolRate : ℚ) (number : Nat) :
    (Indexed (category.deallocateCarriers symbolRate number).2.2 ↔
        number = 0 ∨ held symbolRate category.carriersGroups = 0) ∧
      Counted (category.deallocateCarriers symbolRate number).2.2 := by
  have counted' : Counted (category.deallocateCarriers symbolRate number).2.2 :=
    counted_of_words counted (deallocate_le counted.words)
  refine ⟨?_, counted'⟩
  have left := @held_deallocate symbolRate number category.carriersGroups
  have nothing : number = 0 ∨ held symbolRate category.carriersGroups = 0 ↔
      held symbolRate (deallocate symbolRate number category.carriersGroups).carriersGroups =
        held symbolRate category.carriersGroups := by omega
  have keys : (category.deallocateCarriers symbolRate number).2.2.entries.map Prod.fst =
      category.entries.map Prod.fst := by
    rw [entries, entries, List.map_append, List.map_append]
    exact congrArg (· ++ _) rates_deallocate
  rw [nothing]
  refine (indexes_iff_of_indexes indexed).trans ?_
  have same : ∀ {rate : ℚ},
      countAt rate (category.deallocateCarriers symbolRate number).2.2.entries =
          countAt rate category.entries ↔
        held rate (deallocate symbolRate number category.carriersGroups).carriersGroups =
          held rate category.carriersGroups := by
    intro rate
    rw [countAt_eq_iff_of_keys (by rw [keys]), countAt_entries counted, countAt_entries counted']
    rfl
  constructor
  · exact fun kept => same.mp (kept symbolRate)
  · intro kept rate
    refine same.mpr ?_
    by_cases own : rate = symbolRate
    · rw [own, kept]
    · rw [held, held, groupsAt_deallocate_of_ne own]

theorem carriersShare_lt (carriersNumber totalRatio ratio : Nat) :
    carriersShare carriersNumber totalRatio ratio < 2 ^ 32 := by
  unfold carriersShare
  dsimp only
  split
  · decide
  · exact Nat.lt_of_le_of_lt (Nat.div_le_self _ _) (wrap_lt 32 _)

/-- The index follows the first update of some symbol rates. -/
theorem update_indexed_iff (indexed : category.Indexed) (counted : category.Counted)
    {carriersNumber durationMs : Nat}
    (updated : category.updateCarriersGroups carriersNumber durationMs = some category') :
    (category'.Indexed ↔
        (∀ group ∈ category.carriersGroups, held group.symbolRateSymps category.carriersGroups = 0 ∧
          (countAt group.symbolRateSymps (category.sharedCarriers carriersNumber)).getD 0 < 2 ^ 32) ∧
          ∀ group ∈ category.otherCarriers,
            groupsAt group.symbolRateSymps category.carriersGroups ≠ []) ∧
      category'.Counted := by
  obtain ⟨shared, listed, none⟩ := updateCarriersGroups_eq_some updated
  have word : ∀ entry ∈ category.sharedCarriers carriersNumber, entry.2 < 2 ^ 32 :=
    List.forall_mem_map.mpr fun group _ => carriersShare_lt _ _ _
  have entries' : category'.entries = category.sharedCarriers carriersNumber := by
    rw [entries, none, List.map_nil, List.append_nil, groupEntries, shared]
  have rates : (category.sharedCarriers carriersNumber).map Prod.fst =
      (groupEntries category.carriersGroups).map Prod.fst := by
    rw [sharedCarriers, groupEntries, List.map_map, List.map_map]
    rfl
  constructor
  · rw [Indexed, entries', listed, Indexes.countAll_iff indexed counted.listed word]
    refine and_congr ?_ ?_
    · rw [rates, groupEntries, List.map_map, List.forall_mem_map]
      refine forall₂_congr fun group _ => ?_
      rw [countAt_entries counted]
      rfl
    · rw [entries, List.map_append, List.forall_mem_append, rates, List.map_map,
        and_iff_right fun rate mem => mem, List.forall_mem_map]
      exact forall₂_congr fun group _ => mem_rates_iff
  · refine ⟨words_of_entries word (.of_eq shared), ?_, ?_⟩
    · rw [none]
      exact List.forall_mem_nil _
    · rw [listed]
      exact counted.listed.countAll word

/-- The index follows a setter that keeps the number of carriers. -/
theorem set_indexed_iff (indexed : category.Indexed) (counted : category.Counted) {index : Nat}
    (group' : CarriersGroupVcm) (found : category.carriersGroups[index]? = some group)
    (word : group'.carriersNumber < 2 ^ 32)
    (rate : group'.symbolRateSymps = group.symbolRateSymps) :
    (Indexed { category with carriersGroups := category.carriersGroups.set index group' } ↔
        group'.carriersNumber = group.carriersNumber) ∧
      Counted { category with carriersGroups := category.carriersGroups.set index group' } := by
  obtain ⟨bound, rfl⟩ := List.getElem?_eq_some_iff.mp found
  obtain ⟨before, after, split, -, changed⟩ : ∃ before after,
      category.carriersGroups = before ++ category.carriersGroups[index] :: after ∧ _ ∧
        category.carriersGroups.set index group' = before ++ group' :: after :=
    List.exists_of_set bound
  have perm : ∀ group : CarriersGroupVcm, (groupEntries (before ++ group :: after)).Perm
      ((group.symbolRateSymps, group.carriersNumber) :: groupEntries (before ++ after)) :=
    fun group => (List.perm_middle (a := group)).map _
  have former := perm category.carriersGroups[index]
  rw [← split] at former
  have latter := perm group'
  rw [← changed, rate] at latter
  exact ⟨replaced_indexed_iff indexed former latter, replaced_words counted word former latter⟩

/-! ### Runs -/

theorem step_indexed_iff {event : CategoryEvent} (indexed : category.Indexed)
    (counted : category.Counted) (taken : category.step event = some category') :
    (category'.Indexed ↔ category.Keeps event) ∧ category'.Counted := by
  cases event with
  | addPlain carriersId fmtGroup ratio rateSymps access =>
      cases taken
      obtain ⟨indexed', counted'⟩ :=
        addPlain_keeps indexed counted carriersId fmtGroup ratio.toNat rateSymps access
      exact ⟨iff_of_true indexed' trivial, counted'⟩
  | add carriersId fmtGroup number ratio rateSymps access durationMs =>
      rw [Keeps]
      have := add_indexed_iff indexed counted number.toNat_lt taken
      simpa [← UInt32.toNat_inj] using this
  | update carriersNumber durationMs => exact update_indexed_iff indexed counted taken
  | deallocate symbolRate number =>
      cases taken
      have := deallocate_indexed_iff indexed counted symbolRate number.toNat
      simpa [Keeps, ← UInt32.toNat_inj] using this
  | set index setter =>
      rw [TerminalCategory.step] at taken
      split at taken
      · cases taken
      next group found =>
        obtain ⟨group', applied, rfl⟩ := Option.map_eq_some_iff.mp taken
        have word : group.carriersNumber < 2 ^ 32 :=
          counted.words group (List.mem_of_getElem? found)
        cases setter with
        | carriersNumber number =>
            cases applied
            have exactly := set_indexed_iff indexed counted
              (group.setCarriersNumber number.toNat) found number.toNat_lt rfl
            refine ⟨exactly.1.trans ?_, exactly.2⟩
            rw [Keeps, found]
            exact ⟨fun same _ mem => (Option.mem_some_iff.mp mem) ▸ same, fun same => same group rfl⟩
        | ratio newRatio =>
            cases applied
            have exactly := set_indexed_iff indexed counted (group.setRatio newRatio.toNat)
              found word rfl
            exact ⟨iff_of_true (exactly.1.mpr rfl) trivial, exactly.2⟩
        | capacity capacitySym =>
            obtain ⟨number, rate, -⟩ := CarriersGroupVcm.setCapacity_eq_some applied
            have exactly := set_indexed_iff indexed counted group' found (number ▸ word) rate
            exact ⟨iff_of_true (exactly.1.mpr number) trivial, exactly.2⟩

/-- The index of a category over every run. -/
theorem allStates_indexed_iff (desiredAccess : AccessType) (events : List CategoryEvent) :
    AllStates step Indexed (empty desiredAccess) events ↔
      AllSteps step Keeps (empty desiredAccess) events := by
  have init : Indexed (empty desiredAccess) ∧ Counted (empty desiredAccess) :=
    ⟨fun _ => rfl, List.forall_mem_nil _, List.forall_mem_nil _,
      fun key number found => by cases found⟩
  have exactly : AllStates step (fun category => category.Indexed ∧ category.Counted)
        (empty desiredAccess) events ↔ AllSteps step Keeps (empty desiredAccess) events := by
    refine allStates_iff_allSteps init fun category event category' good taken => ?_
    obtain ⟨iff, counted⟩ := step_indexed_iff good.1 good.2 taken
    rw [and_iff_left counted, iff]
  rw [← exactly]
  constructor
  · intro states
    exact states.with_invariant init.2 fun category event category' counted indexed _ taken =>
      (step_indexed_iff indexed counted taken).2
  · exact fun states => states.mono fun category good => good.1

end

/-- A band that is allocated, and carriers that are given away. -/
def transferRun : List CategoryEvent :=
  [.addPlain 0 none 10 1000000 .dama, .update 10 53, .deallocate 1000000 4]

/-- Six carriers are left, and the list still has ten. -/
theorem transferRun_not_indexed : ¬ AllStates step Indexed (empty .dama) transferRun := by
  intro states
  obtain ⟨category, ends, six⟩ : ∃ category, run step (empty .dama) transferRun = some category ∧
      countAt 1000000 category.entries = some 6 ∧
        category.symbolRateList.lookup 1000000 = some 10 := by
    cases ends : run step (empty .dama) transferRun with
    | none =>
        have defined : (run step (empty .dama) transferRun).isSome := by decide +kernel
        rw [ends] at defined
        cases defined
    | some category =>
        refine ⟨category, rfl, ?_⟩
        have counts : (run step (empty .dama) transferRun).map (fun category =>
            (countAt 1000000 category.entries, category.symbolRateList.lookup 1000000)) =
              some (some 6, some 10) := by
          decide +kernel
        rw [ends, Option.map_some, Option.some.injEq, Prod.mk.injEq] at counts
        exact counts
  have indexed := states.last ends 1000000
  rw [six.1, six.2] at indexed
  exact absurd indexed (by decide)

end OpenSand
