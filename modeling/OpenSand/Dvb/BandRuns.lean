import OpenSand.Dvb.BandTransfer
import OpenSand.Dvb.BandPlan
import Mathlib.Algebra.Order.BigOperators.Group.List

/-!
Whole transfers of carriers.

A transfer goes through exactly when each of its rates does, and one that fails leaves the
groups as they were exactly when the rate that failed was not there at all and the ones before
it went back to the groups that they came from.
-/

namespace OpenSand

open OpenSand.Word

variable {categories after : TerminalCategories} {first second : String} {rate : ℚ}
  {number highestId durationMs : Nat} {rest entries : List (ℚ × Nat)}

/-- What the transfer of a first rate leads to. -/
theorem transferRates_cons (ready : Ready categories first second highestId)
    (nonzero : number ≠ 0) :
    (held rate (groupsOf categories first) < number ∧
      ∃ after, transferRates durationMs first second ((rate, number) :: rest) highestId categories =
          some (false, after) ∧
        groupsOf after first =
          (deallocate rate number (groupsOf categories first)).carriersGroups ∧
        ∀ label, label ≠ first → groupsOf after label = groupsOf categories label) ∨
    (number ≤ held rate (groupsOf categories first) ∧
      (receivers categories first second rate number).head? = none ∧
      givenRatio categories first rate number = 0 ∧
      transferRates durationMs first second ((rate, number) :: rest) highestId categories =
        none) ∨
    (number ≤ held rate (groupsOf categories first) ∧
      ((receivers categories first second rate number).head? = none →
        givenRatio categories first rate number ≠ 0) ∧
      ∃ next, Transferred first second categories next rate number ∧
        Ready next first second (highestId + 1) ∧
        transferRates durationMs first second ((rate, number) :: rest) highestId categories =
          transferRates durationMs first second rest (highestId + 1) next) := by
  rw [transferRates, if_neg nonzero]
  by_cases enough : number ≤ held rate (groupsOf categories first)
  · obtain ⟨stops, moves⟩ := @transferRate_of_le categories first second rate number highestId
      durationMs ready enough
    by_cases none : (receivers categories first second rate number).head? = none ∧
        givenRatio categories first rate number = 0
    · refine .inr (.inl ⟨enough, none.1, none.2, ?_⟩)
      rw [stops none, Option.bind_none]
    · obtain ⟨next, moved, transferred, ready'⟩ := moves none
      refine .inr (.inr ⟨enough, fun new zero => none ⟨new, zero⟩, next, transferred, ready', ?_⟩)
      rw [moved, Option.bind_some]
  · obtain ⟨after, failed, lost, others⟩ := @transferRate_of_lt categories first second rate number
      highestId durationMs ready (not_le.mp enough)
    refine .inl ⟨not_le.mp enough, after, ?_, lost, others⟩
    rw [failed, Option.bind_some]

/-- The groups of a rate are the same in both states. -/
def SameAt (rate : ℚ) (categories after : TerminalCategories) : Prop :=
  ∀ label, groupsAt rate (groupsOf after label) = groupsAt rate (groupsOf categories label)

theorem SameAt.held {other : ℚ} (same : SameAt other categories after) (label : String) :
    held other (groupsOf after label) = held other (groupsOf categories label) := by
  rw [OpenSand.held, same label, ← OpenSand.held]

theorem SameAt.transferable (same : SameAt rate categories after)
    (h : Transferable after first second rate number) :
    Transferable categories first second rate number := by
  have receives : receivers after first second rate number =
      receivers categories first second rate number := by
    rw [receivers, receivers, same first, same second]
  refine ⟨same.held first ▸ h.enough, receives ▸ h.fits, ?_⟩
  have ratio := h.ratio
  rw [receives, givenRatio, same first] at ratio
  exact ratio

theorem SameAt.symm (same : SameAt rate categories after) : SameAt rate after categories :=
  fun label => (same label).symm

/-- A transfer changes the groups of its own rates alone. -/
theorem transferRates_sameAt {other : ℚ} {done : Bool} (ready : Ready categories first second highestId)
    (ran : transferRates durationMs first second entries highestId categories = some (done, after))
    (absent : ∀ entry ∈ entries, entry.1 ≠ other) : SameAt other categories after := by
  induction entries generalizing categories highestId with
  | nil =>
      obtain ⟨-, rfl⟩ := Prod.mk.inj (Option.some.inj ran)
      exact fun label => rfl
  | cons entry rest ih =>
      obtain ⟨rate, number⟩ := entry
      have ne : other ≠ rate := Ne.symm (absent _ List.mem_cons_self)
      have absent' : ∀ entry ∈ rest, entry.1 ≠ other :=
        fun entry mem => absent entry (List.mem_cons_of_mem _ mem)
      by_cases zero : number = 0
      · rw [transferRates, if_pos zero] at ran
        exact ih ready ran absent'
      rcases @transferRates_cons categories first second rate number highestId durationMs rest ready
        zero with ⟨-, last, stopped, lost, others⟩ | ⟨-, -, -, stopped⟩ |
          ⟨-, -, next, transferred, ready', step⟩
      · obtain rfl : last = after :=
          (Prod.mk.inj (Option.some.inj (stopped.symm.trans ran))).2
        intro label
        by_cases own : label = first
        · rw [own, lost, groupsAt_deallocate_of_ne ne]
        · rw [others label own]
      · rw [stopped] at ran
        cases ran
      · intro label
        rw [ih ready' (step ▸ ran) absent' label, transferred.others label other ne]

/-! ### Transfers that succeed -/

/-- The sum of a weight of their rates over the carriers of a transfer. -/
def carriersTally (weight : ℚ → ℚ) (carriers : List (ℚ × Nat)) : ℚ :=
  (carriers.map fun entry => (entry.2 : ℚ) * weight entry.1).sum

theorem carriersTally_cons (weight : ℚ → ℚ) (entry : ℚ × Nat) (carriers : List (ℚ × Nat)) :
    carriersTally weight (entry :: carriers) =
      entry.2 * weight entry.1 + carriersTally weight carriers := by
  rw [carriersTally, List.map_cons, List.sum_cons]
  rfl

theorem carriersTally_id (carriers : List (ℚ × Nat)) :
    carriersTally id carriers = carriersRate carriers :=
  congrArg List.sum (List.map_congr_left fun _ _ => mul_comm _ _)

/-- The carriers of a whole transfer leave the first category for the second one. -/
structure AllTransferred (first second : String) (before after : TerminalCategories)
    (carriers : List (ℚ × Nat)) : Prop where
  tally : ∀ label weight, tally weight (groupsOf after label) =
    tally weight (groupsOf before label) -
      (if label = first then carriersTally weight carriers else 0) +
      if label = second then carriersTally weight carriers else 0
  otherCarriers : ∀ label, othersOf after label = othersOf before label

theorem Transferred.all {before next : TerminalCategories}
    (step : Transferred first second before next rate number)
    (exact_ : gain number (receivers before first second rate number) = number)
    (later : AllTransferred first second next after rest) :
    AllTransferred first second before after ((rate, number) :: rest) := by
  refine ⟨fun label weight => ?_, fun label => ?_⟩
  · rw [later.tally, step.tally, exact_, carriersTally_cons]
    by_cases gives : label = first <;> by_cases takes : label = second
    · rw [if_pos gives, if_pos gives, if_pos gives, if_pos takes, if_pos takes, if_pos takes]
      ring
    · rw [if_pos gives, if_pos gives, if_pos gives, if_neg takes, if_neg takes, if_neg takes]
      ring
    · rw [if_neg gives, if_neg gives, if_neg gives, if_pos takes, if_pos takes, if_pos takes]
      ring
    · rw [if_neg gives, if_neg gives, if_neg gives, if_neg takes, if_neg takes, if_neg takes]
      ring
  · rw [later.otherCarriers, step.otherCarriers]

theorem Transferred.sameAt {other : ℚ} {before next : TerminalCategories}
    (step : Transferred first second before next rate number) (ne : other ≠ rate) :
    SameAt other before next :=
  fun label => step.others label other ne

theorem transferRates_served (ready : Ready categories first second highestId)
    (distinct : (entries.map Prod.fst).Nodup)
    (served : ∀ entry ∈ entries, entry.2 ≠ 0 →
      Transferable categories first second entry.1 entry.2) :
    ∃ after, transferRates durationMs first second entries highestId categories =
      some (true, after) ∧ AllTransferred first second categories after entries := by
  induction entries generalizing categories highestId with
  | nil =>
      refine ⟨categories, rfl, fun label weight => ?_, fun label => rfl⟩
      rw [carriersTally, List.map_nil, List.sum_nil, ite_self, ite_self, sub_zero, add_zero]
  | cons entry rest ih =>
      obtain ⟨rate, number⟩ := entry
      rw [List.map_cons, List.nodup_cons] at distinct
      obtain ⟨absent, distinct⟩ := distinct
      have served' := fun entry mem => served entry (List.mem_cons_of_mem (rate, number) mem)
      by_cases zero : number = 0
      · obtain ⟨after, ran, all⟩ := ih ready distinct served'
        refine ⟨after, ?_, fun label weight => ?_, all.otherCarriers⟩
        · rw [transferRates, if_pos zero, ran]
        · rw [all.tally, carriersTally_cons, zero, Nat.cast_zero, zero_mul, zero_add]
      have own := served _ List.mem_cons_self zero
      rcases @transferRates_cons categories first second rate number highestId durationMs rest ready
        zero with ⟨lacking, -⟩ | ⟨-, new, zeroRatio, -⟩ | ⟨-, -, next, transferred, ready', step⟩
      · exact absurd own.enough (not_le_of_gt lacking)
      · exact absurd zeroRatio (own.ratio new)
      · have served'' : ∀ entry ∈ rest, entry.2 ≠ 0 →
            Transferable next first second entry.1 entry.2 := by
          intro entry mem nonzero
          have ne : entry.1 ≠ rate := by
            intro same
            exact absent (List.mem_map.mpr ⟨entry, mem, same⟩)
          exact (transferred.sameAt ne).symm.transferable (served' entry mem nonzero)
        obtain ⟨after, ran, all⟩ := ih ready' distinct served''
        exact ⟨after, step.trans ran, transferred.all (gain_eq_iff.mpr own.fits) all⟩

/-! ### Transfers that keep the carriers -/

/-- The carriers of each rate over the two categories are as many in both states. -/
def Conserved (first second : String) (before after : TerminalCategories) : Prop :=
  ∀ rate, held rate (groupsOf after first) + held rate (groupsOf after second) =
    held rate (groupsOf before first) + held rate (groupsOf before second)

/-- The carriers of its rate that a step moves are kept when the word of the number does not
wrap. -/
theorem Transferred.gain_eq {before next : TerminalCategories}
    (step : Transferred first second before next rate number)
    (kept : held rate (groupsOf next first) + held rate (groupsOf next second) =
      held rate (groupsOf before first) + held rate (groupsOf before second)) :
    gain number (receivers before first second rate number) = number := by
  have cast := congrArg (fun n : ℕ => (n : ℚ)) kept
  rw [Nat.cast_add, Nat.cast_add, held_eq_tally, held_eq_tally, held_eq_tally, held_eq_tally,
    step.tally first, step.tally second, if_pos rfl, if_pos rfl, if_pos rfl, mul_one, mul_one]
    at cast
  by_cases same : first = second
  · rw [if_pos same, if_pos same.symm] at cast
    linarith
  · rw [if_neg same, if_neg (Ne.symm same)] at cast
    linarith

theorem transferRates_conserved (ready : Ready categories first second highestId)
    (distinct : (entries.map Prod.fst).Nodup)
    (ran : transferRates durationMs first second entries highestId categories = some (true, after))
    (conserved : Conserved first second categories after) :
    ∀ entry ∈ entries, entry.2 ≠ 0 → Transferable categories first second entry.1 entry.2 := by
  induction entries generalizing categories highestId with
  | nil => exact List.forall_mem_nil _
  | cons entry rest ih =>
      obtain ⟨rate, number⟩ := entry
      rw [List.map_cons, List.nodup_cons] at distinct
      obtain ⟨absent, distinct⟩ := distinct
      have other : ∀ entry ∈ rest, entry.1 ≠ rate := by
        intro entry mem same
        exact absent (List.mem_map.mpr ⟨entry, mem, same⟩)
      by_cases zero : number = 0
      · rw [transferRates, if_pos zero] at ran
        intro entry mem nonzero
        rcases List.mem_cons.mp mem with rfl | mem
        · exact absurd zero nonzero
        · exact ih ready distinct ran conserved entry mem nonzero
      rcases @transferRates_cons categories first second rate number highestId durationMs rest ready
        zero with ⟨-, last, stopped, -⟩ | ⟨-, -, -, stopped⟩ |
          ⟨enough, ratio, next, transferred, ready', step⟩
      · rw [stopped] at ran
        cases ran
      · rw [stopped] at ran
        cases ran
      · have ran' := step ▸ ran
        -- the rate of the step is changed by it alone, the other ones by the rest alone
        have later := transferRates_sameAt ready' ran' other
        have own : held rate (groupsOf next first) + held rate (groupsOf next second) =
            held rate (groupsOf categories first) + held rate (groupsOf categories second) := by
          rw [← conserved rate, later.held, later.held]
        have conserved' : Conserved first second next after := by
          intro rate'
          by_cases same : rate' = rate
          · rw [same, later.held, later.held]
          · rw [conserved rate', (transferred.sameAt same).held, (transferred.sameAt same).held]
        intro entry mem nonzero
        rcases List.mem_cons.mp mem with rfl | mem
        · exact ⟨enough, gain_eq_iff.mp (transferred.gain_eq own), ratio⟩
        · exact (transferred.sameAt (other entry mem)).transferable
            (ih ready' distinct ran' conserved' entry mem nonzero)

/-! ### Transfers that fail -/

/-- A group that gets back carriers that it gave is as it was. -/
structure CarriersGroupVcm.Restores (group : CarriersGroupVcm) (number : Nat) : Prop where
  enough : number ≤ group.carriersNumber
  number_lt : group.carriersNumber < 2 ^ 32
  ratio_lt : group.ratio < 2 ^ 32
  parts : ∀ part ∈ group.vcmCarriers, part.carriersNumber = group.carriersNumber

theorem mergeCarriers_of_eq {ratio : Nat} {group : CarriersGroupVcm}
    {groups : List CarriersGroupVcm} (own : group.symbolRateSymps = rate) :
    mergeCarriers rate number ratio (group :: groups) =
      (group.setCarriersNumber (addW 32 number group.carriersNumber)).setRatio
        (addW 32 ratio group.ratio) :: groups :=
  if_pos own

theorem setRatio_setCarriersNumber_eq_iff {group : CarriersGroupVcm} :
    (group.setCarriersNumber (wrap 32 group.carriersNumber)).setRatio (wrap 32 group.ratio) =
        group ↔
      group.carriersNumber < 2 ^ 32 ∧ group.ratio < 2 ^ 32 ∧
        ∀ part ∈ group.vcmCarriers, part.carriersNumber = group.carriersNumber := by
  constructor
  · intro same
    have number := congrArg (fun group : CarriersGroupVcm => group.carriersNumber) same
    have ratio := congrArg (fun group : CarriersGroupVcm => group.ratio) same
    have parts := congrArg (fun group : CarriersGroupVcm => group.vcmCarriers) same
    have parts' := List.map_inj_left.mp (parts.trans (List.map_id _).symm)
    refine ⟨wrap_eq_self_iff.mp number, wrap_eq_self_iff.mp ratio, fun part mem => ?_⟩
    exact (congrArg (fun part : CarriersGroup => part.carriersNumber) (parts' part mem)).symm.trans
      number
  · rintro ⟨number, ratio, parts⟩
    rw [wrap_of_lt number, wrap_of_lt ratio]
    have same : group.vcmCarriers.map
        (fun part => { part with carriersNumber := group.carriersNumber }) = group.vcmCarriers := by
      refine (List.map_congr_left fun part mem => ?_).trans (List.map_id _)
      rw [← parts part mem]
      rfl
    unfold CarriersGroupVcm.setRatio CarriersGroupVcm.setCarriersNumber
    rw [same]

/-- The carriers go back to the first group of the rate. -/
theorem mergeCarriers_deallocate_cons {group : CarriersGroupVcm} {groups : List CarriersGroupVcm}
    (own : group.symbolRateSymps = rate) (nonzero : number ≠ 0) (word : number < 2 ^ 32) :
    mergeCarriers rate number (deallocate rate number (group :: groups)).associatedRatio
        (deallocate rate number (group :: groups)).carriersGroups = group :: groups ↔
      group.Restores number := by
  have differs : ∀ {group' : CarriersGroupVcm} {groups' : List CarriersGroupVcm},
      group'.carriersNumber = number → group.carriersNumber < number →
      (group' :: groups' = group :: groups ↔ group.Restores number) := by
    intro group' groups' count less
    constructor
    · intro same
      rw [← (List.cons.inj same).1, count] at less
      exact absurd less (lt_irrefl _)
    · exact fun restores => absurd restores.enough (not_le_of_gt less)
  unfold deallocate
  by_cases gives : group.carriersNumber ≠ 0 ∧ group.symbolRateSymps = rate
  · rw [if_pos gives]
    by_cases less : group.carriersNumber < number
    · rw [if_pos less]
      dsimp only
      rw [mergeCarriers_of_eq (by exact own)]
      exact differs (Nat.mod_eq_of_lt word) less
    · rw [if_neg less]
      have enough : number ≤ group.carriersNumber := not_lt.mp less
      have part : wrap 32 (group.ratio * (group.carriersNumber - number)) / group.carriersNumber ≤
          group.ratio := by
        refine Nat.div_le_of_le_mul ?_
        calc
          wrap 32 (group.ratio * (group.carriersNumber - number))
              ≤ group.ratio * (group.carriersNumber - number) := wrap_le 32 _
          _ ≤ group.ratio * group.carriersNumber := Nat.mul_le_mul_left _ (Nat.sub_le _ _)
          _ = group.carriersNumber * group.ratio := Nat.mul_comm _ _
      dsimp only
      rw [mergeCarriers_of_eq (by exact own)]
      generalize wrap 32 (group.ratio * (group.carriersNumber - number)) / group.carriersNumber =
        newRatio at part ⊢
      have back : (((group.setRatio newRatio).setCarriersNumber
            (group.carriersNumber - number)).setCarriersNumber
              (addW 32 number (group.carriersNumber - number))).setRatio
                (addW 32 (group.ratio - newRatio) newRatio) =
          (group.setCarriersNumber (wrap 32 group.carriersNumber)).setRatio (wrap 32 group.ratio) := by
        unfold CarriersGroupVcm.setRatio CarriersGroupVcm.setCarriersNumber
        rw [addW, addW, Nat.add_sub_cancel' enough, Nat.sub_add_cancel part, List.map_map]
        rfl
      refine (Eq.congr_left (congrArg (· :: groups) back)).trans ?_
      rw [List.cons.injEq, setRatio_setCarriersNumber_eq_iff]
      constructor
      · rintro ⟨⟨number_lt, ratio_lt, parts⟩, -⟩
        exact ⟨enough, number_lt, ratio_lt, parts⟩
      · exact fun restores => ⟨⟨restores.number_lt, restores.ratio_lt, restores.parts⟩, rfl⟩
  · have empty : group.carriersNumber = 0 := by
      by_contra some
      exact gives ⟨some, own⟩
    rw [if_neg gives]
    dsimp only
    rw [mergeCarriers, if_pos own]
    refine differs ?_ (empty ▸ Nat.pos_of_ne_zero nonzero)
    rw [CarriersGroupVcm.setRatio_carriersNumber, CarriersGroupVcm.setCarriersNumber_carriersNumber,
      empty]
    exact Nat.mod_eq_of_lt word

/-- Giving carriers of a rate to itself leaves a category as it was. -/
structure Restored (categories : TerminalCategories) (first second : String) (rate : ℚ)
    (number : Nat) : Prop where
  same : first = second
  restores : ∃ group, (groupsAt rate (groupsOf categories first)).head? = some group ∧
    group.Restores number

theorem groupsAt_mergeCarriers {ratio : Nat} {groups : List CarriersGroupVcm} :
    groupsAt rate (mergeCarriers rate number ratio groups) =
      mergeCarriers rate number ratio (groupsAt rate groups) := by
  induction groups with
  | nil => rfl
  | cons group groups ih =>
      by_cases own : group.symbolRateSymps = rate
      · rw [groupsAt_cons_of_eq own, mergeCarriers_of_eq own, mergeCarriers_of_eq own]
        exact groupsAt_cons_of_eq own
      · rw [groupsAt_cons_of_ne own, mergeCarriers, if_neg own, groupsAt_cons_of_ne own, ih]

/-- The carriers given back to their category leave its groups. -/
theorem mergeCarriers_deallocate {group : CarriersGroupVcm} {groups : List CarriersGroupVcm}
    (found : (groupsAt rate groups).head? = some group) (restores : group.Restores number)
    (nonzero : number ≠ 0) :
    mergeCarriers rate number (deallocate rate number groups).associatedRatio
      (deallocate rate number groups).carriersGroups = groups := by
  induction groups with
  | nil => cases found
  | cons first groups ih =>
      by_cases own : first.symbolRateSymps = rate
      · rw [groupsAt_cons_of_eq own] at found
        obtain rfl : first = group := Option.some.inj found
        exact (mergeCarriers_deallocate_cons own nonzero
          (lt_of_le_of_lt restores.enough restores.number_lt)).mpr restores
      · rw [groupsAt_cons_of_ne own] at found
        rw [deallocate, if_neg fun gives => own gives.2]
        dsimp only
        rw [mergeCarriers, if_neg own, ih found]

theorem receivers_ne_nil {group : CarriersGroupVcm} (same : first = second)
    (found : (groupsAt rate (groupsOf categories first)).head? = some group) :
    (receivers categories first second rate number).head? ≠ none := by
  rw [receivers, if_pos same]
  intro none
  have ids := @deallocate_carriersId rate number (groupsAt rate (groupsOf categories first))
  rw [List.head?_eq_none_iff.mp none, List.map_nil] at ids
  rw [List.map_eq_nil_iff.mp ids.symm] at found
  cases found

/-- A transfer in place leaves the groups of its rate exactly when it restores them. -/
theorem Transferred.restored {next : TerminalCategories}
    (step : Transferred first second categories next rate number)
    (enough : number ≤ held rate (groupsOf categories first)) (nonzero : number ≠ 0)
    (word : number < 2 ^ 32)
    (kept : groupsAt rate (groupsOf next first) = groupsAt rate (groupsOf categories first)) :
    Restored categories first second rate number := by
  have same : first = second := by
    by_contra ne
    have law := step.tally first fun rate' => if rate' = rate then 1 else 0
    rw [if_pos rfl, if_pos rfl, if_neg ne, add_zero, mul_one, ← held_eq_tally, ← held_eq_tally, held,
      kept, ← held] at law
    exact nonzero (Nat.cast_eq_zero.mp (by linarith : (number : ℚ) = 0))
  refine ⟨same, ?_⟩
  cases at_ : groupsAt rate (groupsOf categories first) with
  | nil =>
      rw [held, at_, List.map_nil, List.sum_nil] at enough
      exact absurd (Nat.le_zero.mp enough) nonzero
  | cons group groups =>
      have found : (groupsAt rate (groupsOf categories first)).head? = some group := by rw [at_]; rfl
      have own : group.symbolRateSymps = rate := by
        have mem : group ∈ groupsAt rate (groupsOf categories first) := by
          rw [at_]
          exact List.mem_cons_self
        exact of_decide_eq_true (List.mem_filter.mp mem).2
      rw [step.merged same (receivers_ne_nil same found), groupsAt_mergeCarriers,
        groupsAt_deallocate_self, givenRatio, at_] at kept
      exact ⟨group, rfl, (mergeCarriers_deallocate_cons own nonzero word).mp kept⟩

/-- A failed transfer that left the groups of the first category: the rates before the one that
failed were restored, and there was nothing of that one to take. -/
theorem transferRates_kept (ready : Ready categories first second highestId)
    (distinct : (entries.map Prod.fst).Nodup) (words : ∀ entry ∈ entries, entry.2 < 2 ^ 32)
    (ran : transferRates durationMs first second entries highestId categories = some (false, after))
    (kept : ∀ rate, groupsAt rate (groupsOf after first) = groupsAt rate (groupsOf categories first)) :
    ∃ before failed later, entries.filter (·.2 ≠ 0) = before ++ failed :: later ∧
      (∀ entry ∈ before, Restored categories first second entry.1 entry.2) ∧
      held failed.1 (groupsOf categories first) = 0 := by
  induction entries generalizing categories highestId with
  | nil => cases ran
  | cons entry rest ih =>
      obtain ⟨rate, number⟩ := entry
      rw [List.map_cons, List.nodup_cons] at distinct
      obtain ⟨absent, distinct⟩ := distinct
      have words' := fun entry mem => words entry (List.mem_cons_of_mem (rate, number) mem)
      by_cases zero : number = 0
      · rw [transferRates, if_pos zero] at ran
        rw [List.filter_cons_of_neg (by simp [zero])]
        exact ih ready distinct words' ran kept
      rw [List.filter_cons_of_pos (by simp [zero])]
      rcases @transferRates_cons categories first second rate number highestId durationMs rest ready
        zero with ⟨lacking, last, stopped, lost, -⟩ | ⟨-, -, -, stopped⟩ |
          ⟨enough, -, next, transferred, ready', step⟩
      · obtain rfl : last = after :=
          (Prod.mk.inj (Option.some.inj (stopped.symm.trans ran))).2
        refine ⟨[], (rate, number), _, rfl, List.forall_mem_nil _, ?_⟩
        have left : held rate (groupsOf last first) = held rate (groupsOf categories first) := by
          rw [held, kept rate, ← held]
        rw [lost, held_deallocate] at left
        dsimp only
        omega
      · rw [stopped] at ran
        cases ran
      · have ran' := step ▸ ran
        have other : ∀ entry ∈ rest, entry.1 ≠ rate :=
          fun entry mem same => absent (List.mem_map.mpr ⟨entry, mem, same⟩)
        have later := transferRates_sameAt ready' ran' other
        have kept' : ∀ rate, groupsAt rate (groupsOf next first) =
            groupsAt rate (groupsOf categories first) := by
          intro rate'
          by_cases same : rate' = rate
          · rw [same, ← later first, kept rate]
          · exact transferred.others first rate' same
        have restored := transferred.restored enough zero (words _ List.mem_cons_self) (kept' rate)
        obtain ⟨before, failed, after', split, restored', none⟩ :=
          ih ready' distinct words' ran' fun rate => (kept rate).trans (kept' rate).symm
        refine ⟨(rate, number) :: before, failed, after', by rw [split]; rfl, ?_, ?_⟩
        · intro entry mem
          rcases List.mem_cons.mp mem with rfl | mem
          · exact restored
          · obtain ⟨same, group, found, restores⟩ := restored' entry mem
            exact ⟨same, group, kept' entry.1 ▸ found, restores⟩
        · rwa [held, ← kept' failed.1, ← held]

theorem le_held {group : CarriersGroupVcm} {groups : List CarriersGroupVcm}
    (found : (groupsAt rate groups).head? = some group) : group.carriersNumber ≤ held rate groups :=
  List.single_le_sum (fun _ _ => Nat.zero_le _) _
    (List.mem_map_of_mem (List.mem_of_mem_head? found))

theorem transferRates_failed (ready : Ready categories first second highestId)
    {before later : List (ℚ × Nat)} {failed : ℚ × Nat}
    (split : entries.filter (·.2 ≠ 0) = before ++ failed :: later)
    (restored : ∀ entry ∈ before, Restored categories first second entry.1 entry.2)
    (none : held failed.1 (groupsOf categories first) = 0) :
    ∃ after, transferRates durationMs first second entries highestId categories =
        some (false, after) ∧
      groupsOf after first = groupsOf categories first ∧
      groupsOf after second = groupsOf categories second := by
  induction entries generalizing categories highestId before with
  | nil => exact absurd split.symm (List.append_ne_nil_of_right_ne_nil _ (List.cons_ne_nil _ _))
  | cons entry rest ih =>
      obtain ⟨rate, number⟩ := entry
      by_cases zero : number = 0
      · rw [List.filter_cons_of_neg (by simp [zero])] at split
        rw [transferRates, if_pos zero]
        exact ih ready split restored none
      rw [List.filter_cons_of_pos (by simp [zero])] at split
      have moves := @transferRates_cons categories first second rate number highestId durationMs rest
        ready zero
      cases before with
      | nil =>
          obtain rfl : (rate, number) = failed := (List.cons.inj split).1
          rcases moves with ⟨-, after, stopped, lost, others⟩ | ⟨enough, -⟩ | ⟨enough, -⟩
          · have whole : groupsOf after first = groupsOf categories first := by
              rw [lost, deallocate_of_held_eq_zero none]
            refine ⟨after, stopped, whole, ?_⟩
            by_cases same : second = first
            · rw [same, whole]
            · exact others second same
          · exact absurd (Nat.le_zero.mp (none ▸ enough)) zero
          · exact absurd (Nat.le_zero.mp (none ▸ enough)) zero
      | cons entry before =>
          obtain ⟨rfl, split'⟩ := List.cons.inj split
          obtain ⟨same, group, found, restores⟩ := restored _ List.mem_cons_self
          rcases moves with ⟨lacking, -⟩ | ⟨-, new, -⟩ | ⟨-, -, next, transferred, ready', step⟩
          · exact absurd (restores.enough.trans (le_held found)) (not_le_of_gt lacking)
          · exact absurd new (receivers_ne_nil same found)
          · have whole : groupsOf next first = groupsOf categories first := by
              rw [transferred.merged same (receivers_ne_nil same found), givenRatio,
                groupsAt_deallocate]
              exact mergeCarriers_deallocate found restores zero
            obtain ⟨after, failed', kept, -⟩ := ih ready' split' (fun entry mem => by
              obtain ⟨same', other⟩ := restored entry (List.mem_cons_of_mem _ mem)
              exact ⟨same', whole ▸ other⟩) (whole ▸ none)
            refine ⟨after, step.trans failed', kept.trans whole, ?_⟩
            rw [← same, kept, whole]

end OpenSand
