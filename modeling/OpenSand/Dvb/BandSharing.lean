import OpenSand.Dvb.CarriersUpdate
import OpenSand.Lib.FairShare
import Mathlib.Algebra.BigOperators.Ring.List

/-!
How exactly the band is shared.

The carriers of a category go to its groups in integer parts, of one carrier at least: they make
up the number of carriers when the remainders of the divisions are what the raised groups gain. A
band plan stays within the band when its roundings, of the carriers of each category and of each
group, take no more band than the ratios leave to the carriers of another access.
-/

namespace OpenSand

open OpenSand.Word OpenSand.FairShare

namespace TerminalCategory

/-! ### The carriers of a category -/

/-- Each group has a carrier and together they have the given number. -/
def SplitsCarriers (category : TerminalCategory) (carriersNumber durationMs : Nat) : Prop :=
  ∃ category', category.updateCarriersGroups carriersNumber durationMs = some category' ∧
    (∀ group ∈ category'.carriersGroups, 1 ≤ group.carriersNumber) ∧
    (category'.carriersGroups.map (·.carriersNumber)).sum = carriersNumber

/-- The products that the total ratio divides. -/
def shareProducts (category : TerminalCategory) (carriersNumber : Nat) : List Nat :=
  category.carriersGroups.map fun group => wrap 32 (carriersNumber * group.ratio)

/-- Ratios to divide by; the remainders are what the products lack of all the carriers and what
the groups with less than one carrier gain. -/
structure SharesBalance (category : TerminalCategory) (carriersNumber : Nat) : Prop where
  ratios : category.HasRatios
  groups : category.carriersGroups = [] → carriersNumber = 0
  remainders :
    category.getRatio * carriersNumber +
        ((category.shareProducts carriersNumber).map (· % category.getRatio)).sum =
      (category.shareProducts carriersNumber).sum +
        category.getRatio * (category.shareProducts carriersNumber).countP (· < category.getRatio)

section

variable {category category' : TerminalCategory} {carriersNumber durationMs : Nat}

theorem carriersToShare_of_le (enough : category.carriersGroups.length ≤ carriersNumber) :
    category.carriersToShare carriersNumber = carriersNumber :=
  if_neg (Nat.not_lt.mpr enough)

/-- The numbers of carriers after an update. -/
theorem carriersNumbers_of_update
    (updated : category.updateCarriersGroups carriersNumber durationMs = some category') :
    category'.carriersGroups.map (·.carriersNumber) =
      (category.sharedCarriers carriersNumber).map Prod.snd := by
  rw [← (updateCarriersGroups_eq_some updated).1, List.map_map]
  rfl

theorem sharedCarriers_numbers (enough : category.carriersGroups.length ≤ carriersNumber) :
    (category.sharedCarriers carriersNumber).map Prod.snd =
      (category.shareProducts carriersNumber).map (raisedShare category.getRatio) := by
  rw [sharedCarriers, carriersToShare_of_le enough, shareProducts, List.map_map, List.map_map]
  rfl

theorem splitsCarriers_iff_balance (enough : category.carriersGroups.length ≤ carriersNumber) :
    category.SplitsCarriers carriersNumber durationMs ↔ category.SharesBalance carriersNumber := by
  have exact_sum : category.HasRatios →
      (((category.sharedCarriers carriersNumber).map Prod.snd).sum = carriersNumber ↔
        category.SharesBalance carriersNumber) := by
    intro ratios
    rw [sharedCarriers_numbers enough]
    rcases List.eq_nil_or_concat' category.carriersGroups with none | ⟨groups, group, split⟩
    · have products : category.shareProducts carriersNumber = [] := by
        rw [shareProducts, none, List.map_nil]
      rw [products]
      constructor
      · intro zero
        have zero' : carriersNumber = 0 := zero.symm
        refine ⟨ratios, fun _ => zero', ?_⟩
        rw [products, zero']
        rfl
      · intro balance
        exact (balance.groups none).symm
    · have mem : group ∈ category.carriersGroups := by
        rw [split]
        exact List.mem_append_right _ (List.mem_singleton_self group)
      rw [sum_raisedShare_eq_iff (Nat.pos_of_ne_zero (ratios group mem).1)]
      constructor
      · intro remainders
        exact ⟨ratios, fun none => absurd mem (none ▸ List.not_mem_nil), remainders⟩
      · exact fun balance => balance.remainders
  constructor
  · rintro ⟨category', updated, -, sum⟩
    have ratios : category.HasRatios :=
      updateCarriersGroups_isSome_iff.mp (Option.isSome_of_eq_some updated)
    rw [carriersNumbers_of_update updated] at sum
    exact (exact_sum ratios).mp sum
  · intro balance
    obtain ⟨category', updated⟩ := Option.isSome_iff_exists.mp
      ((@updateCarriersGroups_isSome_iff category carriersNumber durationMs).mpr balance.ratios)
    have numbers := carriersNumbers_of_update updated
    refine ⟨category', updated, fun group mem => ?_, ?_⟩
    · have listed : group.carriersNumber ∈ (category.sharedCarriers carriersNumber).map Prod.snd :=
        numbers ▸ List.mem_map_of_mem mem
      rw [sharedCarriers, List.map_map] at listed
      obtain ⟨former, -, shared⟩ := List.mem_map.mp listed
      exact shared ▸ carriersShare_pos _ _ _
    · rw [numbers]
      exact (exact_sum balance.ratios).mpr balance

/-- When nothing wraps and all the carriers have the desired access, the products make up all the
carriers: the remainders have to be a total for each group with less than one carrier. -/
theorem sharesBalance_iff_of_words (desired : category.otherCarriers = [])
    (total : (category.carriersGroups.map (·.ratio)).sum < 2 ^ 32)
    (words : ∀ group ∈ category.carriersGroups, carriersNumber * group.ratio < 2 ^ 32) :
    category.SharesBalance carriersNumber ↔
      category.HasRatios ∧ (category.carriersGroups = [] → carriersNumber = 0) ∧
        ((category.shareProducts carriersNumber).map (· % category.getRatio)).sum =
          category.getRatio *
            (category.shareProducts carriersNumber).countP (· < category.getRatio) := by
  have products : (category.shareProducts carriersNumber).sum = category.getRatio * carriersNumber := by
    rw [shareProducts, List.map_congr_left fun group mem => wrap_of_lt (words group mem),
      List.sum_map_mul_left, getRatio, desired, List.map_nil, List.sum_nil, Nat.add_zero,
      wrap_of_lt total, Nat.mul_comm]
  constructor
  · intro balance
    have remainders := balance.remainders
    rw [products] at remainders
    exact ⟨balance.ratios, balance.groups, Nat.add_left_cancel remainders⟩
  · rintro ⟨ratios, groups, remainders⟩
    refine ⟨ratios, groups, ?_⟩
    rw [products, remainders]

end

end TerminalCategory

/-! ### The band of all the categories -/

/-- The band of a carrier. -/
def carrierKhz (rollOff rateSymps : ℚ) : ℚ := rateSymps * (1 + rollOff) / 1000

/-- The band of all the carriers. -/
def plannedKhz (rollOff : ℚ) (categories : List TerminalCategory) : ℚ :=
  carrierKhz rollOff (categories.map (·.getTotalSymbolRate)).sum

/-- A plan, if there is one, takes no more than the available band. -/
def PlansWithin (availableKhz : Nat) (rollOff : ℚ) (durationMs : Nat)
    (categories : List TerminalCategory) : Prop :=
  ∃ planned categories',
    computeBandplan availableKhz rollOff durationMs categories = some (planned, categories') ∧
      (planned = true → plannedKhz rollOff categories' ≤ availableKhz)

/-- What a group gets beyond its exact part: its share of the rounded number of carriers may be
larger or smaller, and is rounded down, but to one. -/
def shareExcess (carriersNumber totalRatio ratio : Nat) (exactly : ℚ) : ℚ :=
  let product := wrap 32 (carriersNumber * ratio)
  ((product : ℚ) / totalRatio - exactly) +
    if product < totalRatio then ((totalRatio - product : ℕ) : ℚ) / totalRatio
    else -((product % totalRatio : ℕ) / totalRatio)

section

variable (weightedSum availableKhz rollOff : ℚ) (category : TerminalCategory)

/-- The carriers of a category before they are shared. -/
def roundedCarriers : Nat :=
  let number := ⌊bandShare weightedSum availableKhz rollOff category.getRatio + 1 / 2⌋₊
  if number = 0 then 1 else number

/-- The band that the roundings of a category take. -/
def excessKhz : ℚ :=
  (category.carriersGroups.map fun group =>
    shareExcess (category.carriersToShare (roundedCarriers weightedSum availableKhz rollOff category))
        category.getRatio group.ratio (bandShare weightedSum availableKhz rollOff group.ratio) *
      carrierKhz rollOff group.symbolRateSymps).sum

/-- The band that the ratios leave to the carriers of another access. -/
def leftKhz : ℚ :=
  (category.otherCarriers.map fun group =>
    bandShare weightedSum availableKhz rollOff group.ratio *
      carrierKhz rollOff group.symbolRateSymps).sum

end

/-- The carriers of each category are a word and its ratios can be divided by; the roundings take
no more band than the other carriers leave. -/
structure RoundingsFit (weightedSum availableKhz rollOff : ℚ) (categories : List TerminalCategory) :
    Prop where
  divides : 1 + rollOff ≠ 0
  ratios : ∀ category ∈ categories, category.HasRatios ∧
    (roundToWord (bandShare weightedSum availableKhz rollOff category.getRatio)).isSome
  excess : (categories.map (excessKhz weightedSum availableKhz rollOff)).sum ≤
    (categories.map (leftKhz weightedSum availableKhz rollOff)).sum

section

variable {weightedSum availableKhz rollOff : ℚ} {category category' : TerminalCategory}
  {categories categories' : List TerminalCategory} {carriersNumber totalRatio ratio durationMs : Nat}

theorem carriersShare_eq_add_excess (some : totalRatio ≠ 0) (exactly : ℚ) :
    (carriersShare carriersNumber totalRatio ratio : ℚ) =
      exactly + shareExcess carriersNumber totalRatio ratio exactly := by
  unfold carriersShare shareExcess
  dsimp only
  generalize wrap 32 (carriersNumber * ratio) = product
  have total : (totalRatio : ℚ) ≠ 0 := Nat.cast_ne_zero.mpr some
  by_cases below : product < totalRatio
  · rw [if_pos (Nat.div_eq_of_lt below), if_pos below, Nat.cast_sub below.le]
    field_simp
    push_cast
    ring
  · have quotient : product / totalRatio ≠ 0 :=
      (Nat.div_pos (Nat.not_lt.mp below) (Nat.pos_of_ne_zero some)).ne'
    rw [if_neg quotient, if_neg below]
    have split : (product : ℚ) = totalRatio * (product / totalRatio : ℕ) + (product % totalRatio : ℕ) := by
      exact_mod_cast (Nat.div_add_mod product totalRatio).symm
    conv_rhs => rw [split]
    field_simp
    ring

theorem planCategory_isSome_iff :
    (planCategory weightedSum availableKhz rollOff durationMs category).isSome ↔
      1 + rollOff ≠ 0 ∧ category.HasRatios ∧
        (roundToWord (bandShare weightedSum availableKhz rollOff category.getRatio)).isSome := by
  unfold planCategory
  split
  next zero => exact iff_of_false Bool.false_ne_true fun defined => defined.1 zero
  next nonzero =>
    cases rounded : roundToWord (bandShare weightedSum availableKhz rollOff category.getRatio) with
    | none => exact iff_of_false Bool.false_ne_true fun defined => Bool.false_ne_true defined.2.2
    | some number =>
        rw [Option.bind_some, TerminalCategory.updateCarriersGroups_isSome_iff]
        exact ⟨fun ratios => ⟨nonzero, ratios, rfl⟩, fun defined => defined.2.1⟩

theorem planCategory_eq_some
    (planned : planCategory weightedSum availableKhz rollOff durationMs category = some category') :
    category'.getTotalSymbolRate =
      ((category.sharedCarriers (roundedCarriers weightedSum availableKhz rollOff category)).map
        fun entry => (entry.2 : ℚ) * entry.1).sum := by
  unfold planCategory at planned
  split at planned
  · cases planned
  · obtain ⟨number, rounded, updated⟩ := Option.bind_eq_some_iff.mp planned
    have floor : number = ⌊bandShare weightedSum availableKhz rollOff category.getRatio + 1 / 2⌋₊ := by
      unfold roundToWord at rounded
      split at rounded
      · exact (Option.some.inj rounded).symm
      · cases rounded
    obtain ⟨shared, -, none⟩ := TerminalCategory.updateCarriersGroups_eq_some updated
    rw [TerminalCategory.getTotalSymbolRate, none, List.map_nil, List.sum_nil, add_zero,
      roundedCarriers, ← floor, ← shared, List.map_map]
    rfl

/-! ### The sums of bands -/

theorem carrierKhz_sum {ι : Type*} (items : List ι) (f : ι → ℚ) :
    carrierKhz rollOff (items.map f).sum = (items.map fun item => carrierKhz rollOff (f item)).sum := by
  induction items with
  | nil => simp [carrierKhz]
  | cons item items ih =>
      rw [List.map_cons, List.sum_cons, List.map_cons, List.sum_cons, ← ih]
      unfold carrierKhz
      ring

/-- A ratio gets its part of the band. -/
theorem bandShare_mul_carrierKhz (nonzero : 1 + rollOff ≠ 0) (ratio : Nat) (rateSymps : ℚ) :
    bandShare weightedSum availableKhz rollOff ratio * carrierKhz rollOff rateSymps =
      ratio * rateSymps * (availableKhz / weightedSum / 1000) := by
  unfold bandShare carrierKhz
  field_simp

/-- The exact parts of a category. -/
theorem sum_bandShare (nonzero : 1 + rollOff ≠ 0) (category : TerminalCategory) :
    (category.carriersGroups.map fun group =>
        bandShare weightedSum availableKhz rollOff group.ratio *
          carrierKhz rollOff group.symbolRateSymps).sum +
        leftKhz weightedSum availableKhz rollOff category =
      category.getWeightedSum * (availableKhz / weightedSum) := by
  unfold leftKhz TerminalCategory.getWeightedSum
  simp only [bandShare_mul_carrierKhz nonzero, List.sum_map_mul_right]
  ring

/-- The band of the carriers of a category is its exact part and what the roundings take. -/
theorem shared_khz (nonzero : 1 + rollOff ≠ 0) (ratios : category.HasRatios) :
    carrierKhz rollOff
        ((category.sharedCarriers (roundedCarriers weightedSum availableKhz rollOff category)).map
          fun entry => (entry.2 : ℚ) * entry.1).sum +
        leftKhz weightedSum availableKhz rollOff category =
      category.getWeightedSum * (availableKhz / weightedSum) +
        excessKhz weightedSum availableKhz rollOff category := by
  rw [← sum_bandShare nonzero, add_right_comm]
  congr 1
  rw [TerminalCategory.sharedCarriers, List.map_map, carrierKhz_sum, excessKhz,
    ← List.sum_map_add]
  congr 1
  refine List.map_congr_left fun group mem => ?_
  simp only [Function.comp_apply]
  rw [← add_mul, ← carriersShare_eq_add_excess (ratios group mem).1]
  unfold carrierKhz
  ring

/-- The band of a plan. -/
theorem plannedKhz_eq (nonzero : 1 + rollOff ≠ 0) (weighs : weightedSum ≠ 0)
    (total : weightedSum = weightedSumOf categories)
    (ratios : ∀ category ∈ categories, category.HasRatios)
    (planned : categories.mapM (planCategory weightedSum availableKhz rollOff durationMs) =
      some categories') :
    plannedKhz rollOff categories' + (categories.map (leftKhz weightedSum availableKhz rollOff)).sum =
      availableKhz + (categories.map (excessKhz weightedSum availableKhz rollOff)).sum := by
  rw [plannedKhz, map_eq_of_forall₂ (forall₂_of_mapM planned) fun _ _ => planCategory_eq_some,
    carrierKhz_sum, ← List.sum_map_add,
    List.map_congr_left fun category mem => shared_khz nonzero (ratios category mem),
    List.sum_map_add, List.sum_map_mul_right]
  congr 1
  rw [← weightedSumOf, ← total]
  field_simp

theorem plansWithin_iff_fit {availableKhz : Nat} :
    PlansWithin availableKhz rollOff durationMs categories ↔
      weightedSumOf categories = 0 ∨
        RoundingsFit (weightedSumOf categories) availableKhz rollOff categories := by
  unfold PlansWithin computeBandplan
  dsimp only
  by_cases zero : weightedSumOf categories = 0
  · rw [if_pos zero]
    exact iff_of_true ⟨false, categories, rfl, fun made => absurd made Bool.false_ne_true⟩ (.inl zero)
  · rw [if_neg zero, or_iff_right zero]
    have within : ∀ {categories' : List TerminalCategory}, 1 + rollOff ≠ 0 →
        (∀ category ∈ categories, category.HasRatios) →
        categories.mapM (planCategory (weightedSumOf categories) availableKhz rollOff durationMs) =
          some categories' →
        (plannedKhz rollOff categories' ≤ availableKhz ↔
          (categories.map (excessKhz (weightedSumOf categories) availableKhz rollOff)).sum ≤
            (categories.map (leftKhz (weightedSumOf categories) availableKhz rollOff)).sum) := by
      intro categories' nonzero ratios planned
      have balance := plannedKhz_eq nonzero zero rfl ratios planned
      constructor <;> intro le <;> linarith
    constructor
    · rintro ⟨planned, categories', computed, le⟩
      obtain ⟨made, each, same⟩ := Option.map_eq_some_iff.mp computed
      cases same
      have defined := mapM_isSome_iff.mp (Option.isSome_of_eq_some each)
      simp only [planCategory_isSome_iff] at defined
      obtain ⟨first, rest, split⟩ : ∃ first rest, categories = first :: rest :=
        List.exists_cons_of_ne_nil fun none => zero (by rw [none]; rfl)
      have nonzero : 1 + rollOff ≠ 0 := (defined first (split ▸ List.mem_cons_self)).1
      have ratios : ∀ category ∈ categories, category.HasRatios :=
        fun category mem => (defined category mem).2.1
      exact ⟨nonzero, fun category mem => (defined category mem).2,
        (within nonzero ratios each).mp (le rfl)⟩
    · intro fit
      obtain ⟨categories', each⟩ := Option.isSome_iff_exists.mp
        ((mapM_isSome_iff (f := planCategory (weightedSumOf categories) availableKhz rollOff durationMs)
          (l := categories)).mpr fun category mem =>
            planCategory_isSome_iff.mpr ⟨fit.divides, fit.ratios category mem⟩)
      refine ⟨true, categories', ?_, fun _ => ?_⟩
      · rw [each]
        rfl
      · exact (within fit.divides (fun category mem => (fit.ratios category mem).1) each).mpr fit.excess

end

/-- Every category with a carrier for each group, and every band. -/
theorem sharesBand_iff (category : TerminalCategory) {carriersNumber : Nat} (durationMs : Nat)
    (enough : category.carriersGroups.length ≤ carriersNumber) (availableKhz : Nat) (rollOff : ℚ)
    (categories : List TerminalCategory) :
    (category.SplitsCarriers carriersNumber durationMs ↔ category.SharesBalance carriersNumber) ∧
      (PlansWithin availableKhz rollOff durationMs categories ↔
        weightedSumOf categories = 0 ∨
          RoundingsFit (weightedSumOf categories) availableKhz rollOff categories) :=
  ⟨TerminalCategory.splitsCarriers_iff_balance enough, plansWithin_iff_fit⟩

/-- Groups of one ratio and symbol rate. -/
def equalGroups (number : Nat) : TerminalCategory :=
  (List.range number).foldl
    (fun category id => category.addPlainCarriersGroup id none 1 1000000 .dama) (.empty .dama)

theorem equalGroups_sharesBand_iff :
    ((equalGroups 2).SplitsCarriers 10 53 ↔ (equalGroups 2).SharesBalance 10) ∧
      (PlansWithin 2000 0 53 [equalGroups 2] ↔
        weightedSumOf [equalGroups 2] = 0 ∨
          RoundingsFit (weightedSumOf [equalGroups 2]) 2000 0 [equalGroups 2]) :=
  sharesBand_iff (equalGroups 2) 53 (by decide +kernel) 2000 0 [equalGroups 2]

/-- Three groups get three carriers each out of ten; a band of 1500 kHz is planned to carry two
carriers of 1000 kHz. -/
theorem equalGroups_not_shared :
    ¬ (equalGroups 3).SplitsCarriers 10 53 ∧ ¬ PlansWithin 1500 0 53 [equalGroups 1] := by
  constructor
  · rintro ⟨category', updated, -, sum⟩
    have numbers : ((equalGroups 3).updateCarriersGroups 10 53).map
        (fun category => (category.carriersGroups.map (·.carriersNumber)).sum) = some 9 := by
      decide +kernel
    rw [updated, Option.map_some, sum] at numbers
    exact absurd numbers (by decide)
  · rintro ⟨planned, categories', computed, within⟩
    have band : (computeBandplan 1500 0 53 [equalGroups 1]).map
        (fun result => (result.1, plannedKhz 0 result.2)) = some (true, 2000) := by
      decide +kernel
    rw [computed, Option.map_some, Option.some.injEq, Prod.mk.injEq] at band
    have le := within band.1
    rw [band.2] at le
    norm_num at le

end OpenSand
