import OpenSand.Dvb.RateIndex
import OpenSand.Lib.FairShare
import Mathlib.Algebra.Order.BigOperators.Group.List

/-!
The VCM parts of a group of carriers over its runs.

The parts divide the ratio of the group between them, and its capacity by their ratios. A part
that is added and a new capacity keep it so within the words; a new ratio of the group is not
handed on to the parts, and a deallocation gives it one.
-/

namespace OpenSand

open OpenSand.Word OpenSand.Run

/-- The operations on a group; a deallocation asks for some of its carriers. -/
inductive VcmEvent where
  | addVcm (fmtGroup : Option FmtGroup) (ratio : UInt32)
  | set (setter : CarriersSetter)
  | deallocate (symbolRate : ℚ) (number : UInt32)

namespace CarriersGroupVcm

/-- A group as the categories create it, with its first part. -/
def create (carriersId : Nat) (fmtGroup : Option FmtGroup) (ratio : UInt32) (rateSymps : ℚ)
    (access : AccessType) : CarriersGroupVcm :=
  CarriersGroupVcm.addVcm
    { carriersId := carriersId, fmtGroup := fmtGroup, carriersNumber := 0, ratio := ratio.toNat,
      capacitySym := 0, symbolRateSymps := rateSymps, accessType := access, vcmCarriers := [] }
    fmtGroup ratio.toNat

variable (group : CarriersGroupVcm)

/-- The group in the deallocation of carriers. -/
def deallocated (symbolRate : ℚ) (number : Nat) : CarriersGroupVcm :=
  if group.carriersNumber ≠ 0 ∧ group.symbolRateSymps = symbolRate then
    if group.carriersNumber < number then (group.setCarriersNumber 0).setRatio 0
    else (group.setRatio
      (wrap 32 (group.ratio * (group.carriersNumber - number)) / group.carriersNumber)).setCarriersNumber
        (group.carriersNumber - number)
  else group

def step : VcmEvent → Option CarriersGroupVcm
  | .addVcm fmtGroup ratio => some (group.addVcm fmtGroup ratio.toNat)
  | .set setter => setter.apply group
  | .deallocate symbolRate number => some (group.deallocated symbolRate number.toNat)

/-- The parts have the ratio of the group and no more than its capacity. -/
structure Shared : Prop where
  ratios : (group.vcmCarriers.map (·.ratio)).sum = group.ratio
  capacities : (group.vcmCarriers.map (·.capacitySym)).sum ≤ group.capacitySym

/-- The products that an operation computes. -/
def products : VcmEvent → List Nat
  | .set (.capacity capacitySym) => group.vcmCarriers.map fun part => part.ratio * capacitySym.toNat
  | .deallocate symbolRate number =>
      if group.carriersNumber ≠ 0 ∧ group.symbolRateSymps = symbolRate ∧
        number.toNat ≤ group.carriersNumber
      then [group.ratio * (group.carriersNumber - number.toNat)] else []
  | _ => []

/-- None of them wraps. -/
def ProductsFit (event : VcmEvent) : Prop := ∀ product ∈ group.products event, product < 2 ^ 32

/-- When an operation keeps the shares. -/
def KeepsShares : VcmEvent → Prop
  | .addVcm _ ratio => group.ratio + ratio.toNat < 2 ^ 32
  | .set (.carriersNumber _) => True
  | .set (.ratio newRatio) => newRatio.toNat = group.ratio
  | .set (.capacity capacitySym) =>
      ∀ part ∈ group.vcmCarriers, part.ratio * capacitySym.toNat < 2 ^ 32
  | .deallocate symbolRate number =>
      group.carriersNumber ≠ 0 ∧ group.symbolRateSymps = symbolRate →
        group.ratio * (group.carriersNumber - number.toNat) < 2 ^ 32 ∧
          (number.toNat = 0 ∨ group.ratio = 0)

end CarriersGroupVcm

/-! ### Deallocations of a category -/

/-- A deallocation of a category asks each group for some carriers, or passes it over. -/
theorem deallocate_each (symbolRate : ℚ) (number : Nat) (groups : List CarriersGroupVcm) :
    List.Forall₂ (fun group group' => group' = group ∨
        ∃ asked ≤ number, group' = group.deallocated symbolRate asked)
      groups (deallocate symbolRate number groups).carriersGroups := by
  induction groups generalizing number with
  | nil => exact .nil
  | cons group groups ih =>
      unfold deallocate
      split
      next gives =>
        split
        next less =>
          refine .cons (.inr ⟨number, le_rfl, ?_⟩) ((ih (number - group.carriersNumber)).imp ?_)
          · rw [CarriersGroupVcm.deallocated, if_pos gives, if_pos less]
          rintro former latter (same | ⟨asked, le, gave⟩)
          · exact .inl same
          · exact .inr ⟨asked, le.trans (Nat.sub_le _ _), gave⟩
        next enough =>
          refine .cons (.inr ⟨number, le_rfl, ?_⟩) ?_
          · rw [CarriersGroupVcm.deallocated, if_pos gives, if_neg enough]
          · exact List.forall₂_same.mpr fun former _ => .inl rfl
      · exact .cons (.inl rfl) (ih number)

/-! ### Shares -/

namespace CarriersGroupVcm

variable {group group' : CarriersGroupVcm} {event : VcmEvent}

/-- The words of a group with parts. -/
structure Parted (group : CarriersGroupVcm) : Prop where
  parts : group.vcmCarriers ≠ []
  ratio : group.ratio < 2 ^ 32

/-- A part of no more than a ratio gives each part its quotient. -/
theorem sum_capacities_le (ratios : (group.vcmCarriers.map (·.ratio)).sum = group.ratio)
    (capacitySym : Nat) :
    (group.vcmCarriers.map fun part => wrap 32 (part.ratio * capacitySym) / group.ratio).sum ≤
      capacitySym := by
  have quotients : (group.vcmCarriers.map fun part => part.ratio * capacitySym / group.ratio).sum ≤
      group.ratio * capacitySym / group.ratio := by
    have := FairShare.sum_mul_div_le (group.vcmCarriers.map (·.ratio)) capacitySym group.ratio
    rwa [List.map_map, ratios] at this
  calc (group.vcmCarriers.map fun part => wrap 32 (part.ratio * capacitySym) / group.ratio).sum
      ≤ (group.vcmCarriers.map fun part => part.ratio * capacitySym / group.ratio).sum :=
        List.sum_le_sum fun part _ => Nat.div_le_div_right (wrap_le 32 _)
    _ ≤ group.ratio * capacitySym / group.ratio := quotients
    _ ≤ capacitySym := Nat.div_le_of_le_mul (Nat.le_refl _)

theorem addVcm_shared_iff (shared : group.Shared) (parted : group.Parted)
    {fmtGroup : Option FmtGroup} {ratio : Nat} :
    (group.addVcm fmtGroup ratio).Shared ↔ group.ratio + ratio < 2 ^ 32 := by
  have sum : ((group.addVcm fmtGroup ratio).vcmCarriers.map (·.ratio)).sum = group.ratio + ratio := by
    rw [addVcm, List.map_append, List.sum_append, shared.ratios]
    rfl
  have own : (group.addVcm fmtGroup ratio).ratio = addW 32 group.ratio ratio := if_neg parted.parts
  constructor
  · intro shared'
    have ratios := shared'.ratios
    rw [sum, own] at ratios
    exact addW_eq_iff.mp ratios.symm
  · intro fits
    refine ⟨by rw [sum, own, addW_of_lt fits], ?_⟩
    rw [addVcm, List.map_append, List.sum_append]
    exact shared.capacities

theorem setRatio_shared_iff (shared : group.Shared) {ratio : Nat} :
    (group.setRatio ratio).Shared ↔ ratio = group.ratio := by
  constructor
  · exact fun shared' => shared'.ratios.symm.trans shared.ratios
  · rintro rfl
    exact shared

theorem setCarriersNumber_shared_iff {number : Nat} :
    (group.setCarriersNumber number).Shared ↔ group.Shared := by
  have same : ∀ {γ : Type} (f : CarriersGroup → γ),
      (∀ part : CarriersGroup, f { part with carriersNumber := number } = f part) →
      (group.setCarriersNumber number).vcmCarriers.map f = group.vcmCarriers.map f := by
    intro γ f kept
    rw [setCarriersNumber, List.map_map]
    exact List.map_congr_left fun part _ => kept part
  constructor
  · rintro ⟨ratios, capacities⟩
    rw [same _ fun _ => rfl] at ratios capacities
    exact ⟨ratios, capacities⟩
  · rintro ⟨ratios, capacities⟩
    refine ⟨?_, ?_⟩
    · rw [same _ fun _ => rfl]
      exact ratios
    · rw [same _ fun _ => rfl]
      exact capacities

theorem setCapacity_shared (shared : group.Shared) {capacitySym : Nat}
    (set : group.setCapacity capacitySym = some group') : group'.Shared := by
  unfold setCapacity at set
  split at set
  · cases set
  · cases set
    refine ⟨?_, ?_⟩
    · rw [List.map_map]
      exact shared.ratios
    · rw [List.map_map]
      exact sum_capacities_le shared.ratios capacitySym

/-- The quotient is the ratio itself only when nothing is taken, or there is nothing to take. -/
theorem newRatio_eq_iff {ratio actual number : Nat} (some : actual ≠ 0) (le : number ≤ actual) :
    ratio * (actual - number) / actual = ratio ↔ number = 0 ∨ ratio = 0 := by
  constructor
  · intro same
    by_contra both
    rw [not_or] at both
    have less : ratio * (actual - number) < ratio * actual :=
      Nat.mul_lt_mul_of_pos_left (by omega) (Nat.pos_of_ne_zero both.2)
    have := Nat.div_lt_of_lt_mul (Nat.mul_comm ratio actual ▸ less)
    omega
  · rintro (rfl | rfl)
    · rw [Nat.sub_zero, Nat.mul_div_cancel _ (Nat.pos_of_ne_zero some)]
    · rw [Nat.zero_mul, Nat.zero_div]

/-- The shares after a deallocation, and its product. -/
theorem deallocated_shared_iff (shared : group.Shared) {symbolRate : ℚ} {number : UInt32} :
    (group.deallocated symbolRate number.toNat).Shared ∧
        group.ProductsFit (.deallocate symbolRate number) ↔
      group.KeepsShares (.deallocate symbolRate number) := by
  rw [deallocated, ProductsFit, products, KeepsShares]
  by_cases gives : group.carriersNumber ≠ 0 ∧ group.symbolRateSymps = symbolRate
  · rw [if_pos gives, imp_iff_right gives]
    by_cases less : group.carriersNumber < number.toNat
    · rw [if_pos less, if_neg fun all => absurd all.2.2 (Nat.not_le.mpr less),
        setRatio_shared_iff (setCarriersNumber_shared_iff.mpr shared), Nat.sub_eq_zero_of_le less.le]
      have asked : number.toNat ≠ 0 := Nat.ne_zero_of_lt less
      rw [or_iff_right asked, and_iff_left (List.forall_mem_nil _), Nat.mul_zero,
        and_iff_right (Nat.two_pow_pos 32)]
      exact eq_comm
    · rw [if_neg less, if_pos ⟨gives.1, gives.2, Nat.not_lt.mp less⟩, List.forall_mem_singleton,
        setCarriersNumber_shared_iff, setRatio_shared_iff shared, and_comm]
      refine and_congr_right fun fits => ?_
      rw [wrap_of_lt fits]
      exact newRatio_eq_iff gives.1 (Nat.not_lt.mp less)
  · rw [if_neg gives, if_neg fun all => gives ⟨all.1, all.2.1⟩]
    exact iff_of_true ⟨shared, List.forall_mem_nil _⟩ fun some => absurd some gives

/-! ### Runs -/

theorem create_shared (carriersId : Nat) (fmtGroup : Option FmtGroup) (ratio : UInt32) (rateSymps : ℚ)
    (access : AccessType) : (create carriersId fmtGroup ratio rateSymps access).Shared ∧
      (create carriersId fmtGroup ratio rateSymps access).Parted :=
  ⟨⟨rfl, Nat.le_refl 0⟩, ⟨List.cons_ne_nil _ _, ratio.toNat_lt⟩⟩

theorem step_shared_iff (shared : group.Shared) (parted : group.Parted)
    (taken : group.step event = some group') :
    (group'.Shared ∧ group.ProductsFit event ↔ group.KeepsShares event) := by
  cases event with
  | addVcm fmtGroup ratio =>
      cases taken
      exact (and_iff_left (List.forall_mem_nil _)).trans (addVcm_shared_iff shared parted)
  | set setter =>
      cases setter with
      | carriersNumber number =>
          cases taken
          exact iff_of_true ⟨setCarriersNumber_shared_iff.mpr shared, List.forall_mem_nil _⟩ trivial
      | ratio newRatio =>
          cases taken
          exact (and_iff_left (List.forall_mem_nil _)).trans (setRatio_shared_iff shared)
      | capacity capacitySym =>
          rw [and_iff_right (setCapacity_shared shared taken), ProductsFit, products,
            List.forall_mem_map]
          rfl
  | deallocate symbolRate number =>
      cases taken
      exact deallocated_shared_iff shared

/-- The operations keep the parts. -/
theorem step_parted (parted : group.Parted) (taken : group.step event = some group') :
    group'.Parted := by
  obtain ⟨parts, ratio⟩ := parted
  have mapped : ∀ {f : CarriersGroup → CarriersGroup}, group.vcmCarriers.map f ≠ [] :=
    fun none => parts (List.map_eq_nil_iff.mp none)
  cases event with
  | addVcm fmtGroup ratio =>
      cases taken
      refine ⟨List.append_ne_nil_of_right_ne_nil _ (List.cons_ne_nil _ _), ?_⟩
      rw [addVcm]
      dsimp only
      rw [if_neg parts]
      exact addW_lt 32 _ _
  | set setter =>
      cases setter with
      | carriersNumber number =>
          cases taken
          exact ⟨mapped, ratio⟩
      | ratio newRatio =>
          cases taken
          exact ⟨parts, newRatio.toNat_lt⟩
      | capacity capacitySym =>
          rw [CarriersGroupVcm.step, CarriersSetter.apply, setCapacity] at taken
          split at taken
          · cases taken
          · cases taken
            exact ⟨mapped, ratio⟩
  | deallocate symbolRate number =>
      cases taken
      rw [deallocated]
      split
      · split
        · exact ⟨mapped, Nat.two_pow_pos 32⟩
        · exact ⟨mapped, Nat.lt_of_le_of_lt (Nat.div_le_self _ _) (wrap_lt 32 _)⟩
      · exact ⟨parts, ratio⟩

/-- The shares and the products of a group over every run. -/
theorem allStates_shared_iff (carriersId : Nat) (fmtGroup : Option FmtGroup) (ratio : UInt32)
    (rateSymps : ℚ) (access : AccessType) (events : List VcmEvent) :
    AllStates step Shared (create carriersId fmtGroup ratio rateSymps access) events ∧
        AllMoves step (fun group event _ => group.ProductsFit event)
          (create carriersId fmtGroup ratio rateSymps access) events ↔
      AllSteps step KeepsShares (create carriersId fmtGroup ratio rateSymps access) events := by
  have init := create_shared carriersId fmtGroup ratio rateSymps access
  rw [← allMoves_and_iff (R := fun group event _ => group.ProductsFit event) init.1]
  refine allMoves_iff_allSteps (P := fun group => group.Shared ∧ group.Parted) init ?_ ?_
  · exact fun group event group' good taken => step_shared_iff good.1 good.2 taken
  · exact fun group event group' good taken moved => ⟨moved.1, step_parted good.2 taken⟩

end CarriersGroupVcm

/-- Four carriers of ten are given away: the part keeps the whole ratio. -/
theorem create_not_shared :
    ¬ AllStates CarriersGroupVcm.step CarriersGroupVcm.Shared
      (CarriersGroupVcm.create 0 none 10 1000000 .dama)
      [.set (.carriersNumber 10), .deallocate 1000000 4] := by
  intro states
  have ratios := ((states.2 _ rfl).2 _ rfl).ratios
  revert ratios
  decide +kernel

end OpenSand
