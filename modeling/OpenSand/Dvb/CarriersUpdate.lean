import OpenSand.Dvb.TerminalCategory
import OpenSand.Lib.CountIndex
import OpenSand.Lib.Pointwise

/-!
The carriers groups of a category at the initialisation of the band
(`TerminalCategory::addCarriersGroup`, `TerminalCategory::updateCarriersGroups`,
`DvbChannel::computeBandplan`).

The band is shared between the categories by their ratios and the carriers of a category between
its groups. A division by zero and a number out of its range have no result.
-/

namespace OpenSand

open OpenSand.Word OpenSand.CountIndex

/-- The carriers of a group: the quotient is an integer before it is rounded. -/
def carriersShare (carriersNumber totalRatio ratio : Nat) : Nat :=
  let number := wrap 32 (carriersNumber * ratio) / totalRatio
  if number = 0 then 1 else number

namespace CarriersGroupVcm

/-- The number and the capacity of a group in the loop over the groups. -/
def update (carriersNumber totalRatio durationMs : Nat) (group : CarriersGroupVcm) :
    Option CarriersGroupVcm :=
  if totalRatio = 0 then none
  else (group.setCarriersNumber (carriersShare carriersNumber totalRatio group.ratio)).setCapacity
    (ceilW 32 (group.symbolRateSymps * durationMs / 1000))

end CarriersGroupVcm

namespace TerminalCategory

/-- A category without carriers. -/
def empty (desiredAccess : AccessType) : TerminalCategory :=
  { carriersGroups := [], desiredAccess := desiredAccess, symbolRateList := .empty,
    otherCarriers := [] }

variable (category : TerminalCategory)

def getRatio : Nat :=
  wrap 32 ((category.carriersGroups.map (·.ratio)).sum + (category.otherCarriers.map (·.ratio)).sum)

/-- In thousands of symbols per second. -/
def getWeightedSum : ℚ :=
  ((category.carriersGroups.map fun group => (group.ratio : ℚ) * group.symbolRateSymps).sum +
    (category.otherCarriers.map fun group => (group.ratio : ℚ) * group.symbolRateSymps).sum) / 1000

/-- `addCarriersGroup` without a number of carriers. Only a group with the desired access has VCM
parts. -/
def addPlainCarriersGroup (carriersId : Nat) (fmtGroup : Option FmtGroup) (ratio : Nat)
    (rateSymps : ℚ) (access : AccessType) : TerminalCategory :=
  if category.carriersGroups.any (·.carriersId = carriersId) then
    { category with carriersGroups := addVcmTo carriersId fmtGroup ratio category.carriersGroups }
  else if category.otherCarriers.any (·.carriersId = carriersId) then category
  else
    let group : CarriersGroup :=
      { carriersId := carriersId, fmtGroup := fmtGroup, carriersNumber := 0, ratio := ratio,
        capacitySym := 0, symbolRateSymps := rateSymps, accessType := access }
    let listed := enter rateSymps category.symbolRateList
    if access = category.desiredAccess then
      { category with
        carriersGroups := category.carriersGroups ++
          [CarriersGroupVcm.addVcm { group with vcmCarriers := [] } fmtGroup ratio]
        symbolRateList := listed }
    else
      { category with
        otherCarriers := category.otherCarriers ++ [group], symbolRateList := listed }

/-- The carriers that are shared; there is one for each group at least. -/
def carriersToShare (carriersNumber : Nat) : Nat :=
  if carriersNumber < category.carriersGroups.length then wrap 32 category.carriersGroups.length
  else carriersNumber

/-- The groups of another access are released. -/
def updateCarriersGroups (carriersNumber durationMs : Nat) : Option TerminalCategory :=
  (category.carriersGroups.mapM (CarriersGroupVcm.update (category.carriersToShare carriersNumber)
    category.getRatio durationMs)).map fun groups =>
      { category with
        carriersGroups := groups
        symbolRateList := countAll 32 category.symbolRateList
          (groups.map fun group => (group.symbolRateSymps, group.carriersNumber))
        otherCarriers := [] }

end TerminalCategory

/-- The nearest integer, when it is an `unsigned int`. -/
def roundToWord (x : ℚ) : Option Nat :=
  if -1 / 2 < x ∧ ⌊x + 1 / 2⌋₊ < 2 ^ 32 then some ⌊x + 1 / 2⌋₊ else none

/-- The exact number of carriers that a ratio gets of the band. -/
def bandShare (weightedSum availableKhz rollOff : ℚ) (ratio : Nat) : ℚ :=
  ratio / weightedSum * (availableKhz / (1 + rollOff))

/-- The carriers of a category in the loop over the categories; there is one at least. -/
def planCategory (weightedSum availableKhz rollOff : ℚ) (durationMs : Nat)
    (category : TerminalCategory) : Option TerminalCategory :=
  if 1 + rollOff = 0 then none
  else (roundToWord (bandShare weightedSum availableKhz rollOff category.getRatio)).bind fun number =>
    category.updateCarriersGroups (if number = 0 then 1 else number) durationMs

def weightedSumOf (categories : List TerminalCategory) : ℚ :=
  (categories.map (·.getWeightedSum)).sum

/-- The categories in the order of their labels. -/
def computeBandplan (availableKhz : Nat) (rollOff : ℚ) (durationMs : Nat)
    (categories : List TerminalCategory) : Option (Bool × List TerminalCategory) :=
  let weightedSum := weightedSumOf categories
  if weightedSum = 0 then some (false, categories)
  else (categories.mapM (planCategory weightedSum availableKhz rollOff durationMs)).map (true, ·)

/-! ### The groups after an update -/

section

variable {category category' : TerminalCategory} {group group' : CarriersGroupVcm}
  {carriersNumber totalRatio durationMs : Nat}

theorem carriersShare_pos (carriersNumber totalRatio ratio : Nat) :
    1 ≤ carriersShare carriersNumber totalRatio ratio := by
  unfold carriersShare
  dsimp only
  split
  · exact Nat.le_refl 1
  next some => exact Nat.one_le_iff_ne_zero.mpr some

namespace CarriersGroupVcm

theorem setCapacity_eq_some {capacitySym : Nat} (set : group.setCapacity capacitySym = some group') :
    group'.carriersNumber = group.carriersNumber ∧ group'.symbolRateSymps = group.symbolRateSymps ∧
      group'.ratio = group.ratio := by
  unfold setCapacity at set
  split at set
  · cases set
  · cases set
    exact ⟨rfl, rfl, rfl⟩

/-- An update of a group has a result unless it divides by a ratio of zero. -/
theorem update_isSome_iff : (group.update carriersNumber totalRatio durationMs).isSome ↔
    totalRatio ≠ 0 ∧ (group.ratio = 0 → group.vcmCarriers = []) := by
  unfold update
  split
  next zero => exact iff_of_false (by simp) fun defined => defined.1 zero
  next some =>
    unfold setCapacity
    simp only [setCarriersNumber, ne_eq, List.map_eq_nil_iff]
    split
    next undefined =>
      exact iff_of_false (by simp) fun defined => undefined.2 (defined.2 undefined.1)
    next defined =>
      refine iff_of_true rfl ⟨some, fun zero => ?_⟩
      by_contra parts
      exact defined ⟨zero, parts⟩

theorem update_eq_some (updated : group.update carriersNumber totalRatio durationMs = some group') :
    group'.carriersNumber = carriersShare carriersNumber totalRatio group.ratio ∧
      group'.symbolRateSymps = group.symbolRateSymps := by
  unfold update at updated
  split at updated
  · cases updated
  · exact ⟨(setCapacity_eq_some updated).1, (setCapacity_eq_some updated).2.1⟩

end CarriersGroupVcm

namespace TerminalCategory

/-- The symbol rates of the groups with the carriers that they get. -/
def sharedCarriers (category : TerminalCategory) (carriersNumber : Nat) : List (ℚ × Nat) :=
  category.carriersGroups.map fun group => (group.symbolRateSymps,
    carriersShare (category.carriersToShare carriersNumber) category.getRatio group.ratio)

/-- An update divides by the total ratio and by the ratio of each group with VCM parts. -/
def HasRatios (category : TerminalCategory) : Prop :=
  ∀ group ∈ category.carriersGroups,
    category.getRatio ≠ 0 ∧ (group.ratio = 0 → group.vcmCarriers = [])

theorem updateCarriersGroups_isSome_iff :
    (category.updateCarriersGroups carriersNumber durationMs).isSome ↔ category.HasRatios := by
  rw [updateCarriersGroups, Option.isSome_map, mapM_isSome_iff]
  exact forall₂_congr fun group _ => CarriersGroupVcm.update_isSome_iff

theorem updateCarriersGroups_eq_some
    (updated : category.updateCarriersGroups carriersNumber durationMs = some category') :
    (category'.carriersGroups.map fun group => (group.symbolRateSymps, group.carriersNumber)) =
        category.sharedCarriers carriersNumber ∧
      category'.symbolRateList =
        countAll 32 category.symbolRateList (category.sharedCarriers carriersNumber) ∧
      category'.otherCarriers = [] := by
  obtain ⟨groups, made, rfl⟩ := Option.map_eq_some_iff.mp updated
  have shared : (groups.map fun group => (group.symbolRateSymps, group.carriersNumber)) =
      category.sharedCarriers carriersNumber := by
    refine map_eq_of_forall₂ (forall₂_of_mapM made) fun group group' updated => ?_
    obtain ⟨number, rate⟩ := CarriersGroupVcm.update_eq_some updated
    exact Prod.ext rate number
  exact ⟨shared, by rw [← shared], rfl⟩

end TerminalCategory

end

end OpenSand
