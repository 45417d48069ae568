import OpenSand.Fmt.FmtGroup
import OpenSand.Lib.SortedMap

/-!
The carriers of a category of terminals (`TerminalCategory<CarriersGroupDama>`) and their
transfers.

A transfer takes carriers of one symbol rate from the groups of a category, with the part of
their ratio, and adds them to a group of another one. The numbers, ratios and capacities are
32-bit words; the symbol rates are exact rational numbers and the identifiers of the groups
natural numbers. A division by zero has no result.
-/

namespace OpenSand

open OpenSand.Word

inductive AccessType where
  | dama | tdm | aloha | scpc | error
  deriving DecidableEq

/-- The members of a group that do not depend on its kind (`CarriersGroup`). -/
structure CarriersGroup where
  carriersId : Nat
  fmtGroup : Option FmtGroup
  carriersNumber : Nat
  ratio : Nat
  capacitySym : Nat
  symbolRateSymps : ℚ
  accessType : AccessType

/-- A group with its VCM parts (`CarriersGroupDama`). -/
structure CarriersGroupVcm extends CarriersGroup where
  vcmCarriers : List CarriersGroup

namespace CarriersGroupVcm

variable (group : CarriersGroupVcm)

def setCarriersNumber (number : Nat) : CarriersGroupVcm :=
  { group with
    carriersNumber := number
    vcmCarriers := group.vcmCarriers.map fun part => { part with carriersNumber := number } }

def setRatio (ratio : Nat) : CarriersGroupVcm := { group with ratio := ratio }

/-- Each VCM part gets its share of the capacity. -/
def setCapacity (capacitySym : Nat) : Option CarriersGroupVcm :=
  if group.ratio = 0 ∧ group.vcmCarriers ≠ [] then none
  else some
    { group with
      capacitySym := capacitySym
      vcmCarriers := group.vcmCarriers.map fun part =>
        { part with capacitySym := wrap 32 (part.ratio * capacitySym) / group.ratio } }

/-- The ratio of the first part is the one of the group. -/
def addVcm (fmtGroup : Option FmtGroup) (ratio : Nat) : CarriersGroupVcm :=
  { group with
    ratio := if group.vcmCarriers = [] then group.ratio else addW 32 group.ratio ratio
    vcmCarriers := group.vcmCarriers ++
      [{ carriersId := group.carriersId, fmtGroup := fmtGroup, carriersNumber := 0, ratio := ratio,
         capacitySym := 0, symbolRateSymps := group.symbolRateSymps,
         accessType := group.accessType }] }

@[simp] theorem setCarriersNumber_carriersNumber (number : Nat) :
    (group.setCarriersNumber number).carriersNumber = number := rfl

@[simp] theorem setCarriersNumber_symbolRateSymps (number : Nat) :
    (group.setCarriersNumber number).symbolRateSymps = group.symbolRateSymps := rfl

@[simp] theorem setRatio_carriersNumber (ratio : Nat) :
    (group.setRatio ratio).carriersNumber = group.carriersNumber := rfl

@[simp] theorem setRatio_symbolRateSymps (ratio : Nat) :
    (group.setRatio ratio).symbolRateSymps = group.symbolRateSymps := rfl

end CarriersGroupVcm

/-- The groups with the desired access type, the other ones, and the list of the symbol rates
with their numbers of carriers. -/
structure TerminalCategory where
  carriersGroups : List CarriersGroupVcm
  desiredAccess : AccessType
  symbolRateList : SortedMap ℚ Nat
  otherCarriers : List CarriersGroup

/-- What a deallocation leaves: the groups, the carriers that it still lacks and the ratio of
the ones that it took. -/
structure Deallocation where
  carriersGroups : List CarriersGroupVcm
  missing : Nat
  associatedRatio : Nat

/-- Empty groups are passed over; each other group of the symbol rate gives all its carriers,
or the ones that are still asked for and their part of its ratio. -/
def deallocate (symbolRate : ℚ) : Nat → List CarriersGroupVcm → Deallocation
  | number, [] => ⟨[], number, 0⟩
  | number, group :: rest =>
      if group.carriersNumber ≠ 0 ∧ group.symbolRateSymps = symbolRate then
        if group.carriersNumber < number then
          let later := deallocate symbolRate (number - group.carriersNumber) rest
          ⟨(group.setCarriersNumber 0).setRatio 0 :: later.carriersGroups, later.missing,
            addW 32 group.ratio later.associatedRatio⟩
        else
          let newRatio :=
            wrap 32 (group.ratio * (group.carriersNumber - number)) / group.carriersNumber
          ⟨(group.setRatio newRatio).setCarriersNumber (group.carriersNumber - number) :: rest, 0,
            group.ratio - newRatio⟩
      else
        let later := deallocate symbolRate number rest
        ⟨group :: later.carriersGroups, later.missing, later.associatedRatio⟩

/-- The first group of the symbol rate gets the carriers and their ratio. -/
def mergeCarriers (symbolRate : ℚ) (number ratio : Nat) :
    List CarriersGroupVcm → List CarriersGroupVcm
  | [] => []
  | group :: rest =>
      if group.symbolRateSymps = symbolRate then
        (group.setCarriersNumber (addW 32 number group.carriersNumber)).setRatio
          (addW 32 ratio group.ratio) :: rest
      else group :: mergeCarriers symbolRate number ratio rest

/-- The first group with the identifier gets the VCM part. -/
def addVcmTo (carriersId : Nat) (fmtGroup : Option FmtGroup) (ratio : Nat) :
    List CarriersGroupVcm → List CarriersGroupVcm
  | [] => []
  | group :: rest =>
      if group.carriersId = carriersId then group.addVcm fmtGroup ratio :: rest
      else group :: addVcmTo carriersId fmtGroup ratio rest

namespace TerminalCategory

variable (category : TerminalCategory)

def getTotalSymbolRate : ℚ :=
  (category.carriersGroups.map fun group => (group.carriersNumber : ℚ) * group.symbolRateSymps).sum +
    (category.otherCarriers.map fun group => (group.carriersNumber : ℚ) * group.symbolRateSymps).sum

/-- All the carriers have the same FMT group. -/
def getFmtGroup : Option FmtGroup := category.carriersGroups.head?.bind (·.fmtGroup)

def getHighestCarrierId : Nat :=
  category.carriersGroups.foldl (fun highest group => max group.carriersId highest) 0

def searchCarriersGroup (symbolRate : ℚ) : Option CarriersGroupVcm :=
  category.carriersGroups.find? (·.symbolRateSymps = symbolRate)

/-- The carriers that were found are taken even when there are not enough of them. -/
def deallocateCarriers (symbolRate : ℚ) (number : Nat) : Bool × Nat × TerminalCategory :=
  let result := deallocate symbolRate number category.carriersGroups
  (result.missing = 0, result.associatedRatio,
    { category with carriersGroups := result.carriersGroups })

/-- A new group of carriers, which is its own first VCM part. -/
def newCarriersGroup (carriersId : Nat) (fmtGroup : Option FmtGroup) (number ratio : Nat)
    (rateSymps : ℚ) (access : AccessType) (durationMs : Nat) : Option CarriersGroupVcm :=
  let group : CarriersGroupVcm :=
    { carriersId := carriersId, fmtGroup := fmtGroup, carriersNumber := 0, ratio := ratio,
      capacitySym := 0, symbolRateSymps := rateSymps, accessType := access, vcmCarriers := [] }
  ((group.addVcm fmtGroup ratio).setCarriersNumber number).setCapacity
    (wrap 32 ⌊rateSymps * durationMs / 1000⌋₊)

/-- The symbol rate list counts the carriers of a new group, but not the ones added to a group
that is there; the group of another access type is dropped. -/
def addCarriersGroup (carriersId : Nat) (fmtGroup : Option FmtGroup) (number ratio : Nat)
    (rateSymps : ℚ) (access : AccessType) (durationMs : Nat) : Option TerminalCategory :=
  let counted : SortedMap ℚ Nat :=
    match category.symbolRateList.lookup rateSymps with
    | none => category.symbolRateList.insert rateSymps number
    | some _ => category.symbolRateList.modify rateSymps (addW 32 number)
  match category.searchCarriersGroup rateSymps with
  | some _ => some { category with
      carriersGroups := mergeCarriers rateSymps number ratio category.carriersGroups }
  | none =>
      if category.carriersGroups.any (·.carriersId = carriersId) then
        some { category with
          carriersGroups := addVcmTo carriersId fmtGroup ratio category.carriersGroups }
      else if access = category.desiredAccess then
        (newCarriersGroup carriersId fmtGroup number ratio rateSymps access durationMs).map
          fun group =>
            { category with
              carriersGroups := category.carriersGroups ++ [group], symbolRateList := counted }
      else some { category with symbolRateList := counted }

end TerminalCategory

/-! ### The carriers of the groups -/

def groupsAt (symbolRate : ℚ) (groups : List CarriersGroupVcm) : List CarriersGroupVcm :=
  groups.filter (·.symbolRateSymps = symbolRate)

/-- The number of carriers of a symbol rate. -/
def held (symbolRate : ℚ) (groups : List CarriersGroupVcm) : Nat :=
  ((groupsAt symbolRate groups).map (·.carriersNumber)).sum

/-- The sum of a weight of their symbol rates over the carriers. -/
def tally (weight : ℚ → ℚ) (groups : List CarriersGroupVcm) : ℚ :=
  (groups.map fun group => (group.carriersNumber : ℚ) * weight group.symbolRateSymps).sum

section Carriers

variable {symbolRate other : ℚ} {number ratio : Nat} {group : CarriersGroupVcm}
  {groups : List CarriersGroupVcm} {weight : ℚ → ℚ}

theorem groupsAt_cons_of_eq (same : group.symbolRateSymps = symbolRate) :
    groupsAt symbolRate (group :: groups) = group :: groupsAt symbolRate groups :=
  List.filter_cons_of_pos (decide_eq_true same)

theorem groupsAt_cons_of_ne (ne : group.symbolRateSymps ≠ symbolRate) :
    groupsAt symbolRate (group :: groups) = groupsAt symbolRate groups :=
  List.filter_cons_of_neg (by rwa [decide_eq_true_eq])

theorem held_cons_of_eq (same : group.symbolRateSymps = symbolRate) :
    held symbolRate (group :: groups) = group.carriersNumber + held symbolRate groups := by
  rw [held, groupsAt_cons_of_eq same, List.map_cons, List.sum_cons, held]

theorem held_cons_of_ne (ne : group.symbolRateSymps ≠ symbolRate) :
    held symbolRate (group :: groups) = held symbolRate groups := by
  rw [held, groupsAt_cons_of_ne ne, held]

theorem tally_cons : tally weight (group :: groups) =
    (group.carriersNumber : ℚ) * weight group.symbolRateSymps + tally weight groups := by
  rw [tally, List.map_cons, List.sum_cons, tally]

theorem tally_append (groups' : List CarriersGroupVcm) :
    tally weight (groups ++ groups') = tally weight groups + tally weight groups' := by
  rw [tally, List.map_append, List.sum_append]
  rfl

/-- The carriers of a symbol rate are the tally that gives them weight one. -/
theorem held_eq_tally :
    (held symbolRate groups : ℚ) = tally (fun rate => if rate = symbolRate then 1 else 0) groups := by
  induction groups with
  | nil => rfl
  | cons group groups ih =>
      rw [tally_cons, ← ih]
      by_cases same : group.symbolRateSymps = symbolRate
      · rw [held_cons_of_eq same, if_pos same, mul_one, Nat.cast_add]
      · rw [held_cons_of_ne same, if_neg same, mul_zero, zero_add]

theorem searchCarriersGroup_eq {category : TerminalCategory} :
    category.searchCarriersGroup symbolRate =
      (groupsAt symbolRate category.carriersGroups).head? :=
  List.head?_filter.symm

/-! ### Deallocations -/

/-- A deallocation lacks the carriers that the groups do not hold. -/
theorem deallocate_missing :
    (deallocate symbolRate number groups).missing = number - held symbolRate groups := by
  induction groups generalizing number with
  | nil => rfl
  | cons group groups ih =>
      unfold deallocate
      split
      next gives =>
        rw [held_cons_of_eq gives.2]
        split
        · rw [ih]
          omega
        · dsimp only
          omega
      next passed =>
        rw [ih]
        by_cases same : group.symbolRateSymps = symbolRate
        · rw [held_cons_of_eq same]
          have empty : group.carriersNumber = 0 := by
            by_contra some
            exact passed ⟨some, same⟩
          omega
        · rw [held_cons_of_ne same]

theorem deallocate_tally (weight : ℚ → ℚ) :
    tally weight (deallocate symbolRate number groups).carriersGroups +
        (min number (held symbolRate groups) : ℕ) * weight symbolRate =
      tally weight groups := by
  induction groups generalizing number with
  | nil => simp [deallocate, tally, held, groupsAt]
  | cons group groups ih =>
      unfold deallocate
      split
      next gives =>
        obtain ⟨some, same⟩ := gives
        rw [held_cons_of_eq same]
        split
        next less =>
          have split : min number (group.carriersNumber + held symbolRate groups) =
              group.carriersNumber + min (number - group.carriersNumber) (held symbolRate groups) := by
            omega
          rw [tally_cons, tally_cons, ← @ih (number - group.carriersNumber), split, Nat.cast_add,
            CarriersGroupVcm.setRatio_carriersNumber,
            CarriersGroupVcm.setCarriersNumber_carriersNumber, same]
          push_cast
          ring
        next enough =>
          have enough' : number ≤ group.carriersNumber := Nat.not_lt.mp enough
          rw [Nat.min_eq_left (Nat.le_add_right_of_le enough')]
          dsimp only
          rw [tally_cons, tally_cons, CarriersGroupVcm.setCarriersNumber_carriersNumber,
            CarriersGroupVcm.setCarriersNumber_symbolRateSymps,
            CarriersGroupVcm.setRatio_symbolRateSymps, same, Nat.cast_sub enough']
          ring
      next passed =>
        have same : held symbolRate (group :: groups) = held symbolRate groups := by
          by_cases same : group.symbolRateSymps = symbolRate
          · have empty : group.carriersNumber = 0 := by
              by_contra some
              exact passed ⟨some, same⟩
            rw [held_cons_of_eq same, empty, Nat.zero_add]
          · exact held_cons_of_ne same
        rw [same]
        dsimp only
        rw [tally_cons, tally_cons, add_assoc, ih]

/-- The carriers that a deallocation leaves. -/
theorem held_deallocate :
    held symbolRate (deallocate symbolRate number groups).carriersGroups =
      held symbolRate groups - number := by
  have law := @deallocate_tally symbolRate number groups fun rate =>
    if rate = symbolRate then 1 else 0
  rw [← held_eq_tally, ← held_eq_tally, if_pos rfl, mul_one, ← Nat.cast_add, Nat.cast_inj] at law
  omega

/-- A deallocation only reads and changes the groups of its symbol rate. -/
theorem groupsAt_deallocate :
    deallocate symbolRate number (groupsAt symbolRate groups) =
      { deallocate symbolRate number groups with
        carriersGroups :=
          groupsAt symbolRate (deallocate symbolRate number groups).carriersGroups } := by
  induction groups generalizing number with
  | nil => rfl
  | cons group groups ih =>
      by_cases same : group.symbolRateSymps = symbolRate
      · rw [groupsAt_cons_of_eq same]
        unfold deallocate
        have kept : ∀ (group' : CarriersGroupVcm) (groups' : List CarriersGroupVcm) (m r : Nat),
            group'.symbolRateSymps = group.symbolRateSymps →
            Deallocation.mk (group' :: groupsAt symbolRate groups') m r =
              ⟨groupsAt symbolRate (group' :: groups'), m, r⟩ := by
          intro group' groups' m r rate
          rw [groupsAt_cons_of_eq (rate.trans same)]
        split
        · split
          · rw [ih]
            exact kept _ _ _ _ rfl
          · exact kept _ _ _ _ rfl
        · rw [ih]
          exact kept _ _ _ _ rfl
      · rw [groupsAt_cons_of_ne same, ih]
        conv_rhs => rw [deallocate, if_neg (fun gives => same gives.2)]
        dsimp only
        rw [groupsAt_cons_of_ne same]

theorem groupsAt_deallocate_of_ne (ne : other ≠ symbolRate) :
    groupsAt other (deallocate symbolRate number groups).carriersGroups = groupsAt other groups := by
  induction groups generalizing number with
  | nil => rfl
  | cons group groups ih =>
      have cons : ∀ {group' : CarriersGroupVcm} {groups' : List CarriersGroupVcm},
          (group.symbolRateSymps = other → group' = group) →
          (group'.symbolRateSymps = group.symbolRateSymps) →
          groupsAt other groups' = groupsAt other groups →
          groupsAt other (group' :: groups') = groupsAt other (group :: groups) := by
        intro group' groups' kept rate later
        by_cases own : group.symbolRateSymps = other
        · rw [kept own, groupsAt_cons_of_eq own, groupsAt_cons_of_eq own, later]
        · rw [groupsAt_cons_of_ne own, groupsAt_cons_of_ne (rate.trans_ne own), later]
      unfold deallocate
      split
      next gives =>
        have notOwn : group.symbolRateSymps = other → False :=
          fun own => ne (own.symm.trans gives.2)
        split
        · exact cons (fun own => (notOwn own).elim) rfl ih
        · exact cons (fun own => (notOwn own).elim) rfl rfl
      · exact cons (fun _ => rfl) rfl ih

/-- Without carriers of the symbol rate nothing is taken. -/
theorem deallocate_of_held_eq_zero (none : held symbolRate groups = 0) :
    deallocate symbolRate number groups = ⟨groups, number, 0⟩ := by
  induction groups with
  | nil => rfl
  | cons group groups ih =>
      have passed : ¬ (group.carriersNumber ≠ 0 ∧ group.symbolRateSymps = symbolRate) := by
        rintro ⟨some, same⟩
        rw [held_cons_of_eq same] at none
        omega
      have none' : held symbolRate groups = 0 := by
        by_cases same : group.symbolRateSymps = symbolRate
        · rw [held_cons_of_eq same] at none
          omega
        · rwa [held_cons_of_ne same] at none
      rw [deallocate, if_neg passed, ih none']

/-! ### Additions -/

theorem mergeCarriers_tally (weight : ℚ → ℚ)
    (found : (groupsAt symbolRate groups).head? = some group) :
    tally weight (mergeCarriers symbolRate number ratio groups) +
        group.carriersNumber * weight symbolRate =
      tally weight groups + addW 32 number group.carriersNumber * weight symbolRate := by
  induction groups with
  | nil => cases found
  | cons first groups ih =>
      unfold mergeCarriers
      split
      next same =>
        rw [groupsAt_cons_of_eq same] at found
        obtain rfl : first = group := Option.some.inj found
        rw [tally_cons, tally_cons, CarriersGroupVcm.setRatio_carriersNumber,
          CarriersGroupVcm.setCarriersNumber_carriersNumber,
          CarriersGroupVcm.setRatio_symbolRateSymps,
          CarriersGroupVcm.setCarriersNumber_symbolRateSymps, same]
        ring
      next ne =>
        rw [groupsAt_cons_of_ne ne] at found
        rw [tally_cons, tally_cons, add_assoc, ih found, add_assoc]

theorem groupsAt_mergeCarriers_of_ne (ne : other ≠ symbolRate) :
    groupsAt other (mergeCarriers symbolRate number ratio groups) = groupsAt other groups := by
  induction groups with
  | nil => rfl
  | cons first groups ih =>
      unfold mergeCarriers
      split
      next same =>
        have notOwn : first.symbolRateSymps ≠ other := same.trans_ne ne.symm
        rw [groupsAt_cons_of_ne notOwn]
        exact groupsAt_cons_of_ne notOwn
      next =>
        by_cases own : first.symbolRateSymps = other
        · rw [groupsAt_cons_of_eq own, groupsAt_cons_of_eq own, ih]
        · rw [groupsAt_cons_of_ne own, groupsAt_cons_of_ne own, ih]

end Carriers

end OpenSand
