import OpenSand.Dvb.BandRuns

/-!
What an allocation or a release of band promises, and when it keeps the promise.

The promise is about any category and any requested rate, `SNO` itself included: the carriers
of each symbol rate are kept over the two categories, a refusal leaves their groups, and a
success leaves the category with the requested rate at least. The inverses of the FMT
definitions may have any value, so the new symbol rate may be another one than the requested
rate takes.
-/

namespace OpenSand

open OpenSand.Word

namespace TerminalCategory

/-- The symbols per second that a rate takes with the most efficient FMT. -/
def requestedSymbolRate (newRateKbps : Nat) (category : TerminalCategory) : ℚ :=
  (category.getFmtGroup.bind fun group => group.getMaxFmtId.bind group.modcodDef.getDefinition).elim
    0 fun fmt => newRateKbps * 1000 / (fmt.modulationEfficiency * fmt.codingRate)

end TerminalCategory

def totalSymbolRate (categories : TerminalCategories) (label : String) : ℚ :=
  (categories label).elim 0 (·.getTotalSymbolRate)

def requestedSymbolRate (newRateKbps : Nat) (categories : TerminalCategories) (label : String) : ℚ :=
  (categories label).elim 0 (·.requestedSymbolRate newRateKbps)

/-- The promise of a call, which must also have a result. -/
def BandKept (catLabel : String) (newRateKbps : Nat) (before : TerminalCategories)
    (result : Option (Bool × TerminalCategories)) : Prop :=
  ∃ done after, result = some (done, after) ∧
    (∀ rate, held rate (groupsOf after snoLabel) + held rate (groupsOf after catLabel) =
      held rate (groupsOf before snoLabel) + held rate (groupsOf before catLabel)) ∧
    (done = false → groupsOf after snoLabel = groupsOf before snoLabel ∧
      groupsOf after catLabel = groupsOf before catLabel) ∧
    (done = true →
      requestedSymbolRate newRateKbps before catLabel ≤ totalSymbolRate after catLabel)

/-- The carriers can all be moved and leave the category with the requested rate; or the first
rate to move is not there at all, or comes after rates that a category gives to itself. -/
def Movable (categories : TerminalCategories) (first second catLabel : String) (newRateKbps : Nat)
    (carriers : List (ℚ × Nat)) : Prop :=
  ((∀ entry ∈ carriers, entry.2 ≠ 0 → Transferable categories first second entry.1 entry.2) ∧
    requestedSymbolRate newRateKbps categories catLabel ≤
      totalSymbolRate categories catLabel -
        (if catLabel = first then carriersRate carriers else 0) +
        if catLabel = second then carriersRate carriers else 0) ∨
  ∃ before failed later, carriers.filter (·.2 ≠ 0) = before ++ failed :: later ∧
    (∀ entry ∈ before, Restored categories first second entry.1 entry.2) ∧
    held failed.1 (groupsOf categories first) = 0

theorem totalSymbolRate_eq (categories : TerminalCategories) (label : String) :
    totalSymbolRate categories label = tally id (groupsOf categories label) +
      ((othersOf categories label).map fun group =>
        (group.carriersNumber : ℚ) * group.symbolRateSymps).sum := by
  unfold totalSymbolRate groupsOf othersOf
  cases categories label with
  | none => exact (add_zero (0 : ℚ)).symm
  | some category => rfl

section Transfer

variable {categories : TerminalCategories} {first second catLabel : String}
  {newRateKbps durationMs : Nat}

theorem AllTransferred.totalSymbolRate {after : TerminalCategories} {carriers : List (ℚ × Nat)}
    (all : AllTransferred first second categories after carriers) (label : String) :
    totalSymbolRate after label = totalSymbolRate categories label -
      (if label = first then carriersRate carriers else 0) +
      if label = second then carriersRate carriers else 0 := by
  rw [totalSymbolRate_eq, totalSymbolRate_eq, all.tally, all.otherCarriers, carriersTally_id]
  ring

theorem AllTransferred.conserved {after : TerminalCategories} {carriers : List (ℚ × Nat)}
    (all : AllTransferred first second categories after carriers) :
    Conserved first second categories after := by
  intro rate
  refine Nat.cast_injective (R := ℚ) ?_
  rw [Nat.cast_add, Nat.cast_add, held_eq_tally, held_eq_tally, held_eq_tally, held_eq_tally,
    all.tally first, all.tally second, if_pos rfl, if_pos rfl]
  by_cases same : first = second
  · rw [if_pos same, if_pos same.symm]
    ring
  · rw [if_neg same, if_neg (Ne.symm same)]
    ring

theorem ready_getHighestCarrierId {category target : TerminalCategory}
    (gives : categories first = some category) (takes : categories second = some target) :
    Ready categories first second target.getHighestCarrierId := by
  refine ⟨⟨category, gives⟩, ⟨target, takes⟩, ?_⟩
  have bound : ∀ (groups : List CarriersGroupVcm) (highest : Nat),
      highest ≤ groups.foldl (fun highest group => max group.carriersId highest) highest ∧
        ∀ group ∈ groups, group.carriersId ≤
          groups.foldl (fun highest group => max group.carriersId highest) highest := by
    intro groups
    induction groups with
    | nil => exact fun highest => ⟨le_rfl, List.forall_mem_nil _⟩
    | cons group groups ih =>
        intro highest
        obtain ⟨start, all⟩ := ih (max group.carriersId highest)
        refine ⟨(le_max_right _ _).trans start, ?_⟩
        intro group' mem
        rcases List.mem_cons.mp mem with rfl | mem
        · exact (le_max_left _ _).trans start
        · exact all group' mem
  intro group mem
  rw [groupsOf, takes] at mem
  exact (bound target.carriersGroups 0).2 group mem

/-- A transfer between `SNO` and a category keeps the promise exactly when its carriers are
movable. -/
theorem carriersTransfer_kept_iff {category target : TerminalCategory}
    (gives : categories first = some category) (takes : categories second = some target)
    (labels : first = snoLabel ∧ second = catLabel ∨ first = catLabel ∧ second = snoLabel)
    {carriers : SortedMap ℚ Nat} (words : ∀ entry ∈ carriers.entries, entry.2 < 2 ^ 32) :
    BandKept catLabel newRateKbps categories
        (carriersTransfer durationMs first second carriers categories) ↔
      Movable categories first second catLabel newRateKbps carriers.entries := by
  have ready := ready_getHighestCarrierId gives takes
  have distinct : (carriers.entries.map Prod.fst).Nodup := by
    rw [List.Nodup, List.pairwise_map]
    exact carriers.sorted.imp fun lt => ne_of_lt lt
  -- the two categories in the order of the transfer
  have both : ∀ {P : String → Prop}, P snoLabel ∧ P catLabel ↔ P first ∧ P second := by
    intro P
    rcases labels with ⟨rfl, rfl⟩ | ⟨rfl, rfl⟩
    · exact Iff.rfl
    · exact and_comm
  have conservedIff : ∀ after, (∀ rate, held rate (groupsOf after snoLabel) +
        held rate (groupsOf after catLabel) =
          held rate (groupsOf categories snoLabel) + held rate (groupsOf categories catLabel)) ↔
      Conserved first second categories after := by
    intro after
    refine forall_congr' fun rate => ?_
    rcases labels with ⟨rfl, rfl⟩ | ⟨rfl, rfl⟩
    · exact Iff.rfl
    · rw [add_comm, add_comm (held rate (groupsOf categories snoLabel))]
  unfold carriersTransfer
  rw [takes, Option.bind_some]
  constructor
  · rintro ⟨done, after, ran, conserved, atomic, rate⟩
    cases done with
    | true =>
        have served := transferRates_conserved ready distinct ran ((conservedIff after).mp conserved)
        obtain ⟨after', ran', all⟩ := @transferRates_served categories first second _ durationMs _
          ready distinct served
        obtain rfl : after' = after := (Prod.mk.inj (Option.some.inj (ran'.symm.trans ran))).2
        exact .inl ⟨served, all.totalSymbolRate catLabel ▸ rate rfl⟩
    | false =>
        have kept := (both (P := fun label => groupsOf after label = groupsOf categories label)).mp
          (atomic rfl)
        exact .inr (transferRates_kept ready distinct words ran fun rate => by rw [kept.1])
  · rintro (⟨served, rate⟩ | ⟨before, failed, later, split, restored, none⟩)
    · obtain ⟨after, ran, all⟩ := @transferRates_served categories first second _ durationMs _ ready
        distinct served
      refine ⟨true, after, ran, (conservedIff after).mpr all.conserved,
        fun done => absurd done Bool.false_ne_true.symm, fun _ => ?_⟩
      rw [all.totalSymbolRate]
      exact rate
    · obtain ⟨after, ran, keptFirst, keptSecond⟩ := @transferRates_failed categories first second _
        durationMs _ ready before later failed split restored none
      have kept := (both (P := fun label => groupsOf after label = groupsOf categories label)).mpr
        ⟨keptFirst, keptSecond⟩
      refine ⟨false, after, ran, fun rate => ?_, fun _ => kept, fun done => absurd done Bool.false_ne_true⟩
      rw [kept.1, kept.2]

end Transfer

/-! ### The two operations -/

/-- The carriers of a release, without the one that would make the rate too small. -/
def releasedCarriers (left : ℚ) : List (ℚ × Nat) → List (ℚ × Nat)
  | [] => []
  | (rate, number) :: rest =>
      if left < 0 then (rate, subW 32 number 1) :: rest else (rate, number) :: rest

theorem withoutSurplus_entries (carriers : SortedMap ℚ Nat) (left : ℚ) :
    (withoutSurplus carriers left).entries = releasedCarriers left carriers.entries := by
  unfold withoutSurplus
  split
  next surplus =>
    cases split : carriers.entries with
    | nil => exact split
    | cons first rest =>
        obtain ⟨rate, number⟩ := first
        rw [releasedCarriers, if_pos surplus]
        exact SortedMap.modify_split (split.trans (List.nil_append _).symm) _
  next exact_ =>
    cases carriers.entries with
    | nil => rfl
    | cons first rest => rw [releasedCarriers, if_neg exact_]

theorem releasedCarriers_lt {carriers : List (ℚ × Nat)} {left : ℚ}
    (words : ∀ entry ∈ carriers, entry.2 < 2 ^ 32) :
    ∀ entry ∈ releasedCarriers left carriers, entry.2 < 2 ^ 32 := by
  cases carriers with
  | nil => exact List.forall_mem_nil _
  | cons first rest =>
      obtain ⟨rate, number⟩ := first
      rw [releasedCarriers]
      by_cases surplus : left < 0
      · rw [if_pos surplus]
        intro entry mem
        rcases List.mem_cons.mp mem with rfl | mem
        · exact subW_lt 32 _ 1
        · exact words entry (List.mem_cons_of_mem _ mem)
      · rw [if_neg surplus]
        exact words

/-- The condition under which an allocation keeps its promise. -/
def AllocationPossible (inverses : UInt8 → FmtInverses) (catLabel : String) (newRateKbps : Nat)
    (categories : TerminalCategories) : Prop :=
  ∀ catSno cat, categories snoLabel = some catSno → categories catLabel = some cat →
    ∃ newRs, cat.newSymbolRate inverses newRateKbps = some newRs ∧
      (newRs ≤ cat.getTotalSymbolRate ∨
        catSno.getTotalSymbolRate < newRs - cat.getTotalSymbolRate ∨
        ∃ carriers left,
          bandPlan (newRs - cat.getTotalSymbolRate) catSno.symbolRateList.entries.reverse =
            .made carriers left ∧
          Movable categories snoLabel catLabel catLabel newRateKbps carriers)

/-- The new symbol rate computed is reached by the carriers of the plan, unless a rate of the list
counts as many carriers as a word can. -/
theorem plan_reaches {catSno cat : TerminalCategory} {newRs left : ℚ} {carriers : List (ℚ × Nat)}
    (made : bandPlan (newRs - cat.getTotalSymbolRate) catSno.symbolRateList.entries.reverse =
      .made carriers left)
    (words : ∀ entry ∈ catSno.symbolRateList.entries, entry.2 + 1 < 2 ^ 32) :
    newRs ≤ cat.getTotalSymbolRate + carriersRate carriers := by
  obtain ⟨reached, rate⟩ := bandPlan_reaches
    (fun entry mem => words entry (List.mem_reverse.mp mem)) made
  rw [rate]
  linarith

/-- The condition under which a release keeps its promise. -/
def ReleasePossible (inverses : UInt8 → FmtInverses) (catLabel : String) (newRateKbps : Nat)
    (categories : TerminalCategories) : Prop :=
  ∀ catSno cat, categories snoLabel = some catSno → categories catLabel = some cat →
    ∃ newRs, cat.newSymbolRate inverses newRateKbps = some newRs ∧
      (cat.getTotalSymbolRate ≤ newRs ∨
        ∃ carriers left,
          bandPlan (cat.getTotalSymbolRate - newRs) cat.symbolRateList.entries.reverse =
            .made carriers left ∧
          Movable categories catLabel snoLabel catLabel newRateKbps
            (releasedCarriers left carriers))

section Operations

variable {inverses : UInt8 → FmtInverses} {durationMs : Nat} {catLabel : String}
  {newRateKbps : Nat} {categories : TerminalCategories} {catSno cat : TerminalCategory}

/-- A refusal changes nothing. -/
theorem bandKept_refused : BandKept catLabel newRateKbps categories (some (false, categories)) :=
  ⟨false, categories, rfl, fun _ => rfl, fun _ => ⟨rfl, rfl⟩,
    fun done => absurd done Bool.false_ne_true⟩

theorem not_bandKept_none : ¬ BandKept catLabel newRateKbps categories none := by
  rintro ⟨done, after, ran, -⟩
  cases ran

/-- The transfer of the carriers calculated for a category keeps the promise exactly when there
is a plan whose carriers, once changed as the caller does, are movable. -/
theorem calculated_kept_iff {category target giver : TerminalCategory} {first second : String}
    (gives : categories first = some category) (takes : categories second = some target)
    (labels : first = snoLabel ∧ second = catLabel ∨ first = catLabel ∧ second = snoLabel)
    (change : SortedMap ℚ Nat → ℚ → SortedMap ℚ Nat)
    (change' : ℚ → List (ℚ × Nat) → List (ℚ × Nat))
    (changed : ∀ carriers left, (change carriers left).entries = change' left carriers.entries)
    (words : ∀ carriers left, (∀ entry ∈ carriers, entry.2 < 2 ^ 32) →
      ∀ entry ∈ change' left carriers, entry.2 < 2 ^ 32) (need : ℚ) :
    BandKept catLabel newRateKbps categories
        ((carriersTransferCalculation giver need).bind fun result =>
          carriersTransfer durationMs first second (change result.1 result.2) categories) ↔
      ∃ carriers left, bandPlan need giver.symbolRateList.entries.reverse = .made carriers left ∧
        Movable categories first second catLabel newRateKbps (change' left carriers) := by
  have computed := carriersTransferCalculation_eq giver need
  cases plan : bandPlan need giver.symbolRateList.entries.reverse with
  | made carriers left =>
      rw [plan] at computed
      obtain ⟨⟨map, left'⟩, found, same⟩ := Option.map_eq_some_iff.mp computed
      obtain ⟨rfl, rfl⟩ := Prod.mk.inj same
      have words' : ∀ entry ∈ (change map left').entries, entry.2 < 2 ^ 32 :=
        changed map left' ▸ words _ left' (bandPlan_lt plan)
      rw [found, Option.bind_some, carriersTransfer_kept_iff gives takes labels words', changed]
      constructor
      · exact fun movable => ⟨_, _, rfl, movable⟩
      · rintro ⟨carriers', left'', made, movable⟩
        obtain ⟨rfl, rfl⟩ := BandPlan.made.inj made
        exact movable
  | short =>
      rw [plan, Option.map_eq_none_iff] at computed
      rw [computed, Option.bind_none]
      refine iff_of_false not_bandKept_none ?_
      rintro ⟨_, _, made, -⟩
      cases made
  | undefined =>
      rw [plan, Option.map_eq_none_iff] at computed
      rw [computed, Option.bind_none]
      refine iff_of_false not_bandKept_none ?_
      rintro ⟨_, _, made, -⟩
      cases made

/-- The categories that an operation looks up, and the symbol rate that it computes. -/
theorem found_iff {P : TerminalCategory → TerminalCategory → ℚ → Prop}
    (sno : categories snoLabel = some catSno) (served : categories catLabel = some cat) :
    (∀ catSno cat, categories snoLabel = some catSno → categories catLabel = some cat →
        ∃ newRs, cat.newSymbolRate inverses newRateKbps = some newRs ∧ P catSno cat newRs) ↔
      ∃ newRs, cat.newSymbolRate inverses newRateKbps = some newRs ∧ P catSno cat newRs := by
  constructor
  · exact fun possible => possible catSno cat sno served
  · intro possible catSno' cat' sno' served'
    obtain rfl : catSno = catSno' := Option.some.inj (sno.symm.trans sno')
    obtain rfl : cat = cat' := Option.some.inj (served.symm.trans served')
    exact possible

theorem missing_iff {P : TerminalCategory → TerminalCategory → Prop}
    (missing : categories snoLabel = none ∨ categories catLabel = none) :
    ∀ catSno cat, categories snoLabel = some catSno → categories catLabel = some cat →
      P catSno cat := by
  intro catSno cat sno served
  rcases missing with missing | missing
  · rw [missing] at sno
    cases sno
  · rw [missing] at served
    cases served

theorem allocateBand_kept_iff :
    BandKept catLabel newRateKbps categories
        (allocateBand inverses durationMs catLabel newRateKbps categories) ↔
      AllocationPossible inverses catLabel newRateKbps categories := by
  unfold allocateBand
  cases sno : categories snoLabel with
  | none => exact iff_of_true bandKept_refused (missing_iff (.inl sno))
  | some catSno =>
  cases served : categories catLabel with
  | none => exact iff_of_true bandKept_refused (missing_iff (.inr served))
  | some cat =>
      dsimp only
      rw [AllocationPossible, found_iff sno served]
      cases cat.newSymbolRate inverses newRateKbps with
      | none => exact iff_of_false not_bandKept_none fun ⟨_, found, _⟩ => nomatch found
      | some newRs =>
          rw [Option.bind_some]
          simp only [Option.some.injEq, exists_eq_left']
          by_cases smaller : newRs ≤ cat.getTotalSymbolRate
          · rw [if_pos smaller]
            exact iff_of_true bandKept_refused (.inl smaller)
          rw [if_neg smaller, or_iff_right smaller]
          by_cases lacking : catSno.getTotalSymbolRate < newRs - cat.getTotalSymbolRate
          · rw [if_pos lacking]
            exact iff_of_true bandKept_refused (.inl lacking)
          rw [if_neg lacking, or_iff_right lacking]
          exact calculated_kept_iff sno served (.inl ⟨rfl, rfl⟩) (fun carriers _ => carriers)
            (fun _ carriers => carriers) (fun _ _ => rfl) (fun _ _ words => words) _

theorem releaseBand_kept_iff :
    BandKept catLabel newRateKbps categories
        (releaseBand inverses durationMs catLabel newRateKbps categories) ↔
      ReleasePossible inverses catLabel newRateKbps categories := by
  unfold releaseBand
  cases sno : categories snoLabel with
  | none => exact iff_of_true bandKept_refused (missing_iff (.inl sno))
  | some catSno =>
  cases served : categories catLabel with
  | none => exact iff_of_true bandKept_refused (missing_iff (.inr served))
  | some cat =>
      dsimp only
      rw [ReleasePossible, found_iff sno served]
      cases cat.newSymbolRate inverses newRateKbps with
      | none => exact iff_of_false not_bandKept_none fun ⟨_, found, _⟩ => nomatch found
      | some newRs =>
          rw [Option.bind_some]
          simp only [Option.some.injEq, exists_eq_left']
          by_cases larger : cat.getTotalSymbolRate ≤ newRs
          · rw [if_pos larger]
            exact iff_of_true bandKept_refused (.inl larger)
          rw [if_neg larger, or_iff_right larger]
          exact calculated_kept_iff served sno (.inr ⟨rfl, rfl⟩) withoutSurplus releasedCarriers
            withoutSurplus_entries (fun _ _ words => releasedCarriers_lt words) _

end Operations

/-- The promises of both operations, for every category and every requested rate. -/
theorem band_kept_iff (inverses : UInt8 → FmtInverses) (durationMs : Nat) (catLabel : String)
    (newRateKbps : Nat) (categories : TerminalCategories) :
    (BandKept catLabel newRateKbps categories
        (allocateBand inverses durationMs catLabel newRateKbps categories) ↔
      AllocationPossible inverses catLabel newRateKbps categories) ∧
    (BandKept catLabel newRateKbps categories
        (releaseBand inverses durationMs catLabel newRateKbps categories) ↔
      ReleasePossible inverses catLabel newRateKbps categories) := by
  constructor
  · exact allocateBand_kept_iff
  · exact releaseBand_kept_iff

/-! ### A refusal that loses carriers -/

def bpskFmt : FmtGroup where
  fmtIds := [⟨1, 1⟩]
  modcodDef := (∅ : FmtDefinitionTable).insert 1
    { id := 1, modulationEfficiency := 1, codingRate := 1, coding := "1/1", spectralEfficiency := 1,
      requiredEsN0 := 1 }

def damaCarriers (carriersId number : Nat) (rate : ℚ) : CarriersGroupVcm where
  carriersId := carriersId
  fmtGroup := some bpskFmt
  carriersNumber := number
  ratio := 10
  capacitySym := 100
  symbolRateSymps := rate
  accessType := .dama
  vcmCarriers := []

/-- Two carriers of 10 and two of 3 ksymb/s in `SNO`, one of 5 in another category. -/
def twoCategories : TerminalCategories
  | "SNO" => some
      { carriersGroups := [damaCarriers 0 2 10000, damaCarriers 1 2 3000], desiredAccess := .dama,
        symbolRateList := ⟨[(3000, 2), (10000, 2)], by norm_num⟩, otherCarriers := [] }
  | "Standard" => some
      { carriersGroups := [damaCarriers 2 1 5000], desiredAccess := .dama,
        symbolRateList := ⟨[(5000, 1)], by norm_num⟩, otherCarriers := [] }
  | _ => none

theorem allocateBand_not_kept :
    ¬ ∀ (inverses : UInt8 → FmtInverses) (durationMs : Nat) (catLabel : String) (newRateKbps : Nat)
      (categories : TerminalCategories),
      BandKept catLabel newRateKbps categories
          (allocateBand inverses durationMs catLabel newRateKbps categories) ∧
        BandKept catLabel newRateKbps categories
          (releaseBand inverses durationMs catLabel newRateKbps categories) := by
  intro all
  obtain ⟨done, after, ran, -, atomic, -⟩ :=
    (all (fun _ => ⟨1, 1⟩) 10 "Standard" 22 twoCategories).1
  have numbers : (allocateBand (fun _ => ⟨1, 1⟩) 10 "Standard" 22 twoCategories).map
      (fun result => (result.1, (groupsOf result.2 snoLabel).map (·.carriersNumber))) =
        some (false, [2, 0]) := by decide +kernel
  rw [ran, Option.map_some, Option.some.injEq, Prod.mk.injEq] at numbers
  obtain ⟨rfl, lost⟩ := numbers
  rw [(atomic rfl).1] at lost
  revert lost
  decide +kernel

end OpenSand
