import OpenSand.Dama.PhaseCapacity
import OpenSand.Dama.TerminalsHold
import OpenSand.Lib.Turns

/-!
The packets and the credit that the RBDC of a carriers group gives each terminal.

Both steps are loops over different terminals, so a terminal gets the integer part of its fair
share, at most one packet more, and the credit that the code computes for the rest.
-/

namespace OpenSand.Allocation

open OpenSand.Word OpenSand.Turns

/-! ### The parts of the allocation -/

variable (run : Allocation)

/-- The requests of the terminals of the group. -/
def rbdcAsked : Allocation × RbdcRequests := run.start.rbdcRequests run.start.inCarriersGroup

/-- There are requests and some capacity for them. -/
def SharesRbdc : Prop :=
  run.start.remainingPktpf ≠ 0 ∧ run.rbdcAsked.2.totalRequestPktpf ≠ 0

instance : Decidable run.SharesRbdc := inferInstanceAs (Decidable (_ ∧ _))

def rbdcRatio : ℚ := fairShare run.rbdcAsked.2.totalRequestPktpf run.start.remainingPktpf

/-- A turn of the first step. -/
def rbdcShare : Allocation → Nat → Allocation :=
  rbdcInteger run.rbdcAsked.2.talRequestPktpf run.rbdcRatio

def rbdcFirst : Allocation :=
  run.start.inCarriersGroup.foldl run.rbdcShare run.rbdcAsked.1.resetAlloc

/-- A turn of the second step, which does nothing once the capacity is exhausted. -/
def rbdcExtra (run : Allocation) (i : Nat) : Allocation :=
  if 0 < run.remainingPktpf then rbdcDecimal run i else run

def rbdcOrder : List Nat :=
  run.rbdcFirst.sortBy TerminalContextDamaRcs.creditOrder run.start.inCarriersGroup

def rbdcSecond : Allocation := run.rbdcOrder.foldl rbdcExtra run.rbdcFirst

theorem rbdcDecimals_eq (tal : List Nat) : rbdcDecimals run tal = tal.foldl rbdcExtra run := by
  induction tal generalizing run with
  | nil => rfl
  | cons i tal ih =>
      rw [rbdcDecimals, List.foldl_cons]
      unfold rbdcExtra
      split
      · exact ih _
      · rename_i none
        have stays : tal.foldl rbdcExtra run = run := by
          clear ih
          induction tal with
          | nil => rfl
          | cons j tal ih =>
              rw [List.foldl_cons, rbdcExtra, if_neg none]
              exact ih
        exact stays.symm

theorem computeDamaRbdcPerCarrier_eq : run.computeDamaRbdcPerCarrier =
    if run.start.remainingPktpf = 0 then run.start
    else if run.rbdcAsked.2.totalRequestPktpf = 0 then run.rbdcAsked.1
    else (if 1 < run.rbdcRatio then run.rbdcSecond else run.rbdcFirst).finish := by
  unfold computeDamaRbdcPerCarrier rbdcSecond
  simp only [rbdcDecimals_eq]
  rfl

/-! ### The gains of a terminal -/

/-- The packets granted in the turn of a terminal. -/
def turnPackets (body : Allocation → Nat → Allocation) (run : Allocation) (i : Nat) : Nat :=
  ((body run i).grants.drop run.grants.length).sum

/-- The packets that the RBDC grants the terminal at a position. -/
def rbdcGranted (i : Nat) : Nat :=
  if run.SharesRbdc then
    gained run.rbdcShare (turnPackets run.rbdcShare) run.rbdcAsked.1.resetAlloc
        run.start.inCarriersGroup i +
      if 1 < run.rbdcRatio then
        gained rbdcExtra (turnPackets rbdcExtra) run.rbdcFirst run.rbdcOrder i
      else 0
  else 0

/-- The fair share of a request under an FMT definition, in packets. -/
def fairRbdcPktpf (fmt : FmtDefinition) (requestKbps : Nat) : ℚ :=
  if run.SharesRbdc then packets run.packetFormat fmt requestKbps / run.rbdcRatio else 0

/-- The rate of a packet, as the second step counts it. -/
def slotKbps (format : Nat × Nat) (fmt : FmtDefinition) : Nat := packetsRate format fmt 1

/-- The rate of a packet, as the credit of the first step counts it. -/
def creditKbps (format : Nat × Nat) (fmt : FmtDefinition) : ℚ :=
  (UnitConverterFixedSymbolLength.mk format.1 format.2 fmt.modulationEfficiency).getPacketBitLength /
    format.1 / fmt.codingRate

/-! ### Turns -/

/-- The terminal at a position. -/
def terminalAt (run : Allocation) (i : Nat) : Option TerminalContextDamaRcs := run.terminals[i]?

section Same

variable (i amount : Nat) (fmt : FmtDefinition)

@[simp] theorem withEfficiency_terminalAt :
    (run.withEfficiency fmt).terminalAt i = run.terminalAt i := rfl

@[simp] theorem addAlloc_terminalAt : (run.addAlloc amount).terminalAt i = run.terminalAt i := rfl

@[simp] theorem grant_terminalAt : (run.grant amount).terminalAt i = run.terminalAt i := rfl

@[simp] theorem charge_terminalAt : (run.charge amount).terminalAt i = run.terminalAt i := rfl

@[simp] theorem resetAlloc_terminalAt : run.resetAlloc.terminalAt i = run.terminalAt i := rfl

@[simp] theorem start_terminalAt : run.start.terminalAt i = run.terminalAt i := rfl

@[simp] theorem finish_terminalAt : run.finish.terminalAt i = run.terminalAt i := rfl

end Same

theorem update_terminalAt_self {i : Nat} {terminal : TerminalContextDamaRcs}
    {f : TerminalContextDamaRcs → TerminalContextDamaRcs} {run : Allocation}
    (found : run.terminalAt i = some terminal) :
    (run.update i f).terminalAt i = some (f terminal) := by
  unfold terminalAt at found
  simp [terminalAt, update, found]

theorem update_terminalAt_of_ne {i j : Nat} {f : TerminalContextDamaRcs → TerminalContextDamaRcs}
    {run : Allocation} (other : j ≠ i) : (run.update i f).terminalAt j = run.terminalAt j :=
  List.getElem?_modify_ne _ _ (Ne.symm other)

theorem forServed_own
    {body : Allocation → Nat → TerminalContextDamaRcs → FmtDefinition → Allocation}
    (touched : ∀ run i terminal fmt j, j ≠ i →
      (body run i terminal fmt).terminalAt j = run.terminalAt j) :
    Own (forServed body) terminalAt := by
  intro run i j other
  unfold forServed
  split
  · rfl
  · split
    · rfl
    · exact touched _ i _ _ j other

theorem rbdcInteger_own (requests : Std.TreeMap Nat Nat) (ratio : ℚ) :
    Own (rbdcInteger requests ratio) terminalAt := by
  apply forServed_own
  intro run i terminal fmt j other
  dsimp only
  split
  · rw [update_terminalAt_of_ne other]
    exact update_terminalAt_of_ne other
  · exact update_terminalAt_of_ne other

theorem rbdcShare_own : Own run.rbdcShare terminalAt :=
  rbdcInteger_own run.rbdcAsked.2.talRequestPktpf run.rbdcRatio

theorem rbdcExtra_own : Own rbdcExtra terminalAt := by
  have decimal : Own rbdcDecimal terminalAt := by
    apply forServed_own
    intro run i terminal fmt j other
    dsimp only
    split
    · exact update_terminalAt_of_ne other
    · rfl
  intro run i j other
  unfold rbdcExtra
  split
  · exact decimal run i j other
  · rfl

theorem rbdcExtra_follows (run : Allocation) (i : Nat) :
    ∃ granted, Follows run (rbdcExtra run i) granted := by
  unfold rbdcExtra
  split
  next some_left =>
    obtain ⟨granted, follows, -⟩ := rbdcDecimal_affords i some_left
    exact ⟨granted, follows⟩
  next => exact ⟨[], .refl run⟩

/-- The packets of a turn are those it adds to the grants. -/
theorem turnPackets_eq {body : Allocation → Nat → Allocation} {run : Allocation} {i : Nat}
    {granted : List Nat} (follows : Follows run (body run i) granted) :
    turnPackets body run i = granted.sum := by
  rw [turnPackets, follows.grants, List.drop_left]

/-- A terminal that is not served gets nothing in its turn. -/
theorem forServed_of_not_served
    {body : Allocation → Nat → TerminalContextDamaRcs → FmtDefinition → Allocation}
    {run : Allocation} {i : Nat}
    (not_served : ∀ terminal, run.terminalAt i = some terminal → terminal.fmt = none) :
    forServed body run i = run := by
  unfold forServed
  split
  · rfl
  next terminal found =>
    rw [not_served terminal found]

theorem forServed_of_served
    {body : Allocation → Nat → TerminalContextDamaRcs → FmtDefinition → Allocation}
    {run : Allocation} {i : Nat} {terminal : TerminalContextDamaRcs} {fmt : FmtDefinition}
    (found : run.terminalAt i = some terminal) (served : terminal.fmt = some fmt) :
    forServed body run i = body (run.withEfficiency fmt) i terminal fmt := by
  unfold forServed
  unfold terminalAt at found
  rw [found]
  dsimp only
  rw [served]

section Served

variable {requests : Std.TreeMap Nat Nat} {ratio : ℚ} {i : Nat} {terminal : TerminalContextDamaRcs}
  {fmt : FmtDefinition} {run}

/-- The first step for a terminal: the integer part of its fair share and credit for the rest. -/
theorem rbdcInteger_served (found : run.terminalAt i = some terminal)
    (served : terminal.fmt = some fmt) :
    let fair : ℚ := requests.getD terminal.talId 0 / ratio
    let packets := wrap 16 ⌊fair⌋₊
    (rbdcInteger requests ratio run i).terminalAt i = some { terminal with
      rbdcAllocKbps := packetsRate run.packetFormat fmt packets
      rbdcCredit := terminal.rbdcCredit +
        if 1 < ratio then (fair - packets) * creditKbps run.packetFormat fmt else 0 } ∧
    turnPackets (rbdcInteger requests ratio) run i = packets := by
  intro fair packets
  constructor
  · unfold rbdcInteger
    rw [forServed_of_served found served]
    have first (kbps : Nat) : (((((run.withEfficiency fmt).update i
        (·.setRbdcAllocation kbps)).addAlloc kbps).grant packets).charge
          ((run.withEfficiency fmt).ctrl.converter.pktpfToSymps packets)).terminalAt i =
            some (terminal.setRbdcAllocation kbps) := by
      simp only [charge_terminalAt, grant_terminalAt, addAlloc_terminalAt]
      exact update_terminalAt_self found
    dsimp only
    split
    · rw [update_terminalAt_self (first _)]
      simp only [TerminalContextDamaRcs.addRbdcCredit, TerminalContextDamaRcs.setRbdcAllocation,
        creditKbps, mul_div_assoc]
      rfl
    · rw [first _, add_zero]
      rfl
  · have demand : run.demands[i]? = some terminal.demand := by
      unfold terminalAt at found
      rw [demands, List.getElem?_map, found]
      rfl
    have asked : rbdcPackets run.packetFormat terminal.demand =
        some (Allocation.packets run.packetFormat fmt terminal.rbdcRequestKbps) :=
      congrArg (Option.map _) served
    rw [turnPackets_eq (rbdcInteger_of_some demand asked), List.sum_singleton]
    rfl

/-- The second step for a terminal: a packet when its credit and its maximum allow it. -/
theorem rbdcExtra_served (found : run.terminalAt i = some terminal)
    (served : terminal.fmt = some fmt) :
    (turnPackets rbdcExtra run i = 0 ∧ (run.rbdcExtra i).terminalAt i = some terminal) ∨
    (turnPackets rbdcExtra run i = 1 ∧
      (run.rbdcExtra i).terminalAt i = some { terminal with
        rbdcAllocKbps := addW 16 terminal.rbdcAllocKbps (slotKbps run.packetFormat fmt)
        rbdcCredit := terminal.rbdcCredit - slotKbps run.packetFormat fmt } ∧
      (slotKbps run.packetFormat fmt : ℚ) < terminal.rbdcCredit ∧
      (slotKbps run.packetFormat fmt : Int) <
        terminal.maxRbdcKbps - terminal.rbdcAllocKbps - terminal.craAllocKbps) := by
  have slot : fmt.removeFec ((run.withEfficiency fmt).ctrl.converter.pktpfToKbps 1) =
      slotKbps run.packetFormat fmt := rfl
  have kept : (run.withEfficiency fmt).terminalAt i = some terminal := found
  by_cases some_left : 0 < run.remainingPktpf
  · have turn : rbdcExtra run i = rbdcDecimal run i := if_pos some_left
    unfold rbdcDecimal at turn
    rw [forServed_of_served found served] at turn
    dsimp only at turn
    rw [slot] at turn
    split at turn
    next enough =>
      right
      refine ⟨?_, ?_, enough.1, enough.2⟩
      · rw [turnPackets, turn]
        simp [charge, grant, addAlloc, update, withEfficiency]
      · rw [turn]
        simp only [charge_terminalAt, grant_terminalAt, addAlloc_terminalAt]
        rw [update_terminalAt_self kept]
        simp only [TerminalContextDamaRcs.addRbdcCredit, TerminalContextDamaRcs.setRbdcAllocation,
          ← sub_eq_add_neg]
    next =>
      left
      refine ⟨?_, by rw [turn]; exact kept⟩
      rw [turnPackets, turn]
      simp [withEfficiency]
  · have turn : rbdcExtra run i = run := if_neg some_left
    left
    refine ⟨?_, by rw [turn]; exact found⟩
    rw [turnPackets, turn]
    simp

end Served

/-! ### The allocation of a group -/

theorem inCarriersGroup_nodup : run.inCarriersGroup.Nodup := List.nodup_range.filter _

theorem rbdcAsked_terminalAt (i : Nat) : run.rbdcAsked.1.terminalAt i = run.terminalAt i :=
  congrArg (·[i]?) (rbdcRequests_terminals run.start ⟨∅, 0⟩ run.start.inCarriersGroup)

theorem rbdcAsked_packetFormat : run.rbdcAsked.1.packetFormat = run.packetFormat :=
  (rbdcRequests_follows run.start run.start.inCarriersGroup).packetFormat

theorem one_le_rbdcRatio : 1 ≤ run.rbdcRatio := le_max_left _ _

/-- The order of the second step is one of the terminals of the group. -/
theorem rbdcOrder_perm : run.rbdcOrder.Perm run.start.inCarriersGroup := List.mergeSort_perm _ _

/-- The terminals are left as they are when there is nothing to share. -/
theorem rbdc_of_not_shares (nothing : ¬ run.SharesRbdc) (i : Nat) :
    run.computeDamaRbdcPerCarrier.terminalAt i = run.terminalAt i := by
  rw [computeDamaRbdcPerCarrier_eq]
  split
  · rfl
  · split
    · exact run.rbdcAsked_terminalAt i
    next some_left asked => exact absurd ⟨some_left, asked⟩ nothing

theorem rbdc_of_shares (shares : run.SharesRbdc) (i : Nat) :
    run.computeDamaRbdcPerCarrier.terminalAt i =
      (if 1 < run.rbdcRatio then run.rbdcSecond else run.rbdcFirst).terminalAt i := by
  rw [computeDamaRbdcPerCarrier_eq, if_neg shares.1, if_neg shares.2, finish_terminalAt]

section Group

variable {run} {i : Nat} {terminal : TerminalContextDamaRcs} {fmt : FmtDefinition}

/-- A terminal of another group, or without FMT definition, is left as it is. -/
theorem rbdc_of_not_served (not_served : i ∈ run.inCarriersGroup →
    ∀ terminal, run.terminalAt i = some terminal → terminal.fmt = none) :
    run.computeDamaRbdcPerCarrier.terminalAt i = run.terminalAt i ∧ run.rbdcGranted i = 0 := by
  have unserved (mem : i ∈ run.inCarriersGroup) (mid : Allocation)
      (same : mid.terminalAt i = run.terminalAt i) : ∀ terminal,
        mid.terminalAt i = some terminal → terminal.fmt = none := by
    intro terminal found
    rw [same] at found
    exact not_served mem terminal found
  have first := gained_of_idle (g := turnPackets run.rbdcShare) (s := run.rbdcAsked.1.resetAlloc)
    run.rbdcShare_own (inCarriersGroup_nodup run.start) (i := i)
    (fun mem mid seen => by
      rw [resetAlloc_terminalAt, rbdcAsked_terminalAt] at seen
      have turn : run.rbdcShare mid i = mid := by
        unfold rbdcShare rbdcInteger
        exact forServed_of_not_served (unserved mem mid seen)
      rw [turnPackets, turn, List.drop_length]
      exact ⟨rfl, rfl⟩)
  have firstAt : run.rbdcFirst.terminalAt i = run.terminalAt i := by
    refine first.1.trans ?_
    rw [resetAlloc_terminalAt, rbdcAsked_terminalAt]
  have perm := run.rbdcOrder_perm
  have second := gained_of_idle (g := turnPackets rbdcExtra) (s := run.rbdcFirst)
    rbdcExtra_own (perm.nodup_iff.mpr (inCarriersGroup_nodup run.start)) (i := i)
    (fun mem mid seen => by
      have turn : rbdcExtra mid i = mid := by
        unfold rbdcExtra
        split
        · exact forServed_of_not_served (unserved (perm.mem_iff.mp mem) mid (seen.trans firstAt))
        · rfl
      rw [turnPackets, turn, List.drop_length]
      exact ⟨rfl, rfl⟩)
  by_cases shares : run.SharesRbdc
  · rw [rbdc_of_shares run shares, rbdcGranted, if_pos shares]
    by_cases congested : 1 < run.rbdcRatio
    · rw [if_pos congested, if_pos congested]
      refine ⟨second.1.trans firstAt, ?_⟩
      rw [first.2, second.2, add_zero]
    · rw [if_neg congested, if_neg congested]
      exact ⟨firstAt, first.2⟩
  · exact ⟨rbdc_of_not_shares run shares i, if_neg shares⟩

/-- The packets requested by a terminal, as they are looked up. -/
theorem rbdcAsked_getD (nodup : (run.onGroup.map (·.talId)).Nodup)
    (mem : i ∈ run.inCarriersGroup) (found : run.terminalAt i = some terminal)
    (served : terminal.fmt = some fmt) :
    run.rbdcAsked.2.talRequestPktpf.getD terminal.talId 0 =
      packets run.packetFormat fmt terminal.rbdcRequestKbps := by
  have demand : run.demands[i]? = some terminal.demand := by
    unfold terminalAt at found
    rw [demands, List.getElem?_map, found]
    rfl
  have onGroup : terminal.demand ∈ run.onGroup := by
    rw [← demandsAt_inCarriersGroup]
    exact List.mem_filterMap.mpr ⟨i, mem, demand⟩
  have asked : rbdcPackets run.packetFormat terminal.demand =
      some (packets run.packetFormat fmt terminal.rbdcRequestKbps) :=
    congrArg (Option.map _) served
  have requests := (foldl_rbdcRequest run.start ⟨∅, 0⟩ run.start.inCarriersGroup).2
  rw [rbdcAsked, rbdcRequests, requests, demandsAt_inCarriersGroup]
  exact foldl_add_getD nodup _ onGroup asked

/-- The packets of the fair share, when there is something to share. -/
theorem fairRbdcPktpf_of_shares (shares : run.SharesRbdc) (requestKbps : Nat) :
    run.fairRbdcPktpf fmt requestKbps =
      packets run.packetFormat fmt requestKbps / run.rbdcRatio := if_pos shares

/-- The fair share is no more than the request. -/
theorem floor_fairRbdcPktpf_le (requestKbps : Nat) :
    ⌊run.fairRbdcPktpf fmt requestKbps⌋₊ ≤ packets run.packetFormat fmt requestKbps := by
  apply Nat.floor_le_of_le
  unfold fairRbdcPktpf
  split
  · exact div_le_self (Nat.cast_nonneg _) run.one_le_rbdcRatio
  · exact Nat.cast_nonneg _

/-- Without congestion the fair share is the request. -/
theorem fairRbdcPktpf_of_not_lt (enough : ¬ 1 < run.rbdcRatio) (requestKbps : Nat) :
    run.fairRbdcPktpf fmt requestKbps - ⌊run.fairRbdcPktpf fmt requestKbps⌋₊ = 0 := by
  have one : run.rbdcRatio = 1 := le_antisymm (not_lt.mp enough) run.one_le_rbdcRatio
  unfold fairRbdcPktpf
  split
  · rw [one, div_one, Nat.floor_natCast, sub_self]
  · rw [Nat.floor_zero, Nat.cast_zero, sub_self]

theorem rbdcFirst_packetFormat : run.rbdcFirst.packetFormat = run.packetFormat := by
  obtain ⟨granted, follows⟩ := foldl_follows
    (rbdcInteger_follows run.rbdcAsked.2.talRequestPktpf run.rbdcRatio)
    run.start.inCarriersGroup run.rbdcAsked.1.resetAlloc
  exact follows.packetFormat.trans run.rbdcAsked_packetFormat

/-- The first step for a terminal of the group. -/
theorem rbdcFirst_served (shares : run.SharesRbdc) (nodup : (run.onGroup.map (·.talId)).Nodup)
    (mem : i ∈ run.inCarriersGroup) (found : run.terminalAt i = some terminal)
    (served : terminal.fmt = some fmt) :
    let fair := run.fairRbdcPktpf fmt terminal.rbdcRequestKbps
    run.rbdcFirst.terminalAt i = some { terminal with
        rbdcAllocKbps := packetsRate run.packetFormat fmt ⌊fair⌋₊
        rbdcCredit := terminal.rbdcCredit +
          (fair - ⌊fair⌋₊) * creditKbps run.packetFormat fmt } ∧
      gained run.rbdcShare (turnPackets run.rbdcShare) run.rbdcAsked.1.resetAlloc
        run.start.inCarriersGroup i = ⌊fair⌋₊ := by
  intro fair
  have word : wrap 16 ⌊fair⌋₊ = ⌊fair⌋₊ := by
    apply wrap_of_lt
    refine (floor_fairRbdcPktpf_le terminal.rbdcRequestKbps).trans_lt ?_
    exact UnitConverterFixedSymbolLength.kbpsToPktpf_lt _ _
  obtain ⟨before, format, seen, after, got⟩ := exists_turn
    (g := turnPackets run.rbdcShare) run.rbdcShare_own
    (I := fun mid => mid.packetFormat = run.packetFormat) (s := run.rbdcAsked.1.resetAlloc)
    (fun mid j kept => by
      obtain ⟨granted, follows⟩ := rbdcInteger_follows run.rbdcAsked.2.talRequestPktpf
        run.rbdcRatio mid j
      exact follows.packetFormat.trans kept)
    run.rbdcAsked_packetFormat (inCarriersGroup_nodup run.start) mem
  rw [resetAlloc_terminalAt, rbdcAsked_terminalAt, found] at seen
  obtain ⟨terminalAfter, packetsOf⟩ := @rbdcInteger_served before
    run.rbdcAsked.2.talRequestPktpf run.rbdcRatio i terminal fmt seen served
  rw [rbdcAsked_getD nodup mem found served,
    ← fairRbdcPktpf_of_shares shares terminal.rbdcRequestKbps, word] at packetsOf
  rw [rbdcAsked_getD nodup mem found served,
    ← fairRbdcPktpf_of_shares shares terminal.rbdcRequestKbps, word, format] at terminalAfter
  refine ⟨?_, got.trans packetsOf⟩
  refine (after.trans terminalAfter).trans ?_
  split
  · rfl
  next enough =>
    have nothing : fair - ⌊fair⌋₊ = 0 :=
      fairRbdcPktpf_of_not_lt enough terminal.rbdcRequestKbps
    rw [nothing, zero_mul]

/-- The second step for a terminal of the group. -/
theorem rbdcSecond_served (mem : i ∈ run.inCarriersGroup)
    (found : run.rbdcFirst.terminalAt i = some terminal) (served : terminal.fmt = some fmt) :
    ∃ extra : Nat,
      gained rbdcExtra (turnPackets rbdcExtra) run.rbdcFirst run.rbdcOrder i = extra ∧
      (run.rbdcSecond.terminalAt i).map (·.rbdcCredit) =
        some (terminal.rbdcCredit - extra * slotKbps run.packetFormat fmt) ∧
      (extra = 0 ∨ extra = 1 ∧
        (slotKbps run.packetFormat fmt : ℚ) < terminal.rbdcCredit ∧
        (slotKbps run.packetFormat fmt : Int) <
          terminal.maxRbdcKbps - terminal.rbdcAllocKbps - terminal.craAllocKbps) := by
  have perm := run.rbdcOrder_perm
  obtain ⟨before, format, seen, after, got⟩ := exists_turn (g := turnPackets rbdcExtra)
    rbdcExtra_own (I := fun mid => mid.packetFormat = run.packetFormat)
    (fun mid j kept => by
      obtain ⟨granted, follows⟩ := rbdcExtra_follows mid j
      exact follows.packetFormat.trans kept)
    rbdcFirst_packetFormat (perm.nodup_iff.mpr (inCarriersGroup_nodup run.start))
    (perm.mem_iff.mpr mem)
  rw [found] at seen
  unfold rbdcSecond
  rw [got, after]
  rcases rbdcExtra_served seen served with ⟨none, same⟩ | ⟨one, paid, credit, maximum⟩
  · refine ⟨0, none, ?_, .inl rfl⟩
    rw [same]
    simp
  · rw [format] at paid credit maximum
    refine ⟨1, one, ?_, .inr ⟨rfl, credit, maximum⟩⟩
    rw [paid]
    simp

/-- What a terminal of the group gets: the integer part of its fair share, at most a packet more,
and the credit for the rest. -/
theorem rbdc_served (nodup : (run.onGroup.map (·.talId)).Nodup)
    (mem : i ∈ run.inCarriersGroup) (found : run.terminalAt i = some terminal)
    (served : terminal.fmt = some fmt) :
    let fair := run.fairRbdcPktpf fmt terminal.rbdcRequestKbps
    let credit := terminal.rbdcCredit + (fair - ⌊fair⌋₊) * creditKbps run.packetFormat fmt
    ∃ extra : Nat, run.rbdcGranted i = ⌊fair⌋₊ + extra ∧
      (run.computeDamaRbdcPerCarrier.terminalAt i).map (·.rbdcCredit) =
        some (credit - extra * slotKbps run.packetFormat fmt) ∧
      (extra = 0 ∨ extra = 1 ∧ run.SharesRbdc ∧ 1 < run.rbdcRatio ∧
        (slotKbps run.packetFormat fmt : ℚ) < credit ∧
        (slotKbps run.packetFormat fmt : Int) <
          terminal.maxRbdcKbps - packetsRate run.packetFormat fmt ⌊fair⌋₊ -
            terminal.craAllocKbps) := by
  intro fair credit
  by_cases shares : run.SharesRbdc
  · obtain ⟨first, got⟩ := rbdcFirst_served shares nodup mem found served
    rw [rbdc_of_shares run shares, rbdcGranted, if_pos shares, got]
    by_cases congested : 1 < run.rbdcRatio
    · obtain ⟨extra, gains, after, why⟩ := rbdcSecond_served mem first served
      rw [if_pos congested, if_pos congested, gains]
      exact ⟨extra, rfl, after, why.imp_right fun ⟨one, tests⟩ =>
        ⟨one, shares, congested, tests⟩⟩
    · rw [if_neg congested, if_neg congested]
      refine ⟨0, rfl, ?_, .inl rfl⟩
      rw [first]
      simp [credit, fair]
  · have none : fair = 0 := if_neg shares
    refine ⟨0, ?_, ?_, .inl rfl⟩
    · rw [none, Nat.floor_zero]
      exact if_neg shares
    · rw [rbdc_of_not_shares run shares, found]
      simp [credit, none]

end Group

/-- The packets of the terminals are those that the allocation records. -/
theorem sum_grants_rbdc : run.computeDamaRbdcPerCarrier.grants.sum =
    run.grants.sum + (run.inCarriersGroup.map run.rbdcGranted).sum := by
  have given {body : Allocation → Nat → Allocation}
      (follows : ∀ run i, ∃ granted, Follows run (body run i) granted) (mid : Allocation) (i : Nat) :
      (body mid i).grants.sum = mid.grants.sum + turnPackets body mid i := by
    obtain ⟨granted, followed⟩ := follows mid i
    rw [turnPackets_eq followed, followed.grants, List.sum_append]
  have rbdcShare_follows (mid : Allocation) (i : Nat) :
      ∃ granted, Follows mid (run.rbdcShare mid i) granted := rbdcInteger_follows _ _ mid i
  have asked : run.rbdcAsked.1.grants = run.grants := by
    have same := (rbdcRequests_follows run.start run.start.inCarriersGroup).grants
    rw [List.append_nil] at same
    exact same
  have first : run.rbdcFirst.grants.sum = run.grants.sum + (run.inCarriersGroup.map
      (gained run.rbdcShare (turnPackets run.rbdcShare) run.rbdcAsked.1.resetAlloc
        run.start.inCarriersGroup)).sum := by
    rw [← asked]
    exact sum_gained (t := fun mid : Allocation => mid.grants.sum) (inCarriersGroup_nodup run.start)
      (given rbdcShare_follows)
  have perm := run.rbdcOrder_perm
  have second : run.rbdcSecond.grants.sum = run.rbdcFirst.grants.sum + (run.inCarriersGroup.map
      (gained rbdcExtra (turnPackets rbdcExtra) run.rbdcFirst run.rbdcOrder)).sum := by
    rw [rbdcSecond, sum_gained (t := fun mid : Allocation => mid.grants.sum)
      (perm.nodup_iff.mpr (inCarriersGroup_nodup run.start)) (given rbdcExtra_follows)]
    exact congrArg (_ + ·) (perm.map _).sum_eq
  by_cases shares : run.SharesRbdc
  · rw [computeDamaRbdcPerCarrier_eq, if_neg shares.1, if_neg shares.2]
    by_cases congested : 1 < run.rbdcRatio
    · have granted : run.rbdcGranted = fun i =>
          gained run.rbdcShare (turnPackets run.rbdcShare) run.rbdcAsked.1.resetAlloc
            run.start.inCarriersGroup i +
          gained rbdcExtra (turnPackets rbdcExtra) run.rbdcFirst run.rbdcOrder i := by
        funext i
        rw [rbdcGranted, if_pos shares, if_pos congested]
      rw [granted, List.sum_map_add, ← Nat.add_assoc, ← first, if_pos congested]
      exact second
    · have granted : run.rbdcGranted = gained run.rbdcShare (turnPackets run.rbdcShare)
          run.rbdcAsked.1.resetAlloc run.start.inCarriersGroup := by
        funext i
        rw [rbdcGranted, if_pos shares, if_neg congested, Nat.add_zero]
      rw [granted, if_neg congested]
      exact first
  · have granted : run.rbdcGranted = fun _ => 0 := funext fun i => if_neg shares
    rw [granted, List.map_const', List.sum_replicate, nsmul_zero, Nat.add_zero,
      computeDamaRbdcPerCarrier_eq]
    split
    · rfl
    · split
      · rw [asked]
      next some_left some_asked => exact absurd ⟨some_left, some_asked⟩ shares

end OpenSand.Allocation
