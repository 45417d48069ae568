import OpenSand.Dama.RbdcExpiry
import OpenSand.Dama.RbdcWords
import OpenSand.Dama.TerminalsChange
import Mathlib.Tactic.LinearCombination

/-!
The RBDC of the terminals against their maximum, their request and their credit.

The first step looks neither at the maximum nor at the CRA, so the two are kept apart exactly
when the fair share leaves room for the CRA. The packets and the credit of a terminal add up to
its fair shares but for what each step loses: the credit of a fraction of a packet is counted at
another rate than the packet itself, and the requests and the resets take credit away.
-/

namespace OpenSand

open OpenSand.Run Allocation

/-- What happens to the controller between two allocations, and the allocations on the groups. -/
inductive DamaMove where
  | sac (talId : Nat) (requests : List DecodedCr)
  | prepare (waveForms : Nat → Nat × Option FmtDefinition)
  | allocate (allocation : GroupAllocation)

/-- The rates of the packets that a terminal was granted and of its fair shares, and the credit
that it should have but for them. -/
structure RbdcEntry where
  allocated : ℚ
  fair : ℚ
  drift : ℚ

namespace DamaCtrlRcs2Legacy

/-- The terminal at a position of a category. -/
def terminalAt (legacy : DamaCtrlRcs2Legacy) (c i : Nat) : Option TerminalContextDamaRcs :=
  (legacy.categories[c]?).bind (·.terminals[i]?)

def packetFormat (legacy : DamaCtrlRcs2Legacy) : Nat × Nat :=
  (legacy.ctrl.converter.frameDurationMs, legacy.ctrl.converter.packetLengthSym)

def move (isGw : Nat → Bool) (legacy : DamaCtrlRcs2Legacy) :
    DamaMove → Option DamaCtrlRcs2Legacy
  | .sac talId requests => legacy.hereIsSAC isGw talId requests
  | .prepare waveForms => some (legacy.prepare waveForms).2
  | .allocate allocation => legacy.allocateGroup allocation

/-- The credit that a terminal loses otherwise than for a packet: all of it on a new request, and
what the reset of a superframe takes. -/
def creditTaken (legacy : DamaCtrlRcs2Legacy) (terminal : TerminalContextDamaRcs) : DamaMove → ℚ
  | .sac talId requests =>
      if terminal.talId = talId ∧ requests.any (·.type = some .damaRbdc) then terminal.rbdcCredit
      else 0
  | .prepare waveForms =>
      terminal.rbdcCredit - (TerminalContextDamaRcs.reset legacy.ctrl.converter { terminal with
        carrierId := (waveForms terminal.talId).1
        fmt := (waveForms terminal.talId).2 }).2.rbdcCredit
  | .allocate _ => 0

end DamaCtrlRcs2Legacy

/-- The controller with an entry for each terminal. -/
structure RbdcLedger where
  legacy : DamaCtrlRcs2Legacy
  entry : Nat → Nat → RbdcEntry

/-- The terminal at a position of a group, with its FMT definition, when it is served. -/
def Allocation.served (run : Allocation) (i : Nat) :
    Option (TerminalContextDamaRcs × FmtDefinition) :=
  if i ∈ run.inCarriersGroup then
    (run.terminalAt i).bind fun terminal => terminal.fmt.map fun fmt => (terminal, fmt)
  else none

/-- An allocation of RBDC in the entry of a terminal. -/
def RbdcEntry.allocate (run : Allocation) (i : Nat) (entry : RbdcEntry) : RbdcEntry :=
  match run.served i with
  | none => entry
  | some (terminal, fmt) =>
      let fair := run.fairRbdcPktpf fmt terminal.rbdcRequestKbps
      { allocated := entry.allocated + run.rbdcGranted i * slotKbps run.packetFormat fmt
        fair := entry.fair + fair * slotKbps run.packetFormat fmt
        drift := entry.drift + (fair - ⌊fair⌋₊) *
          (creditKbps run.packetFormat fmt - slotKbps run.packetFormat fmt) }

namespace RbdcLedger

/-- The entry of a terminal after a move. -/
def nextEntry (ledger : RbdcLedger) (move : DamaMove) (c i : Nat) : RbdcEntry :=
  match move with
  | .allocate (.rbdc position) =>
      match ledger.legacy.group position with
      | none => ledger.entry c i
      | some run =>
          if position.1 = c then RbdcEntry.allocate run i (ledger.entry c i) else ledger.entry c i
  | move =>
      { ledger.entry c i with
        drift := (ledger.entry c i).drift -
          ((ledger.legacy.terminalAt c i).map fun terminal =>
            ledger.legacy.creditTaken terminal move).getD 0 }

def step (isGw : Nat → Bool) (ledger : RbdcLedger) (move : DamaMove) : Option RbdcLedger :=
  (ledger.legacy.move isGw move).map fun legacy => ⟨legacy, ledger.nextEntry move⟩

/-- Nothing was allocated yet; the credit that terminals have at first is theirs. -/
def start (legacy : DamaCtrlRcs2Legacy) : RbdcLedger where
  legacy := legacy
  entry c i := ⟨0, 0, ((legacy.terminalAt c i).map (·.rbdcCredit)).getD 0⟩

end RbdcLedger

/-! ### The terminals after a move -/

namespace DamaCtrlRcs2Legacy

variable {isGw : Nat → Bool} {legacy legacy' : DamaCtrlRcs2Legacy} {position : Nat × Nat}
  {run : Allocation} {c i : Nat} {terminal : TerminalContextDamaRcs}

theorem Changes.terminalAt {R : Nat → TerminalContextDamaRcs → TerminalContextDamaRcs → Prop}
    (h : Changes R legacy legacy') (found : legacy'.terminalAt c i = some terminal) :
    ∃ before, legacy.terminalAt c i = some before ∧ R c before terminal := by
  obtain ⟨category', categoryAt', found'⟩ := Option.bind_eq_some_iff.mp found
  obtain ⟨category, categoryAt, changed⟩ := Pointwise.getElem? h categoryAt'
  obtain ⟨before, beforeAt, related⟩ := Pointwise.getElem? changed found'
  refine ⟨before, ?_, related⟩
  rw [DamaCtrlRcs2Legacy.terminalAt, categoryAt]
  exact beforeAt

theorem group_terminalAt (found : legacy.group position = some run) (i : Nat) :
    run.terminalAt i = legacy.terminalAt position.1 i := by
  obtain ⟨category, categoryAt, carriers, -, rfl⟩ := group_eq_some_iff.mp found
  rw [DamaCtrlRcs2Legacy.terminalAt, categoryAt]
  rfl

theorem store_terminalAt (found : legacy.group position = some run) (run' : Allocation)
    (c i : Nat) : (legacy.store position run').terminalAt c i =
      if position.1 = c then run'.terminalAt i else legacy.terminalAt c i := by
  obtain ⟨category, categoryAt, carriers, -, rfl⟩ := group_eq_some_iff.mp found
  unfold DamaCtrlRcs2Legacy.terminalAt store
  dsimp only
  split
  next same =>
    rw [← same, List.getElem?_modify_eq, categoryAt]
    rfl
  next other => rw [List.getElem?_modify_ne _ _ other]

/-- Terminals with different identifiers have different ones on a group. -/
theorem group_onGroup_nodup (different : (legacy.terminals.map (·.talId)).Nodup)
    (found : legacy.group position = some run) : (run.onGroup.map (·.talId)).Nodup := by
  obtain ⟨category, categoryAt, carriers, -, rfl⟩ := group_eq_some_iff.mp found
  have among : List.Sublist category.terminals legacy.terminals :=
    List.sublist_flatten_of_mem (List.mem_map_of_mem (List.mem_of_getElem? categoryAt))
  have here : (category.terminals.map (·.talId)).Nodup := different.sublist (among.map _)
  refine List.Nodup.sublist ?_ here
  unfold Allocation.onGroup Allocation.demands
  have kept := List.Sublist.map (·.talId) (List.filter_sublist
    (p := fun demand : Demand => demand.carrierId = carriers.carriersId)
    (l := category.terminals.map (·.demand)))
  rw [List.map_map] at kept
  exact kept

/-- A new request starts the credit again. -/
theorem foldl_hereIsRequest_rbdcCredit (requests : List DecodedCr)
    (terminal : TerminalContextDamaRcs) :
    (requests.foldl TerminalContextDamaRcs.hereIsRequest terminal).rbdcCredit =
      if requests.any (·.type = some .damaRbdc) then 0 else terminal.rbdcCredit := by
  induction requests generalizing terminal with
  | nil => rfl
  | cons cr requests ih =>
      rw [List.foldl_cons, ih, List.any_cons]
      by_cases later : requests.any (·.type = some .damaRbdc) = true
      · rw [if_pos later, later, Bool.or_true, if_pos rfl]
      · rw [if_neg later, Bool.eq_false_of_not_eq_true later, Bool.or_false]
        unfold TerminalContextDamaRcs.hereIsRequest
        split
        next vbdc => rw [vbdc]; rfl
        next rbdc => rw [rbdc]; rfl
        next neither => rw [if_neg (by simpa using neither)]

/-- A capacity request changes the terminals with the identifier only. -/
theorem hereIsSAC_changes {talId : Nat} {requests : List DecodedCr}
    (received : legacy.hereIsSAC isGw talId requests = some legacy') :
    Changes (fun _ before after => after.talId = before.talId ∧
      after.rbdcCredit = before.rbdcCredit - legacy.creditTaken before (.sac talId requests))
      legacy legacy' := by
  unfold hereIsSAC at received
  dsimp only at received
  split at received
  next known =>
    cases received
    refine mapTerminals_changes fun _ terminal _ => ?_
    unfold creditTaken
    dsimp only
    split
    next same =>
      rw [foldl_hereIsRequest_rbdcCredit]
      refine ⟨TerminalContextDamaRcs.foldl_hereIsRequest_talId requests terminal, ?_⟩
      by_cases asked : requests.any (·.type = some .damaRbdc) = true
      · rw [if_pos asked, if_pos ⟨same, asked⟩, sub_self]
      · rw [if_neg asked, if_neg fun both => asked both.2, sub_zero]
    next other =>
      rw [if_neg fun both => other both.1, sub_zero]
      exact ⟨rfl, rfl⟩
  next unknown =>
    split at received
    · cases received
    · cases received
      refine Pointwise.refl _ fun c category mem => Pointwise.refl _ fun i terminal on => ?_
      unfold creditTaken
      dsimp only
      rw [if_neg, sub_zero]
      · exact ⟨rfl, rfl⟩
      · rintro ⟨same, -⟩
        apply unknown
        exact List.any_eq_true.mpr ⟨terminal, List.mem_flatMap.mpr ⟨category, mem, on⟩,
          decide_eq_true same⟩

/-- The allocations but the RBDC leave the credits alone. -/
theorem allocateGroup_credit {allocation : GroupAllocation}
    (other : ∀ position, allocation ≠ .rbdc position)
    (taken : legacy.allocateGroup allocation = some legacy') :
    Changes (fun _ before after => after.talId = before.talId ∧
      after.rbdcCredit = before.rbdcCredit) legacy legacy' := by
  let R (before after : TerminalContextDamaRcs) : Prop :=
    after.talId = before.talId ∧ after.rbdcCredit = before.rbdcCredit
  have refl (terminal : TerminalContextDamaRcs) : R terminal terminal := ⟨rfl, rfl⟩
  have trans (first second third : TerminalContextDamaRcs) (h : R first second)
      (h' : R second third) : R first third := ⟨h'.1.trans h.1, h'.2.trans h.2⟩
  have weaker (c position : Nat) (before after : TerminalContextDamaRcs)
      (h : after = before ∨ c = position ∧ R before after) : R before after := by
    rcases h with rfl | ⟨-, related⟩
    · exact refl after
    · exact related
  cases allocation with
  | cra position =>
      cases taken
      exact (onGroup_changes fun run _ => computeDamaCraPerCarrier_changes refl trans
        (fun _ _ => ⟨rfl, rfl⟩) run).mono fun c => weaker c _
  | rbdc position => exact absurd rfl (other position)
  | vbdc position =>
      cases taken
      exact (onGroup_changes fun run _ => computeDamaVbdcPerCarrier_changes refl trans
        (fun _ _ => ⟨rfl, rfl⟩) run).mono fun c => weaker c _
  | fca fuel position =>
      unfold allocateGroup at taken
      dsimp only at taken
      split at taken
      next =>
        cases taken
        exact Changes.refl (fun _ => refl) legacy
      next run found =>
        split at taken
        next =>
          cases taken
          exact (store_changes found (computeDamaFcaPerCarrier_changes refl trans
            (fun _ _ => ⟨rfl, rfl⟩) fuel run)).mono fun c => weaker c _
        next => cases taken

/-- A move that allocates no RBDC takes credit from the terminals. -/
theorem move_changes {move : DamaMove} (other : ∀ position, move ≠ .allocate (.rbdc position))
    (taken : legacy.move isGw move = some legacy') :
    Changes (fun _ before after => after.talId = before.talId ∧
      after.rbdcCredit = before.rbdcCredit - legacy.creditTaken before move) legacy legacy' := by
  cases move with
  | sac talId requests => exact hereIsSAC_changes taken
  | prepare waveForms =>
      cases taken
      refine (prepare_changes waveForms).mono ?_
      rintro _ before after rfl
      refine ⟨(TerminalContextDamaRcs.reset_spec _ _).1, ?_⟩
      rw [creditTaken, sub_sub_cancel]
  | allocate allocation =>
      refine (allocateGroup_credit (fun position same => ?_) taken).mono ?_
      · exact other position (congrArg DamaMove.allocate same)
      · rintro _ before after ⟨talId, credit⟩
        exact ⟨talId, credit.trans (sub_zero _).symm⟩

/-- The RBDC of a group changes the terminals of its category. -/
theorem move_rbdc (taken : legacy.move isGw (.allocate (.rbdc position)) = some legacy') :
    (legacy.group position = none ∧ legacy' = legacy) ∨
      ∃ run, legacy.group position = some run ∧ ∀ c i, legacy'.terminalAt c i =
        if position.1 = c then run.computeDamaRbdcPerCarrier.terminalAt i
        else legacy.terminalAt c i := by
  cases taken
  cases found : legacy.group position with
  | none => exact .inl ⟨rfl, onGroup_of_none found⟩
  | some run =>
      refine .inr ⟨run, rfl, fun c i => ?_⟩
      rw [onGroup_of_some found]
      exact store_terminalAt found _ c i

theorem move_talIds {move : DamaMove} (taken : legacy.move isGw move = some legacy') :
    legacy'.terminals.map (·.talId) = legacy.terminals.map (·.talId) := by
  have changed : Changes (fun _ before after => after.talId = before.talId) legacy legacy' := by
    by_cases rbdc : ∃ position, move = .allocate (.rbdc position)
    · obtain ⟨position, rfl⟩ := rbdc
      have allocated : legacy.allocateGroup (.rbdc position) = some legacy' := taken
      refine allocateGroup_changes (fun _ => rfl) (fun _ _ _ h h' => h'.trans h) (fun _ _ => rfl)
        (fun _ _ => rfl) (fun _ _ => rfl) ?_ (fun _ _ => rfl) allocated
      rintro ⟨_, same⟩
      cases same
    · exact (move_changes (fun position same => rbdc ⟨position, same⟩) taken).mono
        fun _ _ _ related => related.1
  have mapped : List.Forall₂ Eq (legacy'.terminals.map (·.talId))
      (legacy.terminals.map (·.talId)) := by
    rw [List.forall₂_map_left_iff, List.forall₂_map_right_iff]
    exact changed.terminals.flip
  rw [List.forall₂_eq_eq_eq] at mapped
  exact mapped

end DamaCtrlRcs2Legacy

/-! ### The law of the entries -/

namespace Allocation

variable {run : Allocation} {i : Nat} {terminal : TerminalContextDamaRcs} {fmt : FmtDefinition}

theorem served_eq_some_iff : run.served i = some (terminal, fmt) ↔
    i ∈ run.inCarriersGroup ∧ run.terminalAt i = some terminal ∧ terminal.fmt = some fmt := by
  unfold served
  split
  next mem =>
    simp only [Option.bind_eq_some_iff, Option.map_eq_some_iff, Prod.mk.injEq]
    constructor
    · rintro ⟨terminal, found, fmt, served, rfl, rfl⟩
      exact ⟨mem, found, served⟩
    · rintro ⟨-, found, served⟩
      exact ⟨terminal, found, fmt, served, rfl, rfl⟩
  next notMem => simp [notMem]

theorem not_served_of_none (skipped : run.served i = none) (mem : i ∈ run.inCarriersGroup)
    (terminal : TerminalContextDamaRcs) (found : run.terminalAt i = some terminal) :
    terminal.fmt = none := by
  cases served : terminal.fmt with
  | none => rfl
  | some fmt =>
      have some := served_eq_some_iff.mpr ⟨mem, found, served⟩
      rw [skipped] at some
      cases some

/-- The entry of a terminal accounts for its credit after an allocation. -/
theorem entry_allocate (nodup : (run.onGroup.map (·.talId)).Nodup) {entry : RbdcEntry}
    {after : TerminalContextDamaRcs} (found : run.terminalAt i = some terminal)
    (foundAfter : run.computeDamaRbdcPerCarrier.terminalAt i = some after)
    (law : entry.allocated + terminal.rbdcCredit - entry.fair = entry.drift) :
    (entry.allocate run i).allocated + after.rbdcCredit - (entry.allocate run i).fair =
      (entry.allocate run i).drift := by
  unfold RbdcEntry.allocate
  cases serves : run.served i with
  | none =>
      have same := (rbdc_of_not_served (not_served_of_none serves)).1
      rw [foundAfter, found] at same
      cases same
      exact law
  | some pair =>
      obtain ⟨terminal', fmt⟩ := pair
      obtain ⟨mem, found', served⟩ := served_eq_some_iff.mp serves
      rw [found] at found'
      cases found'
      obtain ⟨extra, granted, credit, -⟩ := rbdc_served nodup mem found served
      rw [foundAfter] at credit
      have credit := Option.some.inj credit
      dsimp only at credit ⊢
      rw [credit, granted]
      push_cast
      linear_combination law

end Allocation

namespace RbdcLedger

variable {isGw : Nat → Bool} {ledger ledger' : RbdcLedger} {move : DamaMove}

/-- The packets and the credit of a terminal are its fair shares and the drift. -/
structure Accounted (ledger : RbdcLedger) : Prop where
  different : (ledger.legacy.terminals.map (·.talId)).Nodup
  credit : ∀ c i terminal, ledger.legacy.terminalAt c i = some terminal →
    (ledger.entry c i).allocated + terminal.rbdcCredit - (ledger.entry c i).fair =
      (ledger.entry c i).drift

theorem nextEntry_of_other (other : ∀ position, move ≠ .allocate (.rbdc position)) (c i : Nat) :
    ledger.nextEntry move c i = { ledger.entry c i with
      drift := (ledger.entry c i).drift - ((ledger.legacy.terminalAt c i).map fun terminal =>
        ledger.legacy.creditTaken terminal move).getD 0 } := by
  unfold nextEntry
  split
  next position => exact absurd rfl (other position)
  next => rfl

theorem step_accounted (accounted : ledger.Accounted)
    (taken : ledger.step isGw move = some ledger') : ledger'.Accounted := by
  obtain ⟨legacy', moved, rfl⟩ := Option.map_eq_some_iff.mp taken
  refine ⟨?_, ?_⟩
  · rw [DamaCtrlRcs2Legacy.move_talIds moved]
    exact accounted.different
  · intro c i after found
    dsimp only at found ⊢
    by_cases rbdc : ∃ position, move = .allocate (.rbdc position)
    · obtain ⟨position, rfl⟩ := rbdc
      unfold nextEntry
      dsimp only
      rcases DamaCtrlRcs2Legacy.move_rbdc moved with ⟨none, rfl⟩ | ⟨run, group, terminals⟩
      · rw [none]
        exact accounted.credit c i after found
      · rw [group]
        rw [terminals c i] at found
        dsimp only
        split
        next same =>
          subst same
          rw [if_pos rfl] at found
          have nodup := DamaCtrlRcs2Legacy.group_onGroup_nodup accounted.different group
          have kept : Allocation.Changes (fun _ _ => True) run run.computeDamaRbdcPerCarrier :=
            computeDamaRbdcPerCarrier_changes (fun _ => trivial) (fun _ _ _ _ _ => trivial)
              (fun _ _ => trivial) (fun _ _ => trivial) run
          obtain ⟨before, foundBefore, -⟩ := Pointwise.getElem? kept found
          have law := accounted.credit position.1 i before
            ((DamaCtrlRcs2Legacy.group_terminalAt group i).symm.trans foundBefore)
          exact entry_allocate nodup foundBefore found law
        next other =>
          rw [if_neg other] at found
          exact accounted.credit c i after found
    · have other (position : Nat × Nat) : move ≠ .allocate (.rbdc position) :=
        fun same => rbdc ⟨position, same⟩
      obtain ⟨before, foundBefore, -, credit⟩ :=
        (DamaCtrlRcs2Legacy.move_changes other moved).terminalAt found
      rw [nextEntry_of_other other, foundBefore]
      dsimp only [Option.map_some, Option.getD_some]
      rw [credit]
      linear_combination accounted.credit c i before foundBefore

theorem start_accounted (legacy : DamaCtrlRcs2Legacy)
    (different : (legacy.terminals.map (·.talId)).Nodup) : (start legacy).Accounted where
  different := different
  credit := by
    intro c i terminal found
    change legacy.terminalAt c i = some terminal at found
    simp [start, found]

theorem allStates_accounted (legacy : DamaCtrlRcs2Legacy)
    (different : (legacy.terminals.map (·.talId)).Nodup) (moves : List DamaMove) :
    AllStates (step isGw) Accounted (start legacy) moves :=
  allStates_of_step (start_accounted legacy different) fun _ _ _ => step_accounted

/-! ### The maximum, the request and the credit -/

/-- The packets and the credit of every terminal are less than a packet away from its fair
shares. -/
def Balanced (ledger : RbdcLedger) : Prop :=
  ∀ c i terminal fmt, ledger.legacy.terminalAt c i = some terminal → terminal.fmt = some fmt →
    |(ledger.entry c i).allocated + terminal.rbdcCredit - (ledger.entry c i).fair| <
      slotKbps ledger.legacy.packetFormat fmt

/-- What was lost and counted twice is less than a packet. -/
def DriftsLittle (ledger : RbdcLedger) : Prop :=
  ∀ c i terminal fmt, ledger.legacy.terminalAt c i = some terminal → terminal.fmt = some fmt →
    |(ledger.entry c i).drift| < slotKbps ledger.legacy.packetFormat fmt

/-- What is asked of every terminal that the RBDC of a group serves. -/
def EachServed (ledger : RbdcLedger) (move : DamaMove)
    (property : Allocation → Nat → TerminalContextDamaRcs → FmtDefinition → Prop) : Prop :=
  ∀ position run i terminal fmt, move = .allocate (.rbdc position) →
    ledger.legacy.group position = some run → run.served i = some (terminal, fmt) →
      property run i terminal fmt

/-- The packets granted with the ones of the CRA are no more than those of the maximum, and no
more than the request. -/
def KeepsMaximum (ledger : RbdcLedger) (move : DamaMove) : Prop :=
  ledger.EachServed move fun run i terminal fmt =>
    run.rbdcGranted i + packets run.packetFormat fmt terminal.craAllocKbps ≤
        packets run.packetFormat fmt terminal.maxRbdcKbps ∧
      run.rbdcGranted i ≤ packets run.packetFormat fmt terminal.rbdcRequestKbps

/-- The fair share leaves room for the CRA. -/
def LeavesCra (ledger : RbdcLedger) (move : DamaMove) : Prop :=
  ledger.EachServed move fun run _ terminal fmt =>
    ⌊run.fairRbdcPktpf fmt terminal.rbdcRequestKbps⌋₊ +
        packets run.packetFormat fmt terminal.craAllocKbps ≤
      packets run.packetFormat fmt terminal.maxRbdcKbps

/-- What the second step tests before it grants a packet. -/
def SecondStepTests (run : Allocation) (terminal : TerminalContextDamaRcs) (fmt : FmtDefinition) :
    Prop :=
  let fair := run.fairRbdcPktpf fmt terminal.rbdcRequestKbps
  1 < run.rbdcRatio ∧
    (slotKbps run.packetFormat fmt : ℚ) <
      terminal.rbdcCredit + (fair - ⌊fair⌋₊) * creditKbps run.packetFormat fmt ∧
    (slotKbps run.packetFormat fmt : Int) <
      terminal.maxRbdcKbps - packetsRate run.packetFormat fmt ⌊fair⌋₊ - terminal.craAllocKbps

/-- A packet that passes the tests of the second step is within the maximum and the request. -/
def TestsEnough (ledger : RbdcLedger) (move : DamaMove) : Prop :=
  ledger.EachServed move fun run _ terminal fmt => SecondStepTests run terminal fmt →
    ⌊run.fairRbdcPktpf fmt terminal.rbdcRequestKbps⌋₊ + 1 +
        packets run.packetFormat fmt terminal.craAllocKbps ≤
      packets run.packetFormat fmt terminal.maxRbdcKbps ∧
    ⌊run.fairRbdcPktpf fmt terminal.rbdcRequestKbps⌋₊ + 1 ≤
      packets run.packetFormat fmt terminal.rbdcRequestKbps

theorem balanced_iff (accounted : ledger.Accounted) : ledger.Balanced ↔ ledger.DriftsLittle := by
  unfold Balanced DriftsLittle
  refine forall_congr' fun c => forall_congr' fun i => forall_congr' fun terminal =>
    forall_congr' fun fmt => forall_congr' fun found => ?_
  rw [add_sub_right_comm, ← accounted.credit c i terminal found, add_sub_right_comm]

theorem keepsMaximum_iff (accounted : ledger.Accounted) (enough : ledger.TestsEnough move) :
    ledger.KeepsMaximum move ↔ ledger.LeavesCra move := by
  unfold KeepsMaximum LeavesCra EachServed
  refine forall_congr' fun position => forall_congr' fun run => forall_congr' fun i =>
    forall_congr' fun terminal => forall_congr' fun fmt => forall_congr' fun same =>
    forall_congr' fun group => forall_congr' fun serves => ?_
  obtain ⟨mem, found, served⟩ := served_eq_some_iff.mp serves
  have nodup := DamaCtrlRcs2Legacy.group_onGroup_nodup accounted.different group
  obtain ⟨extra, granted, -, why⟩ := rbdc_served nodup mem found served
  have fair : ⌊run.fairRbdcPktpf fmt terminal.rbdcRequestKbps⌋₊ ≤ _ :=
    floor_fairRbdcPktpf_le terminal.rbdcRequestKbps
  dsimp only
  rw [granted]
  rcases why with rfl | ⟨rfl, -, tests⟩
  · exact ⟨fun kept => kept.1, fun leaves => ⟨leaves, fair⟩⟩
  · have fits := enough position run i terminal fmt same group serves tests
    refine ⟨fun _ => ?_, fun _ => fits⟩
    omega

/-- The tests of the second step are enough when the conversions do not overflow, and credit goes
with a request. -/
theorem testsEnough_of_fitsWords (fits : ledger.EachServed move fun run _ terminal fmt =>
    FitsWords run.packetFormat fmt terminal.maxRbdcKbps ∧
      terminal.rbdcRequestKbps ≤ terminal.maxRbdcKbps ∧
      (0 < terminal.rbdcCredit → 0 < terminal.rbdcRequestKbps)) : ledger.TestsEnough move := by
  intro position run i terminal fmt same group serves tests
  obtain ⟨words, le, asked⟩ := fits position run i terminal fmt same group serves
  obtain ⟨congested, credit, maximum⟩ := tests
  have floor := @floor_fairRbdcPktpf_le run fmt terminal.rbdcRequestKbps
  refine ⟨words.room (floor.trans (words.packets_mono le)) maximum, ?_⟩
  -- a terminal without request has no share, and so no credit
  have request : 0 < terminal.rbdcRequestKbps := by
    by_contra none
    have zero : terminal.rbdcRequestKbps = 0 := by omega
    have nothing : run.fairRbdcPktpf fmt terminal.rbdcRequestKbps = 0 := by
      unfold fairRbdcPktpf
      rw [zero, packets_zero]
      simp
    rw [nothing, Nat.floor_zero, Nat.cast_zero, sub_zero, zero_mul, add_zero] at credit
    exact none (asked ((Nat.cast_nonneg _).trans_lt credit))
  have packet := words.packets_pos le request
  have less : run.fairRbdcPktpf fmt terminal.rbdcRequestKbps <
      packets run.packetFormat fmt terminal.rbdcRequestKbps := by
    unfold fairRbdcPktpf
    split
    · apply div_lt_self
      · exact_mod_cast packet
      · exact congested
    · exact_mod_cast packet
  exact (Nat.floor_lt' packet.ne').mpr less

/-- A terminal of the group 0 at the coding rate 1/2, where a packet carries 5 kbit/s. -/
def halfRateTerminal (talId : Nat) : TerminalContextDamaRcs where
  talId := talId
  carrierId := 0
  fmt := some ⟨1, 1, 1 / 2, "1/2", 1, 1⟩
  craRequestKbps := 0
  maxRbdcKbps := 100
  rbdcTimeoutSf := 10
  maxVbdcKb := 0
  timerSf := 10
  rbdcRequestKbps := 5
  rbdcCredit := 0
  vbdcRequestKb := 0
  craAllocKbps := 0
  rbdcAllocKbps := 0
  vbdcAllocKb := 0
  fcaAllocKbps := 0

/-- Two terminals that request a packet each, and a packet to share. -/
def halfRateLegacy : DamaCtrlRcs2Legacy where
  ctrl := ⟨⟨10, 100, 1⟩, 0, 0, fun _ => 0, fun _ _ => 0⟩
  enableRbdc := true
  enableVbdc := false
  categories := [⟨"Standard", [halfRateTerminal 1, halfRateTerminal 2],
    [⟨0, ⟨[⟨1, 1⟩], ∅⟩, 100, 1, 1, 0, 0⟩]⟩]
  grants := fun _ => []

theorem halfRateLegacy_testsEnough : AllSteps (step fun _ => false) TestsEnough
    (start halfRateLegacy) [.allocate (.rbdc (0, 0))] := by
  refine fun _ _ => ⟨?_, trivial⟩
  intro position run i terminal fmt same group serves _
  cases same
  have checked : (halfRateLegacy.group (0, 0)).all (fun run => run.inCarriersGroup.all fun i =>
      (run.served i).all fun (terminal, fmt) =>
        decide (⌊run.fairRbdcPktpf fmt terminal.rbdcRequestKbps⌋₊ + 1 +
            packets run.packetFormat fmt terminal.craAllocKbps ≤
          packets run.packetFormat fmt terminal.maxRbdcKbps ∧
        ⌊run.fairRbdcPktpf fmt terminal.rbdcRequestKbps⌋₊ + 1 ≤
          packets run.packetFormat fmt terminal.rbdcRequestKbps)) = true := by
    decide +kernel
  rw [show halfRateLegacy.group (0, 0) = some run from group] at checked
  have each := List.all_eq_true.mp checked i (served_eq_some_iff.mp serves).1
  rw [serves] at each
  exact of_decide_eq_true each

end RbdcLedger

end OpenSand
