import OpenSand.Dama.CapacityAccounting

/-!
The end of the FCA distribution.

A turn of the loop over the terminals of a group serves the terminal it is at and passes to
the next one, except when this terminal has no FMT definition: then nothing changes and the
next turn is the same. So the loop ends exactly when the capacity is exhausted before the
first terminal without a definition, and then after one turn for each terminal at most.
-/

namespace OpenSand.Allocation

open OpenSand.Word

/-- The definition of the terminal at a position. -/
def fmtAt (run : Allocation) (i : Nat) : Option FmtDefinition :=
  (run.terminals[i]?).bind (·.fmt)

/-- The packets that the FCA rate is for a terminal. -/
def fcaPktpf (run : Allocation) (i : Nat) : Nat :=
  (run.fmtAt i).elim 0 fun fmt =>
    run.ctrl.converter.kbpsToPktpf (fmt.addFec run.ctrl.fcaKbps)

/-- The capacity is exhausted before any terminal without a definition. -/
def SpentBefore (run : Allocation) (capacity : Nat) (tal : List Nat) : Prop :=
  ∀ before i after, tal = before ++ i :: after → run.fmtAt i = none →
    capacity ≤ (before.map run.fcaPktpf).sum

/-- The terminals of the group in the order they are served in exhaust the remaining capacity
before any of them without a definition. -/
def FcaSpent (run : Allocation) : Prop :=
  run.SpentBefore (wrap 16 run.carriers.remainingCapacity)
    (run.sortBy TerminalContextDamaRcs.creditOrder run.inCarriersGroup)

/-- The distribution is over after one turn for each terminal of the group at most. -/
def FcaEnds (run : Allocation) : Prop :=
  ∃ fuel ≤ run.inCarriersGroup.length, (run.computeDamaFcaPerCarrier fuel).2 = true

variable {run : Allocation} {i capacity : Nat} {tal : List Nat} {fmt : FmtDefinition}

/-! ### The condition, terminal after terminal -/

theorem spentBefore_nil : run.SpentBefore capacity [] := by
  intro before i after split
  exact absurd split (List.append_ne_nil_of_right_ne_nil before (List.cons_ne_nil i after)).symm

theorem spentBefore_of_zero : run.SpentBefore 0 tal := fun _ _ _ _ _ => Nat.zero_le _

theorem spentBefore_cons_of_none (none : run.fmtAt i = none) :
    run.SpentBefore capacity (i :: tal) ↔ capacity = 0 := by
  constructor
  · intro spent
    exact Nat.le_zero.mp (spent [] i tal rfl none)
  · rintro rfl
    exact spentBefore_of_zero

theorem spentBefore_cons_of_some (served : run.fmtAt i = some fmt) :
    run.SpentBefore capacity (i :: tal) ↔ run.SpentBefore (capacity - run.fcaPktpf i) tal := by
  constructor
  · intro spent before j after split none
    have le := spent (i :: before) j after (congrArg (i :: ·) split) none
    rw [List.map_cons, List.sum_cons] at le
    omega
  · intro spent before j after split none
    cases before with
    | nil =>
        cases split
        rw [served] at none
        cases none
    | cons first before =>
        obtain ⟨rfl, later⟩ := List.cons.inj split
        have le := spent before j after later none
        rw [List.map_cons, List.sum_cons]
        omega

/-! ### One turn -/

theorem fmtAt_fcaTerminal (j : Nat) : (run.fcaTerminal i fmt).fmtAt j = run.fmtAt j := by
  have same := fmtsAt_fcaTerminal run i fmt [j]
  simp only [fmtsAt, List.filterMap_cons, List.filterMap_nil] at same
  unfold fmtAt
  cases before : (run.terminals[j]?).bind (·.fmt) <;>
    cases after : ((run.fcaTerminal i fmt).terminals[j]?).bind (·.fmt) <;>
    simp_all

theorem fcaPktpf_fcaTerminal (j : Nat) :
    (run.fcaTerminal i fmt).fcaPktpf j = run.fcaPktpf j := by
  unfold fcaPktpf
  rw [fmtAt_fcaTerminal]
  rfl

theorem spentBefore_fcaTerminal :
    (run.fcaTerminal i fmt).SpentBefore capacity tal ↔ run.SpentBefore capacity tal := by
  have same : (run.fcaTerminal i fmt).fcaPktpf = run.fcaPktpf := funext fcaPktpf_fcaTerminal
  simp only [SpentBefore, fmtAt_fcaTerminal, same]

/-- A terminal that is served takes its FCA, or all that is left. -/
theorem fcaTerminal_remaining (word : run.remainingPktpf < 2 ^ 16)
    (served : run.fmtAt i = some fmt) :
    (run.fcaTerminal i fmt).remainingPktpf = run.remainingPktpf - run.fcaPktpf i := by
  have fca : run.fcaPktpf i = run.ctrl.converter.kbpsToPktpf (fmt.addFec run.ctrl.fcaKbps) := by
    unfold fcaPktpf
    rw [served]
    rfl
  rw [(fcaTerminal_charges run i fmt rfl).2, ← fca, subW_of_le word (Nat.min_le_right _ _)]
  omega

/-- No turn passes a terminal without a definition. -/
theorem fcaTerminals_stuck (none : run.fmtAt i = none) (fuel : Nat) :
    fcaTerminals fuel run (i :: tal) = (run, i :: tal) := by
  induction fuel with
  | zero => rfl
  | succ fuel ih =>
      unfold fmtAt at none
      rw [fcaTerminals, none]
      split
      · exact ih
      · rfl

/-! ### The loop -/

/-- The loop over some terminals is over. -/
def FcaOver (result : Allocation × List Nat) : Prop :=
  result.2 = [] ∨ result.1.remainingPktpf = 0

theorem fcaTerminals_over (fuel : Nat) (word : run.remainingPktpf < 2 ^ 16)
    (spent : run.SpentBefore run.remainingPktpf tal) (enough : tal.length ≤ fuel) :
    FcaOver (fcaTerminals fuel run tal) := by
  induction tal generalizing run fuel with
  | nil =>
      left
      cases fuel <;> rfl
  | cons i tal ih =>
      obtain ⟨fuel, rfl⟩ := Nat.exists_eq_add_of_le' (Nat.one_le_of_lt enough)
      rw [fcaTerminals]
      split
      next left =>
        cases served : run.fmtAt i with
        | none => exact absurd ((spentBefore_cons_of_none served).mp spent) (Nat.ne_of_gt left)
        | some fmt =>
            change run.terminals[i]?.bind (·.fmt) = some fmt at served
            rw [served]
            have remaining := fcaTerminal_remaining word served
            refine ih fuel ?_ ?_ (Nat.le_of_succ_le_succ enough)
            · rw [remaining]
              exact lt_of_le_of_lt (Nat.sub_le _ _) word
            · rw [spentBefore_fcaTerminal, remaining]
              exact (spentBefore_cons_of_some served).mp spent
      next exhausted => exact .inr (Nat.le_zero.mp (Nat.not_lt.mp exhausted))

theorem spent_of_fcaTerminals_over (fuel : Nat) (word : run.remainingPktpf < 2 ^ 16)
    (ended : FcaOver (fcaTerminals fuel run tal)) :
    run.SpentBefore run.remainingPktpf tal := by
  induction tal generalizing run fuel with
  | nil => exact spentBefore_nil
  | cons i tal ih =>
      cases served : run.fmtAt i with
      | none =>
          rw [fcaTerminals_stuck served] at ended
          rcases ended with passed | exhausted
          · cases passed
          · rw [exhausted]
            exact spentBefore_of_zero
      | some fmt =>
          cases fuel with
          | zero =>
              rcases ended with passed | exhausted
              · cases passed
              · change run.remainingPktpf = 0 at exhausted
                rw [exhausted]
                exact spentBefore_of_zero
          | succ fuel =>
              have served' : run.terminals[i]?.bind (·.fmt) = some fmt := served
              rw [fcaTerminals, served'] at ended
              split at ended
              next left =>
                have remaining := fcaTerminal_remaining word served
                have word' : (run.fcaTerminal i fmt).remainingPktpf < 2 ^ 16 := by
                  rw [remaining]
                  exact lt_of_le_of_lt (Nat.sub_le _ _) word
                have spent := ih fuel word' ended
                rw [spentBefore_fcaTerminal, remaining] at spent
                exact (spentBefore_cons_of_some served).mpr spent
              next exhausted =>
                rw [Nat.le_zero.mp (Nat.not_lt.mp exhausted)]
                exact spentBefore_of_zero

/-! ### The distribution -/

theorem computeDamaFcaPerCarrier_over (fuel : Nat) :
    (run.computeDamaFcaPerCarrier fuel).2 = true ↔
      run.inCarriersGroup = [] ∨ run.start.remainingPktpf = 0 ∨
        FcaOver (fcaTerminals fuel run.start
          (run.sortBy TerminalContextDamaRcs.creditOrder run.inCarriersGroup)) := by
  unfold computeDamaFcaPerCarrier FcaOver
  dsimp only
  split
  next early =>
    refine ⟨fun _ => ?_, fun _ => rfl⟩
    rcases early with nobody | exhausted
    · exact .inl nobody
    · exact .inr (.inl exhausted)
  next late =>
    have late' := not_or.mp late
    split
    next ended => exact ⟨fun _ => .inr (.inr ended), fun _ => rfl⟩
    next running =>
      refine ⟨fun ended => absurd ended (by simp), ?_⟩
      rintro (nobody | exhausted | ended)
      · exact absurd nobody late'.1
      · exact absurd exhausted late'.2
      · exact absurd ended running

theorem fcaSpent_of_over {fuel : Nat} (ended : (run.computeDamaFcaPerCarrier fuel).2 = true) :
    run.FcaSpent := by
  unfold FcaSpent
  rcases (computeDamaFcaPerCarrier_over fuel).mp ended with nobody | exhausted | ended
  · rw [nobody]
    unfold sortBy
    rw [List.mergeSort_nil]
    exact spentBefore_nil
  · change wrap 16 run.carriers.remainingCapacity = 0 at exhausted
    rw [exhausted]
    exact spentBefore_of_zero
  · exact spent_of_fcaTerminals_over fuel run.start_lt ended

/-- The distribution ends, after one turn for each terminal at most, exactly when the capacity
is exhausted before any terminal without a definition. Otherwise no number of turns is
enough. -/
theorem fcaEnds_iff (run : Allocation) :
    (run.FcaEnds ↔ run.FcaSpent) ∧
      (¬ run.FcaSpent → ∀ fuel, (run.computeDamaFcaPerCarrier fuel).2 = false) := by
  refine ⟨⟨fun ⟨fuel, _, ended⟩ => fcaSpent_of_over ended, fun spent => ?_⟩, ?_⟩
  · refine ⟨_, le_rfl, (computeDamaFcaPerCarrier_over _).mpr (.inr (.inr ?_))⟩
    refine fcaTerminals_over _ run.start_lt spent ?_
    exact (List.length_mergeSort _).le
  · intro unspent fuel
    apply Bool.eq_false_of_not_eq_true
    exact fun ended => unspent (fcaSpent_of_over ended)

/-- With a single terminal, which has no definition, and capacity left, the loop does not
end. -/
theorem not_fcaEnds : ¬ ∀ run : Allocation, run.FcaEnds := by
  intro ends
  let terminal : TerminalContextDamaRcs := ⟨1, 1, none, 0, 0, 0, 0, 0, 0, 0, 0, 0, 0, 0, 0⟩
  let run : Allocation :=
    { ctrl := ⟨⟨10, 100, 2⟩, 64, 0, fun _ => 0, fun _ _ => 0⟩
      label := "Standard"
      terminals := [terminal]
      carriers := ⟨1, ⟨[], Std.TreeMap.empty⟩, 1000, 1, 100, 0, 0⟩
      remainingPktpf := 0
      request := 0
      alloc := 0
      grants := [] }
  obtain ⟨fuel, -, ended⟩ := ends run
  have spent := fcaSpent_of_over ended
  have order : run.sortBy TerminalContextDamaRcs.creditOrder run.inCarriersGroup = [0] :=
    List.mergeSort_singleton 0
  have none : run.fmtAt 0 = none := rfl
  have le : 100 ≤ 0 := spent [] 0 [] order none
  omega

end OpenSand.Allocation
