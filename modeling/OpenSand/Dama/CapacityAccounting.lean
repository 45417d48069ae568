import OpenSand.Dama.SuperframeSafety
import OpenSand.Lib.Run

/-!
The three levels of the remaining return capacity.

The controller keeps what remains for the gateway, for each category and for each
carriers group, in symbols per second. Every amount is taken from the three of them, so
they always agree. What is taken is not always worth the packets granted: the CRA takes
nothing, and the FCA takes kbit/s.
-/

namespace OpenSand

open OpenSand.FairShare OpenSand.Run OpenSand.Word

/-- What remains at the three levels. -/
structure Capacities where
  gw : Int
  category : String → Int
  carrier : String → Nat → Int

def Capacities.charge (capacities : Capacities) (label : String) (carrierId amount : Nat) :
    Capacities where
  gw := capacities.gw - amount
  category := Function.update capacities.category label (capacities.category label - amount)
  carrier := Function.update capacities.carrier label (Function.update (capacities.carrier label)
    carrierId (capacities.carrier label carrierId - amount))

namespace Capacities

variable {capacities : Capacities} {label : String} {carrierId : Nat}

theorem charge_zero : capacities.charge label carrierId 0 = capacities := by
  simp [charge]

theorem charge_charge {first second : Nat} :
    (capacities.charge label carrierId first).charge label carrierId second =
      capacities.charge label carrierId (first + second) := by
  simp [charge, sub_sub]

end Capacities

def DamaCtrl.capacities (ctrl : DamaCtrl) : Capacities :=
  ⟨ctrl.gwRemainingCapacity, ctrl.categoryReturnRemainingCapacity,
    ctrl.carrierReturnRemainingCapacity⟩

namespace Allocation

/-- The symbol rate of some packets. -/
def symps (format : Nat × Nat) (granted : List Nat) : Nat :=
  (granted.map (UnitConverterFixedSymbolLength.mk format.1 format.2 0).pktpfToSymps).sum

theorem symps_append (format : Nat × Nat) (first second : List Nat) :
    symps format (first ++ second) = symps format first + symps format second := by
  simp [symps]

/-- Some packets were granted and an amount taken from the capacities. -/
structure Charges (run run' : Allocation) (granted : List Nat) (amount : Nat) : Prop where
  packetFormat : run'.packetFormat = run.packetFormat
  fcaKbps : run'.ctrl.fcaKbps = run.ctrl.fcaKbps
  label : run'.label = run.label
  carriers : ∃ remaining, run'.carriers = run.carriers.setRemainingCapacity remaining
  grants : run'.grants = run.grants ++ granted
  capacities : run'.ctrl.capacities =
    run.ctrl.capacities.charge run.label run.carriers.carriersId amount

theorem Charges.refl (run : Allocation) : Charges run run [] 0 where
  packetFormat := rfl
  fcaKbps := rfl
  label := rfl
  carriers := ⟨run.carriers.remainingCapacity, rfl⟩
  grants := (List.append_nil _).symm
  capacities := Capacities.charge_zero.symm

theorem Charges.trans {run mid run' : Allocation} {first second : List Nat} {paid paid' : Nat}
    (h : Charges run mid first paid) (h' : Charges mid run' second paid') :
    Charges run run' (first ++ second) (paid + paid') where
  packetFormat := h'.packetFormat.trans h.packetFormat
  fcaKbps := h'.fcaKbps.trans h.fcaKbps
  label := h'.label.trans h.label
  carriers := by
    obtain ⟨remaining, carriers⟩ := h.carriers
    obtain ⟨remaining', carriers'⟩ := h'.carriers
    exact ⟨remaining', by rw [carriers', carriers]; rfl⟩
  grants := by rw [h'.grants, h.grants, List.append_assoc]
  capacities := by
    obtain ⟨remaining, carriers⟩ := h.carriers
    rw [h'.capacities, h.capacities, h.label, carriers]
    exact Capacities.charge_charge

/-! ### The steps of the loops -/

section Parts

variable {run mid : Allocation} {granted : List Nat} {paid : Nat}

theorem Charges.withEfficiency (h : Charges run mid granted paid) (fmt : FmtDefinition) :
    Charges run (mid.withEfficiency fmt) granted paid :=
  ⟨h.packetFormat, h.fcaKbps, h.label, h.carriers, h.grants, h.capacities⟩

theorem Charges.update {i : Nat} {f : TerminalContextDamaRcs → TerminalContextDamaRcs}
    (h : Charges run mid granted paid) : Charges run (mid.update i f) granted paid :=
  ⟨h.packetFormat, h.fcaKbps, h.label, h.carriers, h.grants, h.capacities⟩

theorem Charges.addRequest {amount : Nat} (h : Charges run mid granted paid) :
    Charges run (mid.addRequest amount) granted paid :=
  ⟨h.packetFormat, h.fcaKbps, h.label, h.carriers, h.grants, h.capacities⟩

theorem Charges.addAlloc {amount : Nat} (h : Charges run mid granted paid) :
    Charges run (mid.addAlloc amount) granted paid :=
  ⟨h.packetFormat, h.fcaKbps, h.label, h.carriers, h.grants, h.capacities⟩

theorem Charges.resetAlloc (h : Charges run mid granted paid) :
    Charges run mid.resetAlloc granted paid :=
  ⟨h.packetFormat, h.fcaKbps, h.label, h.carriers, h.grants, h.capacities⟩

theorem Charges.start (h : Charges run mid granted paid) :
    Charges run mid.start granted paid :=
  ⟨h.packetFormat, h.fcaKbps, h.label, h.carriers, h.grants, h.capacities⟩

theorem Charges.finish (h : Charges run mid granted paid) :
    Charges run mid.finish granted paid :=
  { h with
    carriers := by
      obtain ⟨remaining, carriers⟩ := h.carriers
      exact ⟨mid.remainingPktpf, by rw [Allocation.finish, carriers]; rfl⟩ }

theorem Charges.grant {packets : Nat} (h : Charges run mid [] paid) :
    Charges run (mid.grant packets) [packets] paid :=
  { h with grants := by simp [Allocation.grant, h.grants] }

theorem Charges.charge {amount : Nat} (h : Charges run mid granted 0) :
    Charges run (mid.charge amount) granted amount :=
  { h with
    capacities := by
      obtain ⟨remaining, carriers⟩ := h.carriers
      have same := h.capacities
      rw [Capacities.charge_zero] at same
      rw [← same, ← h.label]
      show (mid.ctrl.capacities.charge mid.label mid.carriers.carriersId amount) = _
      rw [carriers]
      rfl }

end Parts

/-- What is taken is worth the packets granted. -/
def Accounts (run run' : Allocation) : Prop :=
  ∃ granted, Charges run run' granted (symps run.packetFormat granted)

theorem Charges.accounts {run run' : Allocation} (h : Charges run run' [] 0) : Accounts run run' :=
  ⟨[], h⟩

theorem Accounts.trans {run mid run' : Allocation} (h : Accounts run mid)
    (h' : Accounts mid run') : Accounts run run' := by
  obtain ⟨first, charges⟩ := h
  obtain ⟨second, charges'⟩ := h'
  refine ⟨first ++ second, ?_⟩
  rw [symps_append]
  rw [charges.packetFormat] at charges'
  exact charges.trans charges'

theorem foldl_accounts {body : Allocation → Nat → Allocation}
    (step : ∀ run i, Accounts run (body run i)) (tal : List Nat) (run : Allocation) :
    Accounts run (tal.foldl body run) := by
  induction tal generalizing run with
  | nil => exact (Charges.refl run).accounts
  | cons i tal ih => exact (step run i).trans (ih (body run i))

theorem forServed_accounts
    {body : Allocation → Nat → TerminalContextDamaRcs → FmtDefinition → Allocation}
    {run : Allocation} {i : Nat}
    (step : ∀ fmt terminal, Accounts run (body (run.withEfficiency fmt) i terminal fmt)) :
    Accounts run (forServed body run i) := by
  unfold forServed
  split
  · exact (Charges.refl run).accounts
  · split
    · exact (Charges.refl run).accounts
    · exact step _ _

/-! ### RBDC and VBDC -/

theorem rbdcInteger_accounts (requests : Std.TreeMap Nat Nat) (ratio : ℚ) (run : Allocation)
    (i : Nat) : Accounts run (rbdcInteger requests ratio run i) := by
  apply forServed_accounts
  intro fmt terminal
  have charges := (Charges.refl run).withEfficiency fmt
  dsimp only
  split
  · exact ⟨[_], .update (.charge (.grant (.addAlloc (.update charges))))⟩
  · exact ⟨[_], .charge (.grant (.addAlloc (.update charges)))⟩

theorem rbdcDecimal_accounts (run : Allocation) (i : Nat) : Accounts run (rbdcDecimal run i) := by
  apply forServed_accounts
  intro fmt terminal
  have charges := (Charges.refl run).withEfficiency fmt
  dsimp only
  split
  · exact ⟨[1], .charge (.grant (.addAlloc (.update charges)))⟩
  · exact charges.accounts

theorem rbdcDecimals_accounts (run : Allocation) (tal : List Nat) :
    Accounts run (rbdcDecimals run tal) := by
  induction tal generalizing run with
  | nil => exact (Charges.refl run).accounts
  | cons i tal ih =>
      rw [rbdcDecimals]
      split
      · exact (rbdcDecimal_accounts run i).trans (ih _)
      · exact (Charges.refl run).accounts

theorem rbdcRequests_charges (run : Allocation) (requests : RbdcRequests) (tal : List Nat) :
    Charges run (tal.foldl rbdcRequest (run, requests)).1 [] 0 := by
  induction tal generalizing run requests with
  | nil => exact .refl run
  | cons i tal ih =>
      have first : Charges run (rbdcRequest (run, requests) i).1 [] 0 := by
        unfold rbdcRequest
        split
        · exact .refl run
        · split
          · exact .refl run
          · exact .addRequest (.withEfficiency (.refl run) _)
      exact first.trans (ih _ _)

theorem Accounts.start {run run' : Allocation} (h : Accounts run.start run') : Accounts run run' :=
  (Charges.refl run).start.accounts.trans h

theorem Accounts.finish {run run' : Allocation} (h : Accounts run run') :
    Accounts run run'.finish := by
  obtain ⟨granted, charges⟩ := h
  exact ⟨granted, charges.finish⟩

theorem computeDamaRbdcPerCarrier_accounts (run : Allocation) :
    Accounts run run.computeDamaRbdcPerCarrier := by
  have requested := rbdcRequests_charges run.start ⟨∅, 0⟩ run.start.inCarriersGroup
  unfold computeDamaRbdcPerCarrier
  dsimp only
  split
  · exact (Charges.refl run).start.accounts
  · split
    · exact requested.accounts.start
    · have integers := fun requests ratio => requested.resetAlloc.accounts.trans
        (foldl_accounts (rbdcInteger_accounts requests ratio) run.start.inCarriersGroup _)
      split
      · exact ((integers _ _).trans (rbdcDecimals_accounts _ _)).start.finish
      · exact (integers _ _).start.finish

theorem vbdcTerminal_accounts (run : Allocation) (i : Nat) : Accounts run (vbdcTerminal run i) := by
  apply forServed_accounts
  intro fmt terminal
  have charges := (Charges.refl run).withEfficiency fmt
  dsimp only
  split
  · exact charges.accounts
  · exact ⟨[_], .charge (.addAlloc (.update (.grant charges.addRequest)))⟩

theorem vbdcTerminals_accounts (run : Allocation) (tal : List Nat) :
    Accounts run (vbdcTerminals run tal) := by
  induction tal generalizing run with
  | nil => exact (Charges.refl run).accounts
  | cons i tal ih =>
      rw [vbdcTerminals]
      split
      · exact (vbdcTerminal_accounts run i).trans (ih _)
      · exact foldl_accounts (fun run _ => (Charges.refl run).addRequest.accounts) _ run

theorem computeDamaVbdcPerCarrier_accounts (run : Allocation) :
    Accounts run run.computeDamaVbdcPerCarrier := by
  unfold computeDamaVbdcPerCarrier
  dsimp only
  split
  · exact (Charges.refl run).start.accounts
  · split
    · exact (Charges.refl run).start.accounts
    · exact (vbdcTerminals_accounts _ _).start.finish

/-! ### CRA -/

/-- The packets of the CRA that fit in what remains, terminal after terminal. -/
def craServed (format : Nat × Nat) : Nat → List Demand → List Nat
  | _, [] => []
  | remaining, demand :: rest =>
      match demand.fmt with
      | none => craServed format remaining rest
      | some fmt =>
          let cra := packets format fmt demand.craRequestKbps
          if remaining < cra then craServed format remaining rest
          else cra :: craServed format (remaining - cra) rest

/-- The packets that the CRA of a group grants. -/
def craGrants (run : Allocation) : List Nat :=
  craServed run.packetFormat (wrap 16 run.carriers.remainingCapacity) run.onGroup

theorem craServed_append (format : Nat × Nat) (remaining : Nat) (first second : List Demand) :
    craServed format remaining (first ++ second) =
      craServed format remaining first ++
        craServed format (remaining - (craServed format remaining first).sum) second := by
  induction first generalizing remaining with
  | nil => rfl
  | cons demand first ih =>
      rw [List.cons_append, craServed, craServed]
      split
      · exact ih remaining
      · dsimp only
        split
        · exact ih remaining
        · rw [ih, List.cons_append, List.sum_cons, Nat.sub_sub]

theorem craTerminal_charges (run : Allocation) (i : Nat) :
    Charges run (craTerminal run i)
      (craServed run.packetFormat run.remainingPktpf (run.demands[i]?).toList) 0 := by
  cases hdemand : run.demands[i]? with
  | none =>
      rw [craTerminal, forServed_of_none (by rw [hdemand]; rfl)]
      exact .refl run
  | some demand =>
      rw [Option.toList_some, craServed]
      cases hfmt : demand.fmt with
      | none =>
          rw [craTerminal, forServed_of_none (by rw [hdemand]; exact hfmt)]
          exact .refl run
      | some fmt =>
          unfold craTerminal
          obtain ⟨terminal, _, rfl, served⟩ := forServed_of_some hdemand hfmt
          rw [served]
          dsimp only
          have charges := (Charges.refl run).withEfficiency fmt
          by_cases less :
              run.remainingPktpf < packets run.packetFormat fmt terminal.demand.craRequestKbps
          · rw [if_pos less]
            exact iteInduction (motive := fun run' => Charges run run' _ 0)
              (fun _ => charges.addRequest) (fun enough => absurd less enough)
          · rw [if_neg less]
            exact iteInduction (motive := fun run' => Charges run run' _ 0)
              (fun short => absurd short less)
              (fun _ => .update (.addAlloc (.grant charges.addRequest)))

theorem foldl_craTerminal_charges {run : Allocation} (word : run.remainingPktpf < 2 ^ 16)
    (tal : List Nat) :
    Charges run (tal.foldl craTerminal run)
      (craServed run.packetFormat run.remainingPktpf (run.demandsAt tal)) 0 := by
  induction tal generalizing run with
  | nil => exact .refl run
  | cons i tal ih =>
      have charges := craTerminal_charges run i
      obtain ⟨granted, follows, le⟩ := craTerminal_affords run i
      have same : granted =
          craServed run.packetFormat run.remainingPktpf (run.demands[i]?).toList :=
        List.append_cancel_left (follows.grants.symm.trans charges.grants)
      have rest := ih (follows.remaining_lt word)
      rw [follows.demandsAt, follows.packetFormat, follows.remaining, spend_of_sum_le word le, same]
        at rest
      rw [demandsAt_cons, craServed_append]
      exact charges.trans rest

theorem computeDamaCraPerCarrier_charges (run : Allocation) :
    Charges run run.computeDamaCraPerCarrier run.craGrants 0 := by
  have charges := foldl_craTerminal_charges run.start_lt run.start.inCarriersGroup
  rw [demandsAt_inCarriersGroup] at charges
  exact ((Charges.refl run).start.trans charges).finish

/-! ### FCA -/

/-- The packets of the FCA, terminal after terminal, as long as there is capacity. -/
def fcaServed (converter : UnitConverterFixedSymbolLength) (fcaKbps : Nat) :
    Nat → List FmtDefinition → List (FmtDefinition × Nat)
  | _, [] => []
  | remaining, fmt :: rest =>
      if remaining = 0 then []
      else
        let fca := min (converter.kbpsToPktpf (fmt.addFec fcaKbps)) remaining
        (fmt, fca) :: fcaServed converter fcaKbps (remaining - fca) rest

/-- The rate of the packets in kbit/s, without their FEC. -/
def fcaRate (converter : UnitConverterFixedSymbolLength) (served : List (FmtDefinition × Nat)) :
    Nat :=
  (served.map fun (fmt, fca) => fmt.removeFec (converter.pktpfToKbps fca)).sum

/-- The definitions of the terminals at some positions. -/
def fmtsAt (run : Allocation) (tal : List Nat) : List FmtDefinition :=
  tal.filterMap fun i => (run.terminals[i]?).bind (·.fmt)

/-- The packets that the FCA of a group grants, with the definitions of the terminals. -/
def fcaGrants (run : Allocation) : List (FmtDefinition × Nat) :=
  fcaServed run.ctrl.converter run.ctrl.fcaKbps (wrap 16 run.carriers.remainingCapacity)
    (run.fmtsAt (run.sortBy TerminalContextDamaRcs.creditOrder run.inCarriersGroup))

theorem fcaServed_zero (converter : UnitConverterFixedSymbolLength) (fcaKbps : Nat)
    (fmts : List FmtDefinition) : fcaServed converter fcaKbps 0 fmts = [] := by
  cases fmts with
  | nil => rfl
  | cons fmt rest => simp [fcaServed]

/-- Nothing is granted any more once the terminals or the capacity are used up. -/
theorem fcaServed_of_ended {run : Allocation} {tal : List Nat}
    (ended : tal = [] ∨ run.remainingPktpf = 0) :
    fcaServed run.ctrl.converter run.ctrl.fcaKbps run.remainingPktpf (run.fmtsAt tal) = [] := by
  rcases ended with rfl | spent
  · rfl
  · rw [spent, fcaServed_zero]

theorem fmtsAt_fcaTerminal (run : Allocation) (i : Nat) (fmt : FmtDefinition) (tal : List Nat) :
    (run.fcaTerminal i fmt).fmtsAt tal = run.fmtsAt tal := by
  unfold fmtsAt
  congr 1
  funext j
  simp only [fcaTerminal, Allocation.charge, Allocation.addAlloc, Allocation.update,
    Allocation.grant, List.getElem?_modify]
  cases run.terminals[j]? with
  | none => rfl
  | some terminal =>
      by_cases same : i = j
      · simp [same, TerminalContextDamaRcs.setFcaAllocation]
      · simp [same]

theorem fcaTerminal_charges (run : Allocation) (i : Nat) (fmt : FmtDefinition) {fca : Nat}
    (h : fca = min (run.ctrl.converter.kbpsToPktpf (fmt.addFec run.ctrl.fcaKbps))
      run.remainingPktpf) :
    Charges run (run.fcaTerminal i fmt) [fca]
        (fmt.removeFec (run.ctrl.converter.pktpfToKbps fca)) ∧
      (run.fcaTerminal i fmt).remainingPktpf = subW 16 run.remainingPktpf fca := by
  have fca_eq : (if run.ctrl.converter.kbpsToPktpf (fmt.addFec run.ctrl.fcaKbps) <
      run.remainingPktpf then run.ctrl.converter.kbpsToPktpf (fmt.addFec run.ctrl.fcaKbps)
      else run.remainingPktpf) = fca := by
    rw [h]
    split
    next less => exact (Nat.min_eq_left (Nat.le_of_lt less)).symm
    next more => exact (Nat.min_eq_right (Nat.le_of_not_lt more)).symm
  unfold fcaTerminal
  dsimp only
  rw [fca_eq]
  exact ⟨.charge (.addAlloc (.update (.grant (.refl run)))), rfl⟩

theorem fcaTerminals_charges (fuel : Nat) {run : Allocation} (word : run.remainingPktpf < 2 ^ 16)
    (tal : List Nat)
    (ended : (fcaTerminals fuel run tal).2 = [] ∨ (fcaTerminals fuel run tal).1.remainingPktpf = 0) :
    Charges run (fcaTerminals fuel run tal).1
      ((fcaServed run.ctrl.converter run.ctrl.fcaKbps run.remainingPktpf (run.fmtsAt tal)).map
        Prod.snd)
      (fcaRate run.ctrl.converter
        (fcaServed run.ctrl.converter run.ctrl.fcaKbps run.remainingPktpf (run.fmtsAt tal))) := by
  induction fuel generalizing run tal with
  | zero =>
      have ended' : tal = [] ∨ run.remainingPktpf = 0 := ended
      rw [fcaServed_of_ended ended']
      exact .refl run
  | succ fuel ih =>
      cases tal with
      | nil =>
          rw [fcaServed_of_ended (.inl rfl)]
          exact .refl run
      | cons i tal =>
          rw [fcaTerminals] at ended ⊢
          split at ended
          next left =>
            rw [if_pos left]
            cases hfmt : (run.terminals[i]?).bind (·.fmt) with
            | none =>
                rw [hfmt] at ended
                exact ih word _ ended
            | some fmt =>
                rw [hfmt] at ended
                obtain ⟨charges, remaining⟩ := fcaTerminal_charges run i fmt rfl
                rw [subW_of_le word (Nat.min_le_right _ _)] at remaining
                have rest := ih (by rw [remaining]; omega) tal ended
                rw [remaining, fmtsAt_fcaTerminal] at rest
                have fmts : run.fmtsAt (i :: tal) = fmt :: run.fmtsAt tal := by
                  simp only [fmtsAt, List.filterMap_cons, hfmt]
                rw [fmts, fcaServed, if_neg (by omega)]
                exact charges.trans rest
          next spent =>
            rw [if_neg spent, fcaServed_of_ended (.inr (by omega))]
            exact .refl run

theorem computeDamaFcaPerCarrier_charges (fuel : Nat) (run : Allocation)
    (ended : (run.computeDamaFcaPerCarrier fuel).2 = true) :
    Charges run (run.computeDamaFcaPerCarrier fuel).1 (run.fcaGrants.map Prod.snd)
      (fcaRate run.ctrl.converter run.fcaGrants) := by
  unfold computeDamaFcaPerCarrier at ended ⊢
  dsimp only at ended ⊢
  split
  next none =>
    have nothing : run.fcaGrants = [] := by
      rcases none with empty | spent
      · have empty' : run.inCarriersGroup = [] := empty
        rw [fcaGrants, empty', sortBy, List.mergeSort_nil]
        rfl
      · have spent' : wrap 16 run.carriers.remainingCapacity = 0 := spent
        rw [fcaGrants, spent', fcaServed_zero]
    rw [nothing]
    exact (Charges.refl run).start
  next some =>
    rw [if_neg some] at ended
    split at ended
    next served =>
      have charges := (Charges.refl run).start.trans
        (fcaTerminals_charges fuel run.start_lt _ served)
      rw [Nat.zero_add] at charges
      rw [if_pos served]
      exact charges.finish
    next => cases ended

end Allocation

end OpenSand
