import OpenSand.Dama.Controller

/-!
Capacity safety of the DAMA allocations of a carriers group.

What the terminals ask for, their identifiers and their FMT definitions do not
change during a superframe (`demands`). `Follows` relates the states before and
after a part of an allocation by the packets it granted, and `Affords` adds that
the remaining capacity could pay for them. Every loop affords its grants but one:
the first step of RBDC divides by a total that is kept in 16 bits.
-/

namespace OpenSand

open OpenSand.Word OpenSand.FairShare Std

/-- What an allocation reads of a terminal and never changes. -/
structure Demand where
  talId : Nat
  carrierId : Nat
  fmt : Option FmtDefinition
  craRequestKbps : Nat
  rbdcRequestKbps : Nat

def TerminalContextDamaRcs.demand (terminal : TerminalContextDamaRcs) : Demand where
  talId := terminal.talId
  carrierId := terminal.carrierId
  fmt := terminal.fmt
  craRequestKbps := terminal.craRequestKbps
  rbdcRequestKbps := terminal.rbdcRequestKbps

namespace Allocation

def demands (run : Allocation) : List Demand := run.terminals.map (·.demand)

/-- The converter without its efficiency. -/
def packetFormat (run : Allocation) : Nat × Nat :=
  (run.ctrl.converter.frameDurationMs, run.ctrl.converter.packetLengthSym)

/-- Some packets were granted between two states of an allocation. -/
structure Follows (run run' : Allocation) (granted : List Nat) : Prop where
  demands : run'.demands = run.demands
  packetFormat : run'.packetFormat = run.packetFormat
  carriers : run'.carriers = run.carriers
  grants : run'.grants = run.grants ++ granted
  remaining : run'.remainingPktpf = spend 16 run.remainingPktpf granted

theorem Follows.refl (run : Allocation) : Follows run run [] where
  demands := rfl
  packetFormat := rfl
  carriers := rfl
  grants := (List.append_nil _).symm
  remaining := rfl

theorem Follows.trans {run mid run' : Allocation} {first second : List Nat}
    (h : Follows run mid first) (h' : Follows mid run' second) :
    Follows run run' (first ++ second) where
  demands := h'.demands.trans h.demands
  packetFormat := h'.packetFormat.trans h.packetFormat
  carriers := h'.carriers.trans h.carriers
  grants := by rw [h'.grants, h.grants, List.append_assoc]
  remaining := by rw [h'.remaining, h.remaining, spend_append]

/-! ### The steps of the loops -/

section Parts

variable {run mid : Allocation} {granted : List Nat}

/-- What touches neither the terminals nor the capacity. -/
theorem Follows.same {run' : Allocation} (h : Follows run mid granted)
    (terminals : run'.terminals = mid.terminals) (packetFormat : run'.packetFormat = mid.packetFormat)
    (carriers : run'.carriers = mid.carriers) (grants : run'.grants = mid.grants)
    (remaining : run'.remainingPktpf = mid.remainingPktpf) : Follows run run' granted where
  demands := (congrArg (List.map _) terminals).trans h.demands
  packetFormat := packetFormat.trans h.packetFormat
  carriers := carriers.trans h.carriers
  grants := grants.trans h.grants
  remaining := remaining.trans h.remaining

theorem Follows.withEfficiency (h : Follows run mid granted) (fmt : FmtDefinition) :
    Follows run (mid.withEfficiency fmt) granted :=
  h.same rfl rfl rfl rfl rfl

theorem Follows.charge {amount : Nat} (h : Follows run mid granted) :
    Follows run (mid.charge amount) granted :=
  h.same rfl rfl rfl rfl rfl

theorem Follows.addRequest {amount : Nat} (h : Follows run mid granted) :
    Follows run (mid.addRequest amount) granted :=
  h.same rfl rfl rfl rfl rfl

theorem Follows.addAlloc {amount : Nat} (h : Follows run mid granted) :
    Follows run (mid.addAlloc amount) granted :=
  h.same rfl rfl rfl rfl rfl

theorem Follows.resetAlloc (h : Follows run mid granted) : Follows run mid.resetAlloc granted :=
  h.same rfl rfl rfl rfl rfl

/-- A change of a terminal keeps its demand. -/
theorem Follows.update {i : Nat} {f : TerminalContextDamaRcs → TerminalContextDamaRcs}
    (kept : ∀ terminal, (f terminal).demand = terminal.demand) (h : Follows run mid granted) :
    Follows run (mid.update i f) granted :=
  { h with
    demands := by
      rw [← h.demands]
      apply List.ext_getElem?
      intro j
      simp only [Allocation.demands, Allocation.update, List.getElem?_map, List.getElem?_modify]
      split
      · cases mid.terminals[j]? with
        | none => rfl
        | some terminal => exact congrArg some (kept terminal)
      · simp }

theorem Follows.grant {packets : Nat} (h : Follows run mid []) :
    Follows run (mid.grant packets) [packets] :=
  { h with
    grants := by simp [Allocation.grant, h.grants]
    remaining := by
      rw [Allocation.grant, h.remaining]
      rfl }

end Parts

/-- A terminal without FMT definition is passed over. -/
theorem forServed_of_none
    {body : Allocation → Nat → TerminalContextDamaRcs → FmtDefinition → Allocation}
    {run : Allocation} {i : Nat} (none : (run.demands[i]?).bind (·.fmt) = none) :
    forServed body run i = run := by
  unfold forServed
  cases hterminal : run.terminals[i]? with
  | none => rfl
  | some terminal =>
      simp only [demands, List.getElem?_map, hterminal, Option.map_some, Option.bind_some,
        TerminalContextDamaRcs.demand] at none
      simp [none]

/-- The body runs on the others. -/
theorem forServed_of_some
    {body : Allocation → Nat → TerminalContextDamaRcs → FmtDefinition → Allocation}
    {run : Allocation} {i : Nat} {demand : Demand} {fmt : FmtDefinition}
    (hdemand : run.demands[i]? = some demand) (hfmt : demand.fmt = some fmt) :
    ∃ terminal, run.terminals[i]? = some terminal ∧ terminal.demand = demand ∧
      forServed body run i = body (run.withEfficiency fmt) i terminal fmt := by
  simp only [demands, List.getElem?_map, Option.map_eq_some_iff] at hdemand
  obtain ⟨terminal, hterminal, rfl⟩ := hdemand
  refine ⟨terminal, hterminal, rfl, ?_⟩
  have fmt' : terminal.fmt = some fmt := hfmt
  simp [forServed, hterminal, fmt']

/-! ### Loops that the capacity pays for -/

/-- The packets granted are no more than what remained. -/
def Affords (run run' : Allocation) : Prop :=
  ∃ granted, Follows run run' granted ∧ granted.sum ≤ run.remainingPktpf

theorem Follows.remaining_lt {run run' : Allocation} {granted : List Nat}
    (h : Follows run run' granted) (word : run.remainingPktpf < 2 ^ 16) :
    run'.remainingPktpf < 2 ^ 16 := by
  rw [h.remaining]
  exact spend_lt word granted

theorem Follows.affords {run run' : Allocation} (h : Follows run run' []) : Affords run run' :=
  ⟨[], h, Nat.zero_le _⟩

theorem Affords.trans {run mid run' : Allocation} (word : run.remainingPktpf < 2 ^ 16)
    (h : Affords run mid) (h' : Affords mid run') : Affords run run' := by
  obtain ⟨first, follows, le⟩ := h
  obtain ⟨second, follows', le'⟩ := h'
  refine ⟨first ++ second, follows.trans follows', ?_⟩
  rw [follows.remaining, spend_of_sum_le word le] at le'
  rw [List.sum_append]
  omega

theorem foldl_affords {body : Allocation → Nat → Allocation}
    (step : ∀ run i, Affords run (body run i)) (tal : List Nat) {run : Allocation}
    (word : run.remainingPktpf < 2 ^ 16) : Affords run (tal.foldl body run) := by
  induction tal generalizing run with
  | nil => exact (Follows.refl run).affords
  | cons i tal ih =>
      obtain ⟨granted, follows, le⟩ := step run i
      exact Affords.trans word ⟨granted, follows, le⟩ (ih (follows.remaining_lt word))

/-- A terminal served with some packets of the remaining capacity. -/
theorem forServed_affords
    {body : Allocation → Nat → TerminalContextDamaRcs → FmtDefinition → Allocation}
    {run : Allocation} {i : Nat}
    (step : ∀ fmt terminal, Affords run (body (run.withEfficiency fmt) i terminal fmt)) :
    Affords run (forServed body run i) := by
  unfold forServed
  split
  · exact (Follows.refl run).affords
  · split
    · exact (Follows.refl run).affords
    · exact step _ _

theorem craTerminal_affords (run : Allocation) (i : Nat) : Affords run (craTerminal run i) := by
  apply forServed_affords
  intro fmt terminal
  have follows := (Follows.refl run).withEfficiency fmt
  dsimp only
  split
  · exact follows.addRequest.affords
  · rename_i enough
    refine ⟨[_], .update (fun _ => rfl) (.addAlloc (.grant follows.addRequest)), ?_⟩
    rw [List.sum_singleton]
    exact Nat.le_of_not_lt enough

/-- The second step of RBDC takes one packet of the capacity left. -/
theorem rbdcDecimal_affords {run : Allocation} (i : Nat) (some_left : 0 < run.remainingPktpf) :
    Affords run (rbdcDecimal run i) := by
  apply forServed_affords
  intro fmt terminal
  have follows := (Follows.refl run).withEfficiency fmt
  dsimp only
  split
  · refine ⟨[1], .charge (.grant (.addAlloc (.update (fun _ => rfl) follows))), ?_⟩
    rw [List.sum_singleton]
    exact some_left
  · exact follows.affords

theorem vbdcTerminal_affords (run : Allocation) (i : Nat) : Affords run (vbdcTerminal run i) := by
  apply forServed_affords
  intro fmt terminal
  have follows := (Follows.refl run).withEfficiency fmt
  dsimp only
  split
  · exact follows.affords
  · refine ⟨[_], .charge (.addAlloc (.update (fun _ => rfl) (.grant follows.addRequest))), ?_⟩
    rw [List.sum_singleton]
    split
    · assumption
    · exact le_rfl

theorem fcaTerminal_affords (run : Allocation) (i : Nat) (fmt : FmtDefinition) :
    Affords run (run.fcaTerminal i fmt) := by
  refine ⟨[_], .charge (.addAlloc (.update (fun _ => rfl) (.grant (.refl run)))), ?_⟩
  rw [List.sum_singleton]
  split
  · exact Nat.le_of_lt (by assumption)
  · exact le_rfl

theorem rbdcDecimals_affords {run : Allocation} (word : run.remainingPktpf < 2 ^ 16)
    (tal : List Nat) : Affords run (rbdcDecimals run tal) := by
  induction tal generalizing run with
  | nil => exact (Follows.refl run).affords
  | cons i tal ih =>
      rw [rbdcDecimals]
      split
      · obtain ⟨granted, follows, le⟩ := rbdcDecimal_affords i (by assumption)
        exact Affords.trans word ⟨granted, follows, le⟩ (ih (follows.remaining_lt word))
      · exact (Follows.refl run).affords

theorem vbdcTerminals_affords {run : Allocation} (word : run.remainingPktpf < 2 ^ 16)
    (tal : List Nat) : Affords run (vbdcTerminals run tal) := by
  induction tal generalizing run with
  | nil => exact (Follows.refl run).affords
  | cons i tal ih =>
      rw [vbdcTerminals]
      split
      · obtain ⟨granted, follows, le⟩ := vbdcTerminal_affords run i
        exact Affords.trans word ⟨granted, follows, le⟩ (ih (follows.remaining_lt word))
      · exact foldl_affords (fun run _ => (Follows.refl run).addRequest.affords) _ word

theorem fcaTerminals_affords (fuel : Nat) {run : Allocation} (word : run.remainingPktpf < 2 ^ 16)
    (tal : List Nat) : Affords run (fcaTerminals fuel run tal).1 := by
  induction fuel generalizing run tal with
  | zero => exact (Follows.refl run).affords
  | succ fuel ih =>
      cases tal with
      | nil => exact (Follows.refl run).affords
      | cons i tal =>
          rw [fcaTerminals]
          split
          · split
            · exact ih word _
            · obtain ⟨granted, follows, le⟩ := fcaTerminal_affords run i _
              exact Affords.trans word ⟨granted, follows, le⟩ (ih (follows.remaining_lt word) _)
          · exact (Follows.refl run).affords

/-! ### What the terminals of the group ask for -/

/-- The packets for a rate under an FMT definition. -/
def packets (format : Nat × Nat) (fmt : FmtDefinition) (rateKbps : Nat) : Nat :=
  (UnitConverterFixedSymbolLength.mk format.1 format.2 fmt.modulationEfficiency).kbpsToPktpf
    (fmt.addFec rateKbps)

/-- The demands of the terminals on the group. -/
def onGroup (run : Allocation) : List Demand :=
  run.demands.filter (·.carrierId = run.carriers.carriersId)

/-- The demands of the terminals at some positions. -/
def demandsAt (run : Allocation) (tal : List Nat) : List Demand :=
  tal.filterMap fun i => run.demands[i]?

theorem demandsAt_cons (run : Allocation) (i : Nat) (tal : List Nat) :
    run.demandsAt (i :: tal) = (run.demands[i]?).toList ++ run.demandsAt tal := by
  unfold demandsAt
  rw [List.filterMap_cons]
  cases run.demands[i]? <;> rfl

theorem Follows.demandsAt {run run' : Allocation} {granted : List Nat}
    (h : Follows run run' granted) (tal : List Nat) : run'.demandsAt tal = run.demandsAt tal := by
  rw [Allocation.demandsAt, h.demands, Allocation.demandsAt]

/-- Looking up the positions of the elements with a property. -/
theorem filterMap_range_filter {α : Type*} (p : α → Bool) (l : List α) :
    (((List.range l.length).filter fun i => (l[i]?).any p).filterMap fun i => l[i]?) =
      l.filter p := by
  induction l with
  | nil => rfl
  | cons x rest ih =>
      rw [List.length_cons, List.range_succ_eq_map, List.filter_cons, List.filter_map]
      cases h : p x with
      | true => simpa [h, List.filterMap_cons, List.filterMap_map, Function.comp_def] using ih
      | false => simpa [h, List.filterMap_map, Function.comp_def] using ih

theorem demandsAt_inCarriersGroup (run : Allocation) :
    run.demandsAt run.inCarriersGroup = run.onGroup := by
  have terminals := filterMap_range_filter
    (fun terminal : TerminalContextDamaRcs => decide (terminal.carrierId = run.carriers.carriersId))
    run.terminals
  have lookup : (fun i : Nat => run.demands[i]?) = fun i =>
      (run.terminals[i]?).map TerminalContextDamaRcs.demand := by
    funext i
    rw [demands, List.getElem?_map]
  rw [demandsAt, lookup, ← List.map_filterMap, inCarriersGroup, terminals, onGroup, demands,
    List.filter_map]
  rfl

/-! ### CRA -/

/-- The counters of the CRA of a group. -/
structure CraTally where
  remainingPktpf : Nat
  request : Nat
  alloc : Nat

/-- The rate of some packets under an FMT definition. -/
def packetsRate (format : Nat × Nat) (fmt : FmtDefinition) (packets : Nat) : Nat :=
  fmt.removeFec
    ((UnitConverterFixedSymbolLength.mk format.1 format.2 fmt.modulationEfficiency).pktpfToKbps
      packets)

/-- The CRA of a terminal is allocated when what remains is enough for it. -/
def CraTally.serve (format : Nat × Nat) (tally : CraTally) (demand : Demand) : CraTally :=
  match demand.fmt with
  | none => tally
  | some fmt =>
      let cra := packets format fmt demand.craRequestKbps
      if tally.remainingPktpf < cra then
        { tally with request := addW 16 tally.request demand.craRequestKbps }
      else
        { remainingPktpf := tally.remainingPktpf - cra
          request := addW 16 tally.request demand.craRequestKbps
          alloc := addW 16 tally.alloc (packetsRate format fmt cra) }

def craTally (run : Allocation) : CraTally := ⟨run.remainingPktpf, run.request, run.alloc⟩

theorem craTerminal_craTally {run : Allocation} (i : Nat) (word : run.remainingPktpf < 2 ^ 16) :
    (craTerminal run i).craTally =
      ((run.demands[i]?).toList).foldl (CraTally.serve run.packetFormat) run.craTally := by
  cases hdemand : run.demands[i]? with
  | none =>
      rw [craTerminal, forServed_of_none (by rw [hdemand]; rfl)]
      rfl
  | some demand =>
      rw [Option.toList_some, List.foldl_cons, List.foldl_nil]
      cases hfmt : demand.fmt with
      | none =>
          rw [craTerminal, forServed_of_none (by rw [hdemand]; exact hfmt), CraTally.serve, hfmt]
      | some fmt =>
          unfold craTerminal
          obtain ⟨terminal, _, rfl, served⟩ := forServed_of_some hdemand hfmt
          rw [served, CraTally.serve, hfmt]
          dsimp only
          rw [apply_ite craTally]
          by_cases less :
              run.remainingPktpf < packets run.packetFormat fmt terminal.demand.craRequestKbps
          · exact (if_pos less).trans (if_pos less).symm
          · refine (if_neg less).trans (Eq.trans ?_ (if_neg less).symm)
            exact congrArg₂ (fun remaining alloc => CraTally.mk remaining _ alloc)
              (subW_of_le word (Nat.le_of_not_lt less)) rfl

theorem foldl_craTerminal_craTally {run : Allocation} (word : run.remainingPktpf < 2 ^ 16)
    (tal : List Nat) :
    (tal.foldl craTerminal run).craTally =
      (run.demandsAt tal).foldl (CraTally.serve run.packetFormat) run.craTally := by
  induction tal generalizing run with
  | nil => rfl
  | cons i tal ih =>
      obtain ⟨granted, follows, _⟩ := craTerminal_affords run i
      rw [List.foldl_cons, ih (follows.remaining_lt word), follows.demandsAt, follows.packetFormat,
        craTerminal_craTally i word, demandsAt_cons, List.foldl_append]

end Allocation

end OpenSand
