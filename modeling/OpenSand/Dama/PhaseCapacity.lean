import OpenSand.Dama.RbdcShares

/-!
The capacity of a group through each of the four allocations.

An allocation starts from the remaining capacity of the group and stores what it
leaves. `Served` relates the states around an allocation by the packets it granted.
CRA, VBDC and FCA never grant more than what remained; RBDC does so exactly when
the shares of the requests fit (`FairSharesFit`).
-/

namespace OpenSand

open OpenSand.Word OpenSand.FairShare Std

/-- What the safety of the capacity of a group depends on. -/
structure Outlook where
  demands : List Demand
  format : Nat × Nat
  carriers : CarriersGroupDama

namespace Outlook

/-- The demands of the terminals on the group. -/
def onGroup (outlook : Outlook) : List Demand :=
  outlook.demands.filter (·.carrierId = outlook.carriers.carriersId)

/-- The counters at the end of the CRA. -/
def craTally (outlook : Outlook) : Allocation.CraTally :=
  outlook.onGroup.foldl (Allocation.CraTally.serve outlook.format)
    ⟨wrap 16 outlook.carriers.remainingCapacity, 0, 0⟩

/-- The RBDC requests of the group in packets. -/
def rbdcRequests (outlook : Outlook) : List Nat :=
  outlook.onGroup.filterMap (Allocation.rbdcPackets outlook.format)

end Outlook

/-- The RBDC requests can be shared: their sum does not exceed 16 bits, or the first
step is not run, or what the 16-bit total gives them still fits. -/
def FairSharesFit (remaining : Nat) (requests : List Nat) : Prop :=
  remaining = 0 ∨ wrap 16 requests.sum = 0 ∨ requests.sum < 2 ^ 16 ∨
    remaining < wrap 16 requests.sum ∧
      (requests.map fun request => request * remaining / wrap 16 requests.sum).sum ≤ remaining

instance (remaining : Nat) (requests : List Nat) : Decidable (FairSharesFit remaining requests) := by
  unfold FairSharesFit
  infer_instance

namespace Allocation

def outlook (run : Allocation) : Outlook := ⟨run.demands, run.packetFormat, run.carriers⟩

/-- What any allocation keeps, whatever the group it works on. -/
structure Kept (run run' : Allocation) : Prop where
  demands : run'.demands = run.demands
  packetFormat : run'.packetFormat = run.packetFormat

/-- An allocation that granted some packets and stored what it left. -/
structure Served (run run' : Allocation) (granted : List Nat) : Prop extends Kept run run' where
  carriers : run'.carriers =
    run.carriers.setRemainingCapacity (spend 16 run.carriers.remainingCapacity granted)
  grants : run'.grants = run.grants ++ granted

theorem Follows.kept {run mid : Allocation} {granted : List Nat}
    (h : Follows run.start mid granted) : Kept run mid :=
  ⟨h.demands, h.packetFormat⟩

theorem Follows.served {run mid : Allocation} {granted : List Nat}
    (word : run.carriers.remainingCapacity < 2 ^ 16) (h : Follows run.start mid granted) :
    Served run mid.finish granted where
  demands := h.demands
  packetFormat := h.packetFormat
  carriers := by
    rw [finish, h.remaining, h.carriers, start]
    dsimp only
    rw [wrap_of_lt word]
  grants := h.grants

/-- An allocation that granted nothing and stored nothing. -/
theorem Follows.skipped {run mid : Allocation} (h : Follows run.start mid []) :
    Served run mid [] where
  demands := h.demands
  packetFormat := h.packetFormat
  carriers := h.carriers
  grants := h.grants

theorem start_lt (run : Allocation) : run.start.remainingPktpf < 2 ^ 16 := wrap_lt 16 _

theorem start_remaining {run : Allocation} (word : run.carriers.remainingCapacity < 2 ^ 16) :
    run.start.remainingPktpf = run.carriers.remainingCapacity :=
  wrap_of_lt word

/-! ### CRA -/

theorem computeDamaCraPerCarrier_affords (run : Allocation) :
    Affords run.start (run.start.inCarriersGroup.foldl craTerminal run.start) :=
  foldl_affords craTerminal_affords _ run.start_lt

theorem computeDamaCraPerCarrier_kept (run : Allocation) :
    Kept run run.computeDamaCraPerCarrier := by
  obtain ⟨granted, follows, -⟩ := run.computeDamaCraPerCarrier_affords
  exact ⟨follows.demands, follows.packetFormat⟩

theorem computeDamaCraPerCarrier_served {run : Allocation}
    (word : run.carriers.remainingCapacity < 2 ^ 16) :
    ∃ granted, Served run run.computeDamaCraPerCarrier granted ∧
      granted.sum ≤ run.carriers.remainingCapacity := by
  obtain ⟨granted, follows, le⟩ := run.computeDamaCraPerCarrier_affords
  rw [start_remaining word] at le
  exact ⟨granted, follows.served word, le⟩

theorem computeDamaCraPerCarrier_craTally (run : Allocation) :
    run.computeDamaCraPerCarrier.craTally = run.outlook.craTally := by
  have tally := foldl_craTerminal_craTally run.start_lt run.start.inCarriersGroup
  rw [demandsAt_inCarriersGroup] at tally
  exact tally

/-! ### RBDC -/

theorem foldl_follows {body : Allocation → Nat → Allocation}
    (step : ∀ run i, ∃ granted, Follows run (body run i) granted) (tal : List Nat)
    (run : Allocation) : ∃ granted, Follows run (tal.foldl body run) granted := by
  induction tal generalizing run with
  | nil => exact ⟨[], .refl run⟩
  | cons i tal ih =>
      obtain ⟨first, follows⟩ := step run i
      obtain ⟨rest, follows'⟩ := ih (body run i)
      exact ⟨first ++ rest, follows.trans follows'⟩

theorem rbdcInteger_follows (requests : TreeMap Nat Nat) (ratio : ℚ) (run : Allocation) (i : Nat) :
    ∃ granted, Follows run (rbdcInteger requests ratio run i) granted := by
  cases h : (run.demands[i]?).bind (rbdcPackets run.packetFormat) with
  | none =>
      rw [rbdcInteger_of_none h]
      exact ⟨[], .refl run⟩
  | some request =>
      obtain ⟨demand, hdemand, asked⟩ := Option.bind_eq_some_iff.mp h
      exact ⟨_, rbdcInteger_of_some hdemand asked⟩

/-- After the first step, the second one when the requests exceed the capacity. -/
theorem rbdcDecimals_affords_of_ratio {run : Allocation} (word : run.remainingPktpf < 2 ^ 16)
    (ratio : ℚ) (tal : List Nat) :
    Affords run (if 1 < ratio then rbdcDecimals run tal else run) := by
  split
  · exact rbdcDecimals_affords word tal
  · exact (Follows.refl run).affords

theorem rbdcRequests_follows (run : Allocation) (tal : List Nat) :
    Follows run (run.rbdcRequests tal).1 [] :=
  (foldl_rbdcRequest run ⟨∅, 0⟩ tal).1

theorem computeDamaRbdcPerCarrier_kept (run : Allocation) :
    Kept run run.computeDamaRbdcPerCarrier := by
  have requested := rbdcRequests_follows run.start run.start.inCarriersGroup
  unfold computeDamaRbdcPerCarrier
  dsimp only
  split
  · exact (Follows.refl run.start).kept
  · split
    · exact requested.kept
    · obtain ⟨granted, follows⟩ := foldl_follows (rbdcInteger_follows _ _)
        run.start.inCarriersGroup
        (run.start.rbdcRequests run.start.inCarriersGroup).1.resetAlloc
      have shared := requested.resetAlloc.trans follows
      obtain ⟨decimals, follows', -⟩ :=
        rbdcDecimals_affords_of_ratio (shared.remaining_lt run.start_lt) _ _
      exact ⟨(shared.trans follows').demands, (shared.trans follows').packetFormat⟩

/-- The sum of the requests in 16 bits, as the loop computes it. -/
theorem totalRequestPktpf_eq (run : Allocation) :
    (run.start.rbdcRequests run.start.inCarriersGroup).2.totalRequestPktpf =
      wrap 16 run.outlook.rbdcRequests.sum := by
  rw [rbdcRequests, (foldl_rbdcRequest run.start ⟨∅, 0⟩ run.start.inCarriersGroup).2,
    foldl_add_totalRequestPktpf _ _ (by decide), demandsAt_inCarriersGroup, Nat.zero_add]
  rfl

/-- The packets granted by the first step are the shares of the 16-bit total. -/
theorem rbdcIntegers_follows {run : Allocation} (nodup : (run.onGroup.map (·.talId)).Nodup)
    (some_left : 0 < run.start.remainingPktpf) :
    Follows run.start
      (run.start.inCarriersGroup.foldl
        (rbdcInteger (run.start.rbdcRequests run.start.inCarriersGroup).2.talRequestPktpf
          (fairShare (wrap 16 run.outlook.rbdcRequests.sum) run.start.remainingPktpf))
        (run.start.rbdcRequests run.start.inCarriersGroup).1.resetAlloc)
      (run.outlook.rbdcRequests.map
        (share (wrap 16 run.outlook.rbdcRequests.sum) run.start.remainingPktpf)) := by
  have recorded := (foldl_rbdcRequest run.start ⟨∅, 0⟩ run.start.inCarriersGroup).2
  have requested :=
    (rbdcRequests_follows run.start run.start.inCarriersGroup).resetAlloc
  have group := requested.demandsAt run.start.inCarriersGroup
  rw [demandsAt_inCarriersGroup] at group recorded
  have requests :
      requestsAt (run.start.rbdcRequests run.start.inCarriersGroup).1.resetAlloc
        run.start.inCarriersGroup = run.outlook.rbdcRequests := by
    rw [requestsAt, group, requested.packetFormat]
    rfl
  have integers := @foldl_rbdcInteger
    (run.start.rbdcRequests run.start.inCarriersGroup).2.talRequestPktpf
    (wrap 16 run.outlook.rbdcRequests.sum) run.start.remainingPktpf some_left
    run.start.inCarriersGroup (run.start.rbdcRequests run.start.inCarriersGroup).1.resetAlloc
  rw [requests, group, requested.packetFormat] at integers
  apply requested.trans
  apply integers
  intro demand mem request asked
  rw [rbdcRequests, recorded]
  exact foldl_add_getD nodup _ mem asked

/-- **RBDC**: the packets granted exceed what remained unless the shares fit. -/
theorem computeDamaRbdcPerCarrier_served {run : Allocation}
    (word : run.carriers.remainingCapacity < 2 ^ 16)
    (nodup : (run.onGroup.map (·.talId)).Nodup) :
    ∃ granted, Served run run.computeDamaRbdcPerCarrier granted ∧
      (granted.sum ≤ run.carriers.remainingCapacity ↔
        FairSharesFit run.carriers.remainingCapacity run.outlook.rbdcRequests) := by
  have requested := rbdcRequests_follows run.start run.start.inCarriersGroup
  have integers := @rbdcIntegers_follows run nodup
  unfold computeDamaRbdcPerCarrier
  dsimp only
  rw [totalRequestPktpf_eq]
  split
  · rename_i nothing
    rw [start_remaining word] at nothing
    exact ⟨[], (Follows.refl run.start).skipped,
      fun _ => .inl nothing, fun _ => Nat.zero_le _⟩
  · rename_i some_left
    split
    · rename_i nothing
      exact ⟨[], requested.skipped, fun _ => .inr (.inl nothing), fun _ => Nat.zero_le _⟩
    · rename_i asked
      have shared := integers (Nat.pos_of_ne_zero some_left)
      obtain ⟨decimals, follows, le⟩ := rbdcDecimals_affords_of_ratio
        (shared.remaining_lt run.start_lt)
        (fairShare (wrap 16 run.outlook.rbdcRequests.sum) run.start.remainingPktpf) _
      refine ⟨_, (shared.trans follows).served word, ?_⟩
      rw [shared.remaining] at le
      rw [start_remaining word] at some_left le ⊢
      rw [FairSharesFit, or_iff_right some_left, or_iff_right asked,
        ← sum_share_wrap_le_iff word, List.sum_append]
      constructor
      · exact fun fits => (Nat.le_add_right _ _).trans fits
      · intro fits
        rw [spend_of_sum_le word fits] at le
        omega

/-! ### VBDC and FCA -/

theorem computeDamaVbdcPerCarrier_kept (run : Allocation) :
    Kept run run.computeDamaVbdcPerCarrier := by
  unfold computeDamaVbdcPerCarrier
  dsimp only
  split
  · exact (Follows.refl run.start).kept
  · split
    · exact (Follows.refl run.start).kept
    · obtain ⟨granted, follows, -⟩ := vbdcTerminals_affords run.start_lt (run.start.sortBy
        TerminalContextDamaRcs.vbdcOrder (run.start.sortBy TerminalContextDamaRcs.vbdcOrder
          run.start.inCarriersGroup))
      exact ⟨follows.demands, follows.packetFormat⟩

theorem computeDamaVbdcPerCarrier_served {run : Allocation}
    (word : run.carriers.remainingCapacity < 2 ^ 16) :
    ∃ granted, Served run run.computeDamaVbdcPerCarrier granted ∧
      granted.sum ≤ run.carriers.remainingCapacity := by
  unfold computeDamaVbdcPerCarrier
  dsimp only
  split
  · exact ⟨[], (Follows.refl run.start).skipped, Nat.zero_le _⟩
  · split
    · exact ⟨[], (Follows.refl run.start).skipped, Nat.zero_le _⟩
    · obtain ⟨granted, follows, le⟩ := vbdcTerminals_affords run.start_lt (run.start.sortBy
        TerminalContextDamaRcs.vbdcOrder (run.start.sortBy TerminalContextDamaRcs.vbdcOrder
          run.start.inCarriersGroup))
      rw [start_remaining word] at le
      exact ⟨granted, follows.served word, le⟩

/-- However many turns the loop of FCA takes, and whether it is over or not. -/
theorem computeDamaFcaPerCarrier_affords (fuel : Nat) (run : Allocation) :
    ∃ granted, Kept run (run.computeDamaFcaPerCarrier fuel).1 ∧
      (run.computeDamaFcaPerCarrier fuel).1.grants = run.grants ++ granted ∧
      granted.sum ≤ wrap 16 run.carriers.remainingCapacity := by
  unfold computeDamaFcaPerCarrier
  dsimp only
  split
  · exact ⟨[], (Follows.refl run.start).kept, (List.append_nil _).symm, Nat.zero_le _⟩
  · obtain ⟨granted, follows, le⟩ := fcaTerminals_affords fuel run.start_lt
      (run.start.sortBy TerminalContextDamaRcs.creditOrder run.start.inCarriersGroup)
    split
    · exact ⟨granted, ⟨follows.demands, follows.packetFormat⟩, follows.grants, le⟩
    · exact ⟨granted, follows.kept, follows.grants, le⟩

end Allocation

end OpenSand
