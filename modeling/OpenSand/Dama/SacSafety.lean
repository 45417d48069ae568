import OpenSand.Dama.Bookkeeping

/-!
The reception of a SAC for every sender.

The requests of a SAC go one after the other to the context found for its sender. A gateway
passes the check of the sender without a context, so the program survives the SAC exactly
when no capacity request comes from a gateway that has none; then only the requests of the
sender change.
-/

namespace OpenSand

open OpenSand.Registry OpenSand.Run OpenSand.Word

namespace DamaCtrlRcs2

/-- A request for the context found; without one, the program does not survive a capacity
request. -/
def hereIsCr (context : Option Nat) (dama : DamaCtrlRcs2) (cr : DecodedCr) :
    Option DamaCtrlRcs2 :=
  match cr.type with
  | some .damaVbdc => context.map fun ref =>
      { dama.modifyContext ref (·.hereIsRequest cr) with enableVbdc := true }
  | some .damaRbdc => context.map fun ref =>
      { dama.modifyContext ref (·.hereIsRequest cr) with enableRbdc := true }
  | _ => some dama

/-- A request for an allocation that needs a context. -/
def NeedsContext (cr : DecodedCr) : Prop :=
  cr.type = some .damaVbdc ∨ cr.type = some .damaRbdc

instance : DecidablePred NeedsContext := fun cr =>
  inferInstanceAs (Decidable (cr.type = some .damaVbdc ∨ cr.type = some .damaRbdc))

/-- A capacity request of a gateway without context. -/
def GatewayAsks (isGw : Nat → Bool) (dama : DamaCtrlRcs2) (talId : Nat)
    (requests : List DecodedCr) : Prop :=
  isGw talId = true ∧ talId ∉ dama.terminals ∧ ∃ cr ∈ requests, NeedsContext cr

/-- Only the requests of a terminal changed, and whether there are requests at all. -/
structure OnlyRequests (dama dama' : DamaCtrlRcs2) (talId : Nat) : Prop where
  sender : ∀ ref, dama.terminals.lookup talId = some ref → ∃ record rbdc credit timer vbdc,
    dama.records[ref]? = some record ∧ record.context.talId = talId ∧
      dama'.records[ref]? = some
        { record with
          context :=
            { record.context with
              rbdcRequestKbps := rbdc
              rbdcCredit := credit
              timerSf := timer
              vbdcRequestKb := vbdc } }
  others : ∀ ref, dama.terminals.lookup talId ≠ some ref →
    dama'.records[ref]? = dama.records[ref]?
  rest : ∃ enableRbdc enableVbdc, dama' =
    { dama with
      records := dama'.records
      enableRbdc := enableRbdc
      enableVbdc := enableVbdc }
  unknown : talId ∉ dama.terminals → dama' = dama

/-- The program survives the SAC, and only the requests of the sender change. -/
def SacSafe (isGw : Nat → Bool) (dama : DamaCtrlRcs2) (talId : Nat) (requests : List DecodedCr) :
    Prop :=
  ∃ status dama', dama.hereIsSAC isGw talId requests = some (status, dama') ∧
    dama.OnlyRequests dama' talId

variable {isGw : Nat → Bool} {dama dama' : DamaCtrlRcs2} {talId ref : Nat}
  {requests : List DecodedCr} {status : Bool}

/-! ### The requests of a SAC -/

theorem OnlyRequests.refl (known : talId ∉ dama.terminals) : dama.OnlyRequests dama talId where
  sender := by
    intro ref found
    exact absurd (AList.lookup_isSome.mp (by rw [found]; rfl)) known
  others _ _ := rfl
  rest := ⟨dama.enableRbdc, dama.enableVbdc, rfl⟩
  unknown _ := rfl

/-- Requests only change what a terminal requests. -/
theorem foldl_hereIsRequest_eq (requests : List DecodedCr) (terminal : TerminalContextDamaRcs) :
    ∃ rbdc credit timer vbdc, requests.foldl (·.hereIsRequest) terminal =
      { terminal with
        rbdcRequestKbps := rbdc
        rbdcCredit := credit
        timerSf := timer
        vbdcRequestKb := vbdc } := by
  induction requests generalizing terminal with
  | nil => exact ⟨_, _, _, _, rfl⟩
  | cons cr requests ih =>
      obtain ⟨rbdc, credit, timer, vbdc, same⟩ := ih (terminal.hereIsRequest cr)
      refine ⟨rbdc, credit, timer, vbdc, ?_⟩
      rw [List.foldl_cons, same]
      unfold TerminalContextDamaRcs.hereIsRequest
      split <;> rfl

theorem modifyContext_modifyContext (f g : TerminalContextDamaRcs → TerminalContextDamaRcs) :
    (dama.modifyContext ref f).modifyContext ref g =
      dama.modifyContext ref fun terminal => g (f terminal) := by
  unfold modifyContext
  dsimp only
  rw [List.modify_modify_eq]
  rfl

/-- What the requests leave when the sender has a context. -/
def afterRequests (dama : DamaCtrlRcs2) (ref : Nat) (requests : List DecodedCr) : DamaCtrlRcs2 :=
  { dama.modifyContext ref (requests.foldl (·.hereIsRequest)) with
    enableVbdc := dama.enableVbdc || requests.any (·.type = some .damaVbdc)
    enableRbdc := dama.enableRbdc || requests.any (·.type = some .damaRbdc) }

theorem modifyContext_id {f : TerminalContextDamaRcs → TerminalContextDamaRcs}
    (same : ∀ terminal, f terminal = terminal) : dama.modifyContext ref f = dama := by
  have keep : (fun record : TerminalRecord => { record with context := f record.context }) = id :=
    funext fun record => by rw [same]; rfl
  unfold modifyContext
  rw [keep, List.modify_id]

@[simp] theorem modifyContext_enableVbdc (f : TerminalContextDamaRcs → TerminalContextDamaRcs) :
    (dama.modifyContext ref f).enableVbdc = dama.enableVbdc := rfl

@[simp] theorem modifyContext_enableRbdc (f : TerminalContextDamaRcs → TerminalContextDamaRcs) :
    (dama.modifyContext ref f).enableRbdc = dama.enableRbdc := rfl

theorem hereIsCr_eq (dama : DamaCtrlRcs2) (ref : Nat) (cr : DecodedCr) :
    hereIsCr (some ref) dama cr = some (dama.afterRequests ref [cr]) := by
  unfold hereIsCr afterRequests
  split
  next vbdc => simp [vbdc]
  next rbdc => simp [rbdc]
  next noVbdc noRbdc =>
    have same : ∀ terminal : TerminalContextDamaRcs, [cr].foldl (·.hereIsRequest) terminal =
        terminal := by
      intro terminal
      simp only [List.foldl_cons, List.foldl_nil]
      unfold TerminalContextDamaRcs.hereIsRequest
      split
      next vbdc => exact absurd vbdc noVbdc
      next rbdc => exact absurd rbdc noRbdc
      next => rfl
    have vbdc : decide (cr.type = some .damaVbdc) = false := decide_eq_false noVbdc
    have rbdc : decide (cr.type = some .damaRbdc) = false := decide_eq_false noRbdc
    rw [modifyContext_id same]
    simp [vbdc, rbdc]

theorem afterRequests_cons (dama : DamaCtrlRcs2) (ref : Nat) (cr : DecodedCr)
    (requests : List DecodedCr) :
    (dama.afterRequests ref [cr]).afterRequests ref requests =
      dama.afterRequests ref (cr :: requests) := by
  have records := congrArg DamaCtrlRcs2.records
    (@modifyContext_modifyContext dama ref ([cr].foldl (·.hereIsRequest))
      (requests.foldl (·.hereIsRequest)))
  unfold afterRequests
  simp only [modifyContext, List.any_cons, List.any_nil, Bool.or_false, Bool.or_assoc] at records ⊢
  rw [records]
  rfl

/-- The requests reach the context one after the other. -/
theorem foldlM_hereIsCr (dama : DamaCtrlRcs2) (ref : Nat) (requests : List DecodedCr) :
    requests.foldlM (hereIsCr (some ref)) dama = some (dama.afterRequests ref requests) := by
  induction requests generalizing dama with
  | nil =>
      have same : dama.modifyContext ref ([].foldl (·.hereIsRequest)) = dama :=
        modifyContext_id fun _ => rfl
      unfold afterRequests
      rw [same]
      simp
  | cons cr requests ih =>
      rw [List.foldlM_cons, hereIsCr_eq]
      exact (ih _).trans (congrArg some (afterRequests_cons dama ref cr requests))

/-- Without a context, only requests of another type are survived. -/
theorem foldlM_hereIsCr_none (dama : DamaCtrlRcs2) (requests : List DecodedCr) :
    requests.foldlM (hereIsCr none) dama =
      if ∃ cr ∈ requests, NeedsContext cr then none else some dama := by
  induction requests with
  | nil => simp
  | cons cr requests ih =>
      rw [List.foldlM_cons]
      unfold hereIsCr
      split
      next vbdc =>
        rw [if_pos ⟨cr, List.mem_cons_self, .inl vbdc⟩]
        rfl
      next rbdc =>
        rw [if_pos ⟨cr, List.mem_cons_self, .inr rbdc⟩]
        rfl
      next noVbdc noRbdc =>
        have idle : ¬ NeedsContext cr := not_or.mpr ⟨noVbdc, noRbdc⟩
        refine ih.trans ?_
        simp only [List.mem_cons, exists_eq_or_imp, idle, false_or]

/-! ### The SAC -/

/-- The reception of a SAC is the check of its sender and the loop over its requests. -/
theorem hereIsSAC_eq_loop (linked : Linked dama.identities dama.terminals dama.lists) :
    dama.hereIsSAC isGw talId requests =
      if dama.terminals.lookup talId = none ∧ isGw talId = false then some (false, dama)
      else (requests.foldlM (hereIsCr (dama.terminals.lookup talId)) dama).map
        fun dama => (true, dama) := by
  unfold hereIsSAC
  cases found : dama.terminals.lookup talId with
  | none =>
      dsimp only
      rw [foldlM_hereIsCr_none]
      cases isGw talId with
      | false => simp
      | true =>
          have asks : (requests.any (·.type = some .damaVbdc) ||
              requests.any (·.type = some .damaRbdc)) = true ↔
                ∃ cr ∈ requests, NeedsContext cr := by
            simp only [Bool.or_eq_true, List.any_eq_true, decide_eq_true_iff, NeedsContext,
              and_or_left, exists_or]
          by_cases needed : ∃ cr ∈ requests, NeedsContext cr
          · simp [asks.mpr needed, if_pos needed]
          · simp [Bool.eq_false_of_not_eq_true (mt asks.mp needed), if_neg needed]
  | some ref =>
      obtain ⟨record, recordAt, -⟩ := identities_getElem? linked found
      dsimp only
      rw [recordAt, foldlM_hereIsCr]
      simp [afterRequests]

theorem afterRequests_onlyRequests (linked : Linked dama.identities dama.terminals dama.lists)
    (found : dama.terminals.lookup talId = some ref) (requests : List DecodedCr) :
    dama.OnlyRequests (dama.afterRequests ref requests) talId where
  sender := by
    intro ref' found'
    cases found.symm.trans found'
    obtain ⟨record, recordAt, own, -⟩ := identities_getElem? linked found
    obtain ⟨rbdc, credit, timer, vbdc, same⟩ := foldl_hereIsRequest_eq requests record.context
    refine ⟨record, rbdc, credit, timer, vbdc, recordAt, own, ?_⟩
    change (dama.records.modify ref _)[ref]? = _
    rw [List.getElem?_modify, recordAt, ← same]
    simp
  others := by
    intro other ne
    change (dama.records.modify ref _)[other]? = _
    have differ : ref ≠ other := by
      rintro rfl
      exact ne found
    simp [differ]
  rest := ⟨_, _, rfl⟩
  unknown := by
    intro unknown
    rw [AList.lookup_eq_none.mpr unknown] at found
    cases found

/-- A SAC is received safely exactly when no capacity request in it comes from a gateway
without context. -/
theorem sacSafe_iff_of_linked (linked : Linked dama.identities dama.terminals dama.lists) :
    dama.SacSafe isGw talId requests ↔ ¬ dama.GatewayAsks isGw talId requests := by
  unfold SacSafe
  rw [hereIsSAC_eq_loop linked]
  cases found : dama.terminals.lookup talId with
  | none =>
      have unknown : talId ∉ dama.terminals := AList.lookup_eq_none.mp found
      cases gateway : isGw talId with
      | false =>
          have silent : ¬ dama.GatewayAsks isGw talId requests := by
            rintro ⟨isGateway, -⟩
            rw [gateway] at isGateway
            cases isGateway
          exact ⟨fun _ => silent, fun _ => ⟨false, dama, if_pos ⟨rfl, rfl⟩, .refl unknown⟩⟩
      | true =>
          rw [if_neg (by simp), foldlM_hereIsCr_none]
          constructor
          · rintro ⟨status, dama', survived, -⟩ ⟨-, -, asks⟩
            rw [if_pos asks] at survived
            cases survived
          · intro silent
            have noAsk : ¬ ∃ cr ∈ requests, NeedsContext cr :=
              fun asks => silent ⟨gateway, unknown, asks⟩
            rw [if_neg noAsk]
            exact ⟨true, dama, rfl, .refl unknown⟩
  | some ref =>
      rw [if_neg (by simp), foldlM_hereIsCr]
      constructor
      · rintro - ⟨-, unknown, -⟩
        rw [AList.lookup_eq_none.mpr unknown] at found
        cases found
      · intro
        exact ⟨true, _, rfl, afterRequests_onlyRequests linked found requests⟩

end DamaCtrlRcs2

/-! ### Runs -/

namespace DamaWatch

/-- **Reception of the SACs.** In every state that a controller without terminals reaches, a SAC
is received safely exactly when no capacity request in it comes from a gateway without
context. -/
theorem sacSafe_iff (isGw : Nat → Bool) (dama : DamaCtrlRcs2)
    (labels : (dama.categories.map (·.label)).Nodup) (noTerminal : dama.terminals = ∅)
    (noList : ∀ category ∈ dama.categories, category.terminals = [])
    (noCount : dama.gwStNum = 0 ∧ dama.gwRbdcMaxKbps = 0) (commands : List DamaCommand) :
    AllStates (step isGw)
      (fun watch => ∀ talId requests, watch.dama.SacSafe isGw talId requests ↔
        ¬ watch.dama.GatewayAsks isGw talId requests)
      (start dama) commands := by
  refine (allStates_booked isGw labels noTerminal noList noCount commands).mono ?_
  rintro watch ⟨booked, -⟩ talId requests
  exact DamaCtrlRcs2.sacSafe_iff_of_linked booked.linked

/-- A terminal logs on and sends a volume request; the gateway 0 has no context. -/
theorem standardDama_sacSafe_iff :
    AllStates (step (· = 0))
      (fun watch => ∀ talId requests, watch.dama.SacSafe (· = 0) talId requests ↔
        ¬ watch.dama.GatewayAsks (· = 0) talId requests)
      (start standardDama) [.logon ⟨1, 100, 2000, 50⟩, .sac 1 [⟨0, some .damaVbdc, 10⟩]] :=
  sacSafe_iff (· = 0) standardDama (List.nodup_singleton _) rfl
    (fun category mem => by rw [List.mem_singleton.mp mem]) ⟨rfl, rfl⟩ _

/-- A rate request of the gateway 0, which has no context, is not survived. -/
theorem standardDama_not_sacSafe :
    ¬ ∀ commands, AllStates (step (· = 0))
      (fun watch => ∀ talId requests, watch.dama.SacSafe (· = 0) talId requests)
      (start standardDama) commands := by
  intro safe
  obtain ⟨status, dama', survived, -⟩ := (safe []).head 0 [⟨0, some .damaRbdc, 100⟩]
  cases survived

end DamaWatch

end OpenSand
