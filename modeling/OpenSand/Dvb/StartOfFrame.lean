import OpenSand.Lib.Run
import Mathlib.Data.UInt

/-!
Starts of frame at a terminal (`BlockDvbTal::Downward::handleStartOfFrame`).

A superframe number below the last one is taken for a reboot of the gateway, but for the
step from 65535 to 0. So a superframe lost at the wrap restarts the logon of the terminal,
and a number that goes back over the wrap does not.
-/

namespace OpenSand

inductive TalState where
  | null | off | initializing | waitLogonResp | running
deriving DecidableEq, Repr

/-- What the handlers do, in order. -/
inductive TalAction where
  | deletePackets
  | sendLogonReq (sent : Bool)
  | startFrame (sfn : UInt16)
deriving DecidableEq, Repr

structure TalDownward where
  state : TalState
  superFrameCounter : UInt16
  actions : List TalAction

/-- What a terminal receives. A logon request may not be `sent`, and the treatments of a
new frame may fail. -/
inductive TalReception where
  | sof (sfn : UInt16) (sent processed : Bool)
  | logonResp

namespace TalDownward

/-- The test of a reboot of the gateway. -/
def Rebooted (tal : TalDownward) (sfn : UInt16) : Prop :=
  sfn < tal.superFrameCounter ∧ (sfn ≠ 0 ∨ (tal.superFrameCounter.toNat + 1) % 65536 ≠ 0)

instance (tal : TalDownward) (sfn : UInt16) : Decidable (tal.Rebooted sfn) :=
  inferInstanceAs (Decidable (_ ∧ _))

/-- The status and the terminal after a start of frame. -/
def handleStartOfFrame (tal : TalDownward) (sfn : UInt16) (sent processed : Bool) :
    Bool × TalDownward :=
  if tal.Rebooted sfn then
    let tal := { tal with actions := tal.actions ++ [.deletePackets, .sendLogonReq sent] }
    if sent then (false, { tal with state := .waitLogonResp, superFrameCounter := sfn })
    else (false, tal)
  else
    (processed, { tal with
      superFrameCounter := sfn
      actions := tal.actions ++ [.startFrame sfn] })

def handleLogonResp (tal : TalDownward) : TalDownward := { tal with state := .running }

end TalDownward

/-! ### Runs -/

/-- A terminal beside the number of the last start of frame. -/
structure SofRun where
  tal : TalDownward
  last : UInt16

namespace SofRun

def step (run : SofRun) : TalReception → Option SofRun
  | .sof sfn sent processed => some ⟨(run.tal.handleStartOfFrame sfn sent processed).2, sfn⟩
  | .logonResp => some { run with tal := run.tal.handleLogonResp }

/-- A logged-on terminal at a superframe. -/
def logged (superFrameCounter : UInt16) : SofRun :=
  ⟨⟨.running, superFrameCounter, []⟩, superFrameCounter⟩

/-- The number comes after the last one, with fewer than `2 ^ 15` frames lost between. -/
def Ahead (last sfn : UInt16) : Prop := 1 ≤ (sfn - last).toNat ∧ (sfn - last).toNat ≤ 2 ^ 15

/-- The number is behind the last one, by fewer than `2 ^ 15`. -/
def Behind (last sfn : UInt16) : Prop := 1 ≤ (last - sfn).toNat ∧ (last - sfn).toNat < 2 ^ 15

/-- Every number ahead starts a frame, and every number behind restarts the logon. -/
def Answered (run : SofRun) (reception : TalReception) (run' : SofRun) : Prop :=
  ∀ sfn sent processed, reception = .sof sfn sent processed →
    (Ahead run.last sfn → run'.tal.actions = run.tal.actions ++ [.startFrame sfn]) ∧
    (Behind run.last sfn →
      run'.tal.actions = run.tal.actions ++ [.deletePackets, .sendLogonReq true] ∧
        run'.tal.state = .waitLogonResp)

/-- A number ahead is greater than the last one, but for 0 after 65535, and a number behind
is smaller, and the logon request can be sent. -/
def Unwrapped (run : SofRun) (reception : TalReception) : Prop :=
  ∀ sfn sent processed, reception = .sof sfn sent processed →
    (Ahead run.last sfn → run.last < sfn ∨ run.last = 65535 ∧ sfn = 0) ∧
    (Behind run.last sfn → sfn < run.last ∧ sent = true)

/-! ### The test and the order of the numbers -/

theorem rebooted_iff {tal : TalDownward} {sfn : UInt16} :
    tal.Rebooted sfn ↔ sfn < tal.superFrameCounter ∧
      ¬ (tal.superFrameCounter = 65535 ∧ sfn = 0) := by
  have word := tal.superFrameCounter.toNat_lt
  have wrap : (tal.superFrameCounter.toNat + 1) % 65536 = 0 ↔ tal.superFrameCounter = 65535 := by
    rw [← UInt16.toNat_inj]
    change _ ↔ tal.superFrameCounter.toNat = 65535
    omega
  rw [TalDownward.Rebooted, not_and_or, ne_eq, ne_eq, wrap, or_comm]

theorem not_rebooted_iff_of_ahead {tal : TalDownward} {sfn : UInt16}
    (ahead : Ahead tal.superFrameCounter sfn) :
    ¬ tal.Rebooted sfn ↔
      tal.superFrameCounter < sfn ∨ tal.superFrameCounter = 65535 ∧ sfn = 0 := by
  have apart : tal.superFrameCounter.toNat ≠ sfn.toNat := by
    intro same
    have zero := ahead.1
    rw [UInt16.toNat_inj.mp same, sub_self] at zero
    exact absurd zero (by decide)
  rw [rebooted_iff, UInt16.lt_iff_toNat_lt, UInt16.lt_iff_toNat_lt]
  constructor
  · intro stays
    rcases Nat.lt_or_gt_of_ne apart with low | high
    · exact .inl low
    · exact .inr (not_not.mp fun other => stays ⟨high, other⟩)
  · rintro (low | wrap) ⟨high, other⟩
    · omega
    · exact other wrap

theorem rebooted_iff_of_behind {tal : TalDownward} {sfn : UInt16}
    (behind : Behind tal.superFrameCounter sfn) :
    tal.Rebooted sfn ↔ sfn < tal.superFrameCounter := by
  rw [rebooted_iff]
  refine and_iff_left_of_imp fun _ => ?_
  rintro ⟨top, zero⟩
  have far := behind.2
  rw [top, zero] at far
  exact absurd far (by decide)

/-- A number is the last one, ahead of it or behind it. -/
theorem eq_or_ahead_or_behind (last sfn : UInt16) : sfn = last ∨ Ahead last sfn ∨ Behind last sfn := by
  have low := last.toNat_lt
  have low' := sfn.toNat_lt
  rw [Ahead, Behind, UInt16.toNat_sub, UInt16.toNat_sub, ← UInt16.toNat_inj]
  omega

/-! ### One reception -/

variable {tal : TalDownward} {sfn : UInt16} {sent processed : Bool}

theorem starts_frame_iff :
    (tal.handleStartOfFrame sfn sent processed).2.actions = tal.actions ++ [.startFrame sfn] ↔
      ¬ tal.Rebooted sfn := by
  by_cases rebooted : tal.Rebooted sfn
  · cases sent <;> simp [TalDownward.handleStartOfFrame, rebooted]
  · simp [TalDownward.handleStartOfFrame, rebooted]

theorem restarts_logon_iff :
    ((tal.handleStartOfFrame sfn sent processed).2.actions =
          tal.actions ++ [.deletePackets, .sendLogonReq true] ∧
        (tal.handleStartOfFrame sfn sent processed).2.state = .waitLogonResp) ↔
      tal.Rebooted sfn ∧ sent = true := by
  by_cases rebooted : tal.Rebooted sfn
  · cases sent <;> simp [TalDownward.handleStartOfFrame, rebooted]
  · simp [TalDownward.handleStartOfFrame, rebooted]

/-- The exact law of one reception. -/
theorem answered_iff_unwrapped {run run' : SofRun} {reception : TalReception}
    (same : run.tal.superFrameCounter = run.last) (taken : step run reception = some run') :
    Answered run reception run' ↔ Unwrapped run reception := by
  refine forall₃_congr fun sfn sent processed => forall_congr' fun received => ?_
  subst received
  cases taken
  rw [← same]
  refine and_congr (forall_congr' fun ahead => ?_) (forall_congr' fun behind => ?_)
  · exact starts_frame_iff.trans (not_rebooted_iff_of_ahead ahead)
  · exact restarts_logon_iff.trans (and_congr_left' (rebooted_iff_of_behind behind))

/-- A number that is answered as it should be is the one the terminal counts from. -/
theorem counter_of_answered {run run' : SofRun} {reception : TalReception}
    (same : run.tal.superFrameCounter = run.last) (taken : step run reception = some run')
    (answered : Answered run reception run') : run'.tal.superFrameCounter = run'.last := by
  cases reception with
  | logonResp =>
      cases taken
      exact same
  | sof sfn sent processed =>
      have good := answered sfn sent processed rfl
      cases taken
      by_cases rebooted : run.tal.Rebooted sfn
      · cases sent with
        | true => simp [TalDownward.handleStartOfFrame, rebooted]
        | false =>
            rcases eq_or_ahead_or_behind run.last sfn with same' | ahead | behind
            · rw [rebooted_iff, same, same'] at rebooted
              exact absurd rebooted.1 (UInt16.lt_irrefl _)
            · exact absurd rebooted (starts_frame_iff.mp (good.1 ahead))
            · exact absurd (restarts_logon_iff.mp (good.2 behind)).2 Bool.false_ne_true
      · simp [TalDownward.handleStartOfFrame, rebooted]

/-- A logged-on terminal answers every start of frame of a run as it should exactly when no
number of it crosses the wrap, but for 0 after 65535. -/
theorem answered_iff (superFrameCounter : UInt16) (receptions : List TalReception) :
    Run.AllMoves step Answered (logged superFrameCounter) receptions ↔
      Run.AllSteps step Unwrapped (logged superFrameCounter) receptions :=
  Run.allMoves_iff_allSteps (P := fun run => run.tal.superFrameCounter = run.last) rfl
    (fun _ _ _ => answered_iff_unwrapped) fun _ _ _ => counter_of_answered

/-- One superframe lost, and the next one is 0: the logon is restarted. -/
theorem loss_at_wrap_restarts :
    ¬ ∀ superFrameCounter receptions,
      Run.AllMoves step Answered (logged superFrameCounter) receptions := by
  intro answered
  have ahead : Ahead 65534 0 := ⟨by decide, by decide⟩
  have starts := ((answered 65534 [.sof 0 true true] _ rfl).1 0 true true rfl).1 ahead
  exact absurd starts (by decide)

end SofRun

end OpenSand
