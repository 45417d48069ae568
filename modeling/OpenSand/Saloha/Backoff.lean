import Mathlib.Data.Nat.Sqrt
import OpenSand.Lib.Rand
import OpenSand.Lib.Run
import OpenSand.Lib.Word

/-!
The back-off of a terminal (`SlottedAlohaBackoff`).

Three algorithms keep a contention window, of which a random part is waited for. The
window starts at 0 and is updated once as if a packet had been acknowledged: BEB then
sets it to its minimum, and the others multiply or divide it. The arithmetic is that of
`int`; a product that leaves it has no result.
-/

namespace OpenSand

open OpenSand.Run OpenSand.Word

inductive BackoffAlgo where
  | beb | eied | mimd
deriving DecidableEq, Repr

/-- What a back-off is built with. -/
structure BackoffConfig where
  algo : BackoffAlgo
  cwMax : UInt16
  multiple : UInt16
  cwMax_pos : 1 ≤ cwMax
  multiple_pos : 1 ≤ multiple

structure SlottedAlohaBackoff where
  cw : UInt16
  backoff : UInt16
deriving DecidableEq, Repr

namespace SlottedAlohaBackoff

def cwMin : UInt16 := 1

def tick (backoff : SlottedAlohaBackoff) : SlottedAlohaBackoff :=
  { backoff with backoff := .ofNat (backoff.backoff.toNat - 1) }

def randomize (draw : Rand) (backoff : SlottedAlohaBackoff) : SlottedAlohaBackoff :=
  { backoff with backoff := .ofNat (draw.scale backoff.cw.toNat) }

def isReady (backoff : SlottedAlohaBackoff) : Bool := backoff.backoff ≤ 0

/-- A window of at most the maximum, and a new back-off in it. -/
def update (config : BackoffConfig) (draw : Rand) (cw : Nat) (backoff : SlottedAlohaBackoff) :
    SlottedAlohaBackoff :=
  { backoff with cw := .ofNat (min cw config.cwMax.toNat) }.randomize draw

/-! ### The algorithms -/

def setReadyBeb (draw : Rand) (backoff : SlottedAlohaBackoff) : SlottedAlohaBackoff :=
  { backoff with cw := cwMin }.randomize draw

def setReadyEied (config : BackoffConfig) (draw : Rand) (backoff : SlottedAlohaBackoff) :
    Option SlottedAlohaBackoff :=
  (mulInt backoff.cw.toNat config.multiple.toNat.sqrt).map fun cw => backoff.update config draw cw

def setReadyMimd (config : BackoffConfig) (draw : Rand) (backoff : SlottedAlohaBackoff) :
    SlottedAlohaBackoff :=
  backoff.update config draw (backoff.cw.toNat / config.multiple.toNat)

/-- After a successful transmission. -/
def setReady (config : BackoffConfig) (draw : Rand) (backoff : SlottedAlohaBackoff) :
    Option SlottedAlohaBackoff :=
  match config.algo with
  | .beb => some (backoff.setReadyBeb draw)
  | .eied => backoff.setReadyEied config draw
  | .mimd => some (backoff.setReadyMimd config draw)

/-- After a collision, the same for the three algorithms. -/
def setCollision (config : BackoffConfig) (draw : Rand) (backoff : SlottedAlohaBackoff) :
    Option SlottedAlohaBackoff :=
  (mulInt backoff.cw.toNat config.multiple.toNat).map fun cw => backoff.update config draw cw

/-- The constructors. -/
def create (config : BackoffConfig) (draw : Rand) : Option SlottedAlohaBackoff :=
  setReady config draw ⟨0, 0⟩

/-! ### Runs -/

/-- What happens to a back-off, with the outcome of the random generator. -/
inductive Event where
  | tick
  | ready (draw : Rand)
  | collision (draw : Rand)

def step (config : BackoffConfig) (backoff : SlottedAlohaBackoff) :
    Event → Option SlottedAlohaBackoff
  | .tick => some backoff.tick
  | .ready draw => backoff.setReady config draw
  | .collision draw => backoff.setCollision config draw

def InWindow (config : BackoffConfig) (backoff : SlottedAlohaBackoff) : Prop :=
  cwMin ≤ backoff.cw ∧ backoff.cw ≤ config.cwMax

/-- A success does not grow the window; a collision grows it up to the maximum. -/
def Moves (config : BackoffConfig) (backoff : SlottedAlohaBackoff) :
    Event → SlottedAlohaBackoff → Prop
  | .tick, next => next.cw = backoff.cw
  | .ready _, next => next.cw ≤ backoff.cw
  | .collision _, next =>
      backoff.cw ≤ next.cw ∧ (backoff.cw < config.cwMax → backoff.cw < next.cw)

/-- The discipline of the window in a run from the constructor. -/
def Disciplined (config : BackoffConfig) (draw : Rand) (events : List Event) : Prop :=
  ∃ first, create config draw = some first ∧
    Survives (step config) (InWindow config) (Moves config) first events

/-- A collision multiplies the window by two at least, unless it is at its maximum, and the
product is an `int`. -/
def Grows (config : BackoffConfig) (backoff : SlottedAlohaBackoff) : Event → Prop
  | .collision _ => backoff.cw.toNat * config.multiple.toNat < 2 ^ 31 ∧
      (backoff.cw < config.cwMax → 2 ≤ config.multiple)
  | _ => True

/-! ### The window -/

variable {config : BackoffConfig} {backoff : SlottedAlohaBackoff}

theorem update_cw (draw : Rand) (cw : Nat) :
    (backoff.update config draw cw).cw.toNat = min cw config.cwMax.toNat :=
  UInt16.toNat_ofNat_of_lt' (lt_of_le_of_lt (min_le_right ..) config.cwMax.toNat_lt)

/-! ### What a collision does to the window -/

theorem update_le (draw : Rand) (cw : Nat) : (backoff.update config draw cw).cw ≤ config.cwMax := by
  rw [UInt16.le_iff_toNat_le, update_cw]
  exact min_le_right ..

theorem le_update (draw : Rand) (high : backoff.cw ≤ config.cwMax) : backoff.cw ≤
    (backoff.update config draw (backoff.cw.toNat * config.multiple.toNat)).cw := by
  rw [UInt16.le_iff_toNat_le, update_cw]
  exact le_min (Nat.le_mul_of_pos_right _ (UInt16.le_iff_toNat_le.mp config.multiple_pos))
    (UInt16.le_iff_toNat_le.mp high)

theorem lt_update (draw : Rand) (low : cwMin ≤ backoff.cw) (below : backoff.cw < config.cwMax)
    (twice : 2 ≤ config.multiple) : backoff.cw <
      (backoff.update config draw (backoff.cw.toNat * config.multiple.toNat)).cw := by
  have pos : 1 ≤ backoff.cw.toNat := UInt16.le_iff_toNat_le.mp low
  have more : backoff.cw.toNat * 2 ≤ backoff.cw.toNat * config.multiple.toNat :=
    Nat.mul_le_mul_left _ (UInt16.le_iff_toNat_le.mp twice)
  rw [UInt16.lt_iff_toNat_lt, update_cw]
  exact lt_min (by omega) (UInt16.lt_iff_toNat_lt.mp below)

/-- A window that grows was multiplied by two at least. -/
theorem two_le_multiple (draw : Rand) (grows : backoff.cw <
    (backoff.update config draw (backoff.cw.toNat * config.multiple.toNat)).cw) :
    2 ≤ config.multiple := by
  rw [UInt16.lt_iff_toNat_lt, update_cw] at grows
  have more := lt_of_lt_of_le grows (min_le_left ..)
  rw [UInt16.le_iff_toNat_le]
  by_contra one
  have most : backoff.cw.toNat * config.multiple.toNat ≤ backoff.cw.toNat * 1 :=
    Nat.mul_le_mul_left _ (Nat.lt_succ_iff.mp (not_le.mp one))
  omega

/-! ### Every run -/

theorem update_zero (draw : Rand) : backoff.update config draw 0 = ⟨0, 0⟩ := by
  have zero : UInt16.ofNat 0 = 0 := rfl
  simp only [update, randomize, Nat.zero_min, zero, UInt16.toNat_zero, Rand.scale_zero]

/-- The other algorithms multiply and divide the window of 0 that they start with, which leaves
it at 0 in every run: no collision makes the terminal wait. -/
theorem allStates_zero_of_not_beb (other : config.algo ≠ .beb) (draw : Rand)
    (events : List Event) :
    ∃ first, create config draw = some first ∧
      AllStates (step config) (fun backoff => backoff = ⟨0, 0⟩) first events := by
  have ready : ∀ draw, setReady config draw ⟨0, 0⟩ = some ⟨0, 0⟩ := by
    intro draw
    cases algo : config.algo with
    | beb => exact absurd algo other
    | eied => simp [setReady, algo, setReadyEied, mulInt, update_zero]
    | mimd => simp [setReady, algo, setReadyMimd, update_zero]
  refine ⟨⟨0, 0⟩, ready draw, allStates_of_step rfl ?_⟩
  rintro _ event next rfl taken
  cases event with
  | tick => exact (Option.some.inj taken).symm
  | ready draw => exact (Option.some.inj ((ready draw).symm.trans taken)).symm
  | collision draw =>
      simp only [step, setCollision, mulInt, UInt16.toNat_zero, Nat.zero_mul, Nat.two_pow_pos,
        if_true, Option.map_some, update_zero, Option.some.injEq] at taken
      exact taken.symm

/-- From a window in its bounds, an event of BEB is as it should be when a collision grows the
window. -/
theorem step_iff (beb : config.algo = .beb) (event : Event) (inside : InWindow config backoff) :
    (∃ next, step config backoff event = some next ∧ Moves config backoff event next ∧
      InWindow config next) ↔ Grows config backoff event := by
  obtain ⟨low, high⟩ := inside
  cases event with
  | tick => exact iff_of_true ⟨backoff.tick, rfl, rfl, low, high⟩ trivial
  | ready draw =>
      refine iff_of_true ⟨backoff.setReadyBeb draw, ?_, low, UInt16.le_refl _, config.cwMax_pos⟩ trivial
      simp only [step, setReady, beb]
  | collision draw =>
      constructor
      · rintro ⟨next, taken, ⟨-, grows⟩, -⟩
        obtain ⟨cw, product, rfl⟩ := Option.map_eq_some_iff.mp taken
        obtain ⟨fits, rfl⟩ := mulInt_eq_some.mp product
        exact ⟨fits, fun below => two_le_multiple draw (grows below)⟩
      · rintro ⟨fits, grows⟩
        have kept := le_update draw high
        exact ⟨_, Option.map_eq_some_iff.mpr ⟨_, mulInt_eq_some.mpr ⟨fits, rfl⟩, rfl⟩,
          ⟨kept, fun below => lt_update draw low below (grows below)⟩,
          UInt16.le_trans low kept, update_le draw _⟩

/-- Every algorithm, configuration and sequence of events. -/
theorem disciplined_iff (config : BackoffConfig) (draw : Rand) (events : List Event) :
    Disciplined config draw events ↔
      config.algo = .beb ∧ ∃ first, create config draw = some first ∧
        AllTries (step config) (Grows config) first events := by
  by_cases beb : config.algo = .beb
  · have first : create config draw = some (setReadyBeb draw ⟨0, 0⟩) := by
      simp only [create, setReady, beb]
    have inside : InWindow config (setReadyBeb draw ⟨0, 0⟩) := ⟨UInt16.le_refl _, config.cwMax_pos⟩
    have run : Survives (step config) (InWindow config) (Moves config) _ events ↔ _ :=
      survives_iff_allTries inside fun backoff event inside => step_iff beb event inside
    constructor
    · rintro ⟨_, created, survives⟩
      cases first.symm.trans created
      exact ⟨beb, _, first, run.mp survives⟩
    · rintro ⟨-, _, created, tries⟩
      cases first.symm.trans created
      exact ⟨_, first, run.mpr tries⟩
  · refine iff_of_false ?_ fun holds => beb holds.1
    rintro ⟨first, created, survives⟩
    obtain ⟨first', created', zero⟩ := allStates_zero_of_not_beb beb draw events
    cases created.symm.trans created'
    have low := survives.head.1
    rw [zero.head] at low
    exact absurd low (by decide)

/-- EIED with a maximum of 16, doubling. -/
def eiedConfig : BackoffConfig := ⟨.eied, 16, 2, by decide, by decide⟩

/-- It doubles a window of 0 at each collision, below its minimum. -/
theorem eiedConfig_not_disciplined :
    ¬ Disciplined eiedConfig .greatest [.collision .greatest, .collision .greatest] := by
  rintro ⟨first, created, survives⟩
  have zero : create eiedConfig .greatest = some ⟨0, 0⟩ := by
    simp [create, setReady, eiedConfig, setReadyEied, mulInt, update_zero]
  cases zero.symm.trans created
  exact absurd survives.1.1 (by decide)

end SlottedAlohaBackoff

end OpenSand
