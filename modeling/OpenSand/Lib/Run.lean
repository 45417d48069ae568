import Mathlib.Data.List.Basic

/-!
Runs of a machine and loops that may stop early.

A machine is a partial step function `σ → ι → Option σ`: a step without result
is one the program does not survive. `AllStates` speaks of every state of a run
and `AllSteps` of every step taken in it, each at the state before the step.
`AllMoves` relates the states before and after each of them. `Survives` asks for
every step to be survived, and `AllTries` speaks of the steps that are not as well.
`allStates_iff_allSteps` turns an exact one-step law into an exact law of runs.

`forEach` is the loop of a function that returns a Boolean status: the body is
called on each element in turn, and a `false` status ends the loop at once with
that status. `EachCall` collects what holds at every call of the body.

`Drains` replays what was taken out of a queue: each record has the element that was taken,
which is the head of the queue, and what was put back at the head for it.
-/

namespace OpenSand.Run

variable {σ ι : Type*}

/-! ### Runs -/

/-- The state after a list of inputs, when every step survives. -/
def run (step : σ → ι → Option σ) : σ → List ι → Option σ
  | s, [] => some s
  | s, i :: is => (step s i).bind fun s' => run step s' is

/-- `P` holds in every state of the run, the first one included. -/
def AllStates (step : σ → ι → Option σ) (P : σ → Prop) : σ → List ι → Prop
  | s, [] => P s
  | s, i :: is => P s ∧ ∀ s', step s i = some s' → AllStates step P s' is

/-- `C` holds at every step of the run that is survived, at the state before
the step. -/
def AllSteps (step : σ → ι → Option σ) (C : σ → ι → Prop) : σ → List ι → Prop
  | _, [] => True
  | s, i :: is => ∀ s', step s i = some s' → C s i ∧ AllSteps step C s' is

variable {step : σ → ι → Option σ} {P : σ → Prop} {C : σ → ι → Prop}

theorem AllStates.head {s : σ} {is : List ι} (h : AllStates step P s is) : P s := by
  cases is with
  | nil => exact h
  | cons i is => exact h.1

theorem AllStates.mono {Q : σ → Prop} {s : σ} {is : List ι} (h : AllStates step P s is)
    (weaker : ∀ s, P s → Q s) : AllStates step Q s is := by
  induction is generalizing s with
  | nil => exact weaker s h
  | cons i is ih => exact ⟨weaker s h.1, fun s' taken => ih (h.2 s' taken)⟩

theorem AllStates.and {Q : σ → Prop} {s : σ} {is : List ι} (h : AllStates step P s is)
    (h' : AllStates step Q s is) : AllStates step (fun s => P s ∧ Q s) s is := by
  induction is generalizing s with
  | nil => exact ⟨h, h'⟩
  | cons i is ih => exact ⟨⟨h.1, h'.1⟩, fun s' taken => ih (h.2 s' taken) (h'.2 s' taken)⟩

theorem run_append {s : σ} {is js : List ι} :
    run step s (is ++ js) = (run step s is).bind fun s' => run step s' js := by
  induction is generalizing s with
  | nil => rfl
  | cons i is ih =>
      rw [List.cons_append, run, run, Option.bind_assoc]
      exact congrArg _ (funext fun s' => ih)

/-- The state a run ends in is one of its states. -/
theorem AllStates.last {s s' : σ} {is : List ι} (h : AllStates step P s is)
    (ends : run step s is = some s') : P s' := by
  induction is generalizing s with
  | nil =>
      cases ends
      exact h
  | cons i is ih =>
      obtain ⟨next, taken, rest⟩ := Option.bind_eq_some_iff.mp ends
      exact ih (h.2 next taken) rest

/-- An invariant that every step keeps holds in every state of a run. -/
theorem allStates_of_step {s : σ} {is : List ι} (init : P s)
    (keep : ∀ s i s', P s → step s i = some s' → P s') : AllStates step P s is := by
  induction is generalizing s with
  | nil => exact init
  | cons i is ih => exact ⟨init, fun s' taken => ih (keep s i s' init taken)⟩

/-- An invariant kept by the steps that meet a condition holds in every state
of a run whose steps all meet it. -/
theorem allStates_of_allSteps {s : σ} {is : List ι} (init : P s)
    (keep : ∀ s i s', P s → C s i → step s i = some s' → P s')
    (steps : AllSteps step C s is) : AllStates step P s is := by
  induction is generalizing s with
  | nil => exact init
  | cons i is ih =>
      refine ⟨init, fun s' taken => ?_⟩
      obtain ⟨cond, rest⟩ := steps s' taken
      exact ih (keep s i s' init cond taken) rest

/-- A condition on the inputs alone. -/
theorem allSteps_of_inputs {s : σ} {is : List ι} (inputs : ∀ i ∈ is, ∀ s, C s i) :
    AllSteps step C s is := by
  induction is generalizing s with
  | nil => trivial
  | cons i is ih =>
      intro s' taken
      exact ⟨inputs i List.mem_cons_self s, ih fun j mem => inputs j (List.mem_cons_of_mem _ mem)⟩

/-- `R` relates the states before and after every step of the run that is survived. -/
def AllMoves (step : σ → ι → Option σ) (R : σ → ι → σ → Prop) : σ → List ι → Prop
  | _, [] => True
  | s, i :: is => ∀ s', step s i = some s' → R s i s' ∧ AllMoves step R s' is

theorem allMoves_of_allStates {R : σ → ι → σ → Prop} {s : σ} {is : List ι}
    (states : AllStates step P s is) (moves : ∀ s i s', P s → step s i = some s' → R s i s') :
    AllMoves step R s is := by
  induction is generalizing s with
  | nil => trivial
  | cons i is ih =>
      intro s' taken
      exact ⟨moves s i s' states.1 taken, ih (states.2 s' taken)⟩

/-- The steps that meet a condition keep an invariant and make good moves. -/
theorem allMoves_of_allSteps {R : σ → ι → σ → Prop} {s : σ} {is : List ι} (init : P s)
    (keep : ∀ s i s', P s → C s i → step s i = some s' → P s')
    (moves : ∀ s i s', P s → C s i → step s i = some s' → R s i s')
    (steps : AllSteps step C s is) : AllMoves step R s is := by
  induction is generalizing s with
  | nil => trivial
  | cons i is ih =>
      intro s' taken
      obtain ⟨cond, rest⟩ := steps s' taken
      exact ⟨moves s i s' init cond taken, ih (keep s i s' init cond taken) rest⟩

/-- If from a good state a step leads to a good state exactly when it meets the
condition, then a run from a good state stays good exactly when all its steps
meet the condition. -/
theorem allStates_iff_allSteps {s : σ} {is : List ι} (init : P s)
    (exact_step : ∀ s i s', P s → step s i = some s' → (P s' ↔ C s i)) :
    AllStates step P s is ↔ AllSteps step C s is := by
  constructor
  · intro states
    induction is generalizing s with
    | nil => trivial
    | cons i is ih =>
        intro s' taken
        have rest := states.2 s' taken
        exact ⟨(exact_step s i s' init taken).mp rest.head, ih rest.head rest⟩
  · intro steps
    exact allStates_of_allSteps init
      (fun s i s' good cond taken => (exact_step s i s' good taken).mpr cond) steps

/-- An invariant that the steps between good states keep holds along a run of good states. -/
theorem AllStates.with_invariant {I : σ → Prop} {s : σ} {is : List ι}
    (states : AllStates step P s is) (init : I s)
    (keep : ∀ s i s', I s → P s → P s' → step s i = some s' → I s') :
    AllStates step (fun s => P s ∧ I s) s is := by
  induction is generalizing s with
  | nil => exact ⟨states, init⟩
  | cons i is ih =>
      refine ⟨⟨states.1, init⟩, fun s' taken => ?_⟩
      have rest := states.2 s' taken
      exact ih rest (keep s i s' init states.1 rest.head taken)

/-- An exact law of the moves, under an invariant that the good moves keep. -/
theorem allMoves_iff_allSteps {R : σ → ι → σ → Prop} {s : σ} {is : List ι} (init : P s)
    (exact_move : ∀ s i s', P s → step s i = some s' → (R s i s' ↔ C s i))
    (keep : ∀ s i s', P s → step s i = some s' → R s i s' → P s') :
    AllMoves step R s is ↔ AllSteps step C s is := by
  induction is generalizing s with
  | nil => exact Iff.rfl
  | cons i is ih =>
      constructor
      · intro moves s' taken
        obtain ⟨move, rest⟩ := moves s' taken
        exact ⟨(exact_move s i s' init taken).mp move, (ih (keep s i s' init taken move)).mp rest⟩
      · intro steps s' taken
        obtain ⟨cond, rest⟩ := steps s' taken
        have move := (exact_move s i s' init taken).mpr cond
        exact ⟨move, (ih (keep s i s' init taken move)).mpr rest⟩

/-- Moves to good states, and good moves. -/
theorem allMoves_and_iff {R : σ → ι → σ → Prop} {s : σ} {is : List ι} (init : P s) :
    AllMoves step (fun s i s' => P s' ∧ R s i s') s is ↔
      AllStates step P s is ∧ AllMoves step R s is := by
  induction is generalizing s with
  | nil => exact ⟨fun _ => ⟨init, trivial⟩, fun _ => trivial⟩
  | cons i is ih =>
      constructor
      · intro moves
        refine ⟨⟨init, fun s' taken => ?_⟩, fun s' taken => ?_⟩
        · obtain ⟨⟨good, -⟩, rest⟩ := moves s' taken
          exact ((ih good).mp rest).1
        · obtain ⟨⟨good, move⟩, rest⟩ := moves s' taken
          exact ⟨move, ((ih good).mp rest).2⟩
      · rintro ⟨states, moves⟩ s' taken
        have good := (states.2 s' taken).head
        exact ⟨⟨good, (moves s' taken).1⟩, (ih good).mpr ⟨states.2 s' taken, (moves s' taken).2⟩⟩

/-- Conditions that agree within a domain, under an invariant that every step keeps. -/
theorem allSteps_congr_within {O D : σ → ι → Prop} {s : σ} {is : List ι}
    (init : P s) (keep : ∀ s i s', P s → step s i = some s' → P s')
    (agree : ∀ s i, P s → O s i → (D s i ↔ C s i))
    (within : AllSteps step O s is) : AllSteps step D s is ↔ AllSteps step C s is := by
  induction is generalizing s with
  | nil => exact Iff.rfl
  | cons i is ih =>
      refine forall_congr' fun s' => forall_congr' fun taken => ?_
      obtain ⟨inside, rest⟩ := within s' taken
      exact and_congr (agree s i init inside) (ih (keep s i s' init taken) rest)

/-- An exact one-step law that holds within a domain: the steps meet the condition exactly
when they are in the domain and the run is good, its states and its moves. -/
theorem allSteps_iff_within {O : σ → ι → Prop} {R : σ → ι → σ → Prop} {s : σ} {is : List ι}
    (init : P s) (narrow : ∀ s i, C s i → O s i)
    (exact_step : ∀ s i s', P s → O s i → step s i = some s' → (P s' ↔ C s i))
    (moves : ∀ s i s', P s → C s i → step s i = some s' → R s i s') :
    AllSteps step C s is ↔
      (AllStates step P s is ∧ AllMoves step R s is) ∧ AllSteps step O s is := by
  induction is generalizing s with
  | nil => exact ⟨fun _ => ⟨⟨init, trivial⟩, trivial⟩, fun _ => trivial⟩
  | cons i is ih =>
      constructor
      · intro steps
        have next : ∀ s', step s i = some s' → C s i ∧
            (AllStates step P s' is ∧ AllMoves step R s' is) ∧ AllSteps step O s' is := by
          intro s' taken
          obtain ⟨cond, rest⟩ := steps s' taken
          have good := (exact_step s i s' init (narrow s i cond) taken).mpr cond
          exact ⟨cond, (ih good).mp rest⟩
        refine ⟨⟨⟨init, fun s' taken => (next s' taken).2.1.1⟩, fun s' taken => ?_⟩,
          fun s' taken => ?_⟩
        · exact ⟨moves s i s' init (next s' taken).1 taken, (next s' taken).2.1.2⟩
        · exact ⟨narrow s i (next s' taken).1, (next s' taken).2.2⟩
      · rintro ⟨⟨states, moved⟩, domain⟩ s' taken
        obtain ⟨inside, rest⟩ := domain s' taken
        have good := (states.2 s' taken).head
        refine ⟨(exact_step s i s' init inside taken).mp good, (ih good).mpr ?_⟩
        exact ⟨⟨states.2 s' taken, (moved s' taken).2⟩, rest⟩

/-- The amortised rule: when every step to a good state comes from a good one and pays
from its income and from what was saved, what a run to a good state spends and saves in
the end is paid by the incomes and the first savings. -/
theorem run_amortised {Q : σ → Prop} (spent saved : σ → Nat) (income : Nat) {s s' : σ}
    {is : List ι} (init : P s) (keep : ∀ s i s', P s → step s i = some s' → P s')
    (pays : ∀ s i s', P s → step s i = some s' → Q s' →
      Q s ∧ spent s' + saved s' ≤ spent s + income + saved s)
    (ends : run step s is = some s') (good : Q s') :
    Q s ∧ P s' ∧ spent s' + saved s' ≤ spent s + is.length * income + saved s := by
  induction is generalizing s with
  | nil =>
      cases ends
      exact ⟨good, init, by omega⟩
  | cons i is ih =>
      obtain ⟨mid, taken, rest⟩ := Option.bind_eq_some_iff.mp ends
      obtain ⟨between, last, total⟩ := ih (keep s i mid init taken) rest
      obtain ⟨before, paid⟩ := pays s i mid init taken between
      refine ⟨before, last, ?_⟩
      rw [List.length_cons, Nat.succ_mul]
      omega

/-- Every step of the run is survived, through good states and by good moves. -/
def Survives (step : σ → ι → Option σ) (P : σ → Prop) (R : σ → ι → σ → Prop) : σ → List ι → Prop
  | s, [] => P s
  | s, i :: is => P s ∧ ∃ s', step s i = some s' ∧ R s i s' ∧ Survives step P R s' is

/-- `C` holds at every input that the run comes to, be it survived or not. -/
def AllTries (step : σ → ι → Option σ) (C : σ → ι → Prop) : σ → List ι → Prop
  | _, [] => True
  | s, i :: is => C s i ∧ ∀ s', step s i = some s' → AllTries step C s' is

theorem Survives.head {R : σ → ι → σ → Prop} {s : σ} {is : List ι} (h : Survives step P R s is) :
    P s := by
  cases is with
  | nil => exact h
  | cons i is => exact h.1

/-- If from a good state a step is survived, by a good move to a good state, exactly when
it meets the condition, then so is a run from a good state exactly when all the inputs
it comes to meet it. -/
theorem survives_iff_allTries {R : σ → ι → σ → Prop} {s : σ} {is : List ι} (init : P s)
    (exact_step : ∀ s i, P s → ((∃ s', step s i = some s' ∧ R s i s' ∧ P s') ↔ C s i)) :
    Survives step P R s is ↔ AllTries step C s is := by
  induction is generalizing s with
  | nil => exact ⟨fun _ => trivial, fun _ => init⟩
  | cons i is ih =>
      constructor
      · rintro ⟨-, s', taken, move, rest⟩
        refine ⟨(exact_step s i init).mp ⟨s', taken, move, rest.head⟩, fun s'' taken' => ?_⟩
        cases taken.symm.trans taken'
        exact (ih rest.head).mp rest
      · rintro ⟨cond, rest⟩
        obtain ⟨s', taken, move, good⟩ := (exact_step s i init).mpr cond
        exact ⟨init, s', taken, move, (ih good).mpr (rest s' taken)⟩

/-- The same rule inside a domain of inputs, with an invariant that makes states good and that
the steps that meet the condition keep. -/
theorem survives_iff_allTries_of_keep {Q : σ → Prop} {O : σ → ι → Prop} {R : σ → ι → σ → Prop}
    {s : σ} {is : List ι} (init : Q s) (domain : AllTries step O s is) (good : ∀ s, Q s → P s)
    (exact_step : ∀ s i, Q s → O s i →
      ((∃ s', step s i = some s' ∧ R s i s' ∧ P s') ↔ C s i))
    (keep : ∀ s i s', Q s → O s i → C s i → step s i = some s' → Q s') :
    Survives step P R s is ↔ AllTries step C s is := by
  induction is generalizing s with
  | nil => exact ⟨fun _ => trivial, fun _ => good s init⟩
  | cons i is ih =>
      obtain ⟨inside, within⟩ := domain
      constructor
      · rintro ⟨-, s', taken, move, rest⟩
        have cond := (exact_step s i init inside).mp ⟨s', taken, move, rest.head⟩
        refine ⟨cond, fun s'' taken' => ?_⟩
        cases taken.symm.trans taken'
        exact (ih (keep s i s' init inside cond taken) (within s' taken)).mp rest
      · rintro ⟨cond, rest⟩
        obtain ⟨s', taken, move, -⟩ := (exact_step s i init inside).mpr cond
        have kept := keep s i s' init inside cond taken
        exact ⟨good s init, s', taken, move, (ih kept (within s' taken)).mpr (rest s' taken)⟩

/-! ### Loops with a status -/

/-- Call the body on each element until it reports `false`. -/
def forEach (body : σ → ι → Option (Bool × σ)) : σ → List ι → Option (Bool × σ)
  | s, [] => some (true, s)
  | s, i :: is =>
      (body s i).bind fun out => if out.1 then forEach body out.2 is else some out

/-- `C` holds at every call of the body that the loop makes. -/
def EachCall (body : σ → ι → Option (Bool × σ)) (C : σ → ι → Prop) : σ → List ι → Prop
  | _, [] => True
  | s, i :: is => C s i ∧ ∀ s', body s i = some (true, s') → EachCall body C s' is

instance [∀ s i, Decidable (C s i)] : ∀ (s : σ) (is : List ι), Decidable (AllSteps step C s is)
  | _, [] => isTrue trivial
  | s, i :: is =>
      match taken : step s i with
      | none => isTrue fun s' taken' => by simp [taken] at taken'
      | some next =>
          have := instDecidableAllSteps next is
          decidable_of_iff (C s i ∧ AllSteps step C next is) (by simp [AllSteps, taken])

variable {body : σ → ι → Option (Bool × σ)}

instance [∀ s i, Decidable (C s i)] : ∀ (s : σ) (is : List ι), Decidable (EachCall body C s is)
  | _, [] => isTrue trivial
  | s, i :: is =>
      match called : body s i with
      | some (true, next) =>
          have := instDecidableEachCall next is
          decidable_of_iff (C s i ∧ EachCall body C next is) (by simp [EachCall, called])
      | some (false, next) => decidable_of_iff (C s i) (by simp [EachCall, called])
      | none => decidable_of_iff (C s i) (by simp [EachCall, called])

theorem forEach_cons {s : σ} {i : ι} {is : List ι} {out : Bool × σ} :
    forEach body s (i :: is) = some out ↔
      ∃ mid, body s i = some mid ∧
        (mid.1 = true ∧ forEach body mid.2 is = some out ∨ mid.1 = false ∧ mid = out) := by
  simp only [forEach, Option.bind_eq_some_iff]
  constructor
  · rintro ⟨mid, called, rest⟩
    refine ⟨mid, called, ?_⟩
    cases hmid : mid.1 with
    | true => exact .inl ⟨rfl, by simpa [hmid] using rest⟩
    | false => exact .inr ⟨rfl, by simpa [hmid] using rest⟩
  · rintro ⟨mid, called, ⟨ok, rest⟩ | ⟨stop, rfl⟩⟩
    · exact ⟨mid, called, by simpa [ok] using rest⟩
    · exact ⟨mid, called, by simp [stop]⟩

/-- The loop rule: what every call of the body keeps, whatever its status, the
loop keeps. -/
theorem forEach_keeps {s : σ} {is : List ι} {out : Bool × σ}
    (keep : ∀ s i out, i ∈ is → P s → body s i = some out → P out.2)
    (init : P s) (looped : forEach body s is = some out) : P out.2 := by
  induction is generalizing s with
  | nil =>
      cases looped
      exact init
  | cons i is ih =>
      obtain ⟨mid, called, ⟨_, rest⟩ | ⟨_, rfl⟩⟩ := forEach_cons.mp looped
      · exact ih (fun s j out hj => keep s j out (List.mem_cons_of_mem _ hj))
          (keep s i mid List.mem_cons_self init called) rest
      · exact keep s i mid List.mem_cons_self init called

/-- The loop rule under a condition on the calls; a call that reports `false` gives its
status to the loop. -/
theorem forEach_keeps_of_eachCall {s : σ} {is : List ι} {out : Bool × σ}
    (keep : ∀ s i mid, i ∈ is → P s → C s i → body s i = some mid →
      (mid.1 = false → out.1 = false) → P mid.2)
    (init : P s) (calls : EachCall body C s is)
    (looped : forEach body s is = some out) : P out.2 := by
  induction is generalizing s with
  | nil =>
      cases looped
      exact init
  | cons i is ih =>
      obtain ⟨mid, called, ⟨ok, rest⟩ | ⟨stop, rfl⟩⟩ := forEach_cons.mp looped
      · have went : mid.1 = false → out.1 = false := by simp [ok]
        refine ih (fun s j mid hj => keep s j mid (List.mem_cons_of_mem _ hj))
          (keep s i mid List.mem_cons_self init calls.1 called went) (calls.2 mid.2 ?_) rest
        rw [called, ← ok]
      · exact keep s i mid List.mem_cons_self init calls.1 called id

/-- If, as long as an invariant holds, a call leads to a good state exactly when it meets
the condition, and never from a bad state to a good one, then a loop leads to a good
state exactly when all its calls meet the condition. -/
theorem forEach_iff_eachCall {Q : σ → Prop} {s : σ} {is : List ι} {out : Bool × σ}
    (keep : ∀ s i out, Q s → body s i = some out → Q out.2)
    (back : ∀ s i out, Q s → body s i = some out → P out.2 → P s)
    (exact_call : ∀ s i out, Q s → P s → body s i = some out → (P out.2 ↔ C s i))
    (inv : Q s) (init : P s) (looped : forEach body s is = some out) :
    P out.2 ↔ EachCall body C s is := by
  induction is generalizing s with
  | nil =>
      cases looped
      exact ⟨fun _ => trivial, fun _ => init⟩
  | cons i is ih =>
      obtain ⟨mid, called, ⟨ok, rest⟩ | ⟨stop, rfl⟩⟩ := forEach_cons.mp looped
      · have inv' := keep s i mid inv called
        constructor
        · intro good
          have good' : P mid.2 := by
            refine (forEach_keeps (P := fun s => Q s ∧ (P s → P mid.2)) ?_ ⟨inv', id⟩ rest).2 good
            rintro s j out _ ⟨inv, toMid⟩ called
            exact ⟨keep s j out inv called, fun good => toMid (back s j out inv called good)⟩
          refine ⟨(exact_call s i mid inv init called).mp good', fun s' called' => ?_⟩
          rw [called] at called'
          cases called'
          exact (ih inv' good' rest).mp good
        · intro calls
          have good' := (exact_call s i mid inv init called).mpr calls.1
          refine (ih inv' good' rest).mpr (calls.2 mid.2 ?_)
          rw [called, ← ok]
      · constructor
        · intro good
          refine ⟨(exact_call s i mid inv init called).mp good, fun s' called' => ?_⟩
          rw [called] at called'
          cases called'
          cases stop
        · intro calls
          exact (exact_call s i mid inv init called).mpr calls.1

/-- What the calls that report `true` keep, a loop that reports `true` keeps. -/
theorem forEach_keeps_of_true {s s' : σ} {is : List ι}
    (keep : ∀ s i s', i ∈ is → P s → body s i = some (true, s') → P s')
    (init : P s) (looped : forEach body s is = some (true, s')) : P s' := by
  induction is generalizing s with
  | nil =>
      cases looped
      exact init
  | cons i is ih =>
      obtain ⟨⟨ok, mid⟩, called, ⟨rfl, rest⟩ | ⟨rfl, stop⟩⟩ := forEach_cons.mp looped
      · exact ih (fun s j s' hj => keep s j s' (List.mem_cons_of_mem _ hj))
          (keep s i mid List.mem_cons_self init called) rest
      · cases stop

/-- When no call from a good state reports `false`, neither does the loop. -/
theorem forEach_succeeds {s : σ} {is : List ι} {out : Bool × σ}
    (keep : ∀ s i out, i ∈ is → P s → body s i = some out → out.1 = true ∧ P out.2)
    (init : P s) (looped : forEach body s is = some out) : out.1 = true ∧ P out.2 := by
  induction is generalizing s with
  | nil =>
      cases looped
      exact ⟨rfl, init⟩
  | cons i is ih =>
      obtain ⟨mid, called, ⟨_, rest⟩ | ⟨stop, rfl⟩⟩ := forEach_cons.mp looped
      · exact ih (fun s j out hj => keep s j out (List.mem_cons_of_mem _ hj))
          (keep s i mid List.mem_cons_self init called).2 rest
      · exact keep s i mid List.mem_cons_self init called

/-- A loop that reports `true` goes through the first elements, then the others. -/
theorem forEach_append {s s' : σ} {is js : List ι} :
    forEach body s (is ++ js) = some (true, s') ↔
      ∃ mid, forEach body s is = some (true, mid) ∧ forEach body mid js = some (true, s') := by
  induction is generalizing s with
  | nil => simp [forEach]
  | cons i is ih =>
      rw [List.cons_append, forEach_cons]
      constructor
      · rintro ⟨⟨ok, mid⟩, called, ⟨rfl, rest⟩ | ⟨rfl, stop⟩⟩
        · obtain ⟨last, first, second⟩ := ih.mp rest
          exact ⟨last, forEach_cons.mpr ⟨_, called, .inl ⟨rfl, first⟩⟩, second⟩
        · cases stop
      · rintro ⟨last, first, second⟩
        obtain ⟨⟨ok, mid⟩, called, ⟨rfl, rest⟩ | ⟨rfl, stop⟩⟩ := forEach_cons.mp first
        · exact ⟨_, called, .inl ⟨rfl, ih.mpr ⟨last, rest, second⟩⟩⟩
        · cases stop

end OpenSand.Run

/-! ### Replays of a queue -/

namespace OpenSand.Replay

variable {α τ : Type*}

/-- The records of what was taken out of a queue, and the queue left. -/
inductive Drains (elem : τ → α) (back : τ → List α) : List α → List τ → List α → Prop where
  | nil (queue : List α) : Drains elem back queue [] queue
  | cons {t : τ} {rest queue : List α} {record : List τ} :
      Drains elem back (back t ++ rest) record queue →
        Drains elem back (elem t :: rest) (t :: record) queue

/-- One more element is taken out. -/
theorem Drains.snoc {elem : τ → α} {back : τ → List α} {first rest : List α} {record : List τ}
    {t : τ} (h : Drains elem back first record (elem t :: rest)) :
    Drains elem back first (record ++ [t]) (back t ++ rest) := by
  generalize queue : elem t :: rest = left at h
  induction h with
  | nil =>
      subst queue
      exact .cons (.nil _)
  | cons _ ih => exact .cons (ih queue)

end OpenSand.Replay
