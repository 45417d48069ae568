import Mathlib.Algebra.BigOperators.Group.List.Basic

/-!
Loops that give each element a turn.

A turn changes the view of its own element only, so what a loop over different elements does to
one of them is what its turn did. `gained` adds up what an element gets in its turns.

In the same way, when a call on one part of a state reads and changes that part only, each part
ends as its own calls alone leave it (`Separate.run`).
-/

namespace OpenSand.Turns

variable {σ ι α : Type*} {body : σ → ι → σ}

/-- The view of an element is changed by its own turns only. -/
def Own (body : σ → ι → σ) (view : σ → ι → α) : Prop :=
  ∀ s i j, j ≠ i → view (body s i) j = view s j

section View

variable {view : σ → ι → α} {s : σ} {is : List ι} {i : ι}

theorem foldl_of_notMem (own : Own body view) (notMem : i ∉ is) :
    view (is.foldl body s) i = view s i := by
  induction is generalizing s with
  | nil => rfl
  | cons j is ih =>
      rw [List.mem_cons, not_or] at notMem
      rw [List.foldl_cons, ih notMem.2, own s j i notMem.1]

end View

/-! ### Gains -/

variable [DecidableEq ι] {β : Type*} [AddCommMonoid β]

/-- What an element gets in the turns of a loop. -/
def gained (body : σ → ι → σ) (g : σ → ι → β) : σ → List ι → ι → β
  | _, [], _ => 0
  | s, j :: is, i => (if j = i then g s j else 0) + gained body g (body s j) is i

variable {g : σ → ι → β} {view : σ → ι → α} {s : σ} {is : List ι} {i : ι}

theorem gained_of_notMem (notMem : i ∉ is) : gained body g s is i = 0 := by
  induction is generalizing s with
  | nil => rfl
  | cons j is ih =>
      rw [List.mem_cons, not_or] at notMem
      rw [gained, if_neg (Ne.symm notMem.1), ih notMem.2, zero_add]

/-- The turn of an element, from a state that the earlier turns lead to. -/
theorem exists_turn (own : Own body view) {I : σ → Prop} (keep : ∀ s i, I s → I (body s i))
    (init : I s) (nodup : is.Nodup) (mem : i ∈ is) :
    ∃ before, I before ∧ view before i = view s i ∧
      view (is.foldl body s) i = view (body before i) i ∧
      gained body g s is i = g before i := by
  induction is generalizing s with
  | nil => exact absurd mem List.not_mem_nil
  | cons j is ih =>
      rw [List.nodup_cons] at nodup
      rw [List.foldl_cons, gained]
      rcases List.mem_cons.mp mem with rfl | later
      · refine ⟨s, init, rfl, foldl_of_notMem own nodup.1, ?_⟩
        rw [if_pos rfl, gained_of_notMem nodup.1, add_zero]
      · have other : j ≠ i := by
          rintro rfl
          exact nodup.1 later
        obtain ⟨before, holds, seen, after, got⟩ := ih (keep s j init) nodup.2 later
        refine ⟨before, holds, seen.trans (own s j i (Ne.symm other)), after, ?_⟩
        rw [if_neg other, zero_add, got]

/-- An element whose turn does nothing for it. -/
theorem gained_of_idle (own : Own body view) (nodup : is.Nodup)
    (idle : i ∈ is → ∀ mid, view mid i = view s i →
      view (body mid i) i = view mid i ∧ g mid i = 0) :
    view (is.foldl body s) i = view s i ∧ gained body g s is i = 0 := by
  by_cases mem : i ∈ is
  · obtain ⟨before, -, seen, after, got⟩ := exists_turn (g := g) own (I := fun _ => True)
      (fun _ _ _ => trivial) trivial nodup mem
    obtain ⟨same, nothing⟩ := idle mem before seen
    exact ⟨after.trans (same.trans seen), got.trans nothing⟩
  · exact ⟨foldl_of_notMem own mem, gained_of_notMem mem⟩

/-- What all elements get is what all turns give. -/
theorem sum_gained (nodup : is.Nodup) {t : σ → β}
    (given : ∀ s i, t (body s i) = t s + g s i) :
    t (is.foldl body s) = t s + (is.map (gained body g s is)).sum := by
  induction is generalizing s with
  | nil => exact (add_zero _).symm
  | cons j is ih =>
      rw [List.nodup_cons] at nodup
      have others : is.map (gained body g s (j :: is)) =
          is.map (gained body g (body s j) is) := by
        refine List.map_congr_left fun i mem => ?_
        have other : j ≠ i := by
          rintro rfl
          exact nodup.1 mem
        rw [gained, if_neg other, zero_add]
      rw [List.foldl_cons, ih nodup.2, given, List.map_cons, List.sum_cons, others, gained,
        if_pos rfl, gained_of_notMem nodup.1, add_zero, add_assoc]

end OpenSand.Turns

namespace OpenSand

/-! ### Calls on the parts of a state -/

variable {ι σ κ : Type*} [DecidableEq ι]

/-- The calls on one part, in their order. -/
def callsOn (part : ι) (calls : List (ι × κ)) : List κ :=
  calls.filterMap fun entry => if entry.1 = part then some entry.2 else none

/-- The state after calls on several parts. -/
def runCalls (call : ι → (ι → σ) → κ → ι → σ) (state : ι → σ) (calls : List (ι × κ)) : ι → σ :=
  calls.foldl (fun state entry => call entry.1 state entry.2) state

/-- A call changes its own part only, and what it does there depends on that part only. The parts
may have to keep an invariant for this. -/
structure Separate (call : ι → (ι → σ) → κ → ι → σ) (kept : ι → σ → Prop) : Prop where
  others : ∀ part other state c, other ≠ part → call part state c other = state other
  own : ∀ part state state' c, kept part (state part) → state part = state' part →
    call part state c part = call part state' c part
  keeps : ∀ part state c, kept part (state part) → kept part (call part state c part)

/-- A part, and what is observed from it, is left as its own calls alone leave it. -/
structure Isolated {ω ρ : Type*} (call : ι → (ι → σ) → κ → ι → σ) (observe : (ι → σ) → ι → ω → ρ)
    (state : ι → σ) (part : ι) : Prop where
  own : ∀ calls, runCalls call state calls part = (callsOn part calls).foldl (call part) state part
  observed : ∀ calls view, observe (runCalls call state calls) part view =
    observe ((callsOn part calls).foldl (call part) state) part view

namespace Separate

variable {call : ι → (ι → σ) → κ → ι → σ} {kept : ι → σ → Prop} (separate : Separate call kept)

include separate

/-- Each part is left as its own calls alone leave it. -/
theorem run {part : ι} {state state' : ι → σ} (start : kept part (state part))
    (same : state part = state' part) (calls : List (ι × κ)) :
    runCalls call state calls part = (callsOn part calls).foldl (call part) state' part := by
  induction calls generalizing state state' with
  | nil => exact same
  | cons entry calls ih =>
      obtain ⟨other, c⟩ := entry
      rw [runCalls, List.foldl_cons, ← runCalls, callsOn, List.filterMap_cons]
      by_cases own : other = part
      · subst own
        rw [if_pos rfl]
        exact ih (separate.keeps other state c start) (separate.own other state state' c start same)
      · have left := separate.others other part state c (Ne.symm own)
        rw [if_neg own]
        exact ih (by rwa [left]) (left.trans same)

omit [DecidableEq ι] in
/-- The invariant of a part is kept. -/
theorem kept_foldl {part : ι} {state : ι → σ} (start : kept part (state part)) (calls : List κ) :
    kept part (calls.foldl (call part) state part) := by
  induction calls generalizing state with
  | nil => exact start
  | cons c calls ih => exact ih (separate.keeps part state c start)

/-- An observation that reads one part does not see the calls on the others. -/
theorem isolated {ω ρ : Type*} {observe : (ι → σ) → ι → ω → ρ} {part : ι} {state : ι → σ}
    (reads : ∀ state state', kept part (state part) → state part = state' part →
      ∀ view, observe state part view = observe state' part view)
    (start : kept part (state part)) : Isolated call observe state part where
  own := separate.run start rfl
  observed calls := by
    have same := separate.run start rfl calls
    have kept' := separate.kept_foldl start (callsOn part calls)
    rw [← same] at kept'
    exact reads _ _ kept' same

end Separate

end OpenSand
