import Mathlib.Data.Set.Basic

/-!
Peeling of a family of checks.

A check is a list of keys. A key that is alone in some check, once the other
keys of that check are known, becomes known. `Peels` is the least set of keys
closed under this rule; it does not depend on the order in which checks are
looked at.
-/

namespace OpenSand.Peeling

variable {κ : Type*}

/-- `keys` contains every key that is alone in a check up to members of `keys`. -/
def Closed (checks : List (List κ)) (keys : Set κ) : Prop :=
  ∀ before k after, before ++ k :: after ∈ checks →
    (∀ j ∈ before ++ after, j ∈ keys) → k ∈ keys

/-- The keys reached by the peeling rule. -/
inductive Peels (checks : List (List κ)) : κ → Prop where
  | alone {before : List κ} {k : κ} {after : List κ} : before ++ k :: after ∈ checks →
      (∀ j ∈ before ++ after, Peels checks j) → Peels checks k

/-- The peeled keys are in every closed set. -/
theorem Peels.least {checks : List (List κ)} {keys : Set κ} (closed : Closed checks keys) {k : κ}
    (h : Peels checks k) : k ∈ keys := by
  induction h with
  | alone mem _ ih => exact closed _ _ _ mem ih

/-- Peeling has to start with a check of a single key. -/
theorem not_peels_of_no_single {checks : List (List κ)}
    (many : ∀ check ∈ checks, check.length ≠ 1) {k : κ} : ¬ Peels checks k := by
  intro h
  have closed : Closed checks ∅ := by
    intro before k after mem others
    have empty : before ++ after = [] := List.eq_nil_iff_forall_not_mem.mpr others
    obtain ⟨rfl, rfl⟩ := List.append_eq_nil_iff.mp empty
    exact many _ mem rfl
  exact h.least closed

end OpenSand.Peeling
