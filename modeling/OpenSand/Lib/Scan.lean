import Mathlib.Data.List.Basic
import Mathlib.Order.Lattice

/-!
Scans for the greatest entry.

The scan keeps the last entry that is allowed and measures no less than what it kept so far,
so what it ends with is one of the entries unless it is what it started from, and no allowed
entry measures more.
-/

namespace OpenSand.Scan

variable {α β : Type*} [LinearOrder β] (measure : α → β) (allowed : α → Prop)
  [DecidablePred allowed]

/-- What is kept after one more entry. -/
def keep (best entry : α) : α :=
  if allowed entry ∧ measure best ≤ measure entry then entry else best

/-- The scan of a list of entries. -/
def scan (start : α) (entries : List α) : α := entries.foldl (keep measure allowed) start

variable {measure allowed} {start entry : α} {entries : List α}

@[simp] theorem scan_nil : scan measure allowed start [] = start := rfl

@[simp] theorem scan_cons : scan measure allowed start (entry :: entries) =
    scan measure allowed (keep measure allowed start entry) entries := rfl

theorem le_keep : measure start ≤ measure (keep measure allowed start entry) := by
  unfold keep
  split
  next better => exact better.2
  next => exact le_rfl

theorem entry_le_keep (isAllowed : allowed entry) :
    measure entry ≤ measure (keep measure allowed start entry) := by
  unfold keep
  split
  next => exact le_rfl
  next notBetter => exact (not_le.mp fun le => notBetter ⟨isAllowed, le⟩).le

/-- What is kept never gets less. -/
theorem le_scan : measure start ≤ measure (scan measure allowed start entries) := by
  induction entries generalizing start with
  | nil => exact le_rfl
  | cons entry entries ih => exact le_keep.trans ih

/-- No allowed entry is above what the scan ends with. -/
theorem entry_le_scan (mem : entry ∈ entries) (isAllowed : allowed entry) :
    measure entry ≤ measure (scan measure allowed start entries) := by
  induction entries generalizing start with
  | nil => exact absurd mem List.not_mem_nil
  | cons first entries ih =>
      rcases List.mem_cons.mp mem with rfl | later
      · exact (entry_le_keep isAllowed).trans le_scan
      · exact ih later

/-- The scan ends with what it started from or with an allowed entry. -/
theorem scan_origin : scan measure allowed start entries = start ∨
    scan measure allowed start entries ∈ entries ∧
      allowed (scan measure allowed start entries) := by
  induction entries generalizing start with
  | nil => exact .inl rfl
  | cons first entries ih =>
      rw [scan_cons]
      rcases ih with kept | ⟨mem, isAllowed⟩
      · rw [kept]
        unfold keep
        split
        next better => exact .inr ⟨List.mem_cons_self, better.1⟩
        next => exact .inl rfl
      · exact .inr ⟨List.mem_cons_of_mem first mem, isAllowed⟩

/-- Nothing is kept when all that is allowed is below the start. -/
theorem scan_eq_start (below : ∀ entry ∈ entries, allowed entry → measure entry < measure start) :
    scan measure allowed start entries = start := by
  refine scan_origin.resolve_right ?_
  rintro ⟨mem, isAllowed⟩
  exact absurd (below _ mem isAllowed) (not_lt.mpr le_scan)

end OpenSand.Scan
