import Mathlib.Data.List.Basic
import Mathlib.Order.Defs.LinearOrder

/-!
Dated entries taken in turns.

A turn goes through the entries up to the first one of a later time, which is left for the turns
after it. An entry of an earlier time is dropped. A jump to a later time ends a turn as well, but
it is not left itself. `turns_iff` says when no entry is dropped.
-/

namespace OpenSand

inductive Dated (α : Type*) where
  | entry (time : Nat) (value : α)
  | jump (time : Nat)
  | idle

namespace Dated

variable {α : Type*}

/-- The time of an entry or of a jump. -/
def time? : Dated α → Option Nat
  | .entry time _ => some time
  | .jump time => some time
  | .idle => none

/-- The entries taken in a turn, and what is left. -/
def turn (now : Nat) : List (Dated α) → List α × List (Dated α)
  | [] => ([], [])
  | .entry time value :: rest =>
      if time < now then turn now rest
      else if now < time then ([], .entry time value :: rest)
      else (value :: (turn now rest).1, (turn now rest).2)
  | .jump time :: rest => if now < time then ([], rest) else turn now rest
  | .idle :: rest => turn now rest

/-- What is left before a turn, the first one being at time 0. -/
def left (items : List (Dated α)) : Nat → List (Dated α)
  | 0 => items
  | now + 1 => (turn now (left items now)).2

/-- The entries with their times. -/
def entries : List (Dated α) → List (Nat × α)
  | [] => []
  | .entry time value :: rest => (time, value) :: entries rest
  | _ :: rest => entries rest

/-- The entries of a time. -/
def entriesAt (items : List (Dated α)) (now : Nat) : List α :=
  ((entries items).filter (·.1 = now)).map (·.2)

/-- No entry is behind the time of the turn that meets it. -/
def OnTime : Nat → List (Dated α) → Prop
  | _, [] => True
  | now, .entry time _ :: rest => now ≤ time ∧ OnTime time rest
  | now, .jump time :: rest => OnTime (if now < time then now + 1 else now) rest
  | now, .idle :: rest => OnTime now rest

/-- The entries that are taken from a turn on. -/
def kept : Nat → List (Dated α) → List (Nat × α)
  | _, [] => []
  | now, .entry time value :: rest =>
      if time < now then kept now rest else (time, value) :: kept time rest
  | now, .jump time :: rest => kept (if now < time then now + 1 else now) rest
  | now, .idle :: rest => kept now rest

variable {now : Nat} {items : List (Dated α)}

/-! ### One turn -/

theorem le_of_mem_kept {entry : Nat × α} (mem : entry ∈ kept now items) : now ≤ entry.1 := by
  induction items generalizing now with
  | nil => cases mem
  | cons item rest ih =>
      cases item with
      | entry time value =>
          rw [kept] at mem
          split at mem
          · exact ih mem
          next late =>
            rcases List.mem_cons.mp mem with rfl | mem
            · exact Nat.not_lt.mp late
            · exact Nat.le_trans (Nat.not_lt.mp late) (ih mem)
      | jump time =>
          have le := ih mem
          split at le <;> omega
      | idle => exact ih mem

/-- A turn takes the first of the entries that are kept, and leaves the other ones. -/
theorem kept_eq_turn (now : Nat) (items : List (Dated α)) :
    kept now items = (turn now items).1.map (now, ·) ++ kept (now + 1) (turn now items).2 := by
  induction items with
  | nil => rfl
  | cons item rest ih =>
      cases item with
      | entry time value =>
          rcases Nat.lt_trichotomy time now with earlier | same | later
          · rw [kept, turn, if_pos earlier, if_pos earlier, ih]
          · subst same
            rw [kept, turn, if_neg (Nat.lt_irrefl time), if_neg (Nat.lt_irrefl time),
              if_neg (Nat.lt_irrefl time), ih]
            rfl
          · have notNow : ¬ time < now := by omega
            have notNext : ¬ time < now + 1 := by omega
            rw [kept, turn, if_neg notNow, if_neg notNow, if_pos later, kept, if_neg notNext]
            rfl
      | jump time =>
          rw [kept, turn]
          split
          · rfl
          · exact ih
      | idle => exact ih

theorem turn_suffix (now : Nat) (items : List (Dated α)) : (turn now items).2 <:+ items := by
  induction items with
  | nil => exact List.suffix_rfl
  | cons item rest ih =>
      have later := ih.trans (List.suffix_cons item rest)
      cases item with
      | entry time value =>
          rw [turn]
          split
          · exact later
          split
          · exact List.suffix_rfl
          · exact later
      | jump time =>
          rw [turn]
          split
          · exact List.suffix_cons _ rest
          · exact later
      | idle => exact later

/-- A turn leaves nothing when no time is after it. -/
theorem turn_eq_nil (low : ∀ item ∈ items, ∀ time ∈ item.time?, time ≤ now) :
    (turn now items).2 = [] := by
  induction items with
  | nil => rfl
  | cons item rest ih =>
      have rest_nil := ih fun item mem => low item (List.mem_cons_of_mem _ mem)
      have first := low item List.mem_cons_self
      cases item with
      | entry time value =>
          rw [turn, if_neg (Nat.not_lt.mpr (first time rfl)), rest_nil]
          split
          · exact rest_nil
          · rfl
      | jump time => rw [turn, if_neg (Nat.not_lt.mpr (first time rfl)), rest_nil]
      | idle => exact rest_nil

/-! ### All the turns -/

theorem left_suffix (items : List (Dated α)) (now : Nat) : left items now <:+ items := by
  induction now with
  | zero => exact List.suffix_rfl
  | succ now ih => exact (turn_suffix now _).trans ih

/-- Nothing is left once the turns are beyond all times. -/
theorem left_eq_nil {n : Nat} (low : ∀ item ∈ items, ∀ time ∈ item.time?, time ≤ now)
    (lt : now < n) : left items n = [] := by
  obtain ⟨last, rfl⟩ := Nat.exists_eq_add_of_le' (show 1 ≤ n by omega)
  apply turn_eq_nil
  intro item mem time at_
  have le := low item ((left_suffix items last).subset mem) time at_
  omega

/-- The turns before do not take the entries of a time. -/
theorem filter_kept {now time : Nat} (le : now ≤ time) :
    (kept 0 items).filter (·.1 = time) = (kept now (left items now)).filter (·.1 = time) := by
  induction now with
  | zero => rfl
  | succ now ih =>
      have none : ((turn now (left items now)).1.map (now, ·)).filter (·.1 = time) = [] := by
        apply List.filter_eq_nil_iff.mpr
        intro entry mem same
        obtain ⟨value, -, rfl⟩ := List.mem_map.mp mem
        have eq : now = time := of_decide_eq_true same
        omega
      rw [ih (Nat.le_of_succ_le le), kept_eq_turn, List.filter_append, none]
      rfl

/-- A turn takes the entries of its time that are kept. -/
theorem turn_eq (items : List (Dated α)) (now : Nat) :
    (turn now (left items now)).1 = ((kept 0 items).filter (·.1 = now)).map (·.2) := by
  have own : ((turn now (left items now)).1.map (now, ·)).filter (·.1 = now) =
      (turn now (left items now)).1.map (now, ·) := by
    apply List.filter_eq_self.mpr
    intro entry mem
    obtain ⟨value, -, rfl⟩ := List.mem_map.mp mem
    exact decide_eq_true rfl
  have later : (kept (now + 1) (turn now (left items now)).2).filter (·.1 = now) = [] := by
    apply List.filter_eq_nil_iff.mpr
    intro entry mem same
    have eq : entry.1 = now := of_decide_eq_true same
    have le := le_of_mem_kept mem
    omega
  rw [filter_kept (Nat.le_refl now), kept_eq_turn, List.filter_append, own, later,
    List.append_nil, List.map_map]
  exact (List.map_id _).symm

theorem kept_sublist (now : Nat) (items : List (Dated α)) :
    List.Sublist (kept now items) (entries items) := by
  induction items generalizing now with
  | nil => exact List.Sublist.refl _
  | cons item rest ih =>
      cases item with
      | entry time value =>
          rw [kept]
          split
          · exact (ih now).cons _
          · exact (ih time).cons_cons _
      | jump time => exact ih _
      | idle => exact ih now

/-- A turn takes nothing but entries of its time. -/
theorem turn_sublist (items : List (Dated α)) (now : Nat) :
    List.Sublist (turn now (left items now)).1 (entriesAt items now) := by
  rw [turn_eq, entriesAt]
  exact ((kept_sublist 0 items).filter _).map _

/-- A part of a list that has all of it for each key is the list. -/
theorem eq_of_filter_eq {β : Type*} {key : β → Nat} {part whole : List β}
    (sublist : List.Sublist part whole)
    (same : ∀ k, part.filter (key · = k) = whole.filter (key · = k)) : part = whole := by
  induction sublist with
  | slnil => rfl
  | @cons part whole first rest _ =>
      have own : (first :: whole).filter (key · = key first) =
          first :: whole.filter (key · = key first) := List.filter_cons_of_pos (decide_eq_true rfl)
      have shorter := (rest.filter (key · = key first)).length_le
      rw [same, own, List.length_cons] at shorter
      omega
  | @cons_cons part whole first rest ih =>
      congr 1
      apply ih
      intro k
      have both := same k
      rw [List.filter_cons, List.filter_cons] at both
      split at both
      · exact (List.cons.inj both).2
      · exact both

/-- Everything is kept exactly when all is on time. -/
theorem kept_eq_entries_iff : kept now items = entries items ↔ OnTime now items := by
  induction items generalizing now with
  | nil => exact iff_of_true rfl trivial
  | cons item rest ih =>
      cases item with
      | entry time value =>
          rw [kept, entries, OnTime]
          split
          next early =>
            apply iff_of_false
            · intro same
              have shorter := (kept_sublist now rest).length_le
              rw [same, List.length_cons] at shorter
              omega
            · intro onTime
              omega
          next late =>
            rw [List.cons_inj_right, ih]
            exact (and_iff_right (Nat.not_lt.mp late)).symm
      | jump time => exact ih
      | idle => exact ih

/-- Each turn takes the entries of its time exactly when no entry is late. -/
theorem turns_iff : (∀ now, (turn now (left items now)).1 = entriesAt items now) ↔
    OnTime 0 items := by
  rw [← kept_eq_entries_iff]
  constructor
  · intro turns
    have sublist := kept_sublist 0 items
    have each (now : Nat) : (kept 0 items).filter (·.1 = now) =
        (entries items).filter (·.1 = now) := by
      have same := congrArg List.length (turns now)
      rw [turn_eq, entriesAt, List.length_map, List.length_map] at same
      exact (sublist.filter _).eq_of_length same
    exact eq_of_filter_eq sublist each
  · intro same now
    rw [turn_eq, same]
    rfl

/-- Without jumps, all is on time exactly when the entries are in the order of their times. -/
theorem onTime_iff_of_quiet (quiet : ∀ item ∈ items, ∀ time, item ≠ .jump time) :
    OnTime now items ↔
      (∀ entry ∈ entries items, now ≤ entry.1) ∧ (entries items).Pairwise (·.1 ≤ ·.1) := by
  induction items generalizing now with
  | nil => exact iff_of_true trivial ⟨nofun, .nil⟩
  | cons item rest ih =>
      have rest_iff (now : Nat) := @ih now fun item mem => quiet item (List.mem_cons_of_mem _ mem)
      cases item with
      | entry time value =>
          rw [OnTime, entries, rest_iff, List.pairwise_cons]
          constructor
          · intro ⟨le, later, sorted⟩
            refine ⟨?_, later, sorted⟩
            rw [List.forall_mem_cons]
            exact ⟨le, fun entry mem => Nat.le_trans le (later entry mem)⟩
          · intro ⟨low, later, sorted⟩
            exact ⟨low _ List.mem_cons_self, later, sorted⟩
      | jump time => exact absurd rfl (quiet _ List.mem_cons_self time)
      | idle => exact rest_iff now

end Dated

end OpenSand
