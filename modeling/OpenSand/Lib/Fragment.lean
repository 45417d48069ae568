import Mathlib.Data.List.Forall2
import Mathlib.Logic.Function.Basic

/-!
Fragments reassembled by their identifier.

A fragment is a piece of a data unit, marked when it is the first or the last one of it. A
receiver holds what came so far under each identifier: a first fragment starts a unit, a
later one continues the unit held, and a last one hands it out.
-/

namespace OpenSand

structure Fragment (ι α : Type*) where
  id : ι
  first : Bool
  last : Bool
  data : List α

namespace Fragment

variable {ι α : Type*} [DecidableEq ι]

/-- What is held under each identifier. -/
abbrev Held (ι α : Type*) := ι → Option (List α)

/-- Take a fragment: the unit it completes, if any, and what is held then. A later fragment
with nothing to continue is refused. -/
def accept (held : Held ι α) (fragment : Fragment ι α) : Option (Option (List α) × Held ι α) :=
  if fragment.first then
    if fragment.last then some (some fragment.data, held)
    else some (none, Function.update held fragment.id (some fragment.data))
  else
    (held fragment.id).map fun sofar =>
      if fragment.last then (some (sofar ++ fragment.data), Function.update held fragment.id none)
      else (none, Function.update held fragment.id (some (sofar ++ fragment.data)))

/-- Take fragments in order: the units they complete, and what is held then. -/
def acceptAll (held : Held ι α) : List (Fragment ι α) → Option (List (List α) × Held ι α)
  | [] => some ([], held)
  | fragment :: fragments =>
      (accept held fragment).bind fun taken =>
        (acceptAll taken.2 fragments).map fun others => (taken.1.toList ++ others.1, others.2)

theorem acceptAll_cons {held held' : Held ι α} {fragment : Fragment ι α}
    {fragments : List (Fragment ι α)} {units : List (List α)} :
    acceptAll held (fragment :: fragments) = some (units, held') ↔
      ∃ unit mid later, accept held fragment = some (unit, mid) ∧
        acceptAll mid fragments = some (later, held') ∧ units = unit.toList ++ later := by
  simp only [acceptAll, Option.bind_eq_some_iff, Option.map_eq_some_iff]
  constructor
  · rintro ⟨⟨unit, mid⟩, taken, ⟨later, last⟩, others, out⟩
    cases out
    exact ⟨unit, mid, later, taken, others, rfl⟩
  · rintro ⟨unit, mid, later, taken, others, rfl⟩
    exact ⟨(unit, mid), taken, (later, held'), others, rfl⟩

theorem acceptAll_append {held mid last : Held ι α} {fragments fragments' : List (Fragment ι α)}
    {units units' : List (List α)} (first : acceptAll held fragments = some (units, mid))
    (second : acceptAll mid fragments' = some (units', last)) :
    acceptAll held (fragments ++ fragments') = some (units ++ units', last) := by
  induction fragments generalizing held units with
  | nil =>
      cases first
      exact second
  | cons fragment fragments ih =>
      obtain ⟨unit, next, later, taken, others, rfl⟩ := acceptAll_cons.mp first
      exact acceptAll_cons.mpr ⟨unit, next, _, taken, ih others, List.append_assoc ..⟩

theorem acceptAll_single {held held' : Held ι α} {fragment : Fragment ι α} {unit : Option (List α)}
    (taken : accept held fragment = some (unit, held')) :
    acceptAll held [fragment] = some (unit.toList, held') :=
  acceptAll_cons.mpr ⟨unit, held', [], taken, rfl, (List.append_nil _).symm⟩

/-- No more units than fragments. -/
theorem acceptAll_length {held held' : Held ι α} {fragments : List (Fragment ι α)}
    {units : List (List α)} (taken : acceptAll held fragments = some (units, held')) :
    units.length ≤ fragments.length := by
  induction fragments generalizing held units with
  | nil =>
      cases taken
      exact Nat.le_refl _
  | cons fragment fragments ih =>
      obtain ⟨unit, mid, later, _, others, rfl⟩ := acceptAll_cons.mp taken
      have short := ih others
      cases unit <;> simp <;> omega

/-! ### A unit cut into fragments -/

/-- How far a unit is: whether its first fragment was cut, what was cut and what is left. -/
structure Cut (α : Type*) where
  started : Bool
  sofar : List α
  left : List α
  fresh : started = false → sofar = []

/-- Nothing of it is cut yet. -/
def Cut.ofWhole (whole : List α) : Cut α := ⟨false, [], whole, fun _ => rfl⟩

def Cut.begun (sofar left : List α) : Cut α := ⟨true, sofar, left, Bool.noConfusion⟩

/-- What a receiver holds of it. -/
def Cut.held (cut : Cut α) : Option (List α) := if cut.started then some cut.sofar else none

@[simp] theorem Cut.begun_held (sofar left : List α) : (begun sofar left).held = some sofar := rfl

@[simp] theorem Cut.begun_whole (sofar left : List α) :
    (begun sofar left).sofar ++ (begun sofar left).left = sofar ++ left := rfl

/-- The next fragment of a unit continues what the receiver holds of it; the last one hands
out the whole unit and leaves nothing. -/
theorem accept_next {held : Held ι α} {id : ι} {cut : Cut α} {data left : List α}
    (here : held id = cut.held) (split : cut.left = data ++ left) (last : Bool)
    (ends : last = true → left = []) :
    accept held ⟨id, !cut.started, last, data⟩ =
      some (if last then some (cut.sofar ++ cut.left) else none,
        Function.update held id (if last then none else some (cut.sofar ++ data))) := by
  obtain ⟨started, sofar, rest, fresh⟩ := cut
  cases started with
  | false =>
      cases fresh rfl
      cases last with
      | false => simp [accept]
      | true =>
          have none_left : left = [] := ends rfl
          have same : Function.update held id none = held := by
            rw [Function.update_eq_self_iff, here]
            rfl
          simp only [accept, Bool.not_false, if_true, same, List.nil_append]
          rw [show rest = data ++ left from split, none_left, List.append_nil]
  | true =>
      have kept : held id = some sofar := here
      cases last with
      | false => simp [accept, kept]
      | true =>
          have whole : rest = data := by
            rw [show rest = data ++ left from split, ends rfl, List.append_nil]
          simp [accept, kept, whole]

/-! ### The fragments of what is left of a unit -/

/-- Fragments that hold what is left of a unit: the first one of them starts the unit unless
it was started, and the last one ends it. -/
inductive Pieces (id : ι) : Bool → List α → List (Fragment ι α) → Prop where
  | last {started : Bool} {data : List α} : Pieces id started data [⟨id, !started, true, data⟩]
  | more {started : Bool} {data left : List α} {fragments : List (Fragment ι α)} :
      Pieces id true left fragments →
      Pieces id started (data ++ left) (⟨id, !started, false, data⟩ :: fragments)

namespace Pieces

omit [DecidableEq ι]

variable {id : ι} {started : Bool} {left data tail : List α} {fragment : Fragment ι α}
  {fragments : List (Fragment ι α)}

theorem ne_nil (pieces : Pieces id started left fragments) : fragments ≠ [] := by
  cases pieces with
  | last => nofun
  | more => nofun

/-- A fragment cut in two. -/
theorem split (pieces : Pieces id started left (fragment :: fragments))
    (cut : fragment.data = data ++ tail) :
    Pieces id started left
      (⟨id, !started, false, data⟩ :: ⟨id, false, fragment.last, tail⟩ :: fragments) := by
  cases pieces with
  | last =>
      cases cut
      exact .more .last
  | @more _ whole left _ rest =>
      rw [show whole = data ++ tail from cut, List.append_assoc]
      exact .more (.more rest)

/-- The first fragment, and what is left once it is gone. -/
theorem head (pieces : Pieces id started left (fragment :: fragments)) :
    ∃ data tail, fragment = ⟨id, !started, fragments.isEmpty, data⟩ ∧ left = data ++ tail ∧
      (fragments = [] → tail = []) ∧ (fragments ≠ [] → Pieces id true tail fragments) := by
  cases pieces with
  | last => exact ⟨left, [], rfl, (List.append_nil _).symm, fun _ => rfl, fun some => absurd rfl some⟩
  | @more _ data tail _ rest =>
      refine ⟨data, tail, ?_, rfl, fun none_left => absurd none_left rest.ne_nil, fun _ => rest⟩
      rw [List.isEmpty_eq_false_iff.mpr rest.ne_nil]

end Pieces

end Fragment

end OpenSand
