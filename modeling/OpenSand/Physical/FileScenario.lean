import OpenSand.Lib.SortedMap
import OpenSand.Lib.Word
import Mathlib.Algebra.Order.Floor.Ring
import Mathlib.Algebra.Order.Archimedean.Basic
import Mathlib.Data.List.TakeWhile
import Mathlib.Data.Rat.Floor
import Mathlib.Tactic.Linarith
import Mathlib.Tactic.Ring

/-!
Scenario files: the satellite delay (`FileDelay`) and the attenuation (`File`) read their value
from a map of times, one time an update.

Both updates look for the first entry at the current time or after it and interpolate from the
entry before it. Behind the last entry a scenario either starts again or keeps its last value;
the latter is read through `rend()`, which no map has an entry at.
-/

namespace OpenSand

open OpenSand.Word

/-- Values by time, in updates. -/
structure Scenario (V : Type) extends SortedMap Nat V where
  time_lt : ∀ entry ∈ entries, entry.1 < 2 ^ 32

namespace Scenario

variable {V : Type} (scenario : Scenario V) (time : Nat)

/-- The entries from the first one at a time or after it. -/
def lowerBound : List (Nat × V) := scenario.entries.dropWhile (·.1 < time)

/-- The entries before those. -/
def below : List (Nat × V) := scenario.entries.takeWhile (·.1 < time)

end Scenario

structure FileScenario (V : Type) where
  currentTime : Nat
  scenario : Scenario V
  loop : Bool

namespace FileScenario

variable {V : Type}

def new (scenario : Scenario V) (loop : Bool) : FileScenario V := ⟨0, scenario, loop⟩

/-- An update, the value it sets and the time it leaves. The interpolation is undefined where a
conversion is. -/
def update (interpolate : Nat × V → Nat × V → Nat → Option V) (file : FileScenario V) :
    Option (V × FileScenario V) :=
  let currentTime := addW 32 file.currentTime 1
  match file.scenario.lowerBound currentTime with
  | new :: _ =>
      match (file.scenario.below currentTime).getLast? with
      | some old =>
          (interpolate old new currentTime).map (·, { file with currentTime := currentTime })
      | none => some (new.2, { file with currentTime := currentTime })
  | [] =>
      if file.loop then
        file.scenario.entries.head?.map fun first => (first.2, { file with currentTime := 0 })
      else none

/-- The update that follows `n` others. -/
def nth (update : FileScenario V → Option (V × FileScenario V)) (file : FileScenario V) :
    Nat → Option (V × FileScenario V)
  | 0 => update file
  | n + 1 => (nth update file n).bind fun out => update out.2

end FileScenario

/-! ### Delays and attenuations -/

namespace FileDelay

/-- The value without its fraction. -/
def truncate (value : ℚ) : ℤ := if 0 ≤ value then ⌊value⌋ else ⌈value⌉

/-- The conversion of a double to a time, undefined out of the range of the type. -/
def timeMs (value : ℚ) : Option UInt32 :=
  let whole := truncate value
  if 0 ≤ whole ∧ whole < 2 ^ 32 then some (UInt32.ofNat whole.toNat) else none

def interpolate (old new : Nat × UInt32) (currentTime : Nat) : Option UInt32 :=
  let coef : ℚ := ((new.2.toNat : ℚ) - old.2.toNat) / ((new.1 : ℚ) - old.1)
  (timeMs (coef * ((currentTime : ℚ) - old.1))).map (old.2 + ·)

def updateSatDelay : FileScenario UInt32 → Option (UInt32 × FileScenario UInt32) :=
  FileScenario.update interpolate

end FileDelay

namespace File

def interpolate (old new : Nat × ℚ) (currentTime : Nat) : Option ℚ :=
  let coef : ℚ := (new.2 - old.2) / ((new.1 : ℚ) - old.1)
  some (old.2 + coef * ((currentTime : ℚ) - old.1))

def updateAttenuationModel : FileScenario ℚ → Option (ℚ × FileScenario ℚ) :=
  FileScenario.update interpolate

end File

/-! ### The value of a time -/

namespace Scenario

variable {V : Type} {scenario : Scenario V} {time : Nat} {old new : Nat × V}

theorem exists_head {last : Nat × V} (tail : last ∈ scenario.entries.getLast?) :
    ∃ first, first ∈ scenario.entries.head? :=
  Option.isSome_iff_exists.mp
    (List.isSome_head?.mpr (List.ne_nil_of_mem (List.mem_of_getLast? tail)))

/-- Two neighbouring entries around a time. -/
def Around (scenario : Scenario V) (old new : Nat × V) (time : Nat) : Prop :=
  (∃ before after, scenario.entries = before ++ old :: new :: after) ∧ old.1 < time ∧ time ≤ new.1

/-- The value of a time: the first one up to the first entry, the last one behind the last entry,
and one between those of the entries around it. -/
structure Value (between : Nat × V → Nat × V → Nat → V → Prop) (scenario : Scenario V) (time : Nat)
    (value : V) : Prop where
  first : ∀ entry ∈ scenario.entries.head?, time ≤ entry.1 → value = entry.2
  inside : ∀ old new, scenario.Around old new time → between old new time value
  last : ∀ entry ∈ scenario.entries.getLast?, entry.1 < time → value = entry.2

theorem below_append_lowerBound (scenario : Scenario V) (time : Nat) :
    scenario.below time ++ scenario.lowerBound time = scenario.entries :=
  List.takeWhile_append_dropWhile

theorem lt_of_mem_below {entry : Nat × V} (mem : entry ∈ scenario.below time) : entry.1 < time := by
  simpa using List.mem_takeWhile_imp mem

theorem le_of_mem_lowerBound {entry : Nat × V} (mem : entry ∈ scenario.lowerBound time) :
    time ≤ entry.1 := by
  rcases eq : scenario.lowerBound time with - | ⟨first, rest⟩
  · rw [eq] at mem
    cases mem
  have sorted := scenario.sorted.sublist (List.dropWhile_sublist (·.1 < time))
  have above := List.head?_dropWhile_not (·.1 < time) scenario.entries
  rw [← lowerBound, eq] at sorted above
  have le : time ≤ first.1 := by simpa using above
  rw [eq] at mem
  rcases List.mem_cons.mp mem with rfl | later
  · exact le
  · exact le.trans (Nat.le_of_lt ((List.pairwise_cons.mp sorted).1 entry later))

theorem around_iff :
    scenario.Around old new time ↔
      (scenario.below time).getLast? = some old ∧ (scenario.lowerBound time).head? = some new := by
  constructor
  · rintro ⟨⟨before, after, split⟩, lt, le⟩
    have lower := SortedMap.lower_lt split
    have small : ∀ entry ∈ before ++ [old], decide (entry.1 < time) = true := by
      simp only [List.mem_append, List.mem_singleton, decide_eq_true_eq]
      rintro entry (mem | rfl)
      · exact (lower entry mem).trans lt
      · exact lt
    have split' : scenario.entries = (before ++ [old]) ++ new :: after := by simp [split]
    rw [below, lowerBound, split', List.takeWhile_append_of_pos small, List.dropWhile_append_of_pos small]
    simp [le]
  · rintro ⟨last, first⟩
    obtain ⟨before, eq⟩ := List.getLast?_eq_some_iff.mp last
    obtain ⟨after, eq'⟩ := List.head?_eq_some_iff.mp first
    refine ⟨⟨before, after, ?_⟩, lt_of_mem_below (List.mem_of_getLast? last),
      le_of_mem_lowerBound (List.mem_of_head? first)⟩
    rw [← scenario.below_append_lowerBound time, eq, eq', List.append_assoc]
    rfl

theorem head_le {first : Nat × V} (head : first ∈ scenario.entries.head?) :
    ∀ entry ∈ scenario.entries, first.1 ≤ entry.1 := by
  obtain ⟨rest, split⟩ := List.head?_eq_some_iff.mp head
  have sorted := scenario.sorted
  rw [split] at sorted ⊢
  intro entry mem
  rcases List.mem_cons.mp mem with rfl | later
  · exact Nat.le_refl _
  · exact Nat.le_of_lt ((List.pairwise_cons.mp sorted).1 entry later)

theorem le_getLast {last : Nat × V} (tail : last ∈ scenario.entries.getLast?) :
    ∀ entry ∈ scenario.entries, entry.1 ≤ last.1 := by
  obtain ⟨before, split⟩ := List.getLast?_eq_some_iff.mp tail
  have sorted := scenario.sorted
  rw [split] at sorted ⊢
  intro entry mem
  rcases List.mem_append.mp mem with earlier | here
  · exact Nat.le_of_lt ((List.pairwise_append.mp sorted).2.2 entry earlier last
      (List.mem_singleton_self _))
  · rw [List.mem_singleton.mp here]

theorem Around.mem (around : scenario.Around old new time) :
    old ∈ scenario.entries ∧ new ∈ scenario.entries := by
  obtain ⟨⟨before, after, split⟩, -, -⟩ := around
  simp [split]

theorem Around.unique {old' new' : Nat × V} (around : scenario.Around old new time)
    (around' : scenario.Around old' new' time) : old = old' ∧ new = new' := by
  obtain ⟨last, first⟩ := around_iff.mp around
  obtain ⟨last', first'⟩ := around_iff.mp around'
  exact ⟨Option.some.inj (last.symm.trans last'), Option.some.inj (first.symm.trans first')⟩

variable {between : Nat × V → Nat × V → Nat → V → Prop} {value : V}

theorem value_first {first : Nat × V} (head : first ∈ scenario.entries.head?)
    (le : time ≤ first.1) : scenario.Value between time value ↔ value = first.2 := by
  refine ⟨fun follows => follows.first first head le, fun eq => ⟨?_, ?_, ?_⟩⟩
  · rintro entry mem -
    cases head.symm.trans mem
    exact eq
  · intro old new around
    exact absurd (head_le head old around.mem.1) (Nat.not_le.mpr (around.2.1.trans_le le))
  · intro entry mem lt
    exact absurd (head_le head entry (List.mem_of_getLast? mem)) (Nat.not_le.mpr (lt.trans_le le))

theorem value_inside (around : scenario.Around old new time) :
    scenario.Value between time value ↔ between old new time value := by
  refine ⟨fun follows => follows.inside old new around, fun meets => ⟨?_, ?_, ?_⟩⟩
  · intro entry mem le
    exact absurd (head_le mem old around.mem.1) (Nat.not_le.mpr (around.2.1.trans_le le))
  · intro old' new' around'
    obtain ⟨rfl, rfl⟩ := around.unique around'
    exact meets
  · intro entry mem lt
    exact absurd (le_getLast mem new around.mem.2) (Nat.not_le.mpr (lt.trans_le around.2.2))

theorem value_last {last : Nat × V} (tail : last ∈ scenario.entries.getLast?)
    (lt : last.1 < time) : scenario.Value between time value ↔ value = last.2 := by
  refine ⟨fun follows => follows.last last tail lt, fun eq => ⟨?_, ?_, ?_⟩⟩
  · intro entry mem le
    exact absurd (le_getLast tail entry (List.mem_of_head? mem)) (Nat.not_le.mpr (lt.trans_le le))
  · intro old new around
    exact absurd (le_getLast tail new around.mem.2) (Nat.not_le.mpr (lt.trans_le around.2.2))
  · rintro entry mem -
    cases tail.symm.trans mem
    exact eq

theorem time_cases {first last : Nat × V} (head : first ∈ scenario.entries.head?)
    (tail : last ∈ scenario.entries.getLast?) (time : Nat) :
    time ≤ first.1 ∨ (∃ old new, scenario.Around old new time) ∨ last.1 < time := by
  rcases below : (scenario.below time).getLast? with - | old
  · have split := scenario.below_append_lowerBound time
    rw [List.getLast?_eq_none_iff.mp below, List.nil_append] at split
    exact .inl (le_of_mem_lowerBound (split ▸ List.mem_of_head? head))
  rcases above : (scenario.lowerBound time).head? with - | new
  · have split := scenario.below_append_lowerBound time
    rw [List.head?_eq_none_iff.mp above, List.append_nil] at split
    exact .inr (.inr (lt_of_mem_below (split ▸ List.mem_of_getLast? tail)))
  · exact .inr (.inl ⟨old, new, around_iff.mpr ⟨below, above⟩⟩)

end Scenario

/-! ### One update -/

namespace FileScenario

open Scenario

variable {V : Type} {interpolate : Nat × V → Nat × V → Nat → Option V} {file : FileScenario V}
  {time : Nat} {first last old new : Nat × V}

theorem update_first (next : addW 32 file.currentTime 1 = time)
    (head : first ∈ file.scenario.entries.head?) (le : time ≤ first.1) :
    update interpolate file = some (first.2, { file with currentTime := time }) := by
  obtain ⟨rest, split⟩ := List.head?_eq_some_iff.mp head
  have lower : file.scenario.lowerBound time = first :: rest := by
    rw [lowerBound, split, List.dropWhile_cons_of_neg (by simpa using le)]
  have below : file.scenario.below time = [] := by
    rw [Scenario.below, split, List.takeWhile_cons_of_neg (by simpa using le)]
  rw [update, next, lower, below]
  rfl

theorem update_inside (next : addW 32 file.currentTime 1 = time)
    (around : file.scenario.Around old new time) :
    update interpolate file =
      (interpolate old new time).map (·, { file with currentTime := time }) := by
  obtain ⟨below, above⟩ := around_iff.mp around
  obtain ⟨rest, lower⟩ := List.head?_eq_some_iff.mp above
  rw [update, next, lower]
  simp only [below]

theorem update_last (next : addW 32 file.currentTime 1 = time)
    (head : first ∈ file.scenario.entries.head?) (tail : last ∈ file.scenario.entries.getLast?)
    (lt : last.1 < time) :
    update interpolate file =
      if file.loop then some (first.2, { file with currentTime := 0 }) else none := by
  have lower : file.scenario.lowerBound time = [] :=
    List.dropWhile_eq_nil_iff.mpr fun entry mem => by
      simpa using (le_getLast tail entry mem).trans_lt lt
  rw [update, next, lower, head]
  rfl

/-- What an interpolation computes, and where it is undefined. -/
structure Law (interpolate : Nat × V → Nat × V → Nat → Option V)
    (between : Nat × V → Nat × V → Nat → V → Prop) (defined : Nat × V → Nat × V → Nat → Prop) :
    Prop where
  meets : ∀ {old new time}, old.1 < time → time ≤ new.1 → defined old new time →
    ∃ value, interpolate old new time = some value ∧ between old new time value
  undefined : ∀ {old new time}, old.1 < time → time ≤ new.1 → ¬ defined old new time →
    interpolate old new time = none
  unique : ∀ {old new time value value'}, old.1 < time → time ≤ new.1 →
    between old new time value → between old new time value' → value = value'

variable {between : Nat × V → Nat × V → Nat → V → Prop} {defined : Nat × V → Nat × V → Nat → Prop}

/-- The interpolation at a time is defined. -/
def Defined (defined : Nat × V → Nat × V → Nat → Prop) (scenario : Scenario V) (time : Nat) : Prop :=
  ∀ old new, scenario.Around old new time → defined old new time

/-- Up to the last entry an update sets the value of its time, unless its interpolation is
undefined. -/
theorem update_found (law : Law interpolate between defined)
    (next : addW 32 file.currentTime 1 = time) (tail : last ∈ file.scenario.entries.getLast?)
    (le : time ≤ last.1) :
    Defined defined file.scenario time ∧
        (∃ value, update interpolate file = some (value, { file with currentTime := time }) ∧
          file.scenario.Value between time value) ∨
      ¬ Defined defined file.scenario time ∧ update interpolate file = none := by
  obtain ⟨first, head⟩ := exists_head tail
  rcases time_cases head tail time with before | ⟨old, new, around⟩ | behind
  · refine .inl ⟨fun old new around => ?_, _, update_first next head before,
      (value_first head before).mpr rfl⟩
    exact absurd (head_le head old around.mem.1) (Nat.not_le.mpr (around.2.1.trans_le before))
  · rw [update_inside next around]
    by_cases ok : defined old new time
    · obtain ⟨value, computed, meets⟩ := law.meets around.2.1 around.2.2 ok
      refine .inl ⟨fun old' new' around' => ?_, value, by rw [computed]; rfl,
        (value_inside around).mpr meets⟩
      obtain ⟨rfl, rfl⟩ := around.unique around'
      exact ok
    · refine .inr ⟨fun all => ok (all old new around), ?_⟩
      rw [law.undefined around.2.1 around.2.2 ok]
      rfl
  · exact absurd le (Nat.not_le.mpr behind)

/-! ### Runs of updates -/

/-- If, as long as an invariant holds, an update is defined exactly at the good positions and then
keeps the invariant, the updates are defined as long as the positions are good. -/
theorem nth_cases {Q : Nat → FileScenario V → Prop} {Good : Nat → Prop} {Sets : Nat → V → Prop}
    (init : Q 0 file)
    (step : ∀ n file, Q n file →
      Good n ∧ (∃ value file', update interpolate file = some (value, file') ∧ Q (n + 1) file' ∧
        Sets n value) ∨ ¬ Good n ∧ update interpolate file = none) (n : Nat) :
    (∀ m ≤ n, Good m) ∧ (∃ value file', nth (update interpolate) file n = some (value, file') ∧
        Q (n + 1) file' ∧ Sets n value) ∨
      ¬ (∀ m ≤ n, Good m) ∧ nth (update interpolate) file n = none := by
  induction n with
  | zero =>
      rcases step 0 file init with ⟨good, taken⟩ | ⟨bad, stuck⟩
      · exact .inl ⟨fun m le => Nat.le_zero.mp le ▸ good, taken⟩
      · exact .inr ⟨fun all => bad (all 0 (Nat.le_refl _)), stuck⟩
  | succ n ih =>
      rcases ih with ⟨good, value, file', taken, kept, -⟩ | ⟨bad, stuck⟩
      · rw [nth, taken, Option.bind_some]
        rcases step (n + 1) file' kept with ⟨good', taken'⟩ | ⟨bad, stuck⟩
        · refine .inl ⟨fun m le => ?_, taken'⟩
          rcases Nat.lt_or_eq_of_le le with lt | rfl
          · exact good m (Nat.le_of_lt_succ lt)
          · exact good'
        · exact .inr ⟨fun all => bad (all _ (Nat.le_refl _)), stuck⟩
      · refine .inr ⟨fun all => bad fun m le => all m (Nat.le_succ_of_le le), ?_⟩
        rw [nth, stuck]
        rfl

variable {scenario : Scenario V}

/-- A scenario without loop after `n` updates. -/
structure Once (scenario : Scenario V) (last : Nat × V) (n : Nat) (file : FileScenario V) : Prop where
  scenario_eq : file.scenario = scenario
  loop_eq : file.loop = false
  time_eq : file.currentTime = n % 2 ^ 32
  reached : n ≤ last.1 ∨ last.1 = 2 ^ 32 - 1

/-- The update after `n` others reads a value. -/
def Reads (defined : Nat × V → Nat × V → Nat → Prop) (scenario : Scenario V) (last : Nat × V)
    (n : Nat) : Prop :=
  Defined defined scenario ((n + 1) % 2 ^ 32) ∧ (n + 1 ≤ last.1 ∨ last.1 = 2 ^ 32 - 1)

/-- Without loop, the updates go through the times until the last entry. -/
theorem Once.step (law : Law interpolate between defined) (tail : last ∈ scenario.entries.getLast?)
    {n : Nat} (once : Once scenario last n file) :
    Reads defined scenario last n ∧
        (∃ value file', update interpolate file = some (value, file') ∧
          Once scenario last (n + 1) file' ∧ scenario.Value between ((n + 1) % 2 ^ 32) value) ∨
      ¬ Reads defined scenario last n ∧ update interpolate file = none := by
  have bound := scenario.time_lt last (List.mem_of_getLast? tail)
  obtain ⟨currentTime, scenario, loop⟩ := file
  obtain ⟨rfl, rfl, rfl, reached⟩ := once
  have next : addW 32 (n % 2 ^ 32) 1 = (n + 1) % 2 ^ 32 := by rw [addW, Nat.mod_add_mod]
  by_cases inside : n + 1 ≤ last.1 ∨ last.1 = 2 ^ 32 - 1
  · have le : (n + 1) % 2 ^ 32 ≤ last.1 := by omega
    rcases update_found law next tail le with ⟨ok, value, updated, follows⟩ | ⟨bad, stuck⟩
    · exact .inl ⟨⟨ok, inside⟩, value, _, updated, ⟨rfl, rfl, rfl, inside⟩, follows⟩
    · exact .inr ⟨fun reads => bad reads.1, stuck⟩
  · have lt : last.1 < (n + 1) % 2 ^ 32 := by omega
    obtain ⟨first, head⟩ := Scenario.exists_head tail
    exact .inr ⟨fun reads => inside reads.2, update_last next head tail lt⟩

/-- A scenario with loop after `n` updates. -/
structure Round (scenario : Scenario V) (last : Nat × V) (n : Nat) (file : FileScenario V) : Prop where
  scenario_eq : file.scenario = scenario
  loop_eq : file.loop = true
  time_eq : file.currentTime = n % (last.1 + 1)

theorem Round.step (law : Law interpolate between defined) (tail : last ∈ scenario.entries.getLast?)
    {n : Nat} (round : Round scenario last n file) :
    Defined defined scenario ((n + 1) % (last.1 + 1)) ∧
        (∃ value file', update interpolate file = some (value, file') ∧
          Round scenario last (n + 1) file' ∧
          scenario.Value between ((n + 1) % (last.1 + 1)) value) ∨
      ¬ Defined defined scenario ((n + 1) % (last.1 + 1)) ∧ update interpolate file = none := by
  have bound := scenario.time_lt last (List.mem_of_getLast? tail)
  obtain ⟨currentTime, scenario, loop⟩ := file
  obtain ⟨rfl, rfl, rfl⟩ := round
  obtain ⟨first, head⟩ := Scenario.exists_head tail
  have small : n % (last.1 + 1) < last.1 + 1 := Nat.mod_lt _ (Nat.succ_pos _)
  have succ : (n + 1) % (last.1 + 1) = (n % (last.1 + 1) + 1) % (last.1 + 1) :=
    (Nat.mod_add_mod _ _ _).symm
  rcases Nat.lt_or_eq_of_le (Nat.le_of_lt_succ small) with inside | behind
  · have next : addW 32 (n % (last.1 + 1)) 1 = (n + 1) % (last.1 + 1) := by
      have lt : n % (last.1 + 1) + 1 < last.1 + 1 := Nat.succ_lt_succ inside
      rw [addW, succ, Nat.mod_eq_of_lt lt, Nat.mod_eq_of_lt (by omega)]
    have le : (n + 1) % (last.1 + 1) ≤ last.1 := Nat.le_of_lt_succ (Nat.mod_lt _ (Nat.succ_pos _))
    rcases update_found law next tail le with ⟨ok, value, updated, follows⟩ | ⟨bad, stuck⟩
    · exact .inl ⟨ok, value, _, updated, ⟨rfl, rfl, rfl⟩, follows⟩
    · exact .inr ⟨bad, stuck⟩
  · have zero : (n + 1) % (last.1 + 1) = 0 := by rw [succ, behind, Nat.mod_self]
    have updated : update interpolate ⟨n % (last.1 + 1), scenario, true⟩ =
        some (first.2, ⟨0, scenario, true⟩) := by
      by_cases wraps : last.1 + 1 = 2 ^ 32
      · have next : addW 32 (n % (last.1 + 1)) 1 = 0 := by
          rw [behind, addW, wraps, Nat.mod_self]
        exact update_first next head (Nat.zero_le _)
      · have next : addW 32 (n % (last.1 + 1)) 1 = last.1 + 1 := by
          rw [behind, addW, Nat.mod_eq_of_lt (by omega)]
        exact update_last next head tail (Nat.lt_succ_self _)
    refine .inl ⟨fun old new around => ?_, first.2, _, updated, ⟨rfl, rfl, zero.symm⟩, ?_⟩
    · exact absurd around.2.1 (by omega)
    · exact (value_first head (zero ▸ Nat.zero_le _)).mpr rfl

/-! ### Scenarios -/

/-- The update after `n` others sets the value of its time. -/
def Interpolates (update : FileScenario V → Option (V × FileScenario V))
    (between : Nat × V → Nat × V → Nat → V → Prop) (scenario : Scenario V) (n : Nat) : Prop :=
  ∃ value file, nth update (FileScenario.new scenario false) n = some (value, file) ∧
    scenario.Value between (n + 1) value

/-- With loop, the values behind the last entry come back. -/
def Repeats (update : FileScenario V → Option (V × FileScenario V)) (scenario : Scenario V)
    (last : Nat × V) : Prop :=
  ∃ period, 0 < period ∧ ∀ n, last.1 ≤ n → ∃ value file file',
    nth update (FileScenario.new scenario true) n = some (value, file) ∧
      nth update (FileScenario.new scenario true) (n + period) = some (value, file')

theorem value_unique (law : Law interpolate between defined)
    (tail : last ∈ scenario.entries.getLast?) {value value' : V}
    (follows : scenario.Value between time value) (follows' : scenario.Value between time value') :
    value = value' := by
  obtain ⟨first, head⟩ := exists_head tail
  rcases time_cases head tail time with before | ⟨old, new, around⟩ | behind
  · rw [(value_first head before).mp follows, (value_first head before).mp follows']
  · exact law.unique around.2.1 around.2.2 (follows.inside old new around)
      (follows'.inside old new around)
  · rw [(value_last tail behind).mp follows, (value_last tail behind).mp follows']

theorem interpolates_iff (law : Law interpolate between defined)
    (tail : last ∈ scenario.entries.getLast?) (n : Nat) :
    Interpolates (update interpolate) between scenario n ↔
      (∀ m ≤ n, Defined defined scenario ((m + 1) % 2 ^ 32)) ∧
        (n + 1 ≤ last.1 ∨
          last.1 = 2 ^ 32 - 1 ∧ scenario.Value between ((n + 1) % 2 ^ 32) last.2) := by
  have bound := scenario.time_lt last (List.mem_of_getLast? tail)
  have init : Once scenario last 0 (FileScenario.new scenario false) :=
    ⟨rfl, rfl, rfl, .inl (Nat.zero_le _)⟩
  rcases nth_cases init (fun n file once => once.step law tail) n with
    ⟨reads, value, file, taken, -, follows⟩ | ⟨bad, stuck⟩
  · have ok : ∀ m ≤ n, Defined defined scenario ((m + 1) % 2 ^ 32) := fun m le => (reads m le).1
    by_cases inside : n + 1 ≤ last.1
    · rw [Nat.mod_eq_of_lt (Nat.lt_of_le_of_lt inside bound)] at follows
      exact iff_of_true ⟨value, file, taken, follows⟩ ⟨ok, .inl inside⟩
    · have whole : last.1 = 2 ^ 32 - 1 := (reads n (Nat.le_refl n)).2.resolve_left inside
      have behind : last.1 < n + 1 := Nat.lt_of_not_le inside
      constructor
      · rintro ⟨value', file', taken', follows'⟩
        cases taken.symm.trans taken'
        rw [(value_last tail behind).mp follows'] at follows
        exact ⟨ok, .inr ⟨whole, follows⟩⟩
      · rintro ⟨-, inside' | ⟨-, follows'⟩⟩
        · exact absurd inside' inside
        · exact ⟨value, file, taken,
            (value_last tail behind).mpr (value_unique law tail follows follows')⟩
  · refine iff_of_false ?_ fun holds => bad fun m le => ⟨holds.1 m le, ?_⟩
    · rintro ⟨value, file, taken, -⟩
      rw [stuck] at taken
      cases taken
    · rcases holds.2 with inside | ⟨whole, -⟩
      · exact .inl (by omega)
      · exact .inr whole

theorem repeats_iff (law : Law interpolate between defined)
    (tail : last ∈ scenario.entries.getLast?) :
    Repeats (update interpolate) scenario last ↔ ∀ time ≤ last.1, Defined defined scenario time := by
  have init : Round scenario last 0 (FileScenario.new scenario true) :=
    ⟨rfl, rfl, (Nat.zero_mod _).symm⟩
  have cases := fun n => nth_cases init (fun n file round => round.step law tail) n
  constructor
  · rintro ⟨period, -, values⟩ time le
    obtain ⟨value, file, -, taken, -⟩ := values last.1 (Nat.le_refl _)
    rcases cases last.1 with ⟨ok, -⟩ | ⟨-, stuck⟩
    · rcases Nat.eq_zero_or_pos time with rfl | pos
      · exact fun old new around => absurd around.2.1 (Nat.not_lt_zero _)
      · have := ok (time - 1) (by omega)
        rwa [Nat.sub_add_cancel pos, Nat.mod_eq_of_lt (Nat.lt_succ_of_le le)] at this
    · rw [stuck] at taken
      cases taken
  · intro all
    have ok : ∀ m, Defined defined scenario ((m + 1) % (last.1 + 1)) := fun m =>
      all _ (Nat.le_of_lt_succ (Nat.mod_lt _ (Nat.succ_pos _)))
    have taken := fun n => (cases n).resolve_right fun bad => bad.1 fun m _ => ok m
    refine ⟨last.1 + 1, Nat.succ_pos _, fun n _ => ?_⟩
    obtain ⟨-, value, file, first, -, follows⟩ := taken n
    obtain ⟨-, value', file', second, -, follows'⟩ := taken (n + (last.1 + 1))
    rw [Nat.add_right_comm, Nat.add_mod_right] at follows'
    obtain rfl := value_unique law tail follows follows'
    exact ⟨value, file, file', first, second⟩

end FileScenario

/-! ### The two plugins -/

namespace FileDelay

/-- The delay between two entries, whose fraction is cut off toward the first one. -/
def Between (old new : Nat × UInt32) (time : Nat) (delay : UInt32) : Prop :=
  (delay.toNat : ℤ) = old.2.toNat +
      (((new.2.toNat : ℤ) - old.2.toNat) * ((time : ℤ) - old.1)).tdiv ((new.1 : ℤ) - old.1) ∧
    min old.2.toNat new.2.toNat ≤ delay.toNat ∧ delay.toNat ≤ max old.2.toNat new.2.toNat

/-- The delay has not fallen by one yet. -/
def NotFallen (old new : Nat × UInt32) (time : Nat) : Prop :=
  new.2 < old.2 → (old.2.toNat - new.2.toNat) * (time - old.1) < new.1 - old.1

theorem truncate_div (z : ℤ) (d : Nat) : truncate ((z : ℚ) / d) = z.tdiv d := by
  rcases le_or_gt 0 z with nonneg | neg
  · have positive : 0 ≤ (z : ℚ) / d := div_nonneg (Int.cast_nonneg nonneg) (Nat.cast_nonneg d)
    rw [truncate, if_pos positive, Rat.floor_intCast_div_natCast, Int.tdiv_eq_ediv_of_nonneg nonneg]
  · rcases Nat.eq_zero_or_pos d with rfl | pos
    · simp [truncate]
    · have negative : (z : ℚ) / d < 0 :=
        div_neg_of_neg_of_pos (Int.cast_lt_zero.mpr neg) (Nat.cast_pos.mpr pos)
      have opposite : (z : ℚ) / d = -(((-z : ℤ) : ℚ) / d) := by
        rw [Int.cast_neg, neg_div, neg_neg]
      rw [truncate, if_neg (not_le.mpr negative), opposite, Int.ceil_neg,
        Rat.floor_intCast_div_natCast, ← Int.tdiv_eq_ediv_of_nonneg (by omega), Int.neg_tdiv,
        neg_neg]

theorem tdiv_rising {a b e d : Nat} (le : a ≤ b) :
    (((b : ℤ) - a) * e).tdiv d = ((b - a) * e / d : Nat) := by
  rw [← Nat.cast_sub le, ← Nat.cast_mul, Int.ofNat_tdiv]

theorem tdiv_falling {a b e d : Nat} (le : b ≤ a) :
    (((b : ℤ) - a) * e).tdiv d = -((a - b) * e / d : Nat) := by
  rw [← neg_sub, ← Nat.cast_sub le, neg_mul, Int.neg_tdiv, ← Nat.cast_mul, Int.ofNat_tdiv]

/-- The part of a rise, or of a fall, up to a time. -/
def part (old new : Nat × UInt32) (time : Nat) : ℤ :=
  (((new.2.toNat : ℤ) - old.2.toNat) * (time - old.1 : Nat)).tdiv (new.1 - old.1 : Nat)

variable {old new : Nat × UInt32} {time : Nat}

theorem part_eq (lt : old.1 < time) (le : time ≤ new.1) :
    part old new time = (((new.2.toNat : ℤ) - old.2.toNat) * ((time : ℤ) - old.1)).tdiv
      ((new.1 : ℤ) - old.1) := by
  rw [part, Nat.cast_sub lt.le, Nat.cast_sub (lt.le.trans le)]

theorem interpolate_eq (lt : old.1 < time) (le : time ≤ new.1) :
    interpolate old new time =
      if 0 ≤ part old new time ∧ part old new time < 2 ^ 32 then
        some (old.2 + UInt32.ofNat (part old new time).toNat) else none := by
  have quotient : ((new.2.toNat : ℚ) - old.2.toNat) / ((new.1 : ℚ) - old.1) *
      ((time : ℚ) - old.1) =
        ((((new.2.toNat : ℤ) - old.2.toNat) * (time - old.1 : Nat) : ℤ) : ℚ) /
          (new.1 - old.1 : Nat) := by
    rw [Nat.cast_sub (lt.le.trans le)]
    push_cast [Nat.cast_sub lt.le]
    ring
  simp only [interpolate, quotient, timeMs, truncate_div, part]
  exact apply_ite (Option.map (old.2 + ·)) _ _ _

theorem part_bounds (le : time ≤ new.1) (ok : NotFallen old new time) :
    0 ≤ part old new time ∧ old.2.toNat + part old new time ≤ max old.2.toNat new.2.toNat := by
  rcases Nat.lt_or_ge new.2.toNat old.2.toNat with fall | rise
  · rw [part, tdiv_falling fall.le, Nat.div_eq_of_lt (ok fall)]
    omega
  · have within : (new.2.toNat - old.2.toNat) * (time - old.1) / (new.1 - old.1) ≤
        new.2.toNat - old.2.toNat := by
      refine Nat.div_le_of_le_mul ?_
      rw [Nat.mul_comm]
      exact Nat.mul_le_mul_right _ (Nat.sub_le_sub_right le _)
    rw [part, tdiv_rising rise]
    refine ⟨Int.natCast_nonneg _, ?_⟩
    generalize (new.2.toNat - old.2.toNat) * (time - old.1) / (new.1 - old.1) = q at within
    omega

theorem part_fallen (lt : old.1 < time) (le : time ≤ new.1) (fallen : ¬ NotFallen old new time) :
    part old new time < 0 := by
  simp only [NotFallen, not_forall, not_lt] at fallen
  obtain ⟨fall, large⟩ := fallen
  have pos : 0 < new.1 - old.1 := Nat.sub_pos_of_lt (lt.trans_le le)
  have one : 1 ≤ (old.2.toNat - new.2.toNat) * (time - old.1) / (new.1 - old.1) :=
    (Nat.one_le_div_iff pos).mpr large
  rw [part, tdiv_falling (UInt32.lt_iff_toNat_lt.mp fall).le]
  omega

theorem law : FileScenario.Law interpolate Between NotFallen where
  meets := by
    intro old new time lt le ok
    obtain ⟨nonneg, within⟩ := part_bounds le ok
    have := old.2.toNat_lt
    have := new.2.toNat_lt
    have value : ((old.2 + UInt32.ofNat (part old new time).toNat).toNat : ℤ) =
        old.2.toNat + part old new time := by
      rw [UInt32.toNat_add, UInt32.toNat_ofNat']
      omega
    refine ⟨_, (interpolate_eq lt le).trans (if_pos ⟨nonneg, by omega⟩), ?_⟩
    refine ⟨by rw [value, part_eq lt le], ?_, ?_⟩ <;> omega
  undefined := by
    intro old new time lt le fallen
    have negative := part_fallen lt le fallen
    rw [interpolate_eq lt le, if_neg (by omega)]
  unique := by
    rintro old new time value value' - - ⟨eq, -, -⟩ ⟨eq', -, -⟩
    exact UInt32.toNat.inj (by omega)

end FileDelay

namespace File

def Between (old new : Nat × ℚ) (time : Nat) (attenuation : ℚ) : Prop :=
  attenuation * ((new.1 : ℚ) - old.1) =
      old.2 * ((new.1 : ℚ) - time) + new.2 * ((time : ℚ) - old.1) ∧
    min old.2 new.2 ≤ attenuation ∧ attenuation ≤ max old.2 new.2

theorem law : FileScenario.Law interpolate Between fun _ _ _ => True where
  meets := by
    rintro old new time lt le -
    have first : (0 : ℚ) < (time : ℚ) - old.1 := sub_pos.mpr (by exact_mod_cast lt)
    have second : (0 : ℚ) ≤ (new.1 : ℚ) - time := sub_nonneg.mpr (by exact_mod_cast le)
    have pos : (0 : ℚ) < (new.1 : ℚ) - old.1 := by linarith
    have line : (old.2 + (new.2 - old.2) / ((new.1 : ℚ) - old.1) * ((time : ℚ) - old.1)) *
        ((new.1 : ℚ) - old.1) = old.2 * ((new.1 : ℚ) - time) + new.2 * ((time : ℚ) - old.1) := by
      rw [add_mul, mul_right_comm, div_mul_cancel₀ _ pos.ne']
      ring
    refine ⟨_, rfl, line, ?_, ?_⟩
    · refine le_of_mul_le_mul_right ?_ pos
      rw [line]
      have := mul_le_mul_of_nonneg_right (min_le_left old.2 new.2) second
      have := mul_le_mul_of_nonneg_right (min_le_right old.2 new.2) first.le
      linarith
    · refine le_of_mul_le_mul_right ?_ pos
      rw [line]
      have := mul_le_mul_of_nonneg_right (le_max_left old.2 new.2) second
      have := mul_le_mul_of_nonneg_right (le_max_right old.2 new.2) first.le
      linarith
  undefined := fun _ _ bad => absurd trivial bad
  unique := by
    rintro old new time value value' lt le ⟨eq, -, -⟩ ⟨eq', -, -⟩
    have pos : (0 : ℚ) < new.1 - old.1 := by
      have : (old.1 : ℚ) < new.1 := by exact_mod_cast lt.trans_le le
      linarith
    exact mul_right_cancel₀ pos.ne' (eq.trans eq'.symm)

end File

/-! ### Both plugins -/

/-- Without loop, an update sets the value of its time exactly when no delay has fallen by one
between two entries so far and the last entry is not behind; the only scenario that has no time
behind it starts again. With loop, the values come back as long as no delay falls so. -/
theorem scenarios_iff (delays : Scenario UInt32) (attenuations : Scenario ℚ) (n : Nat) :
    (∀ last ∈ delays.entries.getLast?,
      (FileScenario.Interpolates FileDelay.updateSatDelay FileDelay.Between delays n ↔
        (∀ m ≤ n, FileScenario.Defined FileDelay.NotFallen delays ((m + 1) % 2 ^ 32)) ∧
          (n + 1 ≤ last.1 ∨ last.1 = 2 ^ 32 - 1 ∧
            delays.Value FileDelay.Between ((n + 1) % 2 ^ 32) last.2)) ∧
      (FileScenario.Repeats FileDelay.updateSatDelay delays last ↔
        ∀ time ≤ last.1, FileScenario.Defined FileDelay.NotFallen delays time)) ∧
    ∀ last ∈ attenuations.entries.getLast?,
      (FileScenario.Interpolates File.updateAttenuationModel File.Between attenuations n ↔
        n + 1 ≤ last.1 ∨ last.1 = 2 ^ 32 - 1 ∧
          attenuations.Value File.Between ((n + 1) % 2 ^ 32) last.2) ∧
      FileScenario.Repeats File.updateAttenuationModel attenuations last := by
  refine ⟨fun last tail => ⟨FileScenario.interpolates_iff FileDelay.law tail n,
    FileScenario.repeats_iff FileDelay.law tail⟩, fun last tail => ⟨?_, ?_⟩⟩
  · refine (FileScenario.interpolates_iff File.law tail n).trans (and_iff_right ?_)
    exact fun _ _ _ _ _ => trivial
  · exact (FileScenario.repeats_iff File.law tail).mpr fun _ _ _ _ _ => trivial

/-- A delay of 250, then of 240 two updates later. -/
def falling : Scenario UInt32 where
  entries := [(1, 250), (3, 240)]
  sorted := by decide
  time_lt := by decide

def constant : Scenario ℚ where
  entries := [(1, 5)]
  sorted := by decide
  time_lt := by decide

theorem scenarios_falling :
    FileScenario.Interpolates FileDelay.updateSatDelay FileDelay.Between falling 0 ∧
      FileScenario.Repeats File.updateAttenuationModel constant (1, 5) := by
  obtain ⟨delays, attenuations⟩ := scenarios_iff falling constant 0
  refine ⟨(delays (3, 240) rfl).1.mpr ⟨?_, .inl (by decide)⟩, (attenuations (1, 5) rfl).2⟩
  intro m le old new around
  have head : ((1, 250) : Nat × UInt32) ∈ falling.entries.head? := rfl
  have first : 1 ≤ old.1 := Scenario.head_le head old around.mem.1
  exact absurd around.2.1 (by omega)

/-- No delay is defined on the way down, and no attenuation is left behind the only entry. -/
theorem falling_undefined :
    ¬ FileScenario.Interpolates FileDelay.updateSatDelay FileDelay.Between falling 1 ∧
      ¬ FileScenario.Interpolates File.updateAttenuationModel File.Between constant 1 := by
  constructor
  · rintro ⟨value, file, taken, -⟩
    have stuck : (FileScenario.nth FileDelay.updateSatDelay
        (FileScenario.new falling false) 1).isNone = true := by decide +kernel
    rw [taken] at stuck
    cases stuck
  · rintro ⟨value, file, taken, -⟩
    have stuck : (FileScenario.nth File.updateAttenuationModel
        (FileScenario.new constant false) 1).isNone = true := rfl
    rw [taken] at stuck
    cases stuck

end OpenSand
