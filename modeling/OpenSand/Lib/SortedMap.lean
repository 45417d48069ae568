import Mathlib.Algebra.BigOperators.Group.List.Basic
import Mathlib.Order.Lattice

/-!
Maps with ordered keys.

A map is the list of its entries in increasing order of the keys, so the entries from the
largest key on are the reversed list. An insertion does not replace the value of a key that
is there.
-/

namespace OpenSand

structure SortedMap (κ α : Type*) [LinearOrder κ] where
  entries : List (κ × α)
  sorted : entries.Pairwise fun a b => a.1 < b.1

namespace SortedMap

variable {κ α : Type*} [LinearOrder κ]

def empty : SortedMap κ α := ⟨[], .nil⟩

def insertEntry (key : κ) (value : α) : List (κ × α) → List (κ × α)
  | [] => [(key, value)]
  | first :: rest =>
      if key < first.1 then (key, value) :: first :: rest
      else if key = first.1 then first :: rest
      else first :: insertEntry key value rest

theorem mem_insertEntry {key : κ} {value : α} {entries : List (κ × α)} {entry : κ × α}
    (mem : entry ∈ insertEntry key value entries) : entry = (key, value) ∨ entry ∈ entries := by
  induction entries with
  | nil => exact .inl (List.mem_singleton.mp mem)
  | cons first rest ih =>
      unfold insertEntry at mem
      split at mem
      · exact List.mem_cons.mp mem
      split at mem
      · exact .inr mem
      rcases List.mem_cons.mp mem with rfl | later
      · exact .inr List.mem_cons_self
      · exact (ih later).imp_right (List.mem_cons_of_mem first)

theorem insertEntry_sorted (key : κ) (value : α) {entries : List (κ × α)}
    (sorted : entries.Pairwise fun a b => a.1 < b.1) :
    (insertEntry key value entries).Pairwise fun a b => a.1 < b.1 := by
  induction entries with
  | nil => exact List.pairwise_singleton _ _
  | cons first rest ih =>
      obtain ⟨above, sorted'⟩ := List.pairwise_cons.mp sorted
      unfold insertEntry
      split
      next below =>
        refine List.pairwise_cons.mpr ⟨?_, sorted⟩
        intro entry mem
        rcases List.mem_cons.mp mem with rfl | later
        · exact below
        · exact lt_trans below (above entry later)
      split
      · exact sorted
      next notBelow other =>
        refine List.pairwise_cons.mpr ⟨?_, ih sorted'⟩
        intro entry mem
        rcases mem_insertEntry mem with rfl | later
        · exact lt_of_le_of_ne (not_lt.mp notBelow) (Ne.symm other)
        · exact above entry later

variable (map : SortedMap κ α)

def insert (key : κ) (value : α) : SortedMap κ α :=
  ⟨insertEntry key value map.entries, insertEntry_sorted key value map.sorted⟩

def lookup (key : κ) : Option α := (map.entries.find? (·.1 = key)).map Prod.snd

/-- A change of the value of a key, if it is there. -/
def modify (key : κ) (f : α → α) : SortedMap κ α where
  entries := map.entries.map fun entry => if entry.1 = key then (entry.1, f entry.2) else entry
  sorted := by
    refine List.Pairwise.map _ ?_ map.sorted
    intro a b lt
    split <;> split <;> exact lt

def erase (key : κ) : SortedMap κ α :=
  ⟨map.entries.filter (·.1 ≠ key), map.sorted.filter _⟩

variable {map}

@[ext] theorem ext {map map' : SortedMap κ α} (same : map.entries = map'.entries) : map = map' := by
  cases map
  cases map'
  cases same
  rfl

/-! ### Maps split at a key -/

variable {key : κ} {value : α} {lower higher : List (κ × α)}

theorem lower_lt (split : map.entries = lower ++ (key, value) :: higher) :
    ∀ entry ∈ lower, entry.1 < key := by
  have sorted := map.sorted
  rw [split] at sorted
  exact fun entry mem => (List.pairwise_append.mp sorted).2.2 entry mem _ List.mem_cons_self

theorem lt_higher (split : map.entries = lower ++ (key, value) :: higher) :
    ∀ entry ∈ higher, key < entry.1 := by
  have sorted := map.sorted
  rw [split] at sorted
  exact (List.pairwise_cons.mp (List.pairwise_append.mp sorted).2.1).1

theorem insert_between (split : map.entries = lower ++ higher)
    (above : ∀ entry ∈ lower, entry.1 < key) (below : ∀ entry ∈ higher, key < entry.1) :
    (map.insert key value).entries = lower ++ (key, value) :: higher := by
  change insertEntry key value map.entries = _
  rw [split]
  clear split
  induction lower with
  | nil =>
      cases higher with
      | nil => rfl
      | cons first rest => exact if_pos (below first List.mem_cons_self)
  | cons first lower ih =>
      have lt : first.1 < key := above first List.mem_cons_self
      rw [List.cons_append, insertEntry, if_neg (not_lt_of_gt lt), if_neg (ne_of_gt lt),
        ih fun entry mem => above entry (List.mem_cons_of_mem _ mem), List.cons_append]

/-- A key below all the others comes first. -/
theorem insert_of_lt (value : α) (below : ∀ entry ∈ map.entries, key < entry.1) :
    (map.insert key value).entries = (key, value) :: map.entries :=
  insert_between (List.nil_append _).symm (List.forall_mem_nil _) below

theorem lookup_split (split : map.entries = lower ++ (key, value) :: higher) :
    map.lookup key = some value := by
  have lower' := lower_lt split
  rw [lookup, split, List.find?_append, List.find?_eq_none.mpr]
  · rw [Option.none_or, List.find?_cons_of_pos (by simp), Option.map_some]
  · intro entry mem own
    exact absurd (of_decide_eq_true own) (ne_of_lt (lower' entry mem))

theorem modify_of_ne {entries : List (κ × α)} (f : α → α) (ne : ∀ entry ∈ entries, entry.1 ≠ key) :
    (entries.map fun entry => if entry.1 = key then (entry.1, f entry.2) else entry) = entries :=
  (List.map_congr_left fun entry mem => if_neg (ne entry mem)).trans (List.map_id _)

theorem modify_split (split : map.entries = lower ++ (key, value) :: higher) (f : α → α) :
    (map.modify key f).entries = lower ++ (key, f value) :: higher := by
  change map.entries.map _ = _
  rw [split, List.map_append, List.map_cons, if_pos rfl,
    modify_of_ne f fun entry mem => ne_of_lt (lower_lt split entry mem),
    modify_of_ne f fun entry mem => ne_of_gt (lt_higher split entry mem)]

/-- A change leaves the entries below its key. -/
theorem modify_lower (split : map.entries = lower ++ higher) (f : α → α)
    (above : ∀ entry ∈ lower, entry.1 < key) :
    ∃ higher', (map.modify key f).entries = lower ++ higher' := by
  refine ⟨higher.map fun entry => if entry.1 = key then (entry.1, f entry.2) else entry, ?_⟩
  change map.entries.map _ = _
  rw [split, List.map_append, modify_of_ne f fun entry mem => ne_of_lt (above entry mem)]

theorem erase_split (split : map.entries = lower ++ (key, value) :: higher) :
    (map.erase key).entries = lower ++ higher := by
  change map.entries.filter _ = _
  rw [split, List.filter_append, List.filter_cons_of_neg (by simp),
    List.filter_eq_self.mpr fun entry mem => decide_eq_true (ne_of_lt (lower_lt split entry mem)),
    List.filter_eq_self.mpr fun entry mem => decide_eq_true (ne_of_gt (lt_higher split entry mem))]

theorem lookup_eq_none_iff :
    map.lookup key = none ↔ ∀ entry ∈ map.entries, entry.1 ≠ key := by
  rw [lookup, Option.map_eq_none_iff, List.find?_eq_none]
  exact forall₂_congr fun entry _ => by rw [decide_eq_true_eq]

/-! ### Loops over the values -/

variable {σ : Type*}

/-- Call a function on the entries in order, with a state, and put the values it gives in
place of the former ones. -/
def forEntries (f : σ → κ → α → Option (σ × α)) :
    σ → List (κ × α) → Option (σ × List (κ × α))
  | s, [] => some (s, [])
  | s, (key, value) :: rest =>
      (f s key value).bind fun (s, value) =>
        (forEntries f s rest).map fun (s, rest) => (s, (key, value) :: rest)

omit [LinearOrder κ] in
theorem forEntries_keys {f : σ → κ → α → Option (σ × α)} {s : σ} {entries : List (κ × α)}
    {out : σ × List (κ × α)} (looped : forEntries f s entries = some out) :
    out.2.map Prod.fst = entries.map Prod.fst := by
  induction entries generalizing s out with
  | nil =>
      cases looped
      rfl
  | cons entry rest ih =>
      simp only [forEntries, Option.bind_eq_some_iff, Option.map_eq_some_iff] at looped
      obtain ⟨mid, called, last, later, rfl⟩ := looped
      exact congrArg (entry.1 :: ·) (ih later)

def forValues (f : σ → κ → α → Option (σ × α)) (s : σ) (map : SortedMap κ α) :
    Option (σ × SortedMap κ α) :=
  match looped : forEntries f s map.entries with
  | none => none
  | some out => some (out.1, {
      entries := out.2
      sorted := by
        rw [← List.pairwise_map (f := Prod.fst) (R := (· < ·)), forEntries_keys looped,
          List.pairwise_map]
        exact map.sorted })

theorem forValues_eq_some {f : σ → κ → α → Option (σ × α)} {s s' : σ} {map map' : SortedMap κ α}
    (looped : forValues f s map = some (s', map')) :
    forEntries f s map.entries = some (s', map'.entries) := by
  unfold forValues at looped
  split at looped
  · cases looped
  next out entries =>
    cases looped
    exact entries

/-- What every call keeps of the state, the loop keeps. -/
theorem forValues_keeps {f : σ → κ → α → Option (σ × α)} {P : σ → Prop} {s s' : σ}
    {map map' : SortedMap κ α} (init : P s)
    (keep : ∀ s key value out, (key, value) ∈ map.entries → P s → f s key value = some out →
      P out.1)
    (looped : forValues f s map = some (s', map')) : P s' := by
  have entries := forValues_eq_some looped
  generalize map.entries = former at entries keep
  generalize map'.entries = later at entries
  clear looped
  induction former generalizing s later with
  | nil =>
      cases entries
      exact init
  | cons entry rest ih =>
      simp only [forEntries, Option.bind_eq_some_iff, Option.map_eq_some_iff] at entries
      obtain ⟨mid, called, last, rest', eq⟩ := entries
      cases eq
      exact ih (keep _ _ _ mid List.mem_cons_self init called)
        (fun s key value out mem => keep s key value out (List.mem_cons_of_mem _ mem)) _ rest'

/-- The rule for a property of the state and of the entries, read before the loop and
written behind it. -/
theorem forValues_forall {f : σ → κ → α → Option (σ × α)} {P : σ → Prop} {Q R : κ × α → Prop}
    {s s' : σ} {map map' : SortedMap κ α} (init : P s) (before : ∀ entry ∈ map.entries, Q entry)
    (keep : ∀ s key value out, P s → Q (key, value) → f s key value = some out →
      P out.1 ∧ R (key, out.2))
    (looped : forValues f s map = some (s', map')) : P s' ∧ ∀ entry ∈ map'.entries, R entry := by
  have entries := forValues_eq_some looped
  generalize map.entries = former at entries before
  generalize map'.entries = later at entries ⊢
  clear looped
  induction former generalizing s later with
  | nil =>
      cases entries
      exact ⟨init, List.forall_mem_nil _⟩
  | cons entry rest ih =>
      simp only [forEntries, Option.bind_eq_some_iff, Option.map_eq_some_iff] at entries
      obtain ⟨mid, called, last, looped, eq⟩ := entries
      cases eq
      obtain ⟨state, value⟩ := keep _ _ _ mid init (before _ List.mem_cons_self) called
      obtain ⟨state', values⟩ := ih state
        (fun entry mem => before entry (List.mem_cons_of_mem _ mem)) _ looped
      exact ⟨state', List.forall_mem_cons.mpr ⟨value, values⟩⟩

/-! ### Loops that stop early -/

/-- The call for an entry, until one reported `false`. -/
def callWhile (f : σ → α → Option (Bool × σ × α)) (state : Bool × σ) (_ : κ) (value : α) :
    Option ((Bool × σ) × α) :=
  if state.1 then (f state.2 value).map fun (ok, s, value) => ((ok, s), value)
  else some (state, value)

/-- A loop over the values that stops when the function reports `false`. -/
def forValuesWhile (f : σ → α → Option (Bool × σ × α)) (s : σ) (map : SortedMap κ α) :
    Option (Bool × σ × SortedMap κ α) :=
  (map.forValues (callWhile f) (true, s)).map fun ((ok, s), map) => (ok, s, map)

theorem forValuesWhile_eq_some {f : σ → α → Option (Bool × σ × α)} {s : σ} {map : SortedMap κ α}
    {out : Bool × σ × SortedMap κ α} (looped : map.forValuesWhile f s = some out) :
    forEntries (callWhile f) (true, s) map.entries =
      some ((out.1, out.2.1), out.2.2.entries) := by
  obtain ⟨⟨⟨ok, s'⟩, map'⟩, called, rfl⟩ := Option.map_eq_some_iff.mp looped
  exact forValues_eq_some called

omit [LinearOrder κ] in
/-- The entries behind a call that reported `false` are left alone. -/
theorem forEntries_stopped {f : σ → α → Option (Bool × σ × α)} {s : σ} (entries : List (κ × α)) :
    forEntries (callWhile f) (false, s) entries = some ((false, s), entries) := by
  induction entries with
  | nil => rfl
  | cons entry rest ih => simp [forEntries, callWhile, ih]

/-- A loop over the elements of each value is one over the elements of all the values. -/
theorem forValuesWhile_flat {ε : Type*} {f : σ → α → Option (Bool × σ × α)} (elems : α → List ε)
    (loop : σ → List ε → Option (Bool × σ × List ε)) (nil : ∀ s, loop s [] = some (true, s, []))
    (goes : ∀ s xs ys s' xs' out, loop s xs = some (true, s', xs') → loop s' ys = some out →
      loop s (xs ++ ys) = some (out.1, out.2.1, xs' ++ out.2.2))
    (stops : ∀ s xs ys s' xs', loop s xs = some (false, s', xs') →
      loop s (xs ++ ys) = some (false, s', xs' ++ ys))
    (calls : ∀ s value out, f s value = some out →
      loop s (elems value) = some (out.1, out.2.1, elems out.2.2))
    {s : σ} {map : SortedMap κ α} {out : Bool × σ × SortedMap κ α}
    (looped : map.forValuesWhile f s = some out) :
    loop s (map.entries.flatMap (elems ·.2)) =
      some (out.1, out.2.1, out.2.2.entries.flatMap (elems ·.2)) := by
  have entries := forValuesWhile_eq_some looped
  generalize map.entries = former at entries ⊢
  obtain ⟨ok, s', map'⟩ := out
  dsimp only at entries ⊢
  generalize map'.entries = later at entries ⊢
  clear looped
  induction former generalizing s later with
  | nil =>
      cases entries
      exact nil _
  | cons entry rest ih =>
      simp only [forEntries, callWhile, if_true, Option.bind_eq_some_iff,
        Option.map_eq_some_iff] at entries
      obtain ⟨_, ⟨⟨ok', mid, value⟩, called, rfl⟩, ⟨⟨_, _⟩, _⟩, later', eq⟩ := entries
      cases eq
      have first := calls _ entry.2 _ called
      rw [List.flatMap_cons, List.flatMap_cons]
      cases ok' with
      | true => exact goes _ _ _ _ _ _ first (ih _ later')
      | false =>
          rw [forEntries_stopped] at later'
          cases later'
          exact stops _ _ _ _ _ first

/-- What the calls relate, the loop relates at each key. -/
theorem forValuesWhile_lookup {f : σ → α → Option (Bool × σ × α)} {R : α → α → Prop}
    (refl : ∀ value, R value value) (calls : ∀ s value out, f s value = some out → R value out.2.2)
    {s : σ} {map : SortedMap κ α} {out : Bool × σ × SortedMap κ α}
    (looped : map.forValuesWhile f s = some out) (key : κ) :
    Option.Rel R (map.lookup key) (out.2.2.lookup key) := by
  have entries := forValuesWhile_eq_some looped
  obtain ⟨ok, s', map'⟩ := out
  unfold lookup
  dsimp only at entries ⊢
  generalize map.entries = former at entries ⊢
  generalize map'.entries = later at entries ⊢
  clear looped
  generalize true = status at entries
  induction former generalizing s status later with
  | nil =>
      cases entries
      exact .none
  | cons entry rest ih =>
      simp only [forEntries, Option.bind_eq_some_iff, Option.map_eq_some_iff] at entries
      obtain ⟨⟨⟨mid, midState⟩, value⟩, called, ⟨⟨_, _⟩, _⟩, later', eq⟩ := entries
      cases eq
      have related : R entry.2 value := by
        cases status with
        | true =>
            obtain ⟨out, taken, eq⟩ := Option.map_eq_some_iff.mp called
            cases eq
            exact calls _ _ out taken
        | false =>
            cases called
            exact refl _
      by_cases here : entry.1 = key
      · rw [List.find?_cons_of_pos (by simpa using here),
          List.find?_cons_of_pos (by simpa using here)]
        exact .some related
      · rw [List.find?_cons_of_neg (by simpa using here),
          List.find?_cons_of_neg (by simpa using here)]
        exact ih _ _ later'

theorem forall_insert {map : SortedMap κ α} {Q : κ × α → Prop} {key : κ} {value : α}
    (entries : ∀ entry ∈ map.entries, Q entry) (new : Q (key, value)) :
    ∀ entry ∈ (map.insert key value).entries, Q entry := by
  intro entry mem
  rcases mem_insertEntry mem with rfl | old
  · exact new
  · exact entries entry old

theorem forall_modify {map : SortedMap κ α} {Q : κ × α → Prop} {key : κ} {f : α → α}
    (entries : ∀ entry ∈ map.entries, Q entry)
    (changed : ∀ value, Q (key, value) → Q (key, f value)) :
    ∀ entry ∈ (map.modify key f).entries, Q entry := by
  intro entry mem
  obtain ⟨old, held, rfl⟩ := List.mem_map.mp mem
  have before := entries old held
  split
  next here =>
    subst here
    exact changed _ before
  · exact before

theorem exists_lookup_insert (map : SortedMap κ α) (key : κ) (value : α) :
    ∃ value', (map.insert key value).lookup key = some value' := by
  refine Option.isSome_iff_exists.mp ?_
  rw [lookup, Option.isSome_map, List.find?_isSome]
  simp only [insert, decide_eq_true_eq]
  induction map.entries with
  | nil => exact ⟨_, List.mem_singleton_self _, rfl⟩
  | cons first rest ih =>
      unfold insertEntry
      split
      · exact ⟨_, List.mem_cons_self, rfl⟩
      split
      next same => exact ⟨first, List.mem_cons_self, same.symm⟩
      · obtain ⟨entry, mem, here⟩ := ih
        exact ⟨entry, List.mem_cons_of_mem _ mem, here⟩

/-- An insertion shows at its key only, and there when the key is new. -/
theorem lookup_insert {map : SortedMap κ α} {key : κ} (fresh : map.lookup key = none) (value : α)
    (other : κ) :
    (map.insert key value).lookup other = if other = key then some value else map.lookup other := by
  rw [lookup_eq_none_iff] at fresh
  change ((insertEntry key value map.entries).find? _).map _ = ite _ _ ((map.entries.find? _).map _)
  generalize map.entries = entries at fresh
  induction entries with
  | nil =>
      by_cases same : other = key
      · simp [insertEntry, same]
      · simp [insertEntry, same, Ne.symm same]
  | cons first rest ih =>
      have ih' := ih fun entry mem => fresh entry (List.mem_cons_of_mem _ mem)
      have ne : first.1 ≠ key := fresh first List.mem_cons_self
      unfold insertEntry
      by_cases below : key < first.1
      · rw [if_pos below]
        by_cases same : other = key
        · simp [same]
        · simp [List.find?_cons_of_neg, same, Ne.symm same]
      · rw [if_neg below, if_neg (Ne.symm ne)]
        by_cases here : first.1 = other
        · have other' : other ≠ key := here ▸ ne
          rw [if_neg other', List.find?_cons_of_pos (by simpa using here),
            List.find?_cons_of_pos (by simpa using here)]
        · rw [List.find?_cons_of_neg (by simpa using here), ih',
            List.find?_cons_of_neg (by simpa using here)]

/-- A key that is erased is the only one that is lost. -/
theorem lookup_erase (map : SortedMap κ α) (key other : κ) :
    (map.erase key).lookup other = if other = key then none else map.lookup other := by
  by_cases same : other = key
  · rw [if_pos same, lookup_eq_none_iff]
    intro entry mem
    rw [same]
    exact of_decide_eq_true (List.mem_filter.mp mem).2
  · rw [if_neg same, lookup, lookup, erase, List.find?_filter]
    congr 2
    funext entry
    by_cases here : entry.1 = other
    · simp [here, same]
    · simp [here]

/-! ### The keys -/

def keys (map : SortedMap κ α) : List κ := map.entries.map Prod.fst

theorem mem_keys_iff {map : SortedMap κ α} {key : κ} :
    key ∈ map.keys ↔ (map.lookup key).isSome = true := by
  rw [← not_iff_not, Option.not_isSome_iff_eq_none, lookup_eq_none_iff, keys, List.mem_map]
  push Not
  exact Iff.rfl

theorem keys_nodup (map : SortedMap κ α) : map.keys.Nodup :=
  (List.pairwise_map.mpr map.sorted).imp ne_of_lt

theorem keys_modify (map : SortedMap κ α) (key : κ) (f : α → α) :
    (map.modify key f).keys = map.keys := by
  rw [keys, keys, modify, List.map_map]
  refine List.map_congr_left fun entry _ => ?_
  rw [Function.comp_apply]
  split <;> rfl

variable {β : Type*}

/-- The keys after an insertion are the same whatever the values. -/
theorem keys_insert_congr {map : SortedMap κ α} {map' : SortedMap κ β}
    (same : map.keys = map'.keys) (key : κ) (value : α) (value' : β) :
    (map.insert key value).keys = (map'.insert key value').keys := by
  unfold keys insert at *
  dsimp only
  generalize map.entries = entries at same
  generalize map'.entries = entries' at same ⊢
  induction entries generalizing entries' with
  | nil =>
      rw [List.map_nil, eq_comm, List.map_eq_nil_iff] at same
      rw [same]
      rfl
  | cons first rest ih =>
      cases entries' with
      | nil => cases same
      | cons first' rest' =>
          obtain ⟨head, tail⟩ := List.cons.inj same
          unfold insertEntry
          rw [← head]
          split
          · exact congrArg (key :: ·) same
          split
          · exact same
          · rw [List.map_cons, List.map_cons, ih rest' tail, ← head]

theorem keys_erase (map : SortedMap κ α) (key : κ) :
    (map.erase key).keys = map.keys.filter (· ≠ key) := by
  rw [keys, keys, List.filter_map]
  rfl

/-! ### Totals over the entries -/

section Total

variable {M : Type*} [AddCommMonoid M] (weight : κ → α → M)

/-- The sum of what the entries weigh. -/
def total (map : SortedMap κ α) : M := (map.entries.map fun entry => weight entry.1 entry.2).sum

theorem split_of_lookup {map : SortedMap κ α} {key : κ} {value : α}
    (found : map.lookup key = some value) :
    ∃ lower higher, map.entries = lower ++ (key, value) :: higher := by
  obtain ⟨⟨key', value'⟩, held, eq⟩ := Option.map_eq_some_iff.mp found
  obtain ⟨same, lower, higher, split, -⟩ := List.find?_eq_some_iff_append.mp held
  cases eq
  cases of_decide_eq_true same
  exact ⟨lower, higher, split⟩

/-- An insertion keeps the value of a key that is there. -/
theorem insert_of_lookup {map : SortedMap κ α} {key : κ} {value : α}
    (found : map.lookup key = some value) (value' : α) : map.insert key value' = map := by
  obtain ⟨lower, higher, split⟩ := split_of_lookup found
  have below := lower_lt split
  refine SortedMap.ext ?_
  change insertEntry key value' map.entries = map.entries
  rw [split]
  clear split
  induction lower with
  | nil => simp [insertEntry]
  | cons first lower ih =>
      have lt := below first List.mem_cons_self
      rw [List.cons_append, insertEntry, if_neg lt.asymm, if_neg lt.ne',
        ih fun entry mem => below entry (List.mem_cons_of_mem _ mem)]

theorem lookup_empty (key : κ) : (empty : SortedMap κ α).lookup key = none := rfl

/-- What an insertion shows at each key: the former value wins. -/
theorem lookup_insert_or (map : SortedMap κ α) (key : κ) (value : α) (other : κ) :
    (map.insert key value).lookup other =
      if other = key then (map.lookup key).or (some value) else map.lookup other := by
  cases found : map.lookup key with
  | none =>
      rw [lookup_insert found]
      rfl
  | some former =>
      rw [insert_of_lookup found]
      split
      next same => rw [same, found, Option.some_or]
      · rfl

theorem lookup_of_mem {map : SortedMap κ α} {key : κ} {value : α}
    (mem : (key, value) ∈ map.entries) : map.lookup key = some value := by
  obtain ⟨lower, higher, split⟩ := List.append_of_mem mem
  exact lookup_split split

theorem mem_of_lookup {map : SortedMap κ α} {key : κ} {value : α}
    (found : map.lookup key = some value) : (key, value) ∈ map.entries := by
  obtain ⟨lower, higher, split⟩ := split_of_lookup found
  rw [split]
  exact List.mem_append_right _ List.mem_cons_self

/-- A changed value is paid by its own weight. -/
theorem total_modify {map : SortedMap κ α} {key : κ} {value : α}
    (found : map.lookup key = some value) (f : α → α) :
    (map.modify key f).total weight + weight key value =
      map.total weight + weight key (f value) := by
  obtain ⟨lower, higher, split⟩ := split_of_lookup found
  simp only [total, modify_split split, split, List.map_append, List.map_cons, List.sum_append,
    List.sum_cons]
  ac_rfl

/-- A new key without weight adds nothing. -/
theorem total_insert {map : SortedMap κ α} {key : κ} {value : α} (nothing : weight key value = 0) :
    (map.insert key value).total weight = map.total weight := by
  simp only [total, insert]
  induction map.entries with
  | nil => simp [insertEntry, nothing]
  | cons first rest ih =>
      unfold insertEntry
      split
      · simp [nothing]
      split
      · rfl
      · simp [ih]

/-- A loop whose calls exchange weight between the state and the values keeps the sum. -/
theorem forValues_total {f : σ → κ → α → Option (σ × α)} {P : σ → Prop} (held : σ → M) {s s' : σ}
    {map map' : SortedMap κ α} (init : P s)
    (keep : ∀ s key value out, P s → f s key value = some out →
      P out.1 ∧ held out.1 + weight key out.2 = held s + weight key value)
    (looped : forValues f s map = some (s', map')) :
    held s' + map'.total weight = held s + map.total weight := by
  have entries := forValues_eq_some looped
  simp only [total]
  generalize map.entries = former at entries ⊢
  generalize map'.entries = later at entries ⊢
  clear looped
  induction former generalizing s later with
  | nil =>
      cases entries
      rfl
  | cons entry rest ih =>
      simp only [forEntries, Option.bind_eq_some_iff, Option.map_eq_some_iff] at entries
      obtain ⟨mid, called, last, looped, eq⟩ := entries
      cases eq
      obtain ⟨state, step⟩ := keep _ _ _ mid init called
      have rest' := ih state _ looped
      simp only [List.map_cons, List.sum_cons]
      calc held last.1 + (weight entry.1 mid.2 + (last.2.map fun e => weight e.1 e.2).sum)
          = weight entry.1 mid.2 + (held last.1 + (last.2.map fun e => weight e.1 e.2).sum) := by
            ac_rfl
        _ = (held mid.1 + weight entry.1 mid.2) + (rest.map fun e => weight e.1 e.2).sum := by
            rw [rest']
            ac_rfl
        _ = _ := by
            rw [step]
            ac_rfl

theorem lookup_modify_self {map : SortedMap κ α} {key : κ} {value : α}
    (found : map.lookup key = some value) (f : α → α) :
    (map.modify key f).lookup key = some (f value) := by
  obtain ⟨lower, higher, split⟩ := split_of_lookup found
  exact lookup_split (modify_split split f)

theorem lookup_modify_of_ne (map : SortedMap κ α) {key other : κ} (ne : other ≠ key) (f : α → α) :
    (map.modify key f).lookup other = map.lookup other := by
  simp only [lookup, modify, List.find?_map, Option.map_map]
  have same : ((fun entry : κ × α => decide (entry.1 = other)) ∘
      fun entry => if entry.1 = key then (entry.1, f entry.2) else entry) =
        fun entry => decide (entry.1 = other) := by
    funext entry
    by_cases here : entry.1 = key <;> simp [here]
  rw [same]
  cases held : map.entries.find? (fun entry => decide (entry.1 = other)) with
  | none => rfl
  | some entry =>
      have here := List.find?_some (p := fun entry : κ × α => decide (entry.1 = other)) held
      have there : entry.1 ≠ key := (of_decide_eq_true here).trans_ne ne
      simp [there]

theorem lookup_modify (map : SortedMap κ α) (key other : κ) (f : α → α) :
    (map.modify key f).lookup other =
      (map.lookup other).map fun value => if other = key then f value else value := by
  by_cases here : other = key
  · subst here
    simp only [if_true]
    cases found : map.lookup other with
    | some value => exact lookup_modify_self found f
    | none =>
        have absent := lookup_eq_none_iff.mp found
        refine lookup_eq_none_iff.mpr fun entry mem => ?_
        obtain ⟨former, held, rfl⟩ := List.mem_map.mp mem
        rw [if_neg (absent former held)]
        exact absent former held
  · simp only [if_neg here, Option.map_id']
    exact lookup_modify_of_ne map here f

end Total

end SortedMap

end OpenSand
