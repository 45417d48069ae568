import OpenSand.Output.LogLevels

/-!
The desired levels as logs are registered.

A registration gives its level to the nodes of its path that have none. `inheritLevel_settled`
says what the desired levels are after some registrations over any others: the first log
registered under a part decides where nothing else does.
-/

namespace OpenSand.Output

open Paths

variable {base tree : DesiredLogLevels} {level : LogLevel} {path : Path} {part : Part}
  {registrations : List Registration} {registration : Registration}

/-! ### Desired levels -/

theorem inheritLevel_concat {done : Path} :
    inheritLevel tree done level (path ++ [part]) =
      let (tree', level') := inheritLevel tree done level path
      let level'' := (tree' (done ++ path ++ [part])).getD level'
      (Function.update tree' (done ++ path ++ [part]) (some level''), level'') := by
  induction path generalizing tree done level with
  | nil =>
      rw [List.append_nil]
      rfl
  | cons head path ih =>
      rw [List.cons_append, inheritLevel, ih, inheritLevel]
      simp only [List.append_assoc, List.cons_append, List.nil_append]

/-- All the prefixes of a path get the nearest level, and the path has it. -/
theorem inheritLevel_spec :
    (inheritLevel tree [] ((tree []).getD level) path).2 = (nearest tree path).getD level ∧
    ∀ node, (inheritLevel tree [] ((tree []).getD level) path).1 node =
      if node ≠ [] ∧ node <+: path then some ((nearest tree node).getD level) else tree node := by
  induction path using List.reverseRecOn with
  | nil =>
      refine ⟨rfl, fun node => ?_⟩
      rw [if_neg (fun h => h.1 (List.prefix_nil.mp h.2))]
      rfl
  | append_singleton path part ih =>
      obtain ⟨levels, nodes⟩ := ih
      have found : ((inheritLevel tree [] ((tree []).getD level) path).1 (path ++ [part])).getD
          (inheritLevel tree [] ((tree []).getD level) path).2 =
          (nearest tree (path ++ [part])).getD level := by
        rw [nodes, if_neg (fun h => not_concat_prefix h.2), levels, nearest_concat]
        cases tree (path ++ [part]) with
        | none => rfl
        | some value => rfl
      rw [inheritLevel_concat]
      dsimp only
      rw [List.nil_append, found]
      refine ⟨rfl, fun node => ?_⟩
      by_cases same : node = path ++ [part]
      · rw [same, Function.update_self, if_pos ⟨by simp, List.prefix_rfl⟩]
      · rw [Function.update_of_ne same, nodes]
        simp only [List.prefix_concat_iff, or_iff_right same]

/-- The level of the first registration whose name begins as a path. -/
def founder (registrations : List Registration) (path : Path) : Option LogLevel :=
  (registrations.find? fun registration => registration.parts.head? = path.head?).map
    Registration.displayLevel

/-- A path is in the name of a log. -/
def Named (registrations : List Registration) (path : Path) : Prop :=
  path ≠ [] ∧ ∃ registration ∈ registrations, path <+: registration.parts

instance : DecidablePred (Named registrations) := fun path =>
  inferInstanceAs (Decidable (path ≠ [] ∧ ∃ _ ∈ _, _))

/-- The level a log gets over some desired levels. -/
def inherited (base : DesiredLogLevels) (registrations : List Registration) (path : Path) :
    Option LogLevel :=
  (nearest base path).or (founder registrations path)

/-- The desired levels once logs are registered. -/
def settled (base : DesiredLogLevels) (registrations : List Registration) : DesiredLogLevels :=
  fun path => (base path).or
    (if Named registrations path then inherited base registrations path else none)

theorem founder_concat_path (here : path ≠ []) :
    founder registrations (path ++ [part]) = founder registrations path := by
  rw [founder, founder, List.head?_append_of_ne_nil _ here]

theorem founder_append :
    founder (registrations ++ [registration]) path = (founder registrations path).or
      (if registration.parts.head? = path.head? then some registration.displayLevel else none) := by
  unfold founder
  rw [List.find?_append]
  cases registrations.find? fun registration => registration.parts.head? = path.head? with
  | some first => rfl
  | none =>
      by_cases same : registration.parts.head? = path.head?
      · simp [same]
      · simp [same]

/-- The founder of a path that is in the name of a log. -/
theorem Named.founder (named : Named registrations path) :
    ∃ level, Output.founder registrations path = some level := by
  obtain ⟨nonempty, registration, mem, below⟩ := named
  obtain ⟨rest, parts⟩ := below
  have same : registration.parts.head? = path.head? := by
    rw [← parts, List.head?_append_of_ne_nil _ nonempty]
  have found : (registrations.find? fun registration =>
      registration.parts.head? = path.head?).isSome :=
    List.find?_isSome.mpr ⟨registration, mem, decide_eq_true same⟩
  obtain ⟨first, found⟩ := Option.isSome_iff_exists.mp found
  exact ⟨first.displayLevel, by rw [Output.founder, found]; rfl⟩

theorem not_named_nil : ¬ Named registrations [] := fun named => named.1 rfl

/-- A path of one part has a founder only if it is in its name. -/
theorem named_singleton (founded : founder registrations [part] = some level) :
    Named registrations [part] := by
  obtain ⟨first, found, -⟩ := Option.map_eq_some_iff.mp founded
  have hit := List.find?_some found
  have same := of_decide_eq_true hit
  refine ⟨by simp, first, List.mem_of_find?_eq_some found, ?_⟩
  cases parts : first.parts with
  | nil =>
      rw [parts] at same
      cases same
  | cons head rest =>
      rw [parts] at same
      cases same
      exact ⟨rest, rfl⟩

/-- Once logs are registered, the nearest level of a path is the one that a log gets there. -/
theorem nearest_settled (here : path ≠ []) :
    nearest (settled base registrations) path = inherited base registrations path := by
  induction path using List.reverseRecOn with
  | nil => exact absurd rfl here
  | append_singleton path part ih =>
      rw [nearest_concat]
      by_cases root : path = []
      · subst root
        simp only [settled, inherited, nearest_singleton, nearest_nil, if_neg not_named_nil,
          Option.or_none, List.nil_append]
        by_cases named : Named registrations [part]
        · rw [if_pos named]
          obtain ⟨level, founded⟩ := named.founder
          rw [founded]
          cases base [part] with
          | some value => rfl
          | none =>
              cases base [] with
              | some value => rfl
              | none => rfl
        · have unfounded : founder registrations [part] = none := by
            cases founded : founder registrations [part] with
            | none => rfl
            | some level => exact absurd (named_singleton founded) named
          rw [if_neg named, unfounded, Option.or_none, Option.or_none]
      · rw [ih root]
        simp only [settled, inherited, nearest_concat, founder_concat_path root]
        cases base (path ++ [part]) with
        | some value => rfl
        | none =>
            rw [Option.none_or, Option.none_or]
            split
            · rw [Option.or_self]
            · rw [Option.none_or]

/-- A log that is registered settles the levels of its path, and its own level. -/
theorem inheritLevel_settled {displayLevel : LogLevel} (named : registration.parts ≠ [])
    (default : registration.displayLevel = displayLevel) :
    let after := inheritLevel (settled base registrations) []
      ((settled base registrations []).getD displayLevel) registration.parts
    after.1 = settled base (registrations ++ [registration]) ∧
      some after.2 = inherited base (registrations ++ [registration]) registration.parts := by
  obtain ⟨levels, nodes⟩ := @inheritLevel_spec (settled base registrations) displayLevel
    registration.parts
  have gets : ∀ node, node ≠ [] → node <+: registration.parts →
      some ((nearest (settled base registrations) node).getD displayLevel) =
        inherited base (registrations ++ [registration]) node := by
    intro node here below
    obtain ⟨rest, parts⟩ := below
    have same : registration.parts.head? = node.head? := by
      rw [← parts, List.head?_append_of_ne_nil _ here]
    rw [nearest_settled here, inherited, inherited, founder_append, if_pos same, default]
    cases nearest base node with
    | some value => rfl
    | none =>
        cases founder registrations node with
        | some value => rfl
        | none => rfl
  refine ⟨funext fun node => ?_, ?_⟩
  · rw [nodes]
    by_cases here : node ≠ [] ∧ node <+: registration.parts
    · have named' : Named (registrations ++ [registration]) node :=
        ⟨here.1, registration, List.mem_append_right _ (List.mem_singleton_self _), here.2⟩
      rw [if_pos here, gets node here.1 here.2, settled, if_pos named', inherited, ← Option.or_assoc,
        or_nearest]
    · have same : Named (registrations ++ [registration]) node ↔ Named registrations node := by
        constructor
        · rintro ⟨nonempty, other, mem, below⟩
          rcases List.mem_append.mp mem with old | new
          · exact ⟨nonempty, other, old, below⟩
          · rw [List.mem_singleton.mp new] at below
            exact absurd ⟨nonempty, below⟩ here
        · rintro ⟨nonempty, other, mem, below⟩
          exact ⟨nonempty, other, List.mem_append_left _ mem, below⟩
      rw [if_neg here, settled, settled]
      by_cases named' : Named registrations node
      · obtain ⟨level, founded⟩ := named'.founder
        rw [if_pos named', if_pos (same.mpr named'), inherited, inherited, founder_append, founded]
        rfl
      · rw [if_neg named', if_neg (fun h => named' (same.mp h))]
  · rw [← gets _ named List.prefix_rfl]
    exact congrArg some levels

end OpenSand.Output
