import Mathlib.Order.Lattice
import OpenSand.Lib.Run
import OpenSand.Output.DesiredLevels
import OpenSand.Output.LogItems

/-!
What the display levels of the logs depend on.

A log should have the level configured for its longest configured prefix, or the one given at
its registration. `levels_iff` says when all logs have it, for any registrations before and
after the configuration. A registration gives its level to all nodes of its path that have
none, so the first log registered under a part decides for the others, and after the
configuration what was decided before hides the levels configured above it.
-/

namespace OpenSand.Output

open Paths

variable {base : DesiredLogLevels} {level : LogLevel} {path : Path} {items : OutputItems}
  {logs : List Path} {levels : Path → Option LogLevel} {registrations : List Registration}
  {registration : Registration}

/-! ### Registrations in a row -/

/-- The logs that are there, of those registered. -/
def accepted (logs : List Path) (registrations : List Registration) : List Path :=
  registrations.foldl (fun logs registration => accept logs registration.parts) logs

/-- The levels of the logs once some are registered over desired levels. -/
def levelsAfter (base : DesiredLogLevels) (levels : Path → Option LogLevel)
    (registrations : List Registration) (path : Path) : Option LogLevel :=
  if ∃ registration ∈ registrations, registration.parts = path then
    inherited base registrations path
  else levels path

theorem inherited_append (named : Named registrations path) :
    inherited base (registrations ++ [registration]) path = inherited base registrations path := by
  obtain ⟨level, founded⟩ := named.founder
  rw [inherited, inherited, founder_append, founded]
  rfl

theorem settled_nil : settled base [] = base := by
  funext path
  rw [settled, if_neg (fun named => by obtain ⟨-, _, mem, -⟩ := named; cases mem), Option.or_none]

theorem levelsAfter_nil : levelsAfter base levels [] = levels := by
  funext path
  rw [levelsAfter, if_neg (fun registered => by obtain ⟨_, mem, -⟩ := registered; cases mem)]

/-- A registration sets the level of its own log only. -/
theorem levelsAfter_append (named : ∀ registration ∈ registrations, registration.parts ≠ []) :
    levelsAfter base levels (registrations ++ [registration]) = fun node =>
      if node = registration.parts then
        inherited base (registrations ++ [registration]) registration.parts
      else levelsAfter base levels registrations node := by
  funext node
  unfold levelsAfter
  by_cases same : node = registration.parts
  · rw [if_pos same, if_pos ⟨registration,
      List.mem_append_right _ (List.mem_singleton_self _), same.symm⟩, same]
  · rw [if_neg same]
    by_cases old : ∃ other ∈ registrations, other.parts = node
    · obtain ⟨other, mem, parts⟩ := old
      have isNamed : Named registrations node :=
        ⟨parts ▸ named other mem, other, mem, parts ▸ List.prefix_rfl⟩
      rw [if_pos ⟨other, List.mem_append_left _ mem, parts⟩, if_pos ⟨other, mem, parts⟩,
        inherited_append isNamed]
    · rw [if_neg old, if_neg]
      rintro ⟨other, mem, parts⟩
      rcases List.mem_append.mp mem with old' | new
      · exact old ⟨other, old', parts⟩
      · rw [List.mem_singleton.mp new] at parts
        exact same parts.symm

/-- What a run of registrations leads to. -/
theorem registrations_run {output final : Output} (holds : Holds logs levels output.items)
    (ends : Run.run register output registrations = some final) :
    (∀ registration ∈ registrations, registration.parts ≠ []) ∧
      final.desiredLogLevels = settled output.desiredLogLevels registrations ∧
      Holds (accepted logs registrations)
        (levelsAfter output.desiredLogLevels levels registrations) final.items := by
  induction registrations using List.reverseRecOn generalizing final with
  | nil =>
      cases ends
      rw [settled_nil, levelsAfter_nil]
      exact ⟨nofun, rfl, holds⟩
  | append_singleton registrations registration ih =>
      rw [Run.run_append] at ends
      obtain ⟨mid, before, last⟩ := Option.bind_eq_some_iff.mp ends
      obtain ⟨named, desired, held⟩ := ih before
      have taken : register mid registration = some final := by
        obtain ⟨after, taken, rest⟩ := Option.bind_eq_some_iff.mp last
        cases rest
        exact taken
      rw [register_eq] at taken
      by_cases here : registration.parts = []
      · rw [if_pos here] at taken
        cases taken
      rw [if_neg here] at taken
      cases taken
      obtain ⟨settled', level⟩ := @inheritLevel_settled output.desiredLogLevels registrations
        registration registration.displayLevel here rfl
      dsimp only at settled' level ⊢
      rw [desired, settled']
      refine ⟨List.forall_mem_append.mpr ⟨named, List.forall_mem_singleton.mpr here⟩, rfl, ?_⟩
      have registered := held.register here (inheritLevel
        (settled output.desiredLogLevels registrations) []
        ((settled output.desiredLogLevels registrations []).getD registration.displayLevel)
        registration.parts).2
      have logs' : accepted logs (registrations ++ [registration]) =
          accept (accepted logs registrations) registration.parts := by
        rw [accepted, List.foldl_append]
        rfl
      rw [level] at registered
      rw [logs', levelsAfter_append named]
      exact registered

/-! ### The configuration -/

abbrev Levels := SortedMap (List Char) LogLevel

/-- The level configured for a path; the last one when several names give it. -/
def configured (entries : List (List Char × LogLevel)) (path : Path) : Option LogLevel :=
  (entries.reverse.find? fun entry => nameParts entry.1 = path).map Prod.snd

/-- The level of the last path of the configuration that is above a log. -/
def lastAbove (entries : List (List Char × LogLevel)) (path : Path) : Option LogLevel :=
  (entries.reverse.find? fun entry => nameParts entry.1 <+: path).map Prod.snd

/-- What the configuration leads to. -/
theorem setLevels_spec {output : Output} (holds : Holds logs levels output.items)
    (entries : List (List Char × LogLevel)) :
    (∀ path, (entries.foldl setLevel output).desiredLogLevels path =
      (configured entries path).or (output.desiredLogLevels path)) ∧
    Holds logs (fun path => (lastAbove entries path).or (levels path))
      (entries.foldl setLevel output).items := by
  induction entries using List.reverseRecOn with
  | nil => exact ⟨fun _ => rfl, holds⟩
  | append_singleton entries entry ih =>
      obtain ⟨desired, held⟩ := ih
      rw [List.foldl_append]
      constructor
      · intro path
        have last : configured (entries ++ [entry]) path =
            if nameParts entry.1 = path then some entry.2 else configured entries path := by
          unfold configured
          rw [List.reverse_append, List.reverse_singleton, List.singleton_append, List.find?_cons]
          by_cases same : nameParts entry.1 = path
          · simp [same]
          · simp [same]
        rw [last]
        change Function.update _ _ _ path = _
        by_cases same : nameParts entry.1 = path
        · rw [if_pos same, ← same, Function.update_self]
          rfl
        · rw [if_neg same, Function.update_of_ne (Ne.symm same), desired]
      · have last : (fun path => (lastAbove (entries ++ [entry]) path).or (levels path)) =
            fun path => if nameParts entry.1 <+: path then some entry.2
              else (lastAbove entries path).or (levels path) := by
          funext path
          unfold lastAbove
          rw [List.reverse_append, List.reverse_singleton, List.singleton_append, List.find?_cons]
          by_cases below : nameParts entry.1 <+: path
          · simp [below]
          · simp [below]
        rw [last]
        exact held.setLevel entry

/-! ### The law -/

/-- Logs are registered, the configuration is set, and logs are registered again. The output
registers its own logs first. -/
def runLevels (before : List Registration) (levels : Levels) (after : List Registration) :
    Option Output :=
  (Run.run register empty (ownLogs ++ before)).bind fun output =>
    Run.run register (output.setLevels levels) after

/-- The default level of a log is the one of its first registration. -/
def ownDefault (registrations : List Registration) (path : Path) : Option LogLevel :=
  (registrations.find? fun registration => registration.parts = path).map Registration.displayLevel

/-- The level of a log: the one configured for its longest configured prefix, or its default. -/
def expected (levels : Levels) (registrations : List Registration) (path : Path) :
    Option LogLevel :=
  (nearest (configured levels.entries) path).or (ownDefault registrations path)

/-- Every log has its level in the end. -/
def OrderFree (before : List Registration) (levels : Levels) (after : List Registration) : Prop :=
  ∀ final, runLevels before levels after = some final →
    ∀ path level, final.displayLevel path = some level →
      expected levels (ownLogs ++ before ++ after) path = some level

/-- A log without configured prefix has the same default as the first log registered under the
first part of its name. For a log with one: registered after the configuration, it has no
longer prefix in the name of a log registered before, unless the first log registered under
its first part has the level of its longest configured prefix by default; otherwise the last
path of the configuration above it has the level of the longest one. -/
structure Fits (before : List Registration) (levels : Levels) (after : List Registration)
    (path : Path) : Prop where
  unconfigured : nearest (configured levels.entries) path = none →
    founder (ownLogs ++ before ++ after) path = ownDefault (ownLogs ++ before ++ after) path
  configured : ∀ level, nearest (configured levels.entries) path = some level →
    if ∃ registration ∈ after, registration.parts = path then
      Shadows (configured levels.entries) (Named (ownLogs ++ before)) path →
        founder (ownLogs ++ before) path = some level
    else lastAbove levels.entries path = some level

theorem founder_append_list {others : List Registration} :
    founder (registrations ++ others) path =
      (founder registrations path).or (founder others path) := by
  unfold founder
  rw [List.find?_append]
  cases registrations.find? fun registration => registration.parts.head? = path.head? with
  | some first => rfl
  | none => rfl

theorem founder_below {node : Path} (here : node ≠ []) (below : node <+: path) :
    founder registrations node = founder registrations path := by
  obtain ⟨rest, rfl⟩ := below
  rw [founder, founder, List.head?_append_of_ne_nil _ here]

/-- A path with a founder has a prefix in its name. -/
theorem exists_named_prefix (here : path ≠ []) (founded : founder registrations path = some level) :
    ∃ node, node <+: path ∧ Named registrations node := by
  cases path with
  | nil => exact absurd rfl here
  | cons head rest =>
      have first : founder registrations [head] = some level := by
        rw [← founded]
        exact founder_below (by simp) ⟨rest, rfl⟩
      exact ⟨[head], ⟨rest, rfl⟩, named_singleton first⟩

theorem nearest_configured_eq_none {entries : List (List Char × LogLevel)} :
    nearest (configured entries) path = none ↔ lastAbove entries path = none := by
  simp only [nearest_eq_none, configured, lastAbove, Option.map_eq_none_iff, List.find?_eq_none,
    List.mem_reverse, decide_eq_true_eq]
  constructor
  · exact fun none entry mem below => none _ below entry mem rfl
  · rintro none node below entry mem rfl
    exact none entry mem below

/-- The desired levels once the configuration is set over those of earlier registrations. -/
def configuredOver (levels : Levels) (before : List Registration) : DesiredLogLevels :=
  fun path => (configured levels.entries path).or (settled (fun _ => none) before path)

/-- The nearest of these levels is the default of the first log registered where the name of a
log hides the configuration, and the configured one elsewhere. -/
theorem nearest_configuredOver (levels : Levels) :
    (Shadows (configured levels.entries) (Named registrations) path →
      nearest (configuredOver levels registrations) path = founder registrations path) ∧
    (¬ Shadows (configured levels.entries) (Named registrations) path →
      nearest (configuredOver levels registrations) path =
        nearest (configured levels.entries) path) := by
  have unset : ∀ node : Path, nearest (fun _ => (none : Option LogLevel)) node = none := fun node =>
    nearest_eq_none.mpr fun _ _ => rfl
  have overlaid : ∀ node, node <+: path → configuredOver levels registrations node =
      (configured levels.entries node).or
        (if Named registrations node then founder registrations path else none) := by
    intro node below
    rw [configuredOver, settled, Option.none_or]
    split
    next named => rw [inherited, unset, Option.none_or, founder_below named.1 below]
    next => rfl
  rw [nearest_congr overlaid]
  cases founded : founder registrations path with
  | some value => exact nearest_or
  | none =>
      have unnamed : ∀ node, node <+: path → ¬ Named registrations node := by
        intro node below named
        obtain ⟨level, founded'⟩ := named.founder
        rw [founder_below named.1 below, founded] at founded'
        cases founded'
      constructor
      · rintro ⟨top, below, named, -⟩
        exact absurd named (unnamed top below)
      · rintro -
        refine nearest_congr fun node below => ?_
        rw [if_neg (unnamed node below), Option.or_none]

/-- The level that a log has in the end. -/
def finalLevel (before : List Registration) (levels : Levels) (after : List Registration)
    (path : Path) : Option LogLevel :=
  if ∃ registration ∈ after, registration.parts = path then
    (nearest (configuredOver levels (ownLogs ++ before)) path).or (founder after path)
  else (lastAbove levels.entries path).or (founder (ownLogs ++ before) path)

/-- A log with no configured level above it has the level of its first registration. -/
theorem finalLevel_unconfigured {before after : List Registration} {levels : Levels}
    (here : path ≠ [])
    (registered : ∃ registration ∈ ownLogs ++ before ++ after, registration.parts = path)
    (found : nearest (configured levels.entries) path = none) :
    finalLevel before levels after path = founder (ownLogs ++ before ++ after) path := by
  have nothing := nearest_eq_none.mp found
  obtain ⟨hidden, open'⟩ := @nearest_configuredOver path (ownLogs ++ before) levels
  rw [finalLevel, @founder_append_list path (ownLogs ++ before) after]
  split
  · by_cases shadowed : Shadows (configured levels.entries) (Named (ownLogs ++ before)) path
    · rw [hidden shadowed]
    · rw [open' shadowed, found]
      cases founded : founder (ownLogs ++ before) path with
      | none => rfl
      | some level =>
          obtain ⟨node, below, named⟩ := exists_named_prefix here founded
          exact absurd ⟨node, below, named, fun node _ below => nothing node below⟩ shadowed
  next late =>
    obtain ⟨registration, mem, parts⟩ := registered
    have early : registration ∈ ownLogs ++ before :=
      (List.mem_append.mp mem).resolve_right fun mem => late ⟨registration, mem, parts⟩
    have named : Named (ownLogs ++ before) path :=
      ⟨here, registration, early, parts ▸ List.prefix_rfl⟩
    obtain ⟨level, founded⟩ := named.founder
    rw [nearest_configured_eq_none.mp found, founded]
    rfl

theorem fits_configured_iff {before after : List Registration} {levels : Levels}
    (found : nearest (configured levels.entries) path = some level) :
    Fits before levels after path ↔
      if ∃ registration ∈ after, registration.parts = path then
        Shadows (configured levels.entries) (Named (ownLogs ++ before)) path →
          founder (ownLogs ++ before) path = some level
      else lastAbove levels.entries path = some level := by
  constructor
  · exact fun fits => fits.configured level found
  · intro fits
    refine ⟨fun none => ?_, fun level' found' => ?_⟩
    · rw [found] at none
      cases none
    · rw [found] at found'
      cases found'
      exact fits

/-- The level that a log has in the end is the one it should have exactly when the log fits. -/
theorem finalLevel_eq_iff {before after : List Registration} {levels : Levels} (here : path ≠ [])
    (registered : ∃ registration ∈ ownLogs ++ before ++ after, registration.parts = path) :
    finalLevel before levels after path = expected levels (ownLogs ++ before ++ after) path ↔
      Fits before levels after path := by
  cases found : nearest (configured levels.entries) path with
  | none =>
      rw [finalLevel_unconfigured here registered found, expected, found, Option.none_or]
      constructor
      · intro same
        refine ⟨fun _ => same, fun level found' => ?_⟩
        rw [found] at found'
        cases found'
      · exact fun fits => fits.unconfigured found
  | some level =>
      obtain ⟨hidden, open'⟩ := @nearest_configuredOver path (ownLogs ++ before) levels
      have should : expected levels (ownLogs ++ before ++ after) path = some level := by
        rw [expected, found]
        rfl
      rw [should, finalLevel, fits_configured_iff found]
      split
      · by_cases shadowed : Shadows (configured levels.entries) (Named (ownLogs ++ before)) path
        · obtain ⟨top, below, named, -⟩ := id shadowed
          obtain ⟨first, founded⟩ := named.founder
          rw [founder_below named.1 below] at founded
          rw [hidden shadowed, founded]
          exact ⟨fun same _ => same, fun same => same shadowed⟩
        · rw [open' shadowed, found]
          exact iff_of_true rfl fun shadowed' => absurd shadowed' shadowed
      · cases last : lastAbove levels.entries path with
        | none =>
            rw [nearest_configured_eq_none.mpr last] at found
            cases found
        | some level' => rfl

theorem accepted_subset {log : Path} (mem : log ∈ accepted logs registrations) :
    log ∈ logs ∨ ∃ registration ∈ registrations, registration.parts = log := by
  induction registrations using List.reverseRecOn with
  | nil => exact .inl mem
  | append_singleton registrations registration ih =>
      rw [accepted, List.foldl_append] at mem
      change log ∈ accept (accepted logs registrations) registration.parts at mem
      have wider : (log ∈ logs ∨ ∃ registration ∈ registrations, registration.parts = log) →
          log ∈ logs ∨ ∃ other ∈ registrations ++ [registration], other.parts = log := by
        rintro (old | ⟨other, mem, parts⟩)
        · exact .inl old
        · exact .inr ⟨other, List.mem_append_left _ mem, parts⟩
      unfold accept at mem
      split at mem
      · exact wider (ih mem)
      · rcases List.mem_append.mp mem with old | new
        · exact wider (ih old)
        · exact .inr ⟨registration, List.mem_append_right _ (List.mem_singleton_self _),
            (List.mem_singleton.mp new).symm⟩

/-- Registrations go through when no name is empty. -/
theorem run_register_isSome (named : ∀ registration ∈ registrations, registration.parts ≠ [])
    (output : Output) : ∃ final, Run.run register output registrations = some final := by
  induction registrations generalizing output with
  | nil => exact ⟨output, rfl⟩
  | cons registration registrations ih =>
      have taken := @register_eq registration output
      rw [if_neg (named registration List.mem_cons_self)] at taken
      obtain ⟨final, ends⟩ := ih (fun other mem => named other (List.mem_cons_of_mem _ mem)) _
      exact ⟨final, by rw [Run.run, taken, Option.bind_some, ends]⟩

theorem empty_holds : Holds [] (fun _ => none) empty.items where
  alone := nofun
  root := nofun
  known := nofun
  items path := by
    rw [if_neg List.not_mem_nil, empty]
    simp

/-- What a whole run leads to: the logs that are there and their levels. -/
theorem runLevels_spec {before after : List Registration} {levels : Levels} {final : Output}
    (ends : runLevels before levels after = some final) :
    (∀ registration ∈ ownLogs ++ before ++ after, registration.parts ≠ []) ∧
      Holds (accepted [] (ownLogs ++ before ++ after)) (finalLevel before levels after)
        final.items := by
  obtain ⟨output, first, second⟩ := Option.bind_eq_some_iff.mp ends
  obtain ⟨named, desired, held⟩ := registrations_run empty_holds first
  obtain ⟨desired', held'⟩ := setLevels_spec held levels.entries
  obtain ⟨named', -, held''⟩ := registrations_run held' second
  have overlaid : (output.setLevels levels).desiredLogLevels =
      configuredOver levels (ownLogs ++ before) := by
    funext path
    rw [setLevels, desired', desired]
    rfl
  have logs : accepted (accepted [] (ownLogs ++ before)) after =
      accepted [] (ownLogs ++ before ++ after) := List.foldl_append.symm
  change (Holds _ (levelsAfter (output.setLevels levels).desiredLogLevels _ after) final.items)
    at held''
  rw [logs, overlaid] at held''
  refine ⟨fun registration mem => ?_, held''.congr fun path mem => ?_⟩
  · rcases List.mem_append.mp mem with early | late
    · exact named registration early
    · exact named' registration late
  · rw [levelsAfter, finalLevel]
    split
    · rfl
    next late =>
      obtain ⟨registration, mem', parts⟩ := (accepted_subset mem).resolve_left List.not_mem_nil
      have early : registration ∈ ownLogs ++ before :=
        (List.mem_append.mp mem').resolve_right fun mem' => late ⟨registration, mem', parts⟩
      have unset : nearest (fun _ => (none : Option LogLevel)) path = none :=
        nearest_eq_none.mpr fun _ _ => rfl
      rw [levelsAfter, if_pos ⟨registration, early, parts⟩, inherited]
      change Option.or _ ((nearest (fun _ => (none : Option LogLevel)) path).or _) = _
      rw [unset, Option.none_or]

/-- **Order of registrations.** All logs have their levels in the end exactly when they fit,
the logs being those whose names were free. -/
theorem levels_iff (before : List Registration) (levels : Levels) (after : List Registration) :
    OrderFree before levels after ↔
      ((∀ registration ∈ ownLogs ++ before ++ after, registration.parts ≠ []) →
        ∀ path ∈ accepted [] (ownLogs ++ before ++ after), Fits before levels after path) := by
  have fits_iff : ∀ path ∈ accepted [] (ownLogs ++ before ++ after),
      (∀ registration ∈ ownLogs ++ before ++ after, registration.parts ≠ []) →
      (finalLevel before levels after path = expected levels (ownLogs ++ before ++ after) path ↔
        Fits before levels after path) := by
    intro path mem named
    obtain ⟨registration, mem', parts⟩ := (accepted_subset mem).resolve_left List.not_mem_nil
    exact finalLevel_eq_iff (parts ▸ named registration mem') ⟨registration, mem', parts⟩
  constructor
  · intro orderFree named path mem
    obtain ⟨output, first⟩ := run_register_isSome
      (fun registration mem => named registration (List.mem_append_left after mem)) empty
    obtain ⟨final, second⟩ := run_register_isSome
      (fun registration mem => named registration (List.mem_append_right (ownLogs ++ before) mem))
      (output.setLevels levels)
    have ends : runLevels before levels after = some final := by
      rw [runLevels, first, Option.bind_some, second]
    have holds := (runLevels_spec ends).2
    obtain ⟨level, known⟩ := Option.isSome_iff_exists.mp (holds.known path mem)
    have shown : final.displayLevel path = some level := by
      rw [holds.displayLevel, if_pos mem, known]
    rw [← fits_iff path mem named, known, orderFree final ends path level shown]
  · intro fits final ends path level shown
    obtain ⟨named, holds⟩ := runLevels_spec ends
    rw [holds.displayLevel] at shown
    split at shown
    next mem =>
      rw [← (fits_iff path mem named).mpr (fits named path mem)]
      exact shown
    next => cases shown

/-- Two logs of one section, with different defaults. -/
def siblings : List Registration := [⟨.debug, "a.b".toList⟩, ⟨.warning, "a.c".toList⟩]

/-- The second one gets the default of the first one. -/
theorem siblings_not_orderFree : ¬ OrderFree siblings .empty [] := by
  intro orderFree
  obtain ⟨final, ends, shown⟩ : ∃ final, runLevels siblings .empty [] = some final ∧
      final.displayLevel [['a'], ['c']] = some .debug := ⟨_, rfl, by decide +kernel⟩
  exact absurd (orderFree final ends _ _ shown) (by decide +kernel)

end OpenSand.Output
