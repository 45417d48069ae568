import OpenSand.Output.LogLevels

/-!
The sections and units as logs are registered and levels are set.

`Holds` says what the tree is: the logs are units, none of them above another one, and all
nodes above them are sections. `Holds.register` and `Holds.setLevel` say how the two operations
change the levels of the logs.
-/

namespace OpenSand.Output

open Paths

variable {path : Path} {part : Part} {registration : Registration}

/-! ### Sections and units -/

variable {items : OutputItems} {logs : List Path} {levels : Path → Option LogLevel}

theorem getOrCreateSection_concat {done : Path} :
    getOrCreateSection items done (path ++ [part]) =
      let (found, items') := getOrCreateSection items done path
      if found then getOrCreateSection items' (done ++ path) [part] else (false, items') := by
  induction path generalizing items done with
  | nil =>
      rw [List.append_nil]
      rfl
  | cons head path ih =>
      rw [List.cons_append, getOrCreateSection, getOrCreateSection]
      dsimp only
      cases items (done ++ [head]) with
      | none =>
          dsimp only
          rw [ih, List.append_assoc]
          rfl
      | some item =>
          cases item with
          | outputSection =>
              dsimp only
              rw [ih, List.append_assoc]
              rfl
          | outputUnit log => rfl

/-- All the sections of a path are found or created when no unit is among them. -/
theorem getOrCreateSection_of_open
    (open' : ∀ node ≠ [], node <+: path →
      items node = none ∨ items node = some .outputSection) :
    getOrCreateSection items [] path = (true, fun node =>
      if node ≠ [] ∧ node <+: path then some .outputSection else items node) := by
  induction path using List.reverseRecOn with
  | nil =>
      refine Prod.ext rfl (funext fun node => ?_)
      dsimp only
      rw [if_neg (fun h => h.1 (List.prefix_nil.mp h.2))]
      rfl
  | append_singleton path part ih =>
      have created : ∀ found : items (path ++ [part]) = none ∨
          items (path ++ [part]) = some .outputSection,
          getOrCreateSection (fun node =>
            if node ≠ [] ∧ node <+: path then some .outputSection else items node) path [part] =
          (true, Function.update (fun node =>
            if node ≠ [] ∧ node <+: path then some .outputSection else items node)
            (path ++ [part]) (some .outputSection)) := by
        intro found
        unfold getOrCreateSection
        dsimp only
        rw [if_neg (fun h => not_concat_prefix h.2)]
        rcases found with none | there
        · rw [none]
          rfl
        · rw [there]
          dsimp only
          rw [getOrCreateSection, Function.update_eq_self_iff.mpr]
          rw [if_neg (fun h => not_concat_prefix h.2), there]
      rw [getOrCreateSection_concat,
        ih fun node here below => open' node here (below.trans (List.prefix_append _ _))]
      dsimp only
      rw [if_pos rfl, List.nil_append, created (open' _ (by simp) List.prefix_rfl)]
      refine Prod.ext rfl (funext fun node => ?_)
      dsimp only
      by_cases same : node = path ++ [part]
      · rw [same, Function.update_self, if_pos ⟨by simp, List.prefix_rfl⟩]
      · rw [Function.update_of_ne same]
        simp only [prefix_concat_ne same]

/-- A unit on the way is an error, and nothing is created when sections lead to it. -/
theorem getOrCreateSection_of_unit {node : Path} {log : Option LogLevel} (here : node ≠ [])
    (below : node <+: path) (isUnit : items node = some (.outputUnit log))
    (sections : ∀ node', node' ≠ [] → node' <+: node → node' ≠ node →
      items node' = some .outputSection) :
    getOrCreateSection items [] path = (false, items) := by
  induction path using List.reverseRecOn with
  | nil => exact absurd (List.prefix_nil.mp below) here
  | append_singleton path part ih =>
      rw [getOrCreateSection_concat]
      by_cases same : node = path ++ [part]
      · have above : ∀ node', node' <+: path → node' ≠ node := by
          rintro node' below' rfl
          rw [same] at below'
          exact not_concat_prefix below'
        have there : ∀ node', node' ≠ [] → node' <+: path →
            items node' = some .outputSection := by
          intro node' nonempty below'
          refine sections node' nonempty ?_ (above node' below')
          rw [same]
          exact below'.trans (List.prefix_append _ _)
        rw [getOrCreateSection_of_open fun node' nonempty below' =>
          .inr (there node' nonempty below')]
        have unchanged : (fun node => if node ≠ [] ∧ node <+: path then some OutputItem.outputSection
            else items node) = items := by
          funext node'
          split
          next h => exact (there node' h.1 h.2).symm
          next => rfl
        dsimp only
        rw [unchanged, if_pos rfl, List.nil_append, getOrCreateSection]
        rw [← same, isUnit]
      · rw [ih ((prefix_concat_ne same).mp below)]
        rfl

/-- A log is there when its name is not in the way of another one, or another one in its way. -/
def accept (logs : List Path) (path : Path) : List Path :=
  if ∃ log ∈ logs, path <+: log ∨ log <+: path then logs else logs ++ [path]

/-- The units are those of the logs, with their levels, and the sections are above them. -/
structure Holds (logs : List Path) (levels : Path → Option LogLevel) (items : OutputItems) :
    Prop where
  alone : ∀ log ∈ logs, ∀ other ∈ logs, log <+: other → log = other
  root : [] ∉ logs
  known : ∀ log ∈ logs, (levels log).isSome
  items : ∀ path, items path =
    if path ∈ logs then some (.outputUnit (levels path))
    else if path = [] ∨ ∃ log ∈ logs, path <+: log then some .outputSection else none

theorem Holds.congr {levels' : Path → Option LogLevel} (holds : Holds logs levels items)
    (same : ∀ log ∈ logs, levels log = levels' log) : Holds logs levels' items := by
  refine ⟨holds.alone, holds.root, fun log mem => same log mem ▸ holds.known log mem, ?_⟩
  intro path
  rw [holds.items]
  by_cases mem : path ∈ logs
  · rw [if_pos mem, if_pos mem, same path mem]
  · rw [if_neg mem, if_neg mem]

theorem Holds.displayLevel {output : Output} (holds : Holds logs levels output.items) :
    output.displayLevel path = if path ∈ logs then levels path else none := by
  rw [Output.displayLevel, holds.items]
  by_cases mem : path ∈ logs
  · rw [if_pos mem, if_pos mem]
  · rw [if_neg mem, if_neg mem]
    by_cases above : path = [] ∨ ∃ log ∈ logs, path <+: log
    · rw [if_pos above]
    · rw [if_neg above]

/-- The prefixes of a log are sections. -/
theorem Holds.above (holds : Holds logs levels items) {log node : Path} (mem : log ∈ logs)
    (below : node <+: log) (proper : node ≠ log) : items node = some .outputSection := by
  rw [holds.items, if_neg (fun other => proper (holds.alone node other log mem below)),
    if_pos (.inr ⟨log, mem, below⟩)]

theorem prefix_dropLast {node : Path} (below : node <+: path) (proper : node ≠ path) :
    node <+: path.dropLast := by
  rcases List.eq_nil_or_concat' path with rfl | ⟨front, last, rfl⟩
  · exact absurd (List.prefix_nil.mp below) proper
  · rw [List.dropLast_concat]
    exact (prefix_concat_ne proper).mp below

theorem dropLast_ne (here : path ≠ []) {node : Path} (below : node <+: path.dropLast) :
    node <+: path ∧ node ≠ path := by
  refine ⟨below.trans (List.dropLast_prefix path), ?_⟩
  rintro rfl
  have short := below.length_le
  have := List.length_pos_iff.mpr here
  rw [List.length_dropLast] at short
  omega

/-- The items once a log is registered with a level. -/
def itemsAfter (items : OutputItems) (path : Path) (level : LogLevel) : OutputItems :=
  let sections := getOrCreateSection items [] path.dropLast
  let unit := findUnit sections.2 path
  if sections.1 then
    if unit.1 then Function.update unit.2 path (some (.outputUnit (some level))) else unit.2
  else sections.2

theorem register_eq {output : Output} : register output registration =
    if registration.parts = [] then none
    else
      let after := inheritLevel output.desiredLogLevels []
        ((output.desiredLogLevels []).getD registration.displayLevel) registration.parts
      some ⟨after.1, itemsAfter output.items registration.parts after.2⟩ := by
  unfold register registerLog
  change Option.map _ (if registration.parts = [] then none else _) = _
  by_cases here : registration.parts = []
  · rw [if_pos here, if_pos here]
    rfl
  · rw [if_neg here, if_neg here]
    unfold itemsAfter
    dsimp only [Registration.parts]
    cases (getOrCreateSection output.items [] (nameParts registration.identifier).dropLast).1 with
    | false => rfl
    | true =>
        cases (findUnit (getOrCreateSection output.items []
            (nameParts registration.identifier).dropLast).2
            (nameParts registration.identifier)).1 with
        | false => rfl
        | true => rfl

/-- The sections above a node of a log are there. -/
theorem Holds.sections (holds : Holds logs levels items) (here : path ≠ []) {log : Path}
    (mem : log ∈ logs) (below : path <+: log) :
    getOrCreateSection items [] path.dropLast = (true, items) := by
  have there : ∀ node, node <+: path.dropLast → items node = some .outputSection := by
    intro node above
    obtain ⟨above, proper⟩ := dropLast_ne here above
    refine holds.above mem (above.trans below) ?_
    rintro rfl
    exact proper (above.eq_of_length (Nat.le_antisymm above.length_le below.length_le))
  rw [getOrCreateSection_of_open fun node _ above => .inr (there node above)]
  refine Prod.ext rfl (funext fun node => ?_)
  dsimp only
  split
  next h => exact (there node h.2).symm
  next => rfl

/-- A log that is registered again has a new level. -/
theorem Holds.register_again (holds : Holds logs levels items) (here : path ≠ [])
    (there : path ∈ logs) (level : LogLevel) :
    Holds logs (fun node => if node = path then some level else levels node)
      (itemsAfter items path level) := by
  have updated : itemsAfter items path level =
      Function.update items path (some (.outputUnit (some level))) := by
    have unit : items path = some (.outputUnit (levels path)) := by
      rw [holds.items, if_pos there]
    rw [itemsAfter, holds.sections here there List.prefix_rfl]
    simp only [findUnit, unit, if_true]
  rw [updated]
  refine ⟨holds.alone, holds.root, fun log mem => ?_, fun node => ?_⟩
  · split
    · rfl
    · exact holds.known log mem
  · by_cases same : node = path
    · rw [same, Function.update_self, if_pos there, if_pos rfl]
    · rw [Function.update_of_ne same, holds.items]
      simp only [same, if_false]

/-- A log in the way of another one, or with another one in its way, changes nothing. -/
theorem Holds.register_blocked (holds : Holds logs levels items) (here : path ≠ [])
    (there : path ∉ logs) (way : ∃ log ∈ logs, path <+: log ∨ log <+: path) (level : LogLevel) :
    Holds logs (fun node => if node = path then some level else levels node)
      (itemsAfter items path level) := by
  have unchanged : itemsAfter items path level = items := by
    obtain ⟨log, mem, below | below⟩ := way
    · have inside : items path = some .outputSection :=
        holds.above mem below fun same => there (same ▸ mem)
      rw [itemsAfter, holds.sections here mem below]
      simp only [findUnit, inside, if_true, Bool.false_eq_true, if_false]
    · have proper : log ≠ path := fun same => there (same ▸ mem)
      have unit : items log = some (.outputUnit (levels log)) := by
        rw [holds.items, if_pos mem]
      have stopped := getOrCreateSection_of_unit (fun root => holds.root (root ▸ mem))
        (prefix_dropLast below proper) unit fun node _ above proper =>
          holds.above mem above proper
      rw [itemsAfter, stopped]
      simp only [Bool.false_eq_true, if_false]
  rw [unchanged]
  refine ⟨holds.alone, holds.root, fun log mem => ?_, fun node => ?_⟩
  · have other : log ≠ path := fun same => there (same ▸ mem)
    rw [if_neg other]
    exact holds.known log mem
  · rw [holds.items]
    by_cases mem : node ∈ logs
    · have other : node ≠ path := fun same => there (same ▸ mem)
      rw [if_pos mem, if_pos mem, if_neg other]
    · rw [if_neg mem, if_neg mem]

/-- The items above a new log become sections. -/
theorem Holds.itemsAfter_new (holds : Holds logs levels items) (here : path ≠ [])
    (apart : ∀ log ∈ logs, ¬ path <+: log ∧ ¬ log <+: path) (level : LogLevel) :
    itemsAfter items path level = Function.update (fun node =>
      if node ≠ [] ∧ node <+: path.dropLast then some .outputSection else items node) path
      (some (.outputUnit (some level))) := by
  have fresh : items path = none := by
    rw [holds.items, if_neg (fun mem => (apart path mem).1 List.prefix_rfl), if_neg]
    rintro (root | ⟨log, mem, below⟩)
    · exact here root
    · exact (apart log mem).1 below
  have open' : ∀ node ≠ [], node <+: path.dropLast →
      items node = none ∨ items node = some .outputSection := by
    intro node _ above
    have notLog : node ∉ logs := fun mem => (apart node mem).2 (dropLast_ne here above).1
    rw [holds.items, if_neg notLog]
    split
    · exact .inr rfl
    · exact .inl rfl
  have notAbove : ¬ path <+: path.dropLast := fun above => (dropLast_ne here above).2 rfl
  rw [itemsAfter, getOrCreateSection_of_open open']
  simp only [findUnit, if_neg (fun h : path ≠ [] ∧ path <+: path.dropLast => notAbove h.2),
    fresh, if_true, Function.update_idem]

theorem Holds.register_new (holds : Holds logs levels items) (here : path ≠ [])
    (apart : ∀ log ∈ logs, ¬ path <+: log ∧ ¬ log <+: path) (level : LogLevel) :
    Holds (logs ++ [path]) (fun node => if node = path then some level else levels node)
      (itemsAfter items path level) := by
  rw [holds.itemsAfter_new here apart]
  refine ⟨?_, ?_, ?_, ?_⟩
  · intro log mem other mem' below
    rcases List.mem_append.mp mem with old | new
    · rcases List.mem_append.mp mem' with old' | new'
      · exact holds.alone log old other old' below
      · rw [List.mem_singleton.mp new'] at below
        exact absurd below (apart log old).2
    · rw [List.mem_singleton.mp new] at below ⊢
      rcases List.mem_append.mp mem' with old' | new'
      · exact absurd below (apart other old').1
      · exact (List.mem_singleton.mp new').symm
  · intro mem
    rcases List.mem_append.mp mem with old | new
    · exact holds.root old
    · exact here (List.mem_singleton.mp new).symm
  · intro log mem
    split
    · rfl
    next other =>
      rcases List.mem_append.mp mem with old | new
      · exact holds.known log old
      · exact absurd (List.mem_singleton.mp new) other
  · intro node
    by_cases same : node = path
    · rw [same, Function.update_self, if_pos (List.mem_append_right _ (List.mem_singleton_self _)),
        if_pos rfl]
    · rw [Function.update_of_ne same, holds.items]
      by_cases old : node ∈ logs
      · have notAbove' : ¬ (node ≠ [] ∧ node <+: path.dropLast) := fun h =>
          (apart node old).2 (dropLast_ne here h.2).1
        rw [if_neg notAbove', if_pos old, if_pos (List.mem_append_left _ old), if_neg same]
      · have notLog : node ∉ logs ++ [path] := fun mem =>
          (List.mem_append.mp mem).elim old fun new => same (List.mem_singleton.mp new)
        rw [if_neg old, if_neg notLog]
        by_cases above : node ≠ [] ∧ node <+: path.dropLast
        · rw [if_pos above, if_pos]
          exact .inr ⟨path, List.mem_append_right _ (List.mem_singleton_self _),
            (dropLast_ne here above.2).1⟩
        · rw [if_neg above]
          congr 1
          refine propext ⟨?_, ?_⟩
          · rintro (root | ⟨log, mem, below⟩)
            · exact .inl root
            · exact .inr ⟨log, List.mem_append_left _ mem, below⟩
          · rintro (root | ⟨log, mem, below⟩)
            · exact .inl root
            · rcases List.mem_append.mp mem with old' | new'
              · exact .inr ⟨log, old', below⟩
              · rw [List.mem_singleton.mp new'] at below
                by_cases root : node = []
                · exact .inl root
                · exact absurd ⟨root, prefix_dropLast below same⟩ above

/-- A log whose name is free gets a unit; the one that is there gets the new level. -/
theorem Holds.register (holds : Holds logs levels items) (here : path ≠ []) (level : LogLevel) :
    Holds (accept logs path) (fun node => if node = path then some level else levels node)
      (itemsAfter items path level) := by
  by_cases way : ∃ log ∈ logs, path <+: log ∨ log <+: path
  · rw [accept, if_pos way]
    by_cases there : path ∈ logs
    · exact holds.register_again here there level
    · exact holds.register_blocked here there way level
  · rw [accept, if_neg way]
    refine holds.register_new here (fun log mem => ⟨fun below => ?_, fun below => ?_⟩) level
    · exact way ⟨log, mem, .inl below⟩
    · exact way ⟨log, mem, .inr below⟩

/-! ### Levels that are set -/

theorem findItem_concat {done : Path} {item : Option OutputItem} :
    findItem items done item (path ++ [part]) =
      if findItem items done item path = some .outputSection then items (done ++ path ++ [part])
      else none := by
  induction path generalizing done item with
  | nil =>
      rw [List.append_nil]
      rfl
  | cons head path ih =>
      rw [List.cons_append, findItem, ih, findItem]
      simp only [List.append_assoc, List.cons_append, List.nil_append]

theorem Holds.findItem (holds : Holds logs levels items) :
    findItem items [] (items []) path = items path := by
  induction path using List.reverseRecOn with
  | nil => rfl
  | append_singleton path part ih =>
      rw [findItem_concat, ih, List.nil_append]
      split
      next => rfl
      next notSection =>
        have notAbove : ∀ log ∈ logs, ¬ path ++ [part] <+: log := by
          intro log mem below
          refine notSection (holds.above mem ((List.prefix_append _ _).trans below) ?_)
          rintro rfl
          exact not_concat_prefix below
        rw [holds.items, if_neg (fun mem => notAbove _ mem List.prefix_rfl), if_neg]
        rintro (root | ⟨log, mem, below⟩)
        · simp at root
        · exact notAbove log mem below

/-- A level that is set goes to all logs below. -/
theorem Holds.setLevel {output : Output} (holds : Holds logs levels output.items)
    (entry : List Char × LogLevel) :
    Holds logs (fun path => if nameParts entry.1 <+: path then some entry.2 else levels path)
      (output.setLevel entry).items := by
  refine ⟨holds.alone, holds.root, fun log mem => ?_, fun path => ?_⟩
  · split
    · rfl
    · exact holds.known log mem
  · unfold Output.setLevel
    dsimp only
    rw [holds.findItem]
    by_cases found : (output.items (nameParts entry.1)).isSome
    · rw [if_pos found, setLogLevel]
      by_cases below : nameParts entry.1 <+: path
      · rw [if_pos below, if_pos below, holds.items]
        by_cases mem : path ∈ logs
        · obtain ⟨level, known⟩ := Option.isSome_iff_exists.mp (holds.known path mem)
          rw [if_pos mem, if_pos mem, known]
          rfl
        · rw [if_neg mem, if_neg mem]
          split
          · rfl
          · rfl
      · rw [if_neg below, if_neg below, holds.items]
    · have notAbove : path ∈ logs → ¬ nameParts entry.1 <+: path := by
        intro mem below
        refine found ?_
        rw [holds.items]
        split
        · rfl
        · rw [if_pos (.inr ⟨path, mem, below⟩)]
          rfl
      rw [if_neg found, holds.items]
      by_cases mem : path ∈ logs
      · rw [if_pos mem, if_pos mem, if_neg (notAbove mem)]
      · rw [if_neg mem, if_neg mem]

end OpenSand.Output
