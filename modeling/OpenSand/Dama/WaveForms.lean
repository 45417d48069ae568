import OpenSand.Dama.Requests
import OpenSand.Fmt.GroupSelection

/-!
The carriers group and the FMT of the terminals (`updateWaveForms`).

A terminal stays on its carriers when they have an FMT for it. Otherwise the groups of the
category are tried in turn: the best FMT seen so far is kept, but the carriers are the ones of
the last group tried, so the two only go together when the search stops at a group that has
the FMT kept.
-/

namespace OpenSand

/-! ### The placement of a terminal -/

/-- The FMT of the carriers that the terminal is on, 0 when there is none. -/
def ownFmt (requiredFmt : UInt8) (carrierId : Nat) : List CarriersGroupDama → UInt8
  | [] => 0
  | carriers :: rest =>
      if carriers.carriersId ≠ carrierId then ownFmt requiredFmt carrierId rest
      else
        let fmt := carriers.getNearestFmtId requiredFmt
        if fmt ≠ 0 then fmt else ownFmt requiredFmt carrierId rest

/-- The groups are tried up to one that has the required FMT, or a later one in the table; the
greatest identifier is kept with the last carriers tried. -/
def closestFmt (requiredFmt : UInt8) (placed : Nat × UInt8) :
    List CarriersGroupDama → Nat × UInt8
  | [] => placed
  | carriers :: rest =>
      let fmt := carriers.getNearestFmtId requiredFmt
      if requiredFmt ≤ fmt then (carriers.carriersId, fmt)
      else closestFmt requiredFmt (carriers.carriersId, max placed.2 fmt) rest

/-- The identifier of the required FMT, 0 when there is no requirement. -/
def requiredId (required : Option FmtDefinition) : UInt8 := required.elim 0 (·.id)

/-- The carriers and the FMT of a terminal; the identifier 0 is not in the table. -/
def placeTerminal (table : FmtDefinitionTable) (carriersGroups : List CarriersGroupDama)
    (carrierId : Nat) (required : Option FmtDefinition) : Nat × Option FmtDefinition :=
  let requiredFmt := requiredId required
  let availableFmt := ownFmt requiredFmt carrierId carriersGroups
  let (carrierId, availableFmt) :=
    if availableFmt = 0 then closestFmt requiredFmt (carrierId, 0) carriersGroups
    else (carrierId, availableFmt)
  (carrierId, table.getDefinition availableFmt)

/-- The terminals are placed on the groups of their categories. -/
def DamaCtrlRcs2Legacy.placeTerminals (table : FmtDefinitionTable)
    (required : Nat → Option FmtDefinition) (legacy : DamaCtrlRcs2Legacy) : DamaCtrlRcs2Legacy :=
  { legacy with
    categories := legacy.categories.map fun category =>
      { category with
        terminals := category.terminals.map fun terminal =>
          let placed := placeTerminal table category.carriersGroups terminal.carrierId
            (required terminal.talId)
          { terminal with carrierId := placed.1, fmt := placed.2 } } }

/-! ### What the placement is for -/

section Placement

variable (table : FmtDefinitionTable) (carriersGroups : List CarriersGroupDama)
  (carrierId : Nat) (required : Option FmtDefinition)

/-- A group with these carriers has an FMT. -/
def Offers (carriersId : Nat) (fmt : FmtDefinition) : Prop :=
  ∃ carriers ∈ carriersGroups, carriers.carriersId = carriersId ∧
    ∃ id ∈ carriers.getFmtIds, table[id]? = some fmt

/-- Some group has an FMT for the requirement. -/
def Supported : Prop :=
  ∃ carriers ∈ carriersGroups, carriers.getNearestFmtId (requiredId required) ≠ 0

/-- The FMT of a terminal is one of its carriers, and there is one exactly when some group
supports the requirement. -/
structure Placed (placed : Nat × Option FmtDefinition) : Prop where
  offered : ∀ fmt, placed.2 = some fmt → Offers table carriersGroups placed.1 fmt
  served : Supported carriersGroups required → placed.2 ≠ none
  unserved : ¬ Supported carriersGroups required → placed.2 = none

/-- The carriers of the terminal have an FMT for it. -/
def OwnSupports : Prop :=
  ∃ carriers ∈ carriersGroups, carriers.carriersId = carrierId ∧
    carriers.getNearestFmtId (requiredId required) ≠ 0

/-- The greatest of the nearest FMTs of some groups. -/
def greatestNearest : UInt8 :=
  (carriersGroups.map (·.getNearestFmtId (requiredId required))).foldl max 0

/-- The groups tried end with one that has the FMT kept: the first one whose nearest FMT is not
before the required one, otherwise the last one with the greatest of the nearest FMTs. -/
def StopsAtOffer : Prop :=
  match carriersGroups.find? (requiredId required ≤ ·.getNearestFmtId (requiredId required)) with
  | some carriers => ∃ fmt,
      table[carriers.getNearestFmtId (requiredId required)]? = some fmt ∧
        Offers table carriersGroups carriers.carriersId fmt
  | none => ∃ carriers ∈ carriersGroups.getLast?, ∃ fmt,
      table[greatestNearest carriersGroups required]? = some fmt ∧
        Offers table carriersGroups carriers.carriersId fmt

/-- When the placement of a terminal is right. -/
def WellPlaced : Prop :=
  OwnSupports carriersGroups carrierId required ∨
    (Supported carriersGroups required ∧ StopsAtOffer table carriersGroups required) ∨
    (¬ Supported carriersGroups required ∧ table[(0 : UInt8)]? = none)

end Placement

variable {table : FmtDefinitionTable} {carriersGroups : List CarriersGroupDama}
  {carriers : CarriersGroupDama} {carrierId : Nat} {required : Option FmtDefinition}
  {requiredFmt availableFmt : UInt8}

/-! ### The search on the own carriers -/

theorem ownFmt_eq_zero_iff : ownFmt (requiredId required) carrierId carriersGroups = 0 ↔
    ¬ OwnSupports carriersGroups carrierId required := by
  induction carriersGroups with
  | nil => simp [ownFmt, OwnSupports]
  | cons carriers rest ih =>
      have cons : OwnSupports (carriers :: rest) carrierId required ↔
          (carriers.carriersId = carrierId ∧
            carriers.getNearestFmtId (requiredId required) ≠ 0) ∨
          OwnSupports rest carrierId required := by
        unfold OwnSupports
        simp only [List.mem_cons, exists_eq_or_imp]
      rw [ownFmt, cons]
      split
      next other => simp [other, ih]
      next own =>
        dsimp only
        split
        next found => simp [not_not.mp own, found]
        next missing => simp [not_not.mp missing, ih]

theorem ownFmt_mem (found : ownFmt requiredFmt carrierId carriersGroups ≠ 0) :
    ∃ carriers ∈ carriersGroups, carriers.carriersId = carrierId ∧
      carriers.getNearestFmtId requiredFmt = ownFmt requiredFmt carrierId carriersGroups := by
  induction carriersGroups with
  | nil => exact absurd rfl found
  | cons carriers rest ih =>
      have later (found : ownFmt requiredFmt carrierId rest ≠ 0) :
          ∃ carriers' ∈ carriers :: rest, carriers'.carriersId = carrierId ∧
            carriers'.getNearestFmtId requiredFmt = ownFmt requiredFmt carrierId rest := by
        obtain ⟨carriers', mem, own, same⟩ := ih found
        exact ⟨carriers', List.mem_cons_of_mem _ mem, own, same⟩
      rw [ownFmt] at found ⊢
      split at found
      next other =>
        rw [if_pos other]
        exact later found
      next own =>
        rw [if_neg own]
        dsimp only at found ⊢
        split at found
        next has =>
          rw [if_pos has]
          exact ⟨carriers, List.mem_cons_self, not_not.mp own, rfl⟩
        next hasNot =>
          rw [if_neg hasNot]
          exact later found

/-! ### The search among the groups -/

/-- Where the groups tried end. -/
theorem closestFmt_eq (requiredFmt : UInt8) (placed : Nat × UInt8)
    (carriersGroups : List CarriersGroupDama) :
    closestFmt requiredFmt placed carriersGroups =
      match carriersGroups.find? (requiredFmt ≤ ·.getNearestFmtId requiredFmt) with
      | some carriers => (carriers.carriersId, carriers.getNearestFmtId requiredFmt)
      | none =>
          ((carriersGroups.getLast?.map (·.carriersId)).getD placed.1,
            (carriersGroups.map (·.getNearestFmtId requiredFmt)).foldl max placed.2) := by
  induction carriersGroups generalizing placed with
  | nil => rfl
  | cons carriers rest ih =>
      rw [closestFmt]
      by_cases stops : requiredFmt ≤ carriers.getNearestFmtId requiredFmt
      · rw [if_pos stops, List.find?_cons_of_pos (by simpa using stops)]
      · rw [if_neg stops, List.find?_cons_of_neg (by simpa using stops), ih]
        cases rest.find? (requiredFmt ≤ ·.getNearestFmtId requiredFmt) with
        | some _ => rfl
        | none =>
            refine Prod.ext ?_ rfl
            rw [List.getLast?_cons]
            cases rest.getLast? <;> rfl

theorem foldl_max_zero (nearest : List UInt8) (none : ∀ fmt ∈ nearest, fmt = 0) :
    nearest.foldl max 0 = 0 := by
  induction nearest with
  | nil => rfl
  | cons fmt nearest ih =>
      rw [List.foldl_cons, none fmt List.mem_cons_self]
      exact ih fun later mem => none later (List.mem_cons_of_mem fmt mem)

/-! ### The placement -/

/-- The groups were parsed with the table. -/
def ParsedWith (table : FmtDefinitionTable) (carriersGroups : List CarriersGroupDama) : Prop :=
  ∀ carriers ∈ carriersGroups, ∃ text, carriers.fmtGroup = FmtGroup.parse table text

/-- The nearest FMT of a group, when there is one, is offered by it. -/
theorem ParsedWith.nearest (parsed : ParsedWith table carriersGroups)
    (mem : carriers ∈ carriersGroups) (found : carriers.getNearestFmtId requiredFmt ≠ 0) :
    ∃ fmt, table[carriers.getNearestFmtId requiredFmt]? = some fmt ∧
      Offers table carriersGroups carriers.carriersId fmt := by
  obtain ⟨text, same⟩ := parsed carriers mem
  have ordered := FmtGroup.parse_ordered table text
  have member := FmtGroup.getNearest_mem found
  obtain ⟨fmtId, inGroup, own⟩ := List.mem_map.mp member
  rw [same] at inGroup
  obtain ⟨fmt, known, -⟩ := ordered.definition inGroup
  rw [own] at known
  exact ⟨fmt, known, carriers, mem, rfl, _, member, known⟩

/-- A terminal with an FMT for a requirement that is supported. -/
theorem placed_iff_of_supported (supported : Supported carriersGroups required) :
    Placed table carriersGroups required (carrierId, table.getDefinition availableFmt) ↔
      ∃ fmt, table[availableFmt]? = some fmt ∧
        Offers table carriersGroups carrierId fmt := by
  constructor
  · intro placed
    obtain ⟨fmt, found⟩ := Option.ne_none_iff_exists'.mp (placed.served supported)
    exact ⟨fmt, found, placed.offered fmt found⟩
  · rintro ⟨fmt, found, offers⟩
    have definition : table.getDefinition availableFmt = some fmt := found
    refine ⟨fun other same => ?_, fun _ missing => ?_, fun unsupported => ?_⟩
    · cases definition.symm.trans same
      exact offers
    · cases definition.symm.trans missing
    · exact absurd supported unsupported

theorem placed_iff_of_not_supported (unsupported : ¬ Supported carriersGroups required) :
    Placed table carriersGroups required (carrierId, table.getDefinition 0) ↔
      table[(0 : UInt8)]? = none := by
  constructor
  · exact fun placed => placed.unserved unsupported
  · intro missing
    refine ⟨fun fmt found => ?_, fun supported => absurd supported unsupported, fun _ => missing⟩
    cases missing.symm.trans found

/-- What is tried when no group supports the requirement has no FMT. -/
theorem closestFmt_of_not_supported (unsupported : ¬ Supported carriersGroups required)
    (carrierId : Nat) :
    (closestFmt (requiredId required) (carrierId, 0) carriersGroups).2 = 0 := by
  have nothing : ∀ carriers ∈ carriersGroups,
      carriers.getNearestFmtId (requiredId required) = 0 := by
    intro carriers mem
    by_contra found
    exact unsupported ⟨carriers, mem, found⟩
  rw [closestFmt_eq]
  split
  next carriers found => exact nothing carriers (List.mem_of_find?_eq_some found)
  next =>
    apply foldl_max_zero
    intro fmt mem
    obtain ⟨carriers, inGroups, rfl⟩ := List.mem_map.mp mem
    exact nothing carriers inGroups

/-- The carriers and the FMT of a terminal go together exactly when it is well placed. -/
theorem placed_iff (parsed : ParsedWith table carriersGroups) (carrierId : Nat)
    (required : Option FmtDefinition) :
    Placed table carriersGroups required
        (placeTerminal table carriersGroups carrierId required) ↔
      WellPlaced table carriersGroups carrierId required := by
  unfold placeTerminal WellPlaced
  dsimp only
  by_cases own : OwnSupports carriersGroups carrierId required
  · have found := mt ownFmt_eq_zero_iff.mp (not_not.mpr own)
    obtain ⟨carriers, mem, onOwn, nearest⟩ := ownFmt_mem found
    rw [if_neg found]
    have supported : Supported carriersGroups required := ⟨carriers, mem, by rwa [nearest]⟩
    refine ⟨fun _ => .inl own, fun _ => (placed_iff_of_supported supported).mpr ?_⟩
    rw [← nearest, ← onOwn]
    exact parsed.nearest mem (by rwa [nearest])
  · rw [if_pos (ownFmt_eq_zero_iff.mpr own)]
    by_cases supported : Supported carriersGroups required
    · rw [placed_iff_of_supported supported]
      simp only [own, supported, true_and, false_or, not_true, false_and, or_false]
      unfold StopsAtOffer
      rw [closestFmt_eq]
      cases carriersGroups.find? (requiredId required ≤ ·.getNearestFmtId (requiredId required)) with
      | some carriers => exact Iff.rfl
      | none =>
          obtain ⟨carriers, mem, -⟩ := supported
          have nonempty := List.getLast?_isSome.mpr (List.ne_nil_of_mem mem)
          obtain ⟨last, isLast⟩ := Option.isSome_iff_exists.mp nonempty
          rw [isLast]
          simp [greatestNearest]
    · have available := closestFmt_of_not_supported supported carrierId
      simp only [own, supported, false_and, false_or, not_false_iff, true_and]
      rw [available, placed_iff_of_not_supported supported]

/-! ### The terminals -/

namespace DamaCtrlRcs2Legacy

/-- Values given to objects with different keys are a function of the key. -/
theorem exists_of_nodup_keys {α κ β : Type*} [Inhabited β] {objects : List α} {key : α → κ}
    (different : (objects.map key).Nodup) (value : α → β) :
    ∃ f : κ → β, ∀ object ∈ objects, f (key object) = value object := by
  classical
  refine ⟨fun k => if h : ∃ object ∈ objects, key object = k then value h.choose else default, ?_⟩
  intro object mem
  have some : ∃ object' ∈ objects, key object' = key object := ⟨object, mem, rfl⟩
  dsimp only
  rw [dif_pos some]
  have same := List.inj_on_of_nodup_map different some.choose_spec.1 mem some.choose_spec.2
  rw [same]

/-- The placement of the terminals is an update of their wave forms. -/
theorem placeTerminals_eq (table : FmtDefinitionTable) (required : Nat → Option FmtDefinition)
    (legacy : DamaCtrlRcs2Legacy) (different : (legacy.terminals.map (·.talId)).Nodup) :
    ∃ waveForms, legacy.placeTerminals table required = legacy.updateWaveForms waveForms := by
  let objects := legacy.categories.flatMap fun category =>
    category.terminals.map fun terminal => (category, terminal)
  have keys : objects.map (fun object => object.2.talId) = legacy.terminals.map (·.talId) := by
    simp [objects, terminals, List.map_flatMap, Function.comp_def]
  rw [← keys] at different
  obtain ⟨waveForms, placed⟩ := exists_of_nodup_keys different fun (category, terminal) =>
    placeTerminal table category.carriersGroups terminal.carrierId (required terminal.talId)
  refine ⟨waveForms, ?_⟩
  unfold placeTerminals updateWaveForms mapTerminals
  congr 1
  refine List.map_congr_left fun category categoryMem => ?_
  congr 1
  refine List.map_congr_left fun terminal terminalMem => ?_
  have mem : (category, terminal) ∈ objects :=
    List.mem_flatMap.mpr ⟨category, categoryMem, List.mem_map.mpr ⟨terminal, terminalMem, rfl⟩⟩
  dsimp only
  rw [placed (category, terminal) mem]

/-! ### A terminal away from its FMT -/

/-- Three definitions of increasing requirements. -/
def threeFmts : FmtDefinitionTable :=
  ((Std.TreeMap.empty.insert 3 ⟨3, 2, 1, "1/3", 1, 5⟩).insert 7 ⟨7, 2, 1, "1/2", 1, 10⟩).insert
    14 ⟨14, 3, 1, "2/3", 2, 20⟩

def newTerminal : TerminalContextDamaRcs := ⟨1, 0, none, 0, 0, 0, 0, 0, 0, 0, 0, 0, 0, 0, 0⟩

/-- A category with the definition 3 on its carriers 1 and the definition 14 on its carriers 2,
and a terminal on none of them. -/
def twoCarriers : TerminalCategoryDama where
  label := "Standard"
  terminals := [newTerminal]
  carriersGroups :=
    [⟨1, FmtGroup.parse threeFmts ['3'], 1000, 1, 0, 0, 0⟩,
      ⟨2, FmtGroup.parse threeFmts ['1', '4'], 1000, 1, 0, 0, 0⟩]

def twoCarriersLegacy : DamaCtrlRcs2Legacy where
  ctrl := ⟨⟨10, 100, 2⟩, 0, 0, fun _ => 0, fun _ _ => 0⟩
  enableRbdc := false
  enableVbdc := false
  categories := [twoCarriers]
  grants := fun _ => []

theorem twoCarriers_parsed :
    ∀ category ∈ twoCarriersLegacy.categories, ParsedWith threeFmts category.carriersGroups := by
  intro category categoryMem carriers mem
  rw [List.mem_singleton.mp categoryMem] at mem
  rcases List.mem_cons.mp mem with rfl | mem
  · exact ⟨_, rfl⟩
  · rw [List.mem_singleton.mp mem]
    exact ⟨_, rfl⟩

theorem twoCarriers_carriersGroups : twoCarriers.carriersGroups =
    [⟨1, ⟨[⟨3, 5⟩], threeFmts⟩, 1000, 1, 0, 0, 0⟩,
      ⟨2, ⟨[⟨14, 20⟩], threeFmts⟩, 1000, 1, 0, 0, 0⟩] := by
  have three : FmtGroup.parseItems threeFmts ['3'] = ⟨[⟨3, 5⟩], false⟩ := rfl
  have fourteen : FmtGroup.parseItems threeFmts ['1', '4'] = ⟨[⟨14, 20⟩], false⟩ := rfl
  simp [twoCarriers, FmtGroup.parse, three, fourteen]

end DamaCtrlRcs2Legacy

end OpenSand
