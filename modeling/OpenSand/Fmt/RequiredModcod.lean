import OpenSand.Fmt.FmtGroup
import OpenSand.Lib.Scan

/-!
The MODCOD for a C/N.

The scan of the definitions starts from the Es/N0 that the lowest identifier requires, so a
definition that requires less is never kept. The MODCOD found is the best one that the C/N
supports exactly when the lowest identifier is supported, or none is.
-/

namespace OpenSand

open Std (TreeMap)
open OpenSand.Scan

namespace FmtDefinitionTable

variable (table : FmtDefinitionTable) (cni : ℚ)

/-- The scan of the definitions, from the identifier and the C/N kept so far. -/
def scanRequired (best : UInt8 × ℚ) (entries : List (UInt8 × FmtDefinition)) : UInt8 × ℚ :=
  entries.foldl (fun (modcodId, previousCni) (id, fmt) =>
    let currentCni := fmt.requiredEsN0
    -- not supported
    if currentCni > cni then (modcodId, previousCni)
    else if currentCni ≥ previousCni then (id, currentCni)
    else (modcodId, previousCni)) best

/-- The best MODCOD for a C/N, the lowest identifier when there is none. -/
def getRequiredModcod : UInt8 :=
  let previousCni := table.toList.head?.elim 0 (·.2.requiredEsN0)
  let modcodId := (scanRequired cni (0, previousCni) table.toList).1
  if modcodId ≤ 0 then table.getMinId else modcodId

/-! ### What the selection is for -/

/-- Some definition requires no more than the C/N. -/
def Supports : Prop :=
  ∃ (id : UInt8) (fmt : FmtDefinition), table[id]? = some fmt ∧ fmt.requiredEsN0 ≤ cni

/-- The definition with the lowest identifier requires no more than the C/N. -/
def SupportsLowest : Prop :=
  ∃ (id : UInt8) (fmt : FmtDefinition), table[id]? = some fmt ∧
    (∀ other, other ∈ table → id ≤ other) ∧ fmt.requiredEsN0 ≤ cni

/-- The MODCOD selected is the best one supported, or the lowest identifier when none is, and
a better C/N never gets a more robust one. -/
structure Selects : Prop where
  best : table.Supports cni → ∃ fmt, table[table.getRequiredModcod cni]? = some fmt ∧
    fmt.requiredEsN0 ≤ cni ∧ ∀ (id : UInt8) (other : FmtDefinition),
      table[id]? = some other → other.requiredEsN0 ≤ cni → other.requiredEsN0 ≤ fmt.requiredEsN0
  lowest : ¬ table.Supports cni → ∀ id, id ∈ table →
    table.getRequiredModcod cni ∈ table ∧ table.getRequiredModcod cni ≤ id
  monotone : table.Supports cni → ∀ cni', cni ≤ cni' →
    table.getRequiredEsN0 (table.getRequiredModcod cni) ≤
      table.getRequiredEsN0 (table.getRequiredModcod cni')

variable {table cni}

/-! ### The lowest identifier -/

section Lowest

variable {id : UInt8} {fmt : FmtDefinition} {rest : List (UInt8 × FmtDefinition)}

theorem keys_of_toList (entries : table.toList = (id, fmt) :: rest) :
    table.keys = id :: rest.map Prod.fst := by
  rw [← TreeMap.map_fst_toList_eq_keys, entries]
  rfl

theorem head_lt (entries : table.toList = (id, fmt) :: rest) :
    ∀ entry ∈ rest, id < entry.1 := by
  have ordered := TreeMap.ordered_keys_toList (t := table)
  rw [entries] at ordered
  intro entry mem
  exact Std.compare_eq_lt.mp ((List.pairwise_cons.mp ordered).1 entry mem)

/-- The lowest identifier is the one of the first entry. -/
theorem getMinId_of_toList (entries : table.toList = (id, fmt) :: rest) :
    table.getMinId = id := by
  have below : ∀ other ∈ rest.map Prod.fst, id < other := by
    intro other mem
    obtain ⟨entry, entryMem, rfl⟩ := List.mem_map.mp mem
    exact head_lt entries entry entryMem
  unfold getMinId
  rw [keys_of_toList entries]
  clear entries
  revert below
  induction rest.map Prod.fst with
  | nil => exact fun _ => rfl
  | cons other others ih =>
      intro below
      have notBelow : ¬ other < id := UInt8.lt_asymm (below other List.mem_cons_self)
      dsimp only [List.foldl_cons]
      rw [if_neg notBelow]
      exact ih fun later mem => below later (List.mem_cons_of_mem other mem)

theorem getElem?_of_toList (entries : table.toList = (id, fmt) :: rest) :
    table[id]? = some fmt := by
  apply TreeMap.mem_toList_iff_getElem?_eq_some.mp
  rw [entries]
  exact List.mem_cons_self

theorem head_le (entries : table.toList = (id, fmt) :: rest) :
    ∀ other, other ∈ table → id ≤ other := by
  intro other mem
  have known : other ∈ table.keys := TreeMap.mem_keys.mpr mem
  rw [keys_of_toList entries] at known
  rcases List.mem_cons.mp known with rfl | later
  · exact UInt8.le_refl _
  · obtain ⟨entry, entryMem, rfl⟩ := List.mem_map.mp later
    exact UInt8.le_of_lt (head_lt entries entry entryMem)

theorem supportsLowest_iff (entries : table.toList = (id, fmt) :: rest) :
    table.SupportsLowest cni ↔ fmt.requiredEsN0 ≤ cni := by
  constructor
  · rintro ⟨lowest, lowestFmt, found, least, supported⟩
    have same : lowest = id := by
      apply UInt8.le_antisymm
      · exact least id (TreeMap.mem_iff_isSome_getElem?.mpr (by
          rw [getElem?_of_toList entries]; rfl))
      · exact head_le entries lowest (TreeMap.mem_iff_isSome_getElem?.mpr (by
          rw [found]; rfl))
    rw [same, getElem?_of_toList entries] at found
    cases found
    exact supported
  · intro supported
    exact ⟨id, fmt, getElem?_of_toList entries, head_le entries, supported⟩

end Lowest

/-! ### The scan -/

def entryCni (entry : UInt8 × FmtDefinition) : UInt8 × ℚ := (entry.1, entry.2.requiredEsN0)

theorem scanRequired_eq (best : UInt8 × ℚ) (entries : List (UInt8 × FmtDefinition)) :
    scanRequired cni best entries =
      scan Prod.snd (fun entry : UInt8 × ℚ => entry.2 ≤ cni) best (entries.map entryCni) := by
  unfold scanRequired scan
  rw [List.foldl_map]
  congr 1
  funext best entry
  dsimp only [entryCni, keep]
  by_cases supported : entry.2.requiredEsN0 ≤ cni
  · rw [if_neg (not_lt.mpr supported)]
    by_cases better : best.2 ≤ entry.2.requiredEsN0
    · rw [if_pos better, if_pos ⟨supported, better⟩]
    · rw [if_neg better, if_neg fun both => better both.2]
  · rw [if_pos (not_le.mp supported), if_neg fun both => supported both.1]

section Scan

variable {best : UInt8 × ℚ} {entries : List (UInt8 × FmtDefinition)}

theorem le_scanRequired : best.2 ≤ (scanRequired cni best entries).2 := by
  rw [scanRequired_eq]
  exact le_scan

theorem entry_le_scanRequired {entry : UInt8 × FmtDefinition} (mem : entry ∈ entries)
    (supported : entry.2.requiredEsN0 ≤ cni) :
    entry.2.requiredEsN0 ≤ (scanRequired cni best entries).2 := by
  rw [scanRequired_eq]
  have mem' : entryCni entry ∈ entries.map entryCni := List.mem_map_of_mem mem
  exact @entry_le_scan _ ℚ _ Prod.snd (·.2 ≤ cni) _ _ _ _ mem' supported

theorem scanRequired_origin : scanRequired cni best entries = best ∨
    ∃ entry ∈ entries, scanRequired cni best entries = entryCni entry ∧
      entry.2.requiredEsN0 ≤ cni := by
  rw [scanRequired_eq]
  refine scan_origin.imp_right ?_
  rintro ⟨mem, supported⟩
  obtain ⟨entry, entryMem, same⟩ := List.mem_map.mp mem
  rw [← same] at supported ⊢
  exact ⟨entry, entryMem, rfl, supported⟩

theorem scanRequired_eq_self (unsupported : cni < best.2) :
    scanRequired cni best entries = best := by
  rw [scanRequired_eq]
  exact scan_eq_start fun entry _ supported => lt_of_le_of_lt supported unsupported

end Scan

section Head

variable {id : UInt8} {fmt : FmtDefinition} {rest : List (UInt8 × FmtDefinition)}

/-- The scan from the Es/N0 of the lowest identifier. -/
theorem getRequiredModcod_of_toList (entries : table.toList = (id, fmt) :: rest) :
    table.getRequiredModcod cni =
      let modcodId := (scanRequired cni (0, fmt.requiredEsN0) ((id, fmt) :: rest)).1
      if modcodId ≤ 0 then id else modcodId := by
  unfold getRequiredModcod
  rw [getMinId_of_toList entries, entries]
  rfl

/-- A first entry that is supported is kept at once. -/
theorem scanRequired_head (supported : fmt.requiredEsN0 ≤ cni) :
    scanRequired cni (0, fmt.requiredEsN0) ((id, fmt) :: rest) =
      scanRequired cni (id, fmt.requiredEsN0) rest := by
  change scanRequired cni (if fmt.requiredEsN0 > cni then _ else _) rest = _
  rw [if_neg (not_lt.mpr supported), if_pos le_rfl]

theorem scanRequired_head_mem (entries : table.toList = (id, fmt) :: rest)
    (supported : fmt.requiredEsN0 ≤ cni) :
    ∃ found, table[(scanRequired cni (id, fmt.requiredEsN0) rest).1]? = some found ∧
      found.requiredEsN0 = (scanRequired cni (id, fmt.requiredEsN0) rest).2 ∧
      found.requiredEsN0 ≤ cni := by
  have origin : scanRequired cni (id, fmt.requiredEsN0) rest = _ ∨ _ := scanRequired_origin
  rcases origin with kept | ⟨entry, mem, same, le⟩
  · rw [kept]
    exact ⟨fmt, getElem?_of_toList entries, rfl, supported⟩
  · rw [same]
    refine ⟨entry.2, TreeMap.mem_toList_iff_getElem?_eq_some.mp ?_, rfl, le⟩
    rw [entries]
    exact List.mem_cons_of_mem _ mem

/-- When the lowest identifier is supported, so is the MODCOD found, and no better one is. -/
theorem getRequiredModcod_of_supported (entries : table.toList = (id, fmt) :: rest)
    (supported : fmt.requiredEsN0 ≤ cni) :
    ∃ found, table[table.getRequiredModcod cni]? = some found ∧ found.requiredEsN0 ≤ cni ∧
      ∀ (other : UInt8) (otherFmt : FmtDefinition), table[other]? = some otherFmt →
        otherFmt.requiredEsN0 ≤ cni → otherFmt.requiredEsN0 ≤ found.requiredEsN0 := by
  obtain ⟨found, foundAt, foundCni, foundLe⟩ := scanRequired_head_mem entries supported
  have result : table.getRequiredModcod cni =
      (scanRequired cni (id, fmt.requiredEsN0) rest).1 := by
    rw [getRequiredModcod_of_toList entries, scanRequired_head supported]
    dsimp only
    split
    next zero =>
      -- no identifier but the lowest one can be 0
      have lowest : id ≤ (scanRequired cni (id, fmt.requiredEsN0) rest).1 :=
        head_le entries _ (TreeMap.mem_iff_isSome_getElem?.mpr (by rw [foundAt]; rfl))
      exact UInt8.le_antisymm lowest (UInt8.le_trans zero UInt8.zero_le)
    next => rfl
  rw [result]
  refine ⟨found, foundAt, foundLe, ?_⟩
  intro other otherFmt otherAt otherSupported
  rw [foundCni]
  have mem := TreeMap.mem_toList_iff_getElem?_eq_some.mpr otherAt
  rw [entries] at mem
  rcases List.mem_cons.mp mem with isFirst | later
  · cases isFirst
    exact le_scanRequired
  · exact entry_le_scanRequired later otherSupported

/-- When the lowest identifier is not supported, it is the MODCOD found. -/
theorem getRequiredModcod_of_not_supported (entries : table.toList = (id, fmt) :: rest)
    (unsupported : cni < fmt.requiredEsN0) : table.getRequiredModcod cni = id := by
  rw [getRequiredModcod_of_toList entries, scanRequired_eq_self unsupported]
  exact if_pos (UInt8.le_refl 0)

end Head

/-! ### The selection -/

theorem getRequiredModcod_of_nil (empty : table.toList = []) : table.getRequiredModcod cni = 0 := by
  have keys : table.keys = [] := by
    rw [← TreeMap.map_fst_toList_eq_keys, empty]
    rfl
  unfold getRequiredModcod getMinId
  rw [empty, keys]
  rfl

/-- A better C/N never gets a MODCOD that requires less. -/
theorem getRequiredEsN0_getRequiredModcod_mono {cni' : ℚ} (le : cni ≤ cni') :
    table.getRequiredEsN0 (table.getRequiredModcod cni) ≤
      table.getRequiredEsN0 (table.getRequiredModcod cni') := by
  cases entries : table.toList with
  | nil => rw [getRequiredModcod_of_nil entries, getRequiredModcod_of_nil entries]
  | cons first rest =>
      obtain ⟨id, fmt⟩ := first
      by_cases supported' : fmt.requiredEsN0 ≤ cni'
      · obtain ⟨found', foundAt', -, greatest⟩ :=
          getRequiredModcod_of_supported entries supported'
        rw [getRequiredEsN0_of_some foundAt']
        by_cases supported : fmt.requiredEsN0 ≤ cni
        · obtain ⟨found, foundAt, foundLe, -⟩ :=
            getRequiredModcod_of_supported entries supported
          rw [getRequiredEsN0_of_some foundAt]
          exact greatest _ _ foundAt (foundLe.trans le)
        · rw [getRequiredModcod_of_not_supported entries (not_le.mp supported)]
          rw [getRequiredEsN0_of_some (getElem?_of_toList entries)]
          exact greatest _ _ (getElem?_of_toList entries) supported'
      · have unsupported : cni < fmt.requiredEsN0 := le.trans_lt (not_le.mp supported')
        rw [getRequiredModcod_of_not_supported entries unsupported]
        rw [getRequiredModcod_of_not_supported entries (not_le.mp supported')]

theorem supports_of_supportsLowest (supported : table.SupportsLowest cni) :
    table.Supports cni := by
  obtain ⟨id, fmt, found, -, supported⟩ := supported
  exact ⟨id, fmt, found, supported⟩

/-- The MODCOD selected is the right one exactly when the lowest identifier is supported or
none is. -/
theorem selects_iff (table : FmtDefinitionTable) (cni : ℚ) :
    table.Selects cni ↔ (table.Supports cni → table.SupportsLowest cni) := by
  cases entries : table.toList with
  | nil =>
      have nothing : ∀ (id : UInt8) (fmt : FmtDefinition), table[id]? ≠ some fmt := by
        intro id fmt found
        have mem := TreeMap.mem_toList_iff_getElem?_eq_some.mpr found
        rw [entries] at mem
        exact List.not_mem_nil mem
      have unsupported : ¬ table.Supports cni := by
        rintro ⟨id, fmt, found, -⟩
        exact nothing id fmt found
      refine ⟨fun _ supported => absurd supported unsupported, fun _ => ⟨?_, ?_, ?_⟩⟩
      · exact fun supported => absurd supported unsupported
      · intro _ id mem
        have isSome := TreeMap.mem_iff_isSome_getElem?.mp mem
        obtain ⟨fmt, found⟩ := Option.isSome_iff_exists.mp isSome
        exact absurd found (nothing id fmt)
      · exact fun supported => absurd supported unsupported
  | cons first rest =>
      obtain ⟨id, fmt⟩ := first
      rw [supportsLowest_iff entries]
      constructor
      · intro selects supported
        by_contra unsupported
        obtain ⟨found, foundAt, foundLe, -⟩ := selects.best supported
        rw [getRequiredModcod_of_not_supported entries (not_le.mp unsupported)] at foundAt
        rw [getElem?_of_toList entries] at foundAt
        cases foundAt
        exact unsupported foundLe
      · intro lowest
        refine ⟨fun supported => ?_, fun unsupported other mem => ?_, fun _ cni' le => ?_⟩
        · exact getRequiredModcod_of_supported entries (lowest supported)
        · have above : ¬ fmt.requiredEsN0 ≤ cni := fun supported =>
            unsupported ⟨id, fmt, getElem?_of_toList entries, supported⟩
          rw [getRequiredModcod_of_not_supported entries (not_le.mp above)]
          refine ⟨TreeMap.mem_iff_isSome_getElem?.mpr ?_, head_le entries other mem⟩
          rw [getElem?_of_toList entries]
          rfl
        · exact getRequiredEsN0_getRequiredModcod_mono le

/-- With two definitions whose lowest identifier requires more, the C/N that only supports the
other one gets the one that it does not support. -/
theorem not_selects : ¬ ∀ (table : FmtDefinitionTable) (cni : ℚ), table.Selects cni := by
  intro selects
  let table : FmtDefinitionTable :=
    (TreeMap.empty.insert 1 ⟨1, 2, 1, "1/2", 1, 10⟩).insert 2 ⟨2, 2, 1, "1/3", 1, 5⟩
  have supported : table.Supports 7 := ⟨2, ⟨2, 2, 1, "1/3", 1, 5⟩, rfl, by norm_num⟩
  have result : table.getRequiredModcod 7 = 1 := by decide +kernel
  obtain ⟨fmt, found, le, -⟩ := (selects table 7).best supported
  rw [result] at found
  cases found
  norm_num at le

end FmtDefinitionTable

end OpenSand
