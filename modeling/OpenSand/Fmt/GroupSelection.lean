import OpenSand.Fmt.GroupParse

/-!
The FMT that a group gives for a required MODCOD.

A parsed group is ordered by the Es/N0 its identifiers require, so the first one found from
the end is a best one. The value 0 says that there is none: it is told from a member exactly
when no member could be found under it, and a required Es/N0 of 0 is not searched for.
-/

namespace OpenSand

namespace FmtGroup

/-- The identifiers go from the most to the least robust one, with what the table says they
require, which is not 0. -/
structure Ordered (group : FmtGroup) : Prop where
  sorted : group.fmtIds.Pairwise fun a b => a.esN0 ≤ b.esN0
  esN0 : ∀ fmtId ∈ group.fmtIds, fmtId.esN0 = group.modcodDef.getRequiredEsN0 fmtId.id
  usable : ∀ fmtId ∈ group.fmtIds, group.modcodDef.Usable fmtId.id

/-- For every MODCOD of the table, a member that requires the most without requiring more, and
0 exactly when there is none. -/
structure FindsNearest (group : FmtGroup) : Prop where
  member : ∀ (required : UInt8) (fmt : FmtDefinition), group.modcodDef[required]? = some fmt →
    (∃ fmtId ∈ group.fmtIds, fmtId.esN0 ≤ fmt.requiredEsN0) →
      ∃ fmtId ∈ group.fmtIds, fmtId.id = group.getNearest required ∧
        fmtId.esN0 ≤ fmt.requiredEsN0 ∧ ∀ other ∈ group.fmtIds,
          other.esN0 ≤ fmt.requiredEsN0 → other.esN0 ≤ fmtId.esN0
  nothing : ∀ (required : UInt8) (fmt : FmtDefinition), group.modcodDef[required]? = some fmt →
    (group.getNearest required = 0 ↔ ¬ ∃ fmtId ∈ group.fmtIds, fmtId.esN0 ≤ fmt.requiredEsN0)

/-- A required Es/N0 of 0 is below all members, and the member 0 comes before one that requires
as much. -/
structure Selectable (group : FmtGroup) : Prop where
  above : ∀ (required : UInt8) (fmt : FmtDefinition), group.modcodDef[required]? = some fmt →
    fmt.requiredEsN0 = 0 → ∀ fmtId ∈ group.fmtIds, 0 < fmtId.esN0
  hidden : ∀ before fmtId after, group.fmtIds = before ++ fmtId :: after → fmtId.id = 0 →
    ∃ other ∈ after, other.esN0 = fmtId.esN0

variable {table : FmtDefinitionTable} {group : FmtGroup} {required : UInt8}
  {fmt : FmtDefinition} {fmtId : FmtId} {esN0 : ℚ}

/-! ### Parsed groups -/

theorem readToken_sound {state : Parsing × UInt8} (sound : state.1.Sound table) (val : UInt8) :
    (readToken table state val).1.Sound table := by
  obtain ⟨parsing, previousId⟩ := state
  have added := (sound.add val).2.sound
  by_cases usable : table.Usable val
  · rw [Parsing.readToken_of_usable sound usable]
    split
    · exact added
    · exact (added.foldl_add _).sound
  · rw [Parsing.readToken_of_unusable sound usable]
    exact added

theorem parseToken_sound {state : Parsing × UInt8} (sound : state.1.Sound table)
    (token : List Char) : (parseToken table state token).1.Sound table := by
  unfold parseToken
  dsimp only
  split
  · exact sound
  · exact readToken_sound sound _

theorem parseItems_sound (table : FmtDefinitionTable) (text : List Char) :
    (parseItems table text).Sound table := by
  have tokens (tokens : List (List Char)) : ∀ state : Parsing × UInt8, state.1.Sound table →
      (tokens.foldl (parseToken table) state).1.Sound table := by
    induction tokens with
    | nil => exact fun state sound => sound
    | cons token tokens ih => exact fun state sound => ih _ (parseToken_sound sound token)
  have items (items : List (List Char)) : ∀ parsing : Parsing, parsing.Sound table →
      (items.foldl (parseItem table) parsing).Sound table := by
    induction items with
    | nil => exact fun parsing sound => sound
    | cons item items ih => exact fun parsing sound => ih _ (tokens _ (parsing, 0) sound)
  exact items _ _ (Parsing.start_sound table)

/-- Whatever the text, the group that is parsed is ordered. -/
theorem parse_ordered (table : FmtDefinitionTable) (text : List Char) :
    (parse table text).Ordered := by
  have sound := parseItems_sound table text
  have mem (fmtId : FmtId) (mem : fmtId ∈ (parse table text).fmtIds) :
      fmtId ∈ (parseItems table text).fmtIds := (List.mergeSort_perm _ _).mem_iff.mp mem
  refine ⟨?_, fun fmtId inGroup => sound.esN0 fmtId (mem fmtId inGroup), fun fmtId inGroup => ?_⟩
  · have sorted := @List.pairwise_mergeSort FmtId (fun a b => decide (a.esN0 ≤ b.esN0))
      (fun a b c ab bc => by simp only [decide_eq_true_iff] at *; exact ab.trans bc)
      (fun a b => by simpa using le_total a.esN0 b.esN0) (parseItems table text).fmtIds
    exact sorted.imp fun le => of_decide_eq_true le
  · exact sound.usable _ (List.mem_map_of_mem (mem fmtId inGroup))

/-! ### The search -/

/-- The last identifier that requires no more than an Es/N0, with what comes after it. -/
theorem find_last (esN0 : ℚ) (fmtIds : List FmtId) :
    (fmtIds.reverse.find? (·.esN0 ≤ esN0) = none ∧ ∀ fmtId ∈ fmtIds, esN0 < fmtId.esN0) ∨
      ∃ before fmtId after, fmtIds.reverse.find? (·.esN0 ≤ esN0) = some fmtId ∧
        fmtIds = before ++ fmtId :: after ∧ fmtId.esN0 ≤ esN0 ∧
          ∀ other ∈ after, esN0 < other.esN0 := by
  cases found : fmtIds.reverse.find? (·.esN0 ≤ esN0) with
  | none =>
      left
      refine ⟨rfl, fun fmtId mem => ?_⟩
      have above := List.find?_eq_none.mp found fmtId (List.mem_reverse.mpr mem)
      exact not_le.mp fun le => above (decide_eq_true le)
  | some fmtId =>
      right
      obtain ⟨le, before, after, split, others⟩ := List.find?_eq_some_iff_append.mp found
      refine ⟨after.reverse, fmtId, before.reverse, rfl, ?_, of_decide_eq_true le, ?_⟩
      · have reversed := congrArg List.reverse split
        rw [List.reverse_reverse, List.reverse_append, List.reverse_cons, List.append_assoc,
          List.singleton_append] at reversed
        exact reversed
      · intro other mem
        have above := others other (List.mem_reverse.mp mem)
        exact not_le.mp fun le => by simp [le] at above

theorem find_of_later {before after : List FmtId} {fmtIds : List FmtId}
    (split : fmtIds = before ++ fmtId :: after) (le : fmtId.esN0 ≤ esN0)
    (later : ∀ other ∈ after, esN0 < other.esN0) :
    fmtIds.reverse.find? (·.esN0 ≤ esN0) = some fmtId := by
  have none : after.reverse.find? (·.esN0 ≤ esN0) = none := by
    rw [List.find?_eq_none]
    intro other mem
    simpa using later other (List.mem_reverse.mp mem)
  rw [split, List.reverse_append, List.reverse_cons, List.append_assoc, List.find?_append, none]
  simp [le]

theorem getNearest_eq (known : group.modcodDef[required]? = some fmt) :
    group.getNearest required = if fmt.requiredEsN0 = 0 then 0
      else (group.fmtIds.reverse.find? (·.esN0 ≤ fmt.requiredEsN0)).elim 0 (·.id) := by
  unfold getNearest
  rw [FmtDefinitionTable.getRequiredEsN0_of_some known]

namespace Ordered

variable (ordered : group.Ordered)

include ordered

theorem usable_esN0 (mem : fmtId ∈ group.fmtIds) : fmtId.esN0 ≠ 0 := by
  rw [ordered.esN0 fmtId mem]
  exact ordered.usable fmtId mem

/-- The definition of a member is in the table. -/
theorem definition (mem : fmtId ∈ group.fmtIds) :
    ∃ fmt, group.modcodDef[fmtId.id]? = some fmt ∧ fmt.requiredEsN0 = fmtId.esN0 := by
  cases found : group.modcodDef[fmtId.id]? with
  | none =>
      exact absurd (FmtDefinitionTable.getRequiredEsN0_of_none found) (ordered.usable fmtId mem)
  | some fmt =>
      refine ⟨fmt, rfl, ?_⟩
      rw [ordered.esN0 fmtId mem, FmtDefinitionTable.getRequiredEsN0_of_some found]

/-- The member found from the end requires the most of those within reach. -/
theorem greatest {before after : List FmtId} (split : group.fmtIds = before ++ fmtId :: after)
    (above : ∀ other ∈ after, esN0 < other.esN0) :
    ∀ other ∈ group.fmtIds, other.esN0 ≤ esN0 → other.esN0 ≤ fmtId.esN0 := by
  intro other otherMem otherLe
  have sorted := ordered.sorted
  rw [split] at otherMem sorted
  rcases List.mem_append.mp otherMem with earlier | later
  · exact (List.pairwise_append.mp sorted).2.2 other earlier fmtId List.mem_cons_self
  · rcases List.mem_cons.mp later with rfl | later
    · exact le_rfl
    · exact absurd otherLe (not_le.mpr (above other later))

/-- What is found for a MODCOD is the member that requires the most without requiring more. -/
theorem getNearest_greatest (found : group.getNearest required ≠ 0) :
    ∃ fmtId ∈ group.fmtIds, fmtId.id = group.getNearest required ∧
      fmtId.esN0 ≤ group.modcodDef.getRequiredEsN0 required ∧
      ∀ other ∈ group.fmtIds, other.esN0 ≤ group.modcodDef.getRequiredEsN0 required →
        other.esN0 ≤ fmtId.esN0 := by
  unfold getNearest at found ⊢
  dsimp only at found ⊢
  split at found
  · exact absurd rfl found
  · rename_i known
    rw [if_neg known]
    rcases find_last (group.modcodDef.getRequiredEsN0 required) group.fmtIds with ⟨none, -⟩ |
      ⟨before, fmtId, after, some, split, le, above⟩
    · rw [none] at found
      exact absurd rfl found
    · rw [some]
      refine ⟨fmtId, ?_, rfl, le, ordered.greatest split above⟩
      rw [split]
      exact List.mem_append_right _ List.mem_cons_self

/-- A member that is not 0 is found for a required Es/N0 that is not 0. -/
theorem findsNearest_of_selectable (selectable : group.Selectable) : group.FindsNearest := by
  have search (required : UInt8) (fmt : FmtDefinition)
      (known : group.modcodDef[required]? = some fmt)
      (some : ∃ fmtId ∈ group.fmtIds, fmtId.esN0 ≤ fmt.requiredEsN0) :
      ∃ fmtId ∈ group.fmtIds, fmtId.id = group.getNearest required ∧ fmtId.id ≠ 0 ∧
        fmtId.esN0 ≤ fmt.requiredEsN0 ∧ ∀ other ∈ group.fmtIds,
          other.esN0 ≤ fmt.requiredEsN0 → other.esN0 ≤ fmtId.esN0 := by
    obtain ⟨witness, witnessMem, witnessLe⟩ := some
    have nonzero : fmt.requiredEsN0 ≠ 0 := by
      intro zero
      have above := selectable.above required fmt known zero witness witnessMem
      rw [zero] at witnessLe
      exact absurd witnessLe (not_le.mpr above)
    rw [getNearest_eq known, if_neg nonzero]
    rcases find_last fmt.requiredEsN0 group.fmtIds with ⟨-, above⟩ |
      ⟨before, fmtId, after, found, split, le, above⟩
    · exact absurd witnessLe (not_le.mpr (above witness witnessMem))
    · have mem : fmtId ∈ group.fmtIds := by
        rw [split]
        exact List.mem_append_right _ List.mem_cons_self
      rw [found]
      refine ⟨fmtId, mem, rfl, fun zero => ?_, le, ordered.greatest split above⟩
      obtain ⟨other, otherMem, same⟩ := selectable.hidden before fmtId after split zero
      have less := above other otherMem
      rw [same] at less
      exact absurd le (not_le.mpr less)
  refine ⟨fun required fmt known some => ?_, fun required fmt known => ?_⟩
  · obtain ⟨fmtId, mem, same, -, le, greatest⟩ := search required fmt known some
    exact ⟨fmtId, mem, same, le, greatest⟩
  · constructor
    · intro zero some
      obtain ⟨fmtId, -, same, nonzero, -⟩ := search required fmt known some
      rw [zero] at same
      exact nonzero same
    · intro nothing
      rw [getNearest_eq known]
      split
      · rfl
      · rcases find_last fmt.requiredEsN0 group.fmtIds with ⟨none, -⟩ |
          ⟨before, fmtId, after, -, split, le, -⟩
        · rw [none]
          rfl
        · refine absurd ⟨fmtId, ?_, le⟩ nothing
          rw [split]
          exact List.mem_append_right _ List.mem_cons_self

/-- A group that gives the nearest members hides no member behind the value 0. -/
theorem selectable_of_findsNearest (finds : group.FindsNearest) : group.Selectable where
  above := by
    intro required fmt known zero fmtId mem
    by_contra notAbove
    have some : ∃ fmtId ∈ group.fmtIds, fmtId.esN0 ≤ fmt.requiredEsN0 := by
      rw [zero]
      exact ⟨fmtId, mem, not_lt.mp notAbove⟩
    apply (finds.nothing required fmt known).mp _ some
    rw [getNearest_eq known, if_pos zero]
  hidden := by
    intro before fmtId after split zero
    by_contra notHidden
    have mem : fmtId ∈ group.fmtIds := by
      rw [split]
      exact List.mem_append_right _ List.mem_cons_self
    obtain ⟨fmt, known, same⟩ := ordered.definition mem
    have nonzero : fmt.requiredEsN0 ≠ 0 := by
      rw [same]
      exact ordered.usable_esN0 mem
    apply (finds.nothing _ fmt known).mp _ ⟨fmtId, mem, same.ge⟩
    have sorted := ordered.sorted
    rw [split] at sorted
    have later : ∀ other ∈ after, fmt.requiredEsN0 < other.esN0 := by
      intro other otherMem
      rw [same]
      have least := (List.pairwise_cons.mp (List.pairwise_append.mp sorted).2.1).1 other otherMem
      exact lt_of_le_of_ne least fun equal => notHidden ⟨other, otherMem, equal.symm⟩
    rw [getNearest_eq known, if_neg nonzero, find_of_later split same.ge later]
    exact zero

/-- The group gives the nearest members exactly when it hides none behind the value 0. -/
theorem findsNearest_iff : group.FindsNearest ↔ group.Selectable :=
  ⟨ordered.selectable_of_findsNearest, ordered.findsNearest_of_selectable⟩

end Ordered

/-! ### Parsing and selection -/

/-- **The FMT groups.** The text of a group is parsed as it should, and the group gives the nearest
member for every MODCOD, exactly when it is read as it is written and no member is hidden
behind the value 0. -/
theorem parse_findsNearest_iff (table : FmtDefinitionTable) (items : List FmtItem) :
    (ParsesItems table items ∧ (parse table (groupText items)).FindsNearest) ↔
      ReadAsWritten table items ∧ (parse table (groupText items)).Selectable :=
  and_congr (parsesItems_iff table items) (parse_ordered table _).findsNearest_iff

/-- The identifier 257 is taken for 1. -/
theorem not_parse_findsNearest : ¬ ∀ (table : FmtDefinitionTable) (items : List FmtItem),
    ParsesItems table items ∧ (parse table (groupText items)).FindsNearest := by
  intro parses
  let table : FmtDefinitionTable := Std.TreeMap.empty.insert 1 ⟨1, 2, 1, "1/2", 1, 10⟩
  let numeral : Numeral := ⟨['2', '5', '7'], by decide, List.all_eq_true.mp (by decide)⟩
  have accepted : (parseItems table (groupText [.id numeral])).failed = false := by
    decide +kernel
  obtain ⟨id, same, -⟩ := (parses table [.id numeral]).1.accepts.mp accepted _ List.mem_cons_self
    257 rfl
  have small := UInt8.toNat_lt id
  omega

end FmtGroup

end OpenSand
