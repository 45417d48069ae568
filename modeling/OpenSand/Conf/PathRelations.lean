import OpenSand.Conf.Path
import Mathlib.Data.List.TakeWhile

/-!
Common and relative paths against the components they are made of (`Path.cpp`).

Joined identifiers can be told apart (`joinPath_injective`), but the text of a path starts with
that of another as soon as the last identifier of the second starts one of the first
(`joinPath_below`), and splitting a path loses its empty identifiers.
-/

namespace OpenSand.Conf

/-- The text of a list of identifiers. -/
def joinPath (components : List Text) : Text := components.flatMap ('/' :: ·)

/-- Identifiers without separators. -/
def Whole (components : List Text) : Prop := ∀ id ∈ components, '/' ∉ id

theorem joinPath_cons (id : Text) (components : List Text) :
    joinPath (id :: components) = '/' :: (id ++ joinPath components) := rfl

theorem joinPath_append (components rest : List Text) :
    joinPath (components ++ rest) = joinPath components ++ joinPath rest :=
  List.flatMap_append

theorem joinPath_eq_nil {components : List Text} : joinPath components = [] ↔ components = [] := by
  cases components with
  | nil => exact ⟨fun _ => rfl, fun _ => rfl⟩
  | cons id components => exact ⟨fun empty => (List.cons_ne_nil _ _ empty).elim, nofun⟩

theorem Whole.tail {id : Text} {components : List Text} (whole : Whole (id :: components)) :
    Whole components := fun other mem => whole other (List.mem_cons_of_mem id mem)

theorem Whole.left {components rest : List Text} (whole : Whole (components ++ rest)) :
    Whole components := fun id mem => whole id (List.mem_append_left rest mem)

theorem Whole.right {components rest : List Text} (whole : Whole (components ++ rest)) :
    Whole rest := fun id mem => whole id (List.mem_append_right components mem)

theorem Whole.append {components rest : List Text} (whole : Whole components)
    (whole' : Whole rest) : Whole (components ++ rest) := by
  intro id mem
  rcases List.mem_append.mp mem with mem | mem
  · exact whole id mem
  · exact whole' id mem

/-- What follows an identifier in a joined text starts with a separator. -/
theorem joinPath_head {components : List Text} {c : Char} {text : Text}
    (starts : joinPath components = c :: text) : c = '/' := by
  cases components with
  | nil => cases starts
  | cons id components =>
      rw [joinPath_cons] at starts
      exact (List.cons.inj starts).1.symm

/-- An identifier of a text starts that of another, which it is unless nothing follows it. -/
theorem id_append_below {id other : Text} {components rest : List Text}
    (whole' : '/' ∉ other)
    (below : id ++ joinPath components <+: other ++ joinPath rest) (whole : '/' ∉ id) :
    id = other ∧ joinPath components <+: joinPath rest ∨
      components = [] ∧ id <+: other ∧ id ≠ other := by
  induction id generalizing other with
  | nil =>
      cases other with
      | nil => exact .inl ⟨rfl, below⟩
      | cons c other =>
          cases components with
          | nil => exact .inr ⟨rfl, List.nil_prefix, List.cons_ne_nil c other |>.symm⟩
          | cons own components =>
              rw [List.nil_append, joinPath_cons, List.cons_append] at below
              have slash := (List.cons_prefix_cons.mp below).1
              exact absurd (slash ▸ List.mem_cons_self) whole'
  | cons c id ih =>
      cases other with
      | nil =>
          obtain ⟨more, text⟩ := below
          have slash := joinPath_head text.symm
          exact absurd (slash ▸ List.mem_cons_self) whole
      | cons c' other =>
          obtain ⟨rfl, inside⟩ := List.cons_prefix_cons.mp below
          have own : '/' ∉ id := fun mem => whole (List.mem_cons_of_mem c mem)
          have own' : '/' ∉ other := fun mem => whole' (List.mem_cons_of_mem c mem)
          rcases ih own' inside own with ⟨rfl, under⟩ | ⟨last, starts, ne⟩
          · exact .inl ⟨rfl, under⟩
          · exact .inr ⟨last, (List.prefix_cons_inj c).mpr starts,
              fun same => ne (List.cons.inj same).2⟩

/-- The last identifier of a path is not one of another path, but the start of one there. -/
def LastExtended (parent path : List Text) : Prop :=
  ∃ above last other rest, parent = above ++ [last] ∧ path = above ++ other :: rest ∧
    last <+: other ∧ last ≠ other

theorem LastExtended.cons {parent path : List Text} (extended : LastExtended parent path)
    (id : Text) : LastExtended (id :: parent) (id :: path) := by
  obtain ⟨above, last, other, rest, rfl, rfl, starts, ne⟩ := extended
  exact ⟨id :: above, last, other, rest, rfl, rfl, starts, ne⟩

theorem LastExtended.not_prefix {parent path : List Text} (extended : LastExtended parent path) :
    ¬ parent <+: path := by
  obtain ⟨above, last, other, rest, rfl, rfl, starts, ne⟩ := extended
  intro below
  rw [List.prefix_append_right_inj] at below
  exact ne (List.cons_prefix_cons.mp below).1

/-- The two notions of prefix differ by the paths whose last identifier is extended. -/
theorem joinPath_below {parent path : List Text} (whole : Whole parent) (whole' : Whole path) :
    joinPath parent <+: joinPath path ↔ parent <+: path ∨ LastExtended parent path := by
  constructor
  · intro below
    induction parent generalizing path with
    | nil => exact .inl List.nil_prefix
    | cons id parent ih =>
        cases path with
        | nil =>
            rw [joinPath_eq_nil.mpr rfl, List.prefix_nil] at below
            exact absurd below (List.cons_ne_nil _ _)
        | cons other path =>
            have own : '/' ∉ id := whole id List.mem_cons_self
            have own' : '/' ∉ other := whole' other List.mem_cons_self
            have inside := (List.cons_prefix_cons.mp below).2
            rcases id_append_below own' inside own with ⟨rfl, under⟩ | ⟨rfl, starts, ne⟩
            · rcases ih whole.tail whole'.tail under with under | extended
              · exact .inl ((List.prefix_cons_inj id).mpr under)
              · exact .inr (extended.cons id)
            · exact .inr ⟨[], id, other, path, rfl, rfl, starts, ne⟩
  · rintro (⟨rest, rfl⟩ | ⟨above, last, other, rest, rfl, rfl, ⟨more, rfl⟩, _⟩)
    · rw [joinPath_append]
      exact List.prefix_append _ _
    · refine ⟨more ++ joinPath rest, ?_⟩
      simp [joinPath_append, joinPath_cons, joinPath_eq_nil.mpr]

/-- An extended identifier leaves some of the text. -/
theorem LastExtended.shorter {parent path : List Text} (extended : LastExtended parent path) :
    (joinPath parent).length < (joinPath path).length := by
  obtain ⟨above, last, other, rest, rfl, rfl, starts, ne⟩ := extended
  have fewer : last.length < other.length := by
    rcases Nat.lt_or_eq_of_le starts.length_le with less | same
    · exact less
    · exact absurd (starts.eq_of_length same) ne
  simp only [joinPath_append, joinPath_cons, List.length_append, List.length_cons]
  have none : (joinPath []).length = 0 := rfl
  omega

theorem joinPath_injective {components other : List Text} (whole : Whole components)
    (whole' : Whole other) (same : joinPath components = joinPath other) :
    components = other := by
  have length := congrArg List.length same
  have below := (joinPath_below whole whole').mp (same ▸ List.prefix_rfl)
  have above := (joinPath_below whole' whole).mp (same ▸ List.prefix_rfl)
  rcases below with below | extended
  · rcases above with above | extended
    · exact below.eq_of_length_le above.length_le
    · exact absurd extended.shorter (by omega)
  · exact absurd extended.shorter (by omega)

/-! ### Splitting what was joined -/

/-- Splitting a joined text loses the empty identifiers. -/
theorem splitPath_joinPath {components : List Text} (whole : Whole components) :
    splitPath (joinPath components) = components.filter (· ≠ []) := by
  induction components using List.reverseRecOn with
  | nil => rfl
  | append_singleton components id ih =>
      have own : '/' ∉ id := whole id (by simp)
      have text : joinPath (components ++ [id]) = joinPath components ++ '/' :: id := by
        simp [joinPath_append, joinPath_cons, joinPath_eq_nil.mpr]
      rw [text, splitPath_append_slash, ih whole.left, splitPath_of_id own, List.filter_append]
      by_cases empty : id = []
      · simp [empty]
      · simp [empty]

/-! ### Common paths -/

/-- One of two lists is empty, or they differ in their first component. -/
def Parted (components other : List Text) : Prop :=
  components = [] ∨ other = [] ∨ components.head? ≠ other.head?

/-- The first identifiers that splitting keeps are not the same. -/
def Apart (components other : List Text) : Prop :=
  ∀ id, components.find? (· ≠ []) = some id → other.find? (· ≠ []) ≠ some id

theorem commonPrefix_append {α : Type*} [DecidableEq α] (as bs cs : List α) :
    commonPrefix (as ++ bs) (as ++ cs) = as ++ commonPrefix bs cs := by
  induction as with
  | nil => rfl
  | cons a as ih => rw [List.cons_append, List.cons_append, commonPrefix, if_pos rfl, ih]; rfl

theorem commonPrefix_eq_nil {α : Type*} [DecidableEq α] {as bs : List α} :
    commonPrefix as bs = [] ↔ ∀ a, as.head? = some a → bs.head? ≠ some a := by
  cases as with
  | nil => simp [commonPrefix]
  | cons a as =>
      cases bs with
      | nil => simp [commonPrefix]
      | cons b bs =>
          by_cases same : a = b
          · simp [commonPrefix, same]
          · simp [commonPrefix, same, Ne.symm same]

theorem getCommonPath_joinPath {components other : List Text} (whole : Whole components)
    (whole' : Whole other) (ne : components ≠ other) :
    getCommonPath (joinPath components) (joinPath other) =
      joinPath (commonPrefix (components.filter (· ≠ [])) (other.filter (· ≠ []))) := by
  rw [getCommonPath, if_neg fun same => ne (joinPath_injective whole whole' same),
    splitPath_joinPath whole, splitPath_joinPath whole']
  rfl

theorem Parted.eq_nil {components : List Text} (parted : Parted components components) :
    components = [] := by
  rcases parted with empty | empty | differ
  · exact empty
  · exact empty
  · exact absurd rfl differ

/-- The common path of two paths that part at a third is that one. -/
theorem common_iff {path rest rest' : List Text} (whole : Whole (path ++ rest))
    (whole' : Whole (path ++ rest')) (parted : Parted rest rest') :
    getCommonPath (joinPath (path ++ rest)) (joinPath (path ++ rest')) = joinPath path ↔
      rest = [] ∧ rest' = [] ∨ [] ∉ path ∧ Apart rest rest' := by
  by_cases same : rest = rest'
  · subst same
    have empty := parted.eq_nil
    subst empty
    rw [List.append_nil, getCommonPath, if_pos rfl]
    exact iff_of_true rfl (.inl ⟨rfl, rfl⟩)
  have ne : path ++ rest ≠ path ++ rest' := fun eq => same (List.append_cancel_left eq)
  have apart : commonPrefix (rest.filter (· ≠ [])) (rest'.filter (· ≠ [])) = [] ↔
      Apart rest rest' := by
    rw [commonPrefix_eq_nil, List.head?_filter, List.head?_filter]
    rfl
  rw [getCommonPath_joinPath whole whole' ne, List.filter_append, List.filter_append,
    commonPrefix_append]
  constructor
  · intro text
    right
    have kept : path.filter (· ≠ []) ++
        commonPrefix (rest.filter (· ≠ [])) (rest'.filter (· ≠ [])) <+:
          (path ++ rest).filter (· ≠ []) := by
      rw [List.filter_append, List.prefix_append_right_inj]
      exact (commonPrefix_le _ _).1
    have whole'' : Whole (path.filter (· ≠ []) ++
        commonPrefix (rest.filter (· ≠ [])) (rest'.filter (· ≠ []))) := fun id mem =>
      whole id (List.mem_filter.mp (kept.subset mem)).1
    have components := joinPath_injective whole'' whole.left text
    have named : [] ∉ path := by
      rw [← components]
      intro empty
      exact absurd rfl (of_decide_eq_true (List.mem_filter.mp (kept.subset empty)).2)
    rw [filter_eq_self_iff.mpr named, List.append_right_eq_self] at components
    exact ⟨named, apart.mp components⟩
  · rintro (⟨rfl, rfl⟩ | ⟨named, differ⟩)
    · exact absurd rfl same
    · rw [apart.mpr differ, List.append_nil, filter_eq_self_iff.mpr named]

/-! ### Relative paths -/

/-- What is left of a path when a parent and the separators after it are taken away. -/
def Strips (parent path result : Text) : Prop :=
  ∃ separators, (∀ c ∈ separators, c = '/') ∧ path = parent ++ separators ++ result

/-- A parent is stripped from the paths it is a prefix of, component by component. -/
structure RelativeLaw (parent path : List Text) : Prop where
  strips : Strips (joinPath parent) (joinPath path)
    (getRelativePath (joinPath parent) (joinPath path)) ↔ parent <+: path
  resolves : parent <+: path →
    splitPath (joinPath parent ++ '/' :: getRelativePath (joinPath parent) (joinPath path)) = path
  unchanged : ¬ parent <+: path →
    getRelativePath (joinPath parent) (joinPath path) = joinPath path

theorem getRelativePath_append {parent : Text} (some : parent ≠ []) (rest : Text) :
    getRelativePath parent (parent ++ rest) = rest.dropWhile (· = '/') := by
  rw [getRelativePath, if_neg some, if_pos (List.prefix_append parent rest), List.drop_left]

theorem getRelativePath_strips {parent path : Text} (below : parent <+: path) :
    Strips parent path (getRelativePath parent path) := by
  by_cases root : parent = []
  · subst root
    exact ⟨[], nofun, rfl⟩
  · obtain ⟨rest, rfl⟩ := below
    rw [getRelativePath_append root]
    refine ⟨rest.takeWhile (· = '/'), ?_, ?_⟩
    · intro c mem
      simpa using List.mem_takeWhile_imp mem
    · rw [List.append_assoc, List.takeWhile_append_dropWhile]

theorem getRelativePath_of_not_prefix {parent path : Text} (apart : ¬ parent <+: path) :
    getRelativePath parent path = path := by
  rw [getRelativePath, if_neg apart, ite_self]

theorem Strips.below {parent path result : Text} (strips : Strips parent path result) :
    parent <+: path := by
  obtain ⟨separators, _, rfl⟩ := strips
  rw [List.append_assoc]
  exact List.prefix_append _ _

/-- What is stripped is the text of the parent. -/
theorem strips_iff {parent path : Text} :
    Strips parent path (getRelativePath parent path) ↔ parent <+: path :=
  ⟨Strips.below, getRelativePath_strips⟩

/-- The rest of a path below a parent resolves to it, without its empty identifiers. -/
theorem splitPath_relative {parent path : List Text} (whole : Whole path)
    (below : parent <+: path) :
    splitPath (joinPath parent ++ '/' :: getRelativePath (joinPath parent) (joinPath path)) =
      path.filter (· ≠ []) := by
  obtain ⟨rest, rfl⟩ := below
  have kept : splitPath (getRelativePath (joinPath parent) (joinPath (parent ++ rest))) =
      rest.filter (· ≠ []) := by
    by_cases root : parent = []
    · subst root
      exact splitPath_joinPath whole
    · rw [joinPath_append, getRelativePath_append (mt joinPath_eq_nil.mp root),
        splitPath_dropWhile, splitPath_joinPath whole.right]
  rw [splitPath_append_slash, splitPath_joinPath whole.left, kept, List.filter_append]

theorem relativeLaw_iff {parent path : List Text} (whole : Whole parent) (whole' : Whole path) :
    RelativeLaw parent path ↔ ¬ LastExtended parent path ∧ (parent <+: path → [] ∉ path) := by
  have texts := joinPath_below whole whole'
  constructor
  · intro law
    constructor
    · intro extended
      exact extended.not_prefix (law.strips.mp (strips_iff.mpr (texts.mpr (.inr extended))))
    · intro below
      rw [← filter_eq_self_iff, ← splitPath_relative whole' below]
      exact law.resolves below
  · rintro ⟨apart, named⟩
    have same : joinPath parent <+: joinPath path ↔ parent <+: path := by
      rw [texts, or_iff_left apart]
    exact {
      strips := strips_iff.trans same
      resolves := fun below => by
        rw [splitPath_relative whole' below, filter_eq_self_iff.mpr (named below)]
      unchanged := fun beside => getRelativePath_of_not_prefix (mt same.mp beside) }

/-- Both kinds of paths follow the components. -/
structure PathLaw (common rest rest' parent path : List Text) : Prop where
  common : Parted rest rest' →
    getCommonPath (joinPath (common ++ rest)) (joinPath (common ++ rest')) = joinPath common
  relative : RelativeLaw parent path

/-- Common and relative paths are component-wise as far as the identifiers on the way are not
empty, and the last one of the parent does not start a longer one of the path. -/
theorem pathLaw_iff (common rest rest' parent path : List Text)
    (whole : Whole (common ++ rest)) (whole' : Whole (common ++ rest')) (parent_whole : Whole parent)
    (path_whole : Whole path) :
    PathLaw common rest rest' parent path ↔
      (Parted rest rest' → rest = [] ∧ rest' = [] ∨ [] ∉ common ∧ Apart rest rest') ∧
        ¬ LastExtended parent path ∧ (parent <+: path → [] ∉ path) := by
  rw [← relativeLaw_iff parent_whole path_whole]
  constructor
  · intro law
    exact ⟨fun parted => (common_iff whole whole' parted).mp (law.common parted), law.relative⟩
  · rintro ⟨named, relative⟩
    exact ⟨fun parted => (common_iff whole whole' parted).mpr (named parted), relative⟩

/-- Two components below a third. -/
theorem pathLaw_below :
    PathLaw [['a']] [['b']] [] [['a']] [['a'], ['b', 'c']] := by
  refine (pathLaw_iff [['a']] [['b']] [] [['a']] [['a'], ['b', 'c']] ?_ ?_ ?_ ?_).mpr ?_
  · unfold Whole; decide
  · unfold Whole; decide
  · unfold Whole; decide
  · unfold Whole; decide
  · refine ⟨fun _ => .inr ⟨by decide, nofun⟩, ?_, by decide⟩
    exact fun extended => extended.not_prefix (by decide)

/-- The path of another element loses the identifier it starts with. -/
theorem pathLaw_sibling_fails : ¬ ∀ common rest rest' parent path : List Text,
    Whole (common ++ rest) → Whole (common ++ rest') → Whole parent → Whole path →
      PathLaw common rest rest' parent path := by
  intro law
  have sibling := law [] [] [] [['a']] [['a', 'b']] nofun nofun (by unfold Whole; decide)
    (by unfold Whole; decide)
  have text : getRelativePath (joinPath [['a']]) (joinPath [['a', 'b']]) = ['b'] := by decide
  rw [sibling.relative.unchanged (by decide)] at text
  exact absurd text (by decide)

end OpenSand.Conf
