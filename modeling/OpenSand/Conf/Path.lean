import Mathlib.Data.List.TakeDrop
import Mathlib.Data.List.Infix
import Mathlib.Data.List.Induction

/-!
Paths of the elements of a model, as texts (`Path.cpp`).

The path of an element is the one of its container, a slash and its identifier. A position is
the list of the identifiers on the way from the root: its path gives it back as long as none
of them is empty (`splitPath_pathText`).
-/

namespace OpenSand.Conf

abbrev Text := List Char

/-- The position of an element in a model. -/
abbrev Position := List Text

/-- The elements of a path, without the empty ones. -/
def splitPath (path : Text) : List Text := (path.splitOn '/').filter (· ≠ [])

/-- What two lists start with. -/
def commonPrefix {α : Type*} [DecidableEq α] : List α → List α → List α
  | a :: as, b :: bs => if a = b then a :: commonPrefix as bs else []
  | _, _ => []

def getCommonPath (path1 path2 : Text) : Text :=
  if path1 = path2 then path1
  else (commonPrefix (splitPath path1) (splitPath path2)).flatMap ('/' :: ·)

/-- The path itself when it is not below the parent. -/
def getRelativePath (parentpath path : Text) : Text :=
  if parentpath = [] then path
  else if parentpath <+: path then (path.drop parentpath.length).dropWhile (· = '/')
  else path

def checkPathId (id : Text) : Bool := !id.contains '/'

/-- The path of an element of a container; the one of the root is empty. -/
def elementPath (parent id : Text) : Text :=
  if parent ++ '/' :: id = ['/'] then [] else parent ++ '/' :: id

def pathText (position : Position) : Text := position.foldl elementPath []

theorem pathText_nil : pathText [] = [] := rfl

theorem pathText_concat (position : Position) (id : Text) :
    pathText (position ++ [id]) = elementPath (pathText position) id := by
  rw [pathText, List.foldl_append]
  rfl

/-! ### Splitting a path -/

theorem splitPath_nil : splitPath [] = [] := rfl

theorem splitPath_append_slash (path rest : Text) :
    splitPath (path ++ '/' :: rest) = splitPath path ++ splitPath rest := by
  rw [splitPath, List.splitOn_append_cons_self, List.filter_append]
  rfl

theorem splitPath_of_id {id : Text} (whole : '/' ∉ id) :
    splitPath id = if id = [] then [] else [id] := by
  rw [splitPath, List.splitOn_eq_singleton whole]
  by_cases empty : id = []
  · simp [empty]
  · simp [empty]

theorem splitPath_elementPath (parent : Text) {id : Text} (whole : '/' ∉ id) :
    splitPath (elementPath parent id) = splitPath parent ++ if id = [] then [] else [id] := by
  have split := splitPath_append_slash parent id
  rw [splitPath_of_id whole] at split
  unfold elementPath
  split
  next root =>
    rw [← split, root]
    rfl
  next => exact split

/-- A path loses the empty identifiers. -/
theorem splitPath_pathText {position : Position} (whole : ∀ id ∈ position, '/' ∉ id) :
    splitPath (pathText position) = position.filter (· ≠ []) := by
  induction position using List.reverseRecOn with
  | nil => rfl
  | append_singleton position id ih =>
      have own := whole id (by simp)
      rw [pathText_concat, splitPath_elementPath _ own, ih fun other mem => whole other (by simp [mem]),
        List.filter_append]
      by_cases empty : id = []
      · simp [empty]
      · simp [empty]

/-- A path that is not empty has an identifier that is not. -/
theorem filter_ne_nil {position : Position} (some : pathText position ≠ []) :
    position.filter (· ≠ []) ≠ [] := by
  induction position using List.reverseRecOn with
  | nil => exact absurd rfl some
  | append_singleton position id ih =>
      rw [List.filter_append]
      by_cases empty : id = []
      · have above : pathText position ≠ [] := by
          intro root
          rw [pathText_concat, root, empty] at some
          exact some rfl
        exact List.append_ne_nil_of_left_ne_nil (ih above) _
      · exact List.append_ne_nil_of_right_ne_nil _ (by simp [empty])

theorem filter_eq_self_iff {position : Position} :
    position.filter (· ≠ []) = position ↔ [] ∉ position := by
  rw [List.filter_eq_self]
  constructor
  · intro named empty
    exact absurd rfl (of_decide_eq_true (named [] empty))
  · intro named id mem
    exact decide_eq_true fun empty => named (empty ▸ mem)

theorem prefix_append_cons (above rest : Position) (id : Text) : above ++ [id] <+: above ++ id :: rest := by
  rw [List.prefix_append_right_inj]
  exact ⟨rest, rfl⟩

theorem under_iff {above position : Position} {id : Text} :
    above ++ [id] <+: position ↔ ∃ rest, position = above ++ id :: rest := by
  constructor
  · rintro ⟨rest, rfl⟩
    exact ⟨rest, by rw [List.append_assoc, List.singleton_append]⟩
  · rintro ⟨rest, rfl⟩
    exact prefix_append_cons above rest id

/-- A prefix of a position ends above an element on it, at the element or below it. -/
theorem prefix_append_cons_cases {above list rest : Position} {id own : Text}
    (below : above ++ [id] <+: list ++ own :: rest) :
    above ++ [id] <+: list ∨ above = list ∧ id = own ∨
      ∃ inner, above = list ++ own :: inner ∧ inner ++ [id] <+: rest := by
  induction list generalizing above with
  | nil =>
      cases above with
      | nil => exact .inr (.inl ⟨rfl, (List.cons_prefix_cons.mp below).1⟩)
      | cons first above =>
          obtain ⟨rfl, inside⟩ := List.cons_prefix_cons.mp below
          exact .inr (.inr ⟨above, rfl, inside⟩)
  | cons first list ih =>
      cases above with
      | nil =>
          obtain ⟨rfl, _⟩ := List.cons_prefix_cons.mp below
          exact .inl (List.prefix_append [id] list)
      | cons first' above =>
          obtain ⟨rfl, under⟩ := List.cons_prefix_cons.mp below
          rcases ih under with above' | ⟨rfl, own⟩ | ⟨inner, rfl, inside⟩
          · exact .inl ((List.prefix_cons_inj _).mpr above')
          · exact .inr (.inl ⟨rfl, own⟩)
          · exact .inr (.inr ⟨inner, rfl, inside⟩)

/-! ### Clean positions -/

/-- No identifier is empty or has a slash: the path gives the position back. -/
def Clean (position : Position) : Prop := ∀ id ∈ position, '/' ∉ id ∧ id ≠ []

theorem Clean.left {position rest : Position} (clean : Clean (position ++ rest)) :
    Clean position := fun id mem => clean id (List.mem_append_left rest mem)

theorem Clean.right {position rest : Position} (clean : Clean (position ++ rest)) : Clean rest :=
  fun id mem => clean id (List.mem_append_right position mem)

theorem Clean.append {position rest : Position} (clean : Clean position) (clean' : Clean rest) :
    Clean (position ++ rest) := by
  intro id mem
  rcases List.mem_append.mp mem with mem | mem
  · exact clean id mem
  · exact clean' id mem

theorem Clean.of_prefix {position above : Position} (clean : Clean position)
    (le : above <+: position) : Clean above := by
  obtain ⟨rest, rfl⟩ := le
  exact clean.left

theorem Clean.split_pathText {position : Position} (clean : Clean position) :
    splitPath (pathText position) = position := by
  rw [splitPath_pathText fun id mem => (clean id mem).1, List.filter_eq_self]
  exact fun id mem => decide_eq_true (clean id mem).2

theorem pathText_injective {position other : Position} (clean : Clean position)
    (clean' : Clean other) (same : pathText position = pathText other) : position = other := by
  rw [← clean.split_pathText, same, clean'.split_pathText]

theorem Clean.pathText_append {position rest : Position} (clean : Clean rest) :
    pathText (position ++ rest) = pathText position ++ rest.flatMap ('/' :: ·) := by
  induction rest using List.reverseRecOn with
  | nil => simp
  | append_singleton rest id ih =>
      have own : id ≠ [] := (clean id (by simp)).2
      rw [← List.append_assoc, pathText_concat, ih clean.left, List.flatMap_append,
        ← List.append_assoc, elementPath, if_neg]
      · simp
      · intro root
        have length := congrArg List.length root
        rw [List.length_append, List.length_cons] at length
        have positive := List.length_pos_iff.mpr own
        simp only [List.length_singleton] at length
        omega

theorem Clean.pathText_eq {position : Position} (clean : Clean position) :
    pathText position = position.flatMap ('/' :: ·) := by
  rw [← List.nil_append position, clean.pathText_append]
  rfl

theorem splitPath_dropWhile (path : Text) :
    splitPath (path.dropWhile (· = '/')) = splitPath path := by
  induction path with
  | nil => rfl
  | cons c path ih =>
      by_cases slash : c = '/'
      · subst slash
        rw [List.dropWhile_cons_of_pos (by simp), ih]
        exact (splitPath_append_slash [] path).symm
      · rw [List.dropWhile_cons_of_neg (by simpa using slash)]

/-- The path from one element to another below it. -/
theorem Clean.relative {position rest : Position} (clean : Clean (position ++ rest)) :
    splitPath (getRelativePath (pathText position) (pathText (position ++ rest))) =
      rest := by
  rw [getRelativePath]
  split
  next root =>
    have empty : position = [] := by
      have split := clean.left.split_pathText
      rw [root] at split
      exact split.symm
    subst empty
    exact clean.split_pathText
  next =>
    rw [clean.right.pathText_append, if_pos (List.prefix_append _ _), List.drop_left,
      splitPath_dropWhile, ← clean.right.pathText_eq, clean.right.split_pathText]

/-! ### Common paths -/

theorem commonPrefix_le {α : Type*} [DecidableEq α] (as bs : List α) :
    commonPrefix as bs <+: as ∧ commonPrefix as bs <+: bs := by
  induction as generalizing bs with
  | nil => exact ⟨List.nil_prefix, List.nil_prefix⟩
  | cons a as ih =>
      cases bs with
      | nil => exact ⟨List.nil_prefix, List.nil_prefix⟩
      | cons b bs =>
          rw [commonPrefix]
          split
          next same =>
            subst same
            have below := ih bs
            exact ⟨(List.prefix_cons_inj a).mpr below.1, (List.prefix_cons_inj a).mpr below.2⟩
          next => exact ⟨List.nil_prefix, List.nil_prefix⟩

theorem commonPrefix_eq_left {α : Type*} [DecidableEq α] {as bs : List α} :
    commonPrefix as bs = as ↔ as <+: bs := by
  constructor
  · intro same
    have below := (commonPrefix_le as bs).2
    rwa [same] at below
  · rintro ⟨rest, rfl⟩
    induction as with
    | nil => rw [commonPrefix]; rintro _ _ _ _ ⟨⟩
    | cons a as ih => rw [List.cons_append, commonPrefix, if_pos rfl, ih]

theorem Clean.common {position other : Position} (clean : Clean position) (clean' : Clean other) :
    getCommonPath (pathText position) (pathText other) =
      pathText (commonPrefix position other) := by
  rw [getCommonPath]
  split
  next same =>
    cases pathText_injective clean clean' same
    rw [commonPrefix_eq_left.mpr List.prefix_rfl]
  next =>
    rw [clean.split_pathText, clean'.split_pathText,
      (clean.of_prefix (commonPrefix_le position other).1).pathText_eq]

/-- Whether a target is below a child of an element, as the paths of the two tell. -/
theorem Clean.below_child {position target : Position} (clean : Clean position)
    (clean' : Clean target) (id : Text) :
    getCommonPath (pathText position) (pathText target) =
          pathText position ∧
        (splitPath (getRelativePath
          (getCommonPath (pathText position) (pathText target))
          (pathText target))).head? = some id ↔
      position ++ [id] <+: target := by
  rw [clean.common clean']
  constructor
  · rintro ⟨common, first⟩
    have same := pathText_injective (clean.of_prefix (commonPrefix_le position target).1) clean
      common
    obtain ⟨rest, rfl⟩ := commonPrefix_eq_left.mp same
    rw [same, clean'.relative] at first
    cases rest with
    | nil => cases first
    | cons first' rest =>
        cases first
        exact ⟨rest, by simp⟩
  · rintro ⟨rest, rfl⟩
    have above : position <+: position ++ [id] ++ rest := by
      rw [List.append_assoc]
      exact List.prefix_append _ _
    rw [commonPrefix_eq_left.mpr above]
    refine ⟨rfl, ?_⟩
    rw [List.append_assoc] at clean' ⊢
    rw [clean'.relative]
    rfl

end OpenSand.Conf
