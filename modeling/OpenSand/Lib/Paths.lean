import Mathlib.Data.List.Induction
import Mathlib.Logic.Function.Basic

/-!
Values inherited along paths.

A tree whose nodes may have a value is a partial function of the paths from its root. The
nearest value of a path is the one at its longest prefix that has one.
-/

namespace OpenSand.Paths

variable {α β : Type*}

def nearestFrom (tree : List α → Option β) (found : Option β) (path : List α) :
    List α → Option β
  | [] => found
  | part :: parts =>
      nearestFrom tree ((tree (path ++ [part])).or found) (path ++ [part]) parts

/-- The value at the longest prefix of a path that has one. -/
def nearest (tree : List α → Option β) (path : List α) : Option β :=
  nearestFrom tree (tree []) [] path

variable {tree : List α → Option β} {path : List α} {part : α}

theorem not_concat_prefix : ¬ path ++ [part] <+: path := fun below => by
  have := below.length_le
  rw [List.length_append, List.length_singleton] at this
  omega

theorem prefix_concat_ne {node : List α} (same : node ≠ path ++ [part]) :
    node <+: path ++ [part] ↔ node <+: path := by
  rw [List.prefix_concat_iff, or_iff_right same]

theorem nearest_nil : nearest tree [] = tree [] := rfl

theorem nearest_singleton : nearest tree [part] = (tree [part]).or (tree []) := rfl

theorem nearestFrom_concat {found : Option β} {done : List α} :
    nearestFrom tree found done (path ++ [part]) =
      (tree (done ++ path ++ [part])).or (nearestFrom tree found done path) := by
  induction path generalizing found done with
  | nil =>
      rw [List.append_nil]
      rfl
  | cons head path ih =>
      rw [List.cons_append, nearestFrom, ih, nearestFrom, List.append_assoc, List.append_assoc,
        List.append_assoc]
      rfl

theorem nearest_concat :
    nearest tree (path ++ [part]) = (tree (path ++ [part])).or (nearest tree path) := by
  rw [nearest, nearestFrom_concat, List.nil_append]
  rfl

/-- A value of the path itself is the nearest one. -/
theorem or_nearest : (tree path).or (nearest tree path) = nearest tree path := by
  induction path using List.reverseRecOn with
  | nil => rw [nearest_nil, Option.or_self]
  | append_singleton path part _ => rw [nearest_concat, ← Option.or_assoc, Option.or_self]

theorem nearest_congr {other : List α → Option β}
    (same : ∀ node, node <+: path → tree node = other node) :
    nearest tree path = nearest other path := by
  induction path using List.reverseRecOn with
  | nil => exact same [] List.prefix_rfl
  | append_singleton path part ih =>
      rw [nearest_concat, nearest_concat, same _ List.prefix_rfl,
        ih fun node below => same node (below.trans (List.prefix_append _ _))]

theorem nearest_eq_none : nearest tree path = none ↔ ∀ node, node <+: path → tree node = none := by
  induction path using List.reverseRecOn with
  | nil =>
      constructor
      · intro none node below
        rw [List.prefix_nil.mp below]
        exact none
      · exact fun none => none [] List.prefix_rfl
  | append_singleton path part ih =>
      rw [nearest_concat, Option.or_eq_none_iff, ih]
      constructor
      · rintro ⟨here, above⟩ node below
        rcases List.prefix_concat_iff.mp below with same | shorter
        · rw [same]
          exact here
        · exact above node shorter
      · exact fun none => ⟨none _ List.prefix_rfl,
          fun node below => none node (below.trans (List.prefix_append _ _))⟩

/-- A prefix of the path is one of some nodes, and the tree has no value from it on. -/
def Shadows (tree : List α → Option β) (nodes : List α → Prop) (path : List α) : Prop :=
  ∃ top, top <+: path ∧ nodes top ∧ ∀ node, top <+: node → node <+: path → tree node = none

theorem shadows_nil {nodes : List α → Prop} :
    Shadows tree nodes [] ↔ nodes [] ∧ tree [] = none := by
  constructor
  · rintro ⟨top, below, isNode, none⟩
    obtain rfl := List.prefix_nil.mp below
    exact ⟨isNode, none [] (List.nil_prefix) (List.nil_prefix)⟩
  · rintro ⟨isNode, none⟩
    refine ⟨[], List.nil_prefix, isNode, ?_⟩
    rintro node - below
    rw [List.prefix_nil.mp below]
    exact none

theorem shadows_concat {nodes : List α → Prop} :
    Shadows tree nodes (path ++ [part]) ↔
      tree (path ++ [part]) = none ∧ (nodes (path ++ [part]) ∨ Shadows tree nodes path) := by
  constructor
  · rintro ⟨top, below, isNode, none⟩
    refine ⟨none _ below List.prefix_rfl, ?_⟩
    rcases List.prefix_concat_iff.mp below with same | shorter
    · rw [← same]
      exact .inl isNode
    · refine .inr ⟨top, shorter, isNode, fun node above below' => ?_⟩
      exact none node above (below'.trans (List.prefix_append _ _))
  · rintro ⟨none, here | ⟨top, below, isNode, none'⟩⟩
    · refine ⟨_, List.prefix_rfl, here, fun node above below => ?_⟩
      rw [below.eq_of_length (Nat.le_antisymm below.length_le above.length_le)]
      exact none
    · refine ⟨top, below.trans (List.prefix_append _ _), isNode, fun node above below' => ?_⟩
      rcases List.prefix_concat_iff.mp below' with same | shorter
      · rw [same]
        exact none
      · exact none' node above shorter

/-- Under a tree, other nodes that all have one value give it to the paths they shadow and leave
the other ones. -/
theorem nearest_or [DecidableEq α] {nodes : List α → Prop} [DecidablePred nodes] {value : β} :
    (Shadows tree nodes path →
      nearest (fun node => (tree node).or (if nodes node then some value else none)) path =
        some value) ∧
    (¬ Shadows tree nodes path →
      nearest (fun node => (tree node).or (if nodes node then some value else none)) path =
        nearest tree path) := by
  induction path using List.reverseRecOn with
  | nil =>
      rw [shadows_nil, nearest_nil, nearest_nil]
      constructor
      · rintro ⟨isNode, none⟩
        rw [none, if_pos isNode]
        rfl
      · intro open'
        cases here : tree [] with
        | none =>
            rw [if_neg (fun isNode => open' ⟨isNode, here⟩)]
            rfl
        | some value => rfl
  | append_singleton path part ih =>
      rw [shadows_concat, nearest_concat, nearest_concat]
      cases here : tree (path ++ [part]) with
      | some value => simp
      | none =>
          by_cases isNode : nodes (path ++ [part])
          · simp [isNode]
          · simpa [isNode] using ih

end OpenSand.Paths
