import Mathlib.Data.List.Nodup
import Mathlib.Data.List.Infix
import Mathlib.Algebra.BigOperators.Group.List.Basic
import Mathlib.Logic.Relation
import Mathlib.Algebra.GroupWithZero.Nat

/-!
Breadth-first walks, and trees whose nodes have keys.

A walk takes the first of the waiting nodes and puts the nodes next to it behind the others.
Over nodes with a measure that bounds the total of the next ones it ends within the total
measure of the nodes it starts from, and it has then met exactly the nodes that can be
reached (`mem_breadthFirst`).

A position is the list of the keys on the way from the root. The face of a node is its label
with the keys of its children: a tree in which brothers have different keys is determined by
its faces (`ext_face`), an update shows only at and below its position (`face_update_other`,
`face_update_below`), and a breadth-first walk meets each position (`mem_walk`).
-/

namespace OpenSand

/-! ### Breadth-first walks -/

section Walks

variable {α : Type*}

/-- The nodes in the order of the walk, at most as many as the fuel. -/
def breadthFirst (next : α → List α) : Nat → List α → List α
  | 0, _ => []
  | _ + 1, [] => []
  | fuel + 1, node :: queue => node :: breadthFirst next fuel (queue ++ next node)

/-- The node can be reached from the other one. -/
def WalksTo (next : α → List α) : α → α → Prop := Relation.ReflTransGen fun a b => b ∈ next a

variable {next : α → List α}

theorem WalksTo.cases {a b : α} (walk : WalksTo next a b) :
    b = a ∨ ∃ c ∈ next a, WalksTo next c b := by
  rcases Relation.ReflTransGen.cases_head walk with same | ⟨c, step, later⟩
  · exact .inl same.symm
  · exact .inr ⟨c, step, later⟩

/-- With enough fuel the walk meets the nodes that can be reached, and no other. -/
theorem mem_breadthFirst (measure : α → Nat)
    (bounded : ∀ node, ((next node).map measure).sum < measure node) {fuel : Nat}
    {queue : List α} (enough : (queue.map measure).sum ≤ fuel) {node : α} :
    node ∈ breadthFirst next fuel queue ↔ ∃ start ∈ queue, WalksTo next start node := by
  induction fuel generalizing queue with
  | zero =>
      cases queue with
      | nil => simp [breadthFirst]
      | cons first queue =>
          have positive := bounded first
          rw [List.map_cons, List.sum_cons] at enough
          omega
  | succ fuel ih =>
      cases queue with
      | nil => simp [breadthFirst]
      | cons first queue =>
          have enough' : ((queue ++ next first).map measure).sum ≤ fuel := by
            have less := bounded first
            rw [List.map_cons, List.sum_cons] at enough
            rw [List.map_append, List.sum_append]
            omega
          rw [breadthFirst, List.mem_cons, ih enough']
          constructor
          · rintro (rfl | ⟨start, waiting, walk⟩)
            · exact ⟨node, List.mem_cons_self, .refl⟩
            rcases List.mem_append.mp waiting with waiting | pushed
            · exact ⟨start, List.mem_cons_of_mem _ waiting, walk⟩
            · exact ⟨first, List.mem_cons_self, .head pushed walk⟩
          · rintro ⟨start, waiting, walk⟩
            rcases List.mem_cons.mp waiting with rfl | waiting
            · rcases walk.cases with same | ⟨pushed, step, later⟩
              · exact .inl same
              · exact .inr ⟨pushed, List.mem_append_right _ step, later⟩
            · exact .inr ⟨start, List.mem_append_left _ waiting, walk⟩

end Walks

/-! ### Trees -/

inductive KeyedTree (κ α β : Type)
  | leaf (key : κ) (label : α)
  | branch (key : κ) (label : β) (children : List (KeyedTree κ α β))

namespace KeyedTree

variable {κ α β α' β' : Type}

def key : KeyedTree κ α β → κ
  | leaf key _ => key
  | branch key _ _ => key

def label : KeyedTree κ α β → α ⊕ β
  | leaf _ label => .inl label
  | branch _ label _ => .inr label

def children : KeyedTree κ α β → List (KeyedTree κ α β)
  | leaf _ _ => []
  | branch _ _ children => children

def rekey (key : κ) : KeyedTree κ α β → KeyedTree κ α β
  | leaf _ label => leaf key label
  | branch _ label children => branch key label children

/-- Induction on the children. -/
theorem induction_children {P : KeyedTree κ α β → Prop}
    (step : ∀ tree, (∀ child ∈ tree.children, P child) → P tree) : ∀ tree, P tree :=
  @KeyedTree.rec κ α β P (fun trees => ∀ child ∈ trees, P child)
    (fun _ _ => step _ (List.forall_mem_nil _)) (fun _ _ _ ih => step _ ih)
    (List.forall_mem_nil _) (fun _ _ first rest => List.forall_mem_cons.mpr ⟨first, rest⟩)

/-! ### Size and maps -/

mutual

def size : KeyedTree κ α β → Nat
  | leaf _ _ => 1
  | branch _ _ children => sizes children + 1

def sizes : List (KeyedTree κ α β) → Nat
  | [] => 0
  | first :: rest => first.size + sizes rest

end

theorem sizes_eq (trees : List (KeyedTree κ α β)) : sizes trees = (trees.map size).sum := by
  induction trees with
  | nil => rfl
  | cons first rest ih => rw [sizes, ih, List.map_cons, List.sum_cons]

theorem size_children (tree : KeyedTree κ α β) : (tree.children.map size).sum < tree.size := by
  cases tree with
  | leaf key label => exact Nat.one_pos
  | branch key label children =>
      rw [size, sizes_eq]
      exact Nat.lt_succ_self _

mutual

def map (f : α → α') (g : β → β') : KeyedTree κ α β → KeyedTree κ α' β'
  | leaf key label => leaf key (f label)
  | branch key label children => branch key (g label) (mapAll f g children)

def mapAll (f : α → α') (g : β → β') : List (KeyedTree κ α β) → List (KeyedTree κ α' β')
  | [] => []
  | first :: rest => first.map f g :: mapAll f g rest

end

mutual

/-- A map that fails when it fails for one of the labels. -/
def traverse (f : α → Option α') (g : β → Option β') :
    KeyedTree κ α β → Option (KeyedTree κ α' β')
  | leaf key label => (f label).map (leaf key)
  | branch key label children =>
      (g label).bind fun label => (traverseAll f g children).map (branch key label)

def traverseAll (f : α → Option α') (g : β → Option β') :
    List (KeyedTree κ α β) → Option (List (KeyedTree κ α' β'))
  | [] => some []
  | first :: rest =>
      (first.traverse f g).bind fun first => (traverseAll f g rest).map (first :: ·)

end

theorem ext_parts {tree other : KeyedTree κ α β} (key : tree.key = other.key)
    (label : tree.label = other.label) (children : tree.children = other.children) :
    tree = other := by
  cases tree with
  | leaf k l =>
      cases other with
      | leaf k' l' =>
          cases key
          cases label
          rfl
      | branch k' l' cs' => cases label
  | branch k l cs =>
      cases other with
      | leaf k' l' => cases label
      | branch k' l' cs' =>
          cases key
          cases label
          cases children
          rfl

section Map

variable (f : α → α') (g : β → β')

theorem mapAll_eq (trees : List (KeyedTree κ α β)) : mapAll f g trees = trees.map (map f g) := by
  induction trees with
  | nil => rfl
  | cons first rest ih => rw [mapAll, ih, List.map_cons]

@[simp] theorem key_map (tree : KeyedTree κ α β) : (tree.map f g).key = tree.key := by
  cases tree with
  | leaf key label => rfl
  | branch key label children => rfl

@[simp] theorem children_map (tree : KeyedTree κ α β) :
    (tree.map f g).children = tree.children.map (map f g) := by
  cases tree with
  | leaf key label => rfl
  | branch key label children => exact mapAll_eq f g children

@[simp] theorem label_map (tree : KeyedTree κ α β) :
    (tree.map f g).label = tree.label.map f g := by
  cases tree with
  | leaf key label => rfl
  | branch key label children => rfl

theorem map_map {α'' β'' : Type} (f' : α' → α'') (g' : β' → β'') (tree : KeyedTree κ α β) :
    (tree.map f g).map f' g' = tree.map (f' ∘ f) (g' ∘ g) := by
  induction tree using induction_children with
  | step tree ih =>
      apply ext_parts
      · rw [key_map, key_map, key_map]
      · rw [label_map, label_map, label_map, Sum.map_map]
      · rw [children_map, children_map, children_map, List.map_map]
        exact List.map_congr_left ih

theorem map_id (tree : KeyedTree κ α β) : tree.map id id = tree := by
  induction tree using induction_children with
  | step tree ih =>
      apply ext_parts
      · rw [key_map]
      · rw [label_map, Sum.map_id_id, id]
      · rw [children_map, List.map_congr_left ih, List.map_id']

end Map

@[simp] theorem key_rekey (key : κ) (tree : KeyedTree κ α β) : (tree.rekey key).key = key := by
  cases tree with
  | leaf own label => rfl
  | branch own label children => rfl

@[simp] theorem rekey_self (tree : KeyedTree κ α β) : tree.rekey tree.key = tree := by
  cases tree with
  | leaf own label => rfl
  | branch own label children => rfl

@[simp] theorem children_rekey (key : κ) (tree : KeyedTree κ α β) :
    (tree.rekey key).children = tree.children := by
  cases tree with
  | leaf own label => rfl
  | branch own label children => rfl

@[simp] theorem label_rekey (key : κ) (tree : KeyedTree κ α β) :
    (tree.rekey key).label = tree.label := by
  cases tree with
  | leaf own label => rfl
  | branch own label children => rfl

/-- What is seen of a node: its label and the keys of its children. -/
def face (tree : KeyedTree κ α β) : (α ⊕ β) × List κ := (tree.label, tree.children.map key)

@[simp] theorem face_rekey (key : κ) (tree : KeyedTree κ α β) : (tree.rekey key).face = tree.face := by
  rw [face, face, label_rekey, children_rekey]

theorem face_map (f : α → α') (g : β → β') (tree : KeyedTree κ α β) :
    (tree.map f g).face = (tree.label.map f g, tree.children.map key) := by
  rw [face, label_map, children_map, List.map_map]
  congr 1
  exact List.map_congr_left fun child _ => key_map f g child

/-! ### Positions -/

variable [DecidableEq κ]

def child? (tree : KeyedTree κ α β) (key : κ) : Option (KeyedTree κ α β) :=
  tree.children.find? (·.key = key)

/-- The node at a position. -/
def at? : List κ → KeyedTree κ α β → Option (KeyedTree κ α β)
  | [], tree => some tree
  | key :: position, tree => (tree.child? key).bind (at? position)

/-- A change of the node at a position. -/
def update (change : KeyedTree κ α β → KeyedTree κ α β) :
    List κ → KeyedTree κ α β → KeyedTree κ α β
  | [], tree => change tree
  | _ :: _, leaf own label => leaf own label
  | key :: position, branch own label children =>
      branch own label (children.map fun child =>
        if child.key = key then update change position child else child)

def face? (tree : KeyedTree κ α β) (position : List κ) : Option ((α ⊕ β) × List κ) :=
  (tree.at? position).map face

/-- Brothers have different keys. -/
def Distinct (tree : KeyedTree κ α β) : Prop :=
  ∀ position node, tree.at? position = some node → (node.children.map key).Nodup

variable {tree node : KeyedTree κ α β} {position rest : List κ}

theorem face?_of_at? {key : κ} {label : β} {children : List (KeyedTree κ α β)}
    (found : tree.at? position = some (branch key label children)) :
    tree.face? position = some (.inr label, children.map KeyedTree.key) := by
  rw [face?, found]
  rfl

@[simp] theorem at?_nil : tree.at? [] = some tree := rfl

theorem at?_cons {key : κ} :
    tree.at? (key :: position) = (tree.child? key).bind (at? position) := rfl

theorem at?_append : tree.at? (position ++ rest) = (tree.at? position).bind (at? rest) := by
  induction position generalizing tree with
  | nil => rfl
  | cons key position ih =>
      rw [List.cons_append, at?_cons, at?_cons, Option.bind_assoc]
      exact Option.bind_congr fun child _ => ih

theorem key_of_child? {key : κ} (found : tree.child? key = some node) :
    node ∈ tree.children ∧ node.key = key := by
  unfold child? at found
  exact ⟨List.mem_of_find?_eq_some found, by simpa using List.find?_some found⟩

theorem child?_eq_none {key : κ} :
    tree.child? key = none ↔ key ∉ tree.children.map KeyedTree.key := by
  rw [child?, List.find?_eq_none, List.mem_map]
  constructor
  · rintro absent ⟨child, mem, own⟩
    exact absent child mem (decide_eq_true own)
  · intro absent child mem own
    exact absent ⟨child, mem, of_decide_eq_true own⟩

theorem child?_singleton {key : κ} {label : β} {child : KeyedTree κ α β} (other : κ) :
    (branch key label [child]).child? other = if child.key = other then some child else none := by
  rw [child?]
  by_cases own : child.key = other
  · rw [if_pos own]
    exact List.find?_cons_of_pos (decide_eq_true own)
  · rw [if_neg own]
    exact List.find?_cons_of_neg (by simpa using own)

theorem child?_of_mem {child : KeyedTree κ α β} (nodup : (tree.children.map key).Nodup)
    (mem : child ∈ tree.children) : tree.child? child.key = some child := by
  have own : ∃ node ∈ tree.children, decide (node.key = child.key) = true :=
    ⟨child, mem, decide_eq_true rfl⟩
  obtain ⟨node, found⟩ := Option.isSome_iff_exists.mp (List.find?_isSome.mpr own)
  obtain ⟨memNode, same⟩ := key_of_child? found
  rw [child?, found, List.inj_on_of_nodup_map nodup memNode mem same]

namespace Distinct

theorem nodup (distinct : tree.Distinct) : (tree.children.map key).Nodup := distinct [] tree rfl

theorem below (distinct : tree.Distinct) (found : tree.at? position = some node) :
    node.Distinct := by
  intro rest other foundOther
  apply distinct (position ++ rest) other
  rw [at?_append, found]
  exact foundOther

theorem at?_child (distinct : tree.Distinct) {child : KeyedTree κ α β}
    (mem : child ∈ tree.children) : tree.at? (child.key :: position) = child.at? position := by
  rw [at?_cons, child?_of_mem distinct.nodup mem]
  rfl

theorem child (distinct : tree.Distinct) {child : KeyedTree κ α β} (mem : child ∈ tree.children) :
    child.Distinct := by
  have found : tree.at? [child.key] = some child := distinct.at?_child mem
  exact distinct.below found

end Distinct

theorem distinct_iff : tree.Distinct ↔
    (tree.children.map key).Nodup ∧ ∀ child ∈ tree.children, child.Distinct := by
  constructor
  · exact fun distinct => ⟨distinct.nodup, fun child mem => distinct.child mem⟩
  · rintro ⟨nodup, children⟩ position node found
    cases position with
    | nil =>
        cases found
        exact nodup
    | cons key position =>
        rw [at?_cons, Option.bind_eq_some_iff] at found
        obtain ⟨child, first, later⟩ := found
        exact children child (key_of_child? first).1 position node later

/-! ### Maps keep positions -/

theorem child?_map {f : α → α'} {g : β → β'} {key : κ} :
    (tree.map f g).child? key = (tree.child? key).map (map f g) := by
  rw [child?, child?, children_map, List.find?_map]
  congr 2
  funext node
  rw [Function.comp_apply, key_map]

theorem at?_map {f : α → α'} {g : β → β'} :
    (tree.map f g).at? position = (tree.at? position).map (map f g) := by
  induction position generalizing tree with
  | nil => rfl
  | cons key position ih =>
      rw [at?_cons, at?_cons, child?_map, Option.map_bind, Option.bind_map]
      exact Option.bind_congr fun node _ => ih

theorem face?_map {f : α → α'} {g : β → β'} :
    (tree.map f g).face? position =
      (tree.face? position).map fun face => (face.1.map f g, face.2) := by
  rw [face?, face?, at?_map, Option.map_map, Option.map_map]
  exact Option.map_congr fun node _ => face_map f g node

theorem distinct_map {f : α → α'} {g : β → β'} : (tree.map f g).Distinct ↔ tree.Distinct := by
  have keys : ∀ node : KeyedTree κ α β,
      (node.map f g).children.map KeyedTree.key = node.children.map KeyedTree.key := fun node => by
    rw [children_map, List.map_map]
    exact List.map_congr_left fun child _ => key_map _ _ child
  unfold Distinct
  constructor
  · intro distinct position node found
    rw [← keys]
    apply distinct position
    rw [at?_map, found]
    rfl
  · intro distinct position node found
    rw [at?_map, Option.map_eq_some_iff] at found
    obtain ⟨node, found, rfl⟩ := found
    rw [keys]
    exact distinct position node found

omit [DecidableEq κ] in
theorem map_rekey (f : α → α') (g : β → β') (key : κ) (tree : KeyedTree κ α β) :
    (tree.rekey key).map f g = (tree.map f g).rekey key := by
  cases tree with
  | leaf own label => rfl
  | branch own label children => rfl

theorem at?_rekey {key : κ} {first : κ} :
    (tree.rekey key).at? (first :: position) = tree.at? (first :: position) := by
  rw [at?_cons, at?_cons, child?, children_rekey]
  rfl

theorem face?_rekey {key : κ} : (tree.rekey key).face? position = tree.face? position := by
  cases position with
  | nil => exact congrArg some (face_rekey key tree)
  | cons first position => rw [face?, face?, at?_rekey]

theorem face?_append :
    tree.face? (position ++ rest) = (tree.at? position).bind fun node => node.face? rest := by
  rw [face?, at?_append, Option.map_bind]
  rfl

theorem distinct_iff_face : tree.Distinct ↔
    ∀ position label keys, tree.face? position = some (label, keys) → keys.Nodup := by
  constructor
  · intro distinct position label keys found
    obtain ⟨node, foundNode, face⟩ := Option.map_eq_some_iff.mp found
    cases face
    exact distinct position node foundNode
  · intro faces position node found
    apply faces position node.label
    rw [face?, found]
    rfl

theorem face?_cons {key : κ} :
    tree.face? (key :: rest) = (tree.child? key).bind fun child => child.face? rest := by
  rw [face?, at?_cons, Option.map_bind]
  rfl

theorem face?_above (below : (tree.face? (position ++ rest)).isSome) :
    (tree.face? position).isSome := by
  rw [face?_append] at below
  rw [face?, Option.isSome_map]
  exact Option.isSome_of_isSome_bind below

/-- What is below a node is below one of its children. -/
theorem mem_keys_of_below {label : α ⊕ β} {keys : List κ} {key : κ}
    (found : tree.face? position = some (label, keys))
    (below : (tree.face? (position ++ key :: rest)).isSome) : key ∈ keys := by
  obtain ⟨node, foundNode, face⟩ := Option.map_eq_some_iff.mp found
  cases face
  by_contra absent
  rw [face?_append, foundNode, Option.bind_some, face?_cons, child?_eq_none.mpr absent] at below
  cases below

/-- A tree is determined by its faces. -/
theorem ext_face {other : KeyedTree κ α β} (distinct : tree.Distinct) (key : tree.key = other.key)
    (faces : ∀ position, tree.face? position = other.face? position) : tree = other := by
  induction tree using induction_children generalizing other with
  | step tree ih =>
      have own : tree.face = other.face := Option.some.inj (faces [])
      have keys : tree.children.map KeyedTree.key = other.children.map KeyedTree.key :=
        congrArg Prod.snd own
      refine ext_parts key (congrArg Prod.fst own) ?_
      have nodup := distinct.nodup
      apply List.ext_getElem
      · rw [← List.length_map KeyedTree.key, keys, List.length_map]
      intro i inside inside'
      have sameKey : tree.children[i].key = other.children[i].key := by
        have at' := congrArg (·[i]?) keys
        simpa [inside, inside'] using at'
      have mem := List.getElem_mem inside
      have mem' := List.getElem_mem inside'
      apply ih _ mem (distinct.child mem) sameKey
      intro position
      have nodup' : (other.children.map KeyedTree.key).Nodup := keys ▸ nodup
      have below := faces (tree.children[i].key :: position)
      rw [face?, face?, at?_cons, child?_of_mem nodup mem, at?_cons, sameKey,
        child?_of_mem nodup' mem'] at below
      exact below

/-! ### Updates -/

/-- A change that a map does not show. -/
theorem map_update {f : α → α'} {g : β → β'} {change : KeyedTree κ α β → KeyedTree κ α β}
    (hidden : ∀ tree, (change tree).map f g = tree.map f g) (position : List κ)
    (tree : KeyedTree κ α β) : (update change position tree).map f g = tree.map f g := by
  induction position generalizing tree with
  | nil => exact hidden tree
  | cons key position ih =>
      cases tree with
      | leaf own label => rfl
      | branch own label children =>
          rw [update, map, map, mapAll_eq, mapAll_eq, List.map_map]
          congr 1
          refine List.map_congr_left fun child _ => ?_
          by_cases own : child.key = key
          · rw [Function.comp_apply, if_pos own, ih]
          · rw [Function.comp_apply, if_neg own]

/-- A map of an update is an update of the map. -/
theorem map_update_comm {f : α → α'} {g : β → β'} {change : KeyedTree κ α β → KeyedTree κ α β}
    {change' : KeyedTree κ α' β' → KeyedTree κ α' β'}
    (shown : ∀ tree, (change tree).map f g = change' (tree.map f g)) (position : List κ)
    (tree : KeyedTree κ α β) :
    (update change position tree).map f g = update change' position (tree.map f g) := by
  induction position generalizing tree with
  | nil => exact shown tree
  | cons key position ih =>
      cases tree with
      | leaf own label => rfl
      | branch own label children =>
          rw [update, map, map, update, mapAll_eq, mapAll_eq, List.map_map, List.map_map]
          congr 1
          refine List.map_congr_left fun child _ => ?_
          rw [Function.comp_apply, Function.comp_apply, key_map]
          by_cases own : child.key = key
          · rw [if_pos own, if_pos own, ih]
          · rw [if_neg own, if_neg own]

/-- A map of an update shows the new node in place of the old one. -/
theorem map_update_found {f : α → α'} {g : β → β'} {change : KeyedTree κ α β → KeyedTree κ α β}
    {change' : KeyedTree κ α' β' → KeyedTree κ α' β'} (distinct : tree.Distinct)
    (found : tree.at? position = some node) (shown : (change node).map f g = change' (node.map f g)) :
    (update change position tree).map f g = update change' position (tree.map f g) := by
  induction position generalizing tree with
  | nil =>
      cases found
      exact shown
  | cons key position ih =>
      cases tree with
      | leaf own label => cases found
      | branch own label children =>
          rw [at?_cons, Option.bind_eq_some_iff] at found
          obtain ⟨inner, first, later⟩ := found
          obtain ⟨mem, same⟩ := key_of_child? first
          rw [update, map, map, update, mapAll_eq, mapAll_eq, List.map_map, List.map_map]
          congr 1
          refine List.map_congr_left fun child memChild => ?_
          rw [Function.comp_apply, Function.comp_apply, key_map]
          by_cases own : child.key = key
          · have only : child = inner :=
              List.inj_on_of_nodup_map distinct.nodup memChild mem (own.trans same.symm)
            rw [if_pos own, if_pos own, ih (distinct.child memChild) (only ▸ later)]
          · rw [if_neg own, if_neg own]

/-- Nothing is changed by an update that changes nothing at its position. -/
theorem update_found {change : KeyedTree κ α β → KeyedTree κ α β} (distinct : tree.Distinct)
    (found : tree.at? position = some node) (same : change node = node) :
    update change position tree = tree := by
  have shown : (update change position tree).map (·) (·) = update (·) position (tree.map (·) (·)) := by
    apply map_update_found distinct found
    rw [same]
  have none : (update (·) position tree).map (·) (·) = tree.map (·) (·) :=
    map_update (fun _ => rfl) position tree
  have self (tree : KeyedTree κ α β) : tree.map (·) (·) = tree := map_id tree
  rw [self, self] at shown
  rw [self, self] at none
  rw [shown, none]

theorem update_append (change : KeyedTree κ α β → KeyedTree κ α β) (position rest : List κ)
    (tree : KeyedTree κ α β) :
    update change (position ++ rest) tree = update (update change rest) position tree := by
  induction position generalizing tree with
  | nil => rfl
  | cons key position ih =>
      cases tree with
      | leaf own label => rfl
      | branch own label children =>
          rw [List.cons_append, update, update]
          congr 2
          funext child
          rw [ih]

section Update

variable {change : KeyedTree κ α β → KeyedTree κ α β} (keeps : ∀ tree, (change tree).key = tree.key)

include keeps

theorem key_update (position : List κ) (tree : KeyedTree κ α β) :
    (update change position tree).key = tree.key := by
  cases position with
  | nil => exact keeps tree
  | cons key position =>
      cases tree with
      | leaf own label => rfl
      | branch own label children => rfl

theorem child?_update (key key' : κ) (position : List κ) (tree : KeyedTree κ α β) :
    (update change (key :: position) tree).child? key' =
      if key' = key then (tree.child? key).map (update change position) else tree.child? key' := by
  cases tree with
  | leaf own label =>
      by_cases same : key' = key
      · rw [if_pos same]
        rfl
      · rw [if_neg same]
        rfl
  | branch own label children =>
      let moved := fun child : KeyedTree κ α β =>
        if child.key = key then update change position child else child
      have kept : ∀ child, (moved child).key = child.key := by
        intro child
        by_cases own : child.key = key
        · exact (congrArg KeyedTree.key (if_pos own)).trans (key_update keeps position child)
        · exact congrArg KeyedTree.key (if_neg own)
      have search : (children.map moved).find? (·.key = key') =
          (children.find? (·.key = key')).map moved := by
        rw [List.find?_map]
        congr 2
        funext child
        rw [Function.comp_apply, kept]
      change (children.map moved).find? (·.key = key') = _
      rw [search]
      by_cases same : key' = key
      · subst same
        rw [if_pos rfl]
        apply Option.map_congr
        intro child found
        have own : child.key = key' := by simpa using List.find?_some found
        exact if_pos own
      · rw [if_neg same]
        cases found : children.find? (·.key = key') with
        | none => exact found.symm
        | some child =>
            have own : child.key = key' := by simpa using List.find?_some found
            have other : child.key ≠ key := own ▸ same
            exact (congrArg some (if_neg other)).trans found.symm

theorem update_update (after : KeyedTree κ α β → KeyedTree κ α β) (position : List κ)
    (tree : KeyedTree κ α β) :
    update after position (update change position tree) = update (after ∘ change) position tree := by
  induction position generalizing tree with
  | nil => rfl
  | cons key position ih =>
      cases tree with
      | leaf own label => rfl
      | branch own label children =>
          rw [update, update, update, List.map_map]
          congr 1
          refine List.map_congr_left fun child _ => ?_
          rw [Function.comp_apply]
          by_cases own : child.key = key
          · rw [if_pos own, key_update keeps, if_pos own, if_pos own, ih]
          · rw [if_neg own, if_neg own, if_neg own]

theorem at?_update_below (position rest : List κ) (tree : KeyedTree κ α β) :
    (update change position tree).at? (position ++ rest) =
      (tree.at? position).bind fun node => (change node).at? rest := by
  induction position generalizing tree with
  | nil => rfl
  | cons key position ih =>
      rw [List.cons_append, at?_cons, at?_cons, child?_update keeps, if_pos rfl, Option.bind_map,
        Option.bind_assoc]
      exact Option.bind_congr fun child _ => ih child

theorem face?_update_below (position rest : List κ) (tree : KeyedTree κ α β) :
    (update change position tree).face? (position ++ rest) =
      (tree.at? position).bind fun node => (change node).face? rest := by
  rw [face?, at?_update_below keeps, Option.map_bind]
  rfl

theorem face?_update_other {position other : List κ} (outside : ¬ position <+: other)
    (tree : KeyedTree κ α β) :
    (update change position tree).face? other = tree.face? other := by
  induction position generalizing tree other with
  | nil => exact absurd List.nil_prefix outside
  | cons key position ih =>
      cases other with
      | nil =>
          cases tree with
          | leaf own label => rfl
          | branch own label children =>
              refine congrArg (fun keys => some (Sum.inr label, keys)) ?_
              change (children.map _).map KeyedTree.key = children.map KeyedTree.key
              rw [List.map_map]
              refine List.map_congr_left fun child _ => ?_
              by_cases own : child.key = key
              · rw [Function.comp_apply, if_pos own, key_update keeps]
              · rw [Function.comp_apply, if_neg own]
      | cons key' other =>
          rw [face?_cons, face?_cons, child?_update keeps]
          by_cases same : key' = key
          · subst same
            have outside' : ¬ position <+: other := fun below =>
              outside ((List.prefix_cons_inj _).mpr below)
            rw [if_pos rfl, Option.bind_map]
            exact Option.bind_congr fun child _ => ih outside' child
          · rw [if_neg same]

end Update

/-! ### Replacement -/

/-- Another node under the same key. -/
def put (new tree : KeyedTree κ α β) : KeyedTree κ α β := new.rekey tree.key

omit [DecidableEq κ] in
@[simp] theorem key_put (new tree : KeyedTree κ α β) : (put new tree).key = tree.key :=
  key_rekey tree.key new

omit [DecidableEq κ] in
theorem put_put (new old : KeyedTree κ α β) : put new ∘ put old = put new := by
  funext tree
  rw [Function.comp_apply, put, key_put, put]

omit [DecidableEq κ] in
theorem put_self (own : node.key = tree.key) : put node tree = node := by
  rw [put, ← own, rekey_self]

/-- What is put in place of a node is there, whatever was changed in the node before. -/
theorem update_put_append (new : KeyedTree κ α β) {change : KeyedTree κ α β → KeyedTree κ α β}
    (keeps : ∀ tree, (change tree).key = tree.key) (position rest : List κ) (tree : KeyedTree κ α β) :
    update (put new) position (update change (position ++ rest) tree) =
      update (put new) position tree := by
  rw [update_append, update_update (key_update keeps rest)]
  congr 1
  funext node
  rw [Function.comp_apply, put, key_update keeps, put]

/-- A child is put in place of the one with its key. -/
theorem update_put_child (own : κ) (label : β) {before behind : List (KeyedTree κ α β)}
    {old : KeyedTree κ α β} (new : KeyedTree κ α β) (same : new.key = old.key)
    (nodup : ((before ++ old :: behind).map KeyedTree.key).Nodup) :
    update (put new) [new.key] (branch own label (before ++ old :: behind)) =
      branch own label (before ++ new :: behind) := by
  rw [List.map_append, List.map_cons, List.nodup_append, List.nodup_cons] at nodup
  obtain ⟨-, ⟨later, -⟩, earlier⟩ := nodup
  have kept (others : List (KeyedTree κ α β)) (ne : ∀ child ∈ others, child.key ≠ old.key) :
      (others.map fun child => if child.key = new.key then update (put new) [] child else child) =
        others := by
    refine (List.map_congr_left fun child mem => ?_).trans (List.map_id others)
    rw [same, if_neg (ne child mem)]
    rfl
  rw [update, List.map_append, List.map_cons, if_pos same.symm, kept, kept]
  · rw [update, put_self same]
  · exact fun child mem own => later (List.mem_map.mpr ⟨child, mem, own⟩)
  · intro child mem own
    exact earlier child.key (List.mem_map.mpr ⟨child, mem, rfl⟩) old.key List.mem_cons_self own

/-! ### Growth -/

/-- One more child, behind the others. -/
def addChild (child : KeyedTree κ α β) : KeyedTree κ α β → KeyedTree κ α β
  | leaf key label => leaf key label
  | branch key label children => branch key label (children ++ [child])

omit [DecidableEq κ] in
@[simp] theorem key_addChild (child tree : KeyedTree κ α β) :
    (addChild child tree).key = tree.key := by
  cases tree with
  | leaf key label => rfl
  | branch key label children => rfl

omit [DecidableEq κ] in
theorem map_addChild (f : α → α') (g : β → β') (child tree : KeyedTree κ α β) :
    (addChild child tree).map f g = addChild (child.map f g) (tree.map f g) := by
  cases tree with
  | leaf key label => rfl
  | branch key label children =>
      rw [addChild, map, map, addChild, mapAll_eq, mapAll_eq, List.map_append]
      rfl

/-- A new child shows below its own position and in the keys of its parent. -/
theorem face?_addChild {child : KeyedTree κ α β} {key : κ} {label : β}
    {children : List (KeyedTree κ α β)}
    (found : tree.at? position = some (branch key label children))
    (fresh : child.key ∉ children.map KeyedTree.key) (other : List κ) :
    (update (addChild child) position tree).face? other =
      if position ++ [child.key] <+: other then child.face? (other.drop (position.length + 1))
      else if other = position then
        some (.inr label, children.map KeyedTree.key ++ [child.key])
      else tree.face? other := by
  have keeps := key_addChild child
  by_cases below : position <+: other
  · obtain ⟨rest, rfl⟩ := below
    rw [face?_update_below keeps, found, Option.bind_some]
    cases rest with
    | nil =>
        have outside : ¬ position ++ [child.key] <+: position ++ [] := by
          intro below
          have longer := below.length_le
          rw [List.length_append, List.length_append] at longer
          exact absurd longer (by simp)
        rw [if_neg outside, if_pos (List.append_nil position)]
        exact congrArg (fun keys => some (Sum.inr label, keys)) List.map_append
    | cons first rest =>
        have other : position ++ first :: rest ≠ position := by
          intro same
          have longer := congrArg List.length same
          simp at longer
        have inside : position ++ [child.key] <+: position ++ first :: rest ↔ first = child.key := by
          rw [List.prefix_append_right_inj, List.cons_prefix_cons]
          simp [eq_comm]
        have parts : (branch key label (children ++ [child])).child? first =
            ((branch key label children).child? first).or
              (if child.key = first then some child else none) := by
          change (children ++ [child]).find? _ = (children.find? _).or _
          rw [List.find?_append]
          by_cases own : child.key = first
          · simp [own]
          · simp [own]
        change (branch key label (children ++ [child])).face? (first :: rest) = _
        rw [face?_cons, parts, if_neg other]
        by_cases own : first = child.key
        · subst own
          have absent : (branch key label children).child? child.key = none := child?_eq_none.mpr fresh
          rw [if_pos (inside.mpr rfl), absent, if_pos rfl, Option.none_or, Option.bind_some]
          congr 1
          simp [← List.drop_drop]
        · rw [if_neg (fun below => own (inside.mp below)), if_neg (Ne.symm own), Option.or_none,
            face?_append, found, Option.bind_some, face?_cons]
  · have outside : ¬ position ++ [child.key] <+: other := fun under =>
      below ((List.prefix_append _ _).trans under)
    have ne : other ≠ position := by
      rintro rfl
      exact below List.prefix_rfl
    rw [if_neg outside, if_neg ne, face?_update_other keeps below]

/-- Nothing is below the position of a child that is not there. -/
theorem outside_of_fresh {new : κ} {key : κ} {label : β} {children : List (KeyedTree κ α β)}
    (found : tree.at? position = some (branch key label children))
    (fresh : new ∉ children.map KeyedTree.key) {other : List κ}
    (old : (tree.face? other).isSome) : ¬ position ++ [new] <+: other := by
  rintro ⟨rest, rfl⟩
  have absent : (branch key label children).child? new = none := child?_eq_none.mpr fresh
  rw [List.append_assoc, face?_append, found, Option.bind_some, List.singleton_append, face?_cons,
    absent] at old
  cases old

/-- A new child shows in no other node than its parent. -/
theorem face?_addChild_of_old {child : KeyedTree κ α β} {key : κ} {label : β}
    {children : List (KeyedTree κ α β)}
    (found : tree.at? position = some (branch key label children))
    (fresh : child.key ∉ children.map KeyedTree.key) {other : List κ}
    (old : (tree.face? other).isSome) (ne : other ≠ position) :
    (update (addChild child) position tree).face? other = tree.face? other := by
  rw [face?_addChild found fresh, if_neg (outside_of_fresh found fresh old), if_neg ne]

/-- The new child itself. -/
theorem face?_addChild_below {child : KeyedTree κ α β} {key : κ} {label : β}
    {children : List (KeyedTree κ α β)}
    (found : tree.at? position = some (branch key label children))
    (fresh : child.key ∉ children.map KeyedTree.key) (rest : List κ) :
    (update (addChild child) position tree).face? (position ++ [child.key] ++ rest) =
      child.face? rest := by
  rw [face?_addChild found fresh, if_pos (List.prefix_append _ _)]
  congr 1
  exact List.drop_left' (by simp)

/-- A node of the tree with a new child is one of the child, its parent or a former node. -/
theorem face?_addChild_cases {child : KeyedTree κ α β} {key : κ} {label : β}
    {children : List (KeyedTree κ α β)}
    (found : tree.at? position = some (branch key label children))
    (fresh : child.key ∉ children.map KeyedTree.key) {other : List κ} {face : (α ⊕ β) × List κ}
    (shown : (update (addChild child) position tree).face? other = some face) :
    (∃ rest, other = position ++ [child.key] ++ rest ∧ child.face? rest = some face) ∨
      (other = position ∧ face = (.inr label, children.map KeyedTree.key ++ [child.key])) ∨
      (¬ position ++ [child.key] <+: other ∧ other ≠ position ∧
        tree.face? other = some face) := by
  by_cases inside : position ++ [child.key] <+: other
  · obtain ⟨rest, rfl⟩ := inside
    rw [face?_addChild_below found fresh] at shown
    exact .inl ⟨rest, rfl, shown⟩
  rw [face?_addChild found fresh, if_neg inside] at shown
  by_cases here : other = position
  · rw [if_pos here] at shown
    exact .inr (.inl ⟨here, (Option.some.inj shown).symm⟩)
  · rw [if_neg here] at shown
    exact .inr (.inr ⟨inside, here, shown⟩)

/-! ### Cuts -/

/-- Of the children only the first. -/
def keepFirst : KeyedTree κ α β → KeyedTree κ α β
  | leaf key label => leaf key label
  | branch key label children => branch key label (children.take 1)

omit [DecidableEq κ] in
@[simp] theorem key_keepFirst (tree : KeyedTree κ α β) : (keepFirst tree).key = tree.key := by
  cases tree with
  | leaf key label => rfl
  | branch key label children => rfl

section KeepFirst

variable {key : κ} {label : β} {first : KeyedTree κ α β} {children : List (KeyedTree κ α β)}
  (found : tree.at? position = some (branch key label (first :: children)))

include found

theorem face?_keepFirst : (update keepFirst position tree).face? position =
    some (.inr label, [first.key]) := by
  have own := face?_update_below key_keepFirst position [] tree
  rw [List.append_nil, found] at own
  exact own

/-- Below the cut node the first child stays as it is, and nothing else. -/
theorem face?_keepFirst_below (key' : κ) (rest : List κ) :
    (update keepFirst position tree).face? (position ++ key' :: rest) =
      if key' = first.key then tree.face? (position ++ key' :: rest) else none := by
  rw [face?_update_below key_keepFirst, face?_append, found, Option.bind_some, Option.bind_some]
  change (branch key label [first]).face? (key' :: rest) = _
  rw [face?_cons, face?_cons, child?_singleton]
  by_cases own : key' = first.key
  · have here : (branch key label (first :: children)).child? key' = some first :=
      List.find?_cons_of_pos (decide_eq_true own.symm)
    rw [if_pos own.symm, if_pos own, here]
  · rw [if_neg (Ne.symm own), if_neg own]
    rfl

end KeepFirst

/-! ### Walks -/

section Walk

variable {order : KeyedTree κ α β → List (KeyedTree κ α β)}
  (perm : ∀ tree, (order tree).Perm tree.children)

/-- The children of a node with their positions. -/
def stepDown (order : KeyedTree κ α β → List (KeyedTree κ α β))
    (node : List κ × KeyedTree κ α β) : List (List κ × KeyedTree κ α β) :=
  (order node.2).map fun child => (node.1 ++ [child.key], child)

/-- The nodes in breadth-first order with their positions. -/
def walk (order : KeyedTree κ α β → List (KeyedTree κ α β)) (tree : KeyedTree κ α β) :
    List (List κ × KeyedTree κ α β) :=
  breadthFirst (stepDown order) tree.size [([], tree)]

include perm

theorem walksTo_iff (distinct : tree.Distinct) (found : List κ × KeyedTree κ α β) :
    WalksTo (stepDown order) ([], tree) found ↔ tree.at? found.1 = some found.2 := by
  constructor
  · intro walk
    induction walk with
    | refl => rfl
    | @tail parent found _ step ih =>
        obtain ⟨child, mem, rfl⟩ := List.mem_map.mp step
        have mem' := (perm parent.2).mem_iff.mp mem
        rw [at?_append, ih]
        exact (distinct.below ih).at?_child mem'
  · obtain ⟨position, node⟩ := found
    change tree.at? position = some node → _
    intro found
    induction position using List.reverseRecOn generalizing node with
    | nil =>
        cases found
        exact .refl
    | append_singleton position key ih =>
        rw [at?_append, Option.bind_eq_some_iff] at found
        obtain ⟨parent, foundParent, last⟩ := found
        rw [at?_cons, Option.bind_eq_some_iff] at last
        obtain ⟨child, foundChild, same⟩ := last
        cases same
        obtain ⟨mem, own⟩ := key_of_child? foundChild
        subst own
        apply Relation.ReflTransGen.tail (ih parent foundParent)
        exact List.mem_map.mpr ⟨node, (perm parent).mem_iff.mpr mem, rfl⟩

/-- A walk meets the node at each position. -/
theorem mem_walk (distinct : tree.Distinct) :
    (position, node) ∈ tree.walk order ↔ tree.at? position = some node := by
  have bounded : ∀ node : List κ × KeyedTree κ α β,
      ((stepDown order node).map fun node => node.2.size).sum < node.2.size := by
    intro node
    rw [stepDown, List.map_map]
    exact lt_of_eq_of_lt ((perm node.2).map size).sum_eq (size_children node.2)
  have enough : (([([], tree)] : List (List κ × KeyedTree κ α β)).map fun node => node.2.size).sum ≤
      tree.size := by simp
  rw [walk, mem_breadthFirst (fun node => node.2.size) bounded enough]
  constructor
  · rintro ⟨start, mem, walk⟩
    cases List.mem_singleton.mp mem
    exact (walksTo_iff perm distinct _).mp walk
  · exact fun found => ⟨_, List.mem_singleton_self _, (walksTo_iff perm distinct _).mpr found⟩

end Walk

/-! ### Maps that can fail -/

omit [DecidableEq κ] in
theorem traverseAll_eq_map {f : α → Option α'} {g : β → Option β'} {f' : α → α'} {g' : β → β'}
    {trees : List (KeyedTree κ α β)}
    (each : ∀ tree ∈ trees, tree.traverse f g = some (tree.map f' g')) :
    traverseAll f g trees = some (trees.map (map f' g')) := by
  induction trees with
  | nil => rfl
  | cons first rest ih =>
      rw [traverseAll, each first List.mem_cons_self, Option.bind_some,
        ih fun tree mem => each tree (List.mem_cons_of_mem _ mem)]
      rfl

/-- A map that can fail succeeds when it does for the label at each position. -/
theorem traverse_eq_map {f : α → Option α'} {g : β → Option β'} {f' : α → α'} {g' : β → β'}
    (distinct : tree.Distinct)
    (leaves : ∀ position label keys, tree.face? position = some (.inl label, keys) →
      f label = some (f' label))
    (branches : ∀ position label keys, tree.face? position = some (.inr label, keys) →
      g label = some (g' label)) :
    tree.traverse f g = some (tree.map f' g') := by
  induction tree using induction_children with
  | step tree ih =>
      cases tree with
      | leaf key label => rw [traverse, leaves [] label _ rfl, Option.map_some, map]
      | branch key label children =>
          have each : ∀ child ∈ children, child.traverse f g = some (child.map f' g') := by
            intro child mem
            have face : ∀ position, (branch key label children).face? (child.key :: position) =
                child.face? position := fun position => by
              rw [face?, distinct.at?_child mem]
              rfl
            apply ih child mem (distinct.child mem)
            · intro position label keys found
              exact leaves (child.key :: position) label keys ((face position).trans found)
            · intro position label keys found
              exact branches (child.key :: position) label keys ((face position).trans found)
          rw [traverse, branches [] label _ rfl, Option.bind_some, traverseAll_eq_map each,
            Option.map_some, map, mapAll_eq]

end KeyedTree

end OpenSand
