import OpenSand.Conf.Values
import OpenSand.Lib.KeyedTree

/-!
The structure of a model: its components, lists and parameters.

A component holds components, lists and parameters; the first child of a list is its pattern,
with the identifier `*`, and the others are its items, which are reached without it.
`Shaped` is what every model keeps: it makes the position of an element the sequence of the
identifiers by which it is found.
-/

namespace OpenSand.Conf

inductive ContainerKind
  | component
  | list
deriving DecidableEq, Repr

/-- The identifier of the pattern of a list. -/
abbrev star : Text := ['*']

/-- The types of the parameters and the kinds of the containers. -/
abbrev Skeleton := KeyedTree Text DataType ContainerKind

namespace Structure

open KeyedTree

section Access

variable {α β : Type} (kind : β → ContainerKind)

def getPattern : KeyedTree Text α β → Option (KeyedTree Text α β)
  | leaf _ _ => none
  | branch _ label children => if kind label = .list then children.head? else none

def getItems : KeyedTree Text α β → List (KeyedTree Text α β)
  | leaf _ _ => []
  | branch _ label children => if kind label = .list then children.tail else children

def getItem (element : KeyedTree Text α β) (id : Text) : Option (KeyedTree Text α β) :=
  (getItems kind element).find? (·.key = id)

/-- From an element down, where `*` may be the pattern of a list. -/
def descend (patterns : Bool) : List Text → KeyedTree Text α β → Option (KeyedTree Text α β)
  | [], element => some element
  | id :: ids, element =>
      (if patterns ∧ id = star then getPattern kind element else getItem kind element id).bind
        (descend patterns ids)

/-- The element of a path (`DataElement::getItemFromRoot`), as its position. -/
def getItemFromRoot (patterns : Bool) (root : KeyedTree Text α β) (path : Text) : Option Position :=
  if path = [] then none
  else (descend kind patterns (splitPath path) root).map fun _ => splitPath path

theorem descend_append (patterns : Bool) (ids rest : List Text) (element : KeyedTree Text α β) :
    descend kind patterns (ids ++ rest) element =
      (descend kind patterns ids element).bind (descend kind patterns rest) := by
  induction ids generalizing element with
  | nil => rfl
  | cons id ids ih =>
      rw [List.cons_append, descend, descend, Option.bind_assoc]
      exact Option.bind_congr fun child _ => ih child

/-- An item of what is reached is reached by its identifier. -/
theorem descend_item {ids : List Text} {root element child : KeyedTree Text α β}
    (found : descend kind false ids root = some element)
    (nodup : (element.children.map KeyedTree.key).Nodup) (mem : child ∈ getItems kind element) :
    descend kind false (ids ++ [child.key]) root = some child := by
  have only : getItem kind element child.key = some child := by
    cases element with
    | leaf own label => cases mem
    | branch own label children =>
        have items : (getItems kind (branch own label children)).Sublist children := by
          rw [getItems]
          split
          · exact List.tail_sublist children
          · exact .refl children
        have found : (branch own label (getItems kind (branch own label children))).child?
            child.key = some child := child?_of_mem (nodup.sublist (items.map KeyedTree.key)) mem
        exact found
  rw [descend_append, found, Option.bind_some, descend, if_neg (by simp), only]
  rfl

/-- What is reached is changed by an update there. -/
theorem descend_update {change : KeyedTree Text α β → KeyedTree Text α β}
    (keeps : ∀ element, (change element).key = element.key) (ids : List Text)
    (element : KeyedTree Text α β) :
    descend kind false ids (element.update change ids) =
      (descend kind false ids element).map change := by
  induction ids generalizing element with
  | nil => rfl
  | cons id ids ih =>
      let moved := fun child : KeyedTree Text α β =>
        if child.key = id then child.update change ids else child
      have search (children : List (KeyedTree Text α β)) :
          (children.map moved).find? (·.key = id) =
            (children.find? (·.key = id)).map (KeyedTree.update change ids) := by
        rw [List.find?_map]
        have same : (fun child : KeyedTree Text α β => decide (child.key = id)) ∘ moved =
            fun child => decide (child.key = id) := by
          funext child
          rw [Function.comp_apply]
          by_cases own : child.key = id
          · rw [show moved child = child.update change ids from if_pos own, key_update keeps]
          · rw [show moved child = child from if_neg own]
        rw [same]
        refine Option.map_congr fun child found => if_pos ?_
        simpa using List.find?_some found
      have item : getItem kind (element.update change (id :: ids)) id =
          (getItem kind element id).map (KeyedTree.update change ids) := by
        cases element with
        | leaf own label => rfl
        | branch own label children =>
            rw [KeyedTree.update, getItem, getItem, getItems, getItems]
            split
            · rw [← List.map_tail]
              exact search children.tail
            · exact search children
      rw [descend, descend, if_neg (by simp), if_neg (by simp), item, Option.bind_map,
        Option.map_bind]
      exact Option.bind_congr fun child _ => ih child

variable {kind} {α' β' : Type} {f : α → α'} {g : β → β'} {kind' : β' → ContainerKind}
  (kinds : ∀ label, kind' (g label) = kind label)

include kinds

theorem getPattern_map (element : KeyedTree Text α β) :
    getPattern kind' (element.map f g) = (getPattern kind element).map (KeyedTree.map f g) := by
  cases element with
  | leaf id label => rfl
  | branch id label children =>
      rw [KeyedTree.map, getPattern, getPattern, kinds, mapAll_eq, List.head?_map]
      split
      · rfl
      · rfl

theorem getItem_map (element : KeyedTree Text α β) (id : Text) :
    getItem kind' (element.map f g) id = (getItem kind element id).map (KeyedTree.map f g) := by
  have items : getItems kind' (element.map f g) = (getItems kind element).map (KeyedTree.map f g) := by
    cases element with
    | leaf id label => rfl
    | branch id label children =>
        rw [KeyedTree.map, getItems, getItems, kinds, mapAll_eq]
        split
        · exact List.map_tail.symm
        · rfl
  rw [getItem, getItem, items, List.find?_map]
  congr 2
  funext child
  rw [Function.comp_apply, key_map]

theorem descend_map (patterns : Bool) (ids : List Text) (element : KeyedTree Text α β) :
    descend kind' patterns ids (element.map f g) =
      (descend kind patterns ids element).map (KeyedTree.map f g) := by
  induction ids generalizing element with
  | nil => rfl
  | cons id ids ih =>
      rw [descend, descend, getPattern_map kinds, getItem_map kinds, Option.map_bind]
      split
      · rw [Option.bind_map]
        exact Option.bind_congr fun child _ => ih child
      · rw [Option.bind_map]
        exact Option.bind_congr fun child _ => ih child

theorem getItemFromRoot_map (patterns : Bool) (root : KeyedTree Text α β) (path : Text) :
    getItemFromRoot kind' patterns (root.map f g) path = getItemFromRoot kind patterns root path := by
  rw [getItemFromRoot, getItemFromRoot, descend_map kinds, Option.map_map]
  rfl

end Access

/-- The pattern of a list or an element in one. -/
def InPattern (skeleton : Skeleton) (position : Position) : Prop :=
  ∃ list ids, skeleton.face? list = some (.inr .list, ids) ∧ list ++ [star] <+: position

/-- What the structure of a model keeps. -/
structure Shaped (skeleton : Skeleton) : Prop where
  distinct : skeleton.Distinct
  whole : ∀ position label ids, skeleton.face? position = some (label, ids) →
    ∀ id ∈ ids, '/' ∉ id
  pattern : ∀ position ids, skeleton.face? position = some (.inr .list, ids) →
    ids.head? = some star
  items : ∀ position ids, skeleton.face? position = some (.inr .list, ids) →
    ∀ id ∈ ids, ∃ ids', skeleton.face? (position ++ [id]) = some (.inr .component, ids')

namespace Shaped

variable {skeleton element child : Skeleton} {position : Position} {id : Text}

theorem below (shaped : Shaped skeleton) (found : skeleton.at? position = some element) :
    Shaped element := by
  have face : ∀ rest, element.face? rest = skeleton.face? (position ++ rest) := fun rest => by
    rw [face?_append, found, Option.bind_some]
  refine ⟨shaped.distinct.below found, ?_, ?_, ?_⟩
  · intro rest label ids foundFace
    exact shaped.whole _ label ids ((face rest).symm.trans foundFace)
  · intro rest ids foundFace
    exact shaped.pattern _ ids ((face rest).symm.trans foundFace)
  · intro rest ids foundFace id mem
    obtain ⟨ids', component⟩ := shaped.items _ ids ((face rest).symm.trans foundFace) id mem
    refine ⟨ids', ?_⟩
    rw [face, ← List.append_assoc]
    exact component

/-- An element whose children are well shaped. -/
theorem of_children (nodup : (skeleton.children.map KeyedTree.key).Nodup)
    (whole : ∀ child ∈ skeleton.children, '/' ∉ child.key)
    (pattern : skeleton.label = .inr .list →
      (skeleton.children.map KeyedTree.key).head? = some star)
    (items : skeleton.label = .inr .list →
      ∀ child ∈ skeleton.children, child.label = .inr .component)
    (children : ∀ child ∈ skeleton.children, Shaped child) : Shaped skeleton := by
  have distinct : skeleton.Distinct :=
    distinct_iff.mpr ⟨nodup, fun child mem => (children child mem).distinct⟩
  -- a face is the one of the element or of one of its children
  have faces : ∀ {position : Position} {face}, skeleton.face? position = some face →
      position = [] ∧ face = skeleton.face ∨ ∃ child ∈ skeleton.children, ∃ rest,
        position = child.key :: rest ∧ child.face? rest = some face := by
    intro position face found
    cases position with
    | nil => exact .inl ⟨rfl, (Option.some.inj found).symm⟩
    | cons id rest =>
        rw [face?_cons, Option.bind_eq_some_iff] at found
        obtain ⟨child, first, later⟩ := found
        obtain ⟨mem, rfl⟩ := key_of_child? first
        exact .inr ⟨child, mem, rest, rfl, later⟩
  refine ⟨distinct, ?_, ?_, ?_⟩
  · intro position label ids found id mem
    rcases faces found with ⟨rfl, face⟩ | ⟨child, memChild, rest, rfl, below⟩
    · cases face
      obtain ⟨child, memChild, rfl⟩ := List.mem_map.mp mem
      exact whole child memChild
    · exact (children child memChild).whole rest label ids below id mem
  · intro position ids found
    rcases faces found with ⟨rfl, face⟩ | ⟨child, memChild, rest, rfl, below⟩
    · obtain ⟨label, rfl⟩ := Prod.mk.inj face
      exact pattern label.symm
    · exact (children child memChild).pattern rest ids below
  · intro position ids found id mem
    rcases faces found with ⟨rfl, face⟩ | ⟨child, memChild, rest, rfl, below⟩
    · obtain ⟨label, rfl⟩ := Prod.mk.inj face
      obtain ⟨child, memChild, rfl⟩ := List.mem_map.mp mem
      refine ⟨child.children.map KeyedTree.key, ?_⟩
      rw [List.nil_append, face?, distinct.at?_child memChild, at?_nil, Option.map_some,
        KeyedTree.face, items label.symm child memChild]
    · obtain ⟨ids', component⟩ := (children child memChild).items rest ids below id mem
      refine ⟨ids', ?_⟩
      rw [List.cons_append, face?, distinct.at?_child memChild]
      exact component

theorem rekey (shaped : Shaped skeleton) (key : Text) : Shaped (skeleton.rekey key) where
  distinct := distinct_iff_face.mpr fun position label keys face =>
    distinct_iff_face.mp shaped.distinct position label keys (face?_rekey.symm.trans face)
  whole position label keys face := shaped.whole position label keys (face?_rekey.symm.trans face)
  pattern position keys face := shaped.pattern position keys (face?_rekey.symm.trans face)
  items position keys face id mem := by
    rw [face?_rekey] at face ⊢
    exact shaped.items position keys face id mem

theorem leaf (id : Text) (type : DataType) : Shaped (.leaf id type) :=
  of_children List.nodup_nil (List.forall_mem_nil _) (by rintro ⟨⟩) (by rintro ⟨⟩)
    (List.forall_mem_nil _)

theorem component (id : Text) : Shaped (.branch id .component []) :=
  of_children List.nodup_nil (List.forall_mem_nil _) (by rintro ⟨⟩) (by rintro ⟨⟩)
    (List.forall_mem_nil _)

/-- No identifier on the way to an element has a slash. -/
theorem whole_position (shaped : Shaped skeleton) (found : (skeleton.face? position).isSome) :
    ∀ id ∈ position, '/' ∉ id := by
  induction position generalizing skeleton with
  | nil => exact List.forall_mem_nil _
  | cons first position ih =>
      rw [face?_cons] at found
      cases here : skeleton.child? first with
      | none =>
          rw [here] at found
          cases found
      | some child =>
          rw [here, Option.bind_some] at found
          obtain ⟨mem, rfl⟩ := key_of_child? here
          have own := shaped.whole [] _ _ rfl child.key (List.mem_map.mpr ⟨child, mem, rfl⟩)
          have below : skeleton.at? [child.key] = some child := shaped.distinct.at?_child mem
          exact List.forall_mem_cons.mpr ⟨own, ih (shaped.below below) found⟩

theorem list_children {children : List Skeleton} (shaped : Shaped (branch id .list children)) :
    ∃ pattern items, children = pattern :: items ∧ pattern.key = star ∧
      ∀ item ∈ items, item.key ≠ star := by
  have head := shaped.pattern [] _ rfl
  cases children with
  | nil => cases head
  | cons pattern items =>
      have key : pattern.key = star := Option.some.inj head
      have nodup := shaped.distinct.nodup
      change ((pattern :: items).map KeyedTree.key).Nodup at nodup
      rw [List.map_cons, List.nodup_cons, key] at nodup
      refine ⟨pattern, items, rfl, key, ?_⟩
      intro item mem own
      exact nodup.1 (List.mem_map.mpr ⟨item, mem, own⟩)

theorem child?_of_getPattern (shaped : Shaped skeleton)
    (found : getPattern (·) skeleton = some child) : skeleton.child? star = some child := by
  cases skeleton with
  | leaf own type => cases found
  | branch own kind children =>
      cases kind with
      | component => cases found
      | list =>
          obtain ⟨pattern, items, rfl, key, _⟩ := shaped.list_children
          cases found
          exact List.find?_cons_of_pos (decide_eq_true key)

section Opens

variable {α β : Type} {typeOf : α → DataType} {kind : β → ContainerKind}
  {root element : KeyedTree Text α β}

theorem child?_of_getItem_map (shaped : Shaped (root.map typeOf kind))
    (found : getItem kind root id = some element) : root.child? id = some element := by
  cases root with
  | leaf own label => cases found
  | branch own label children =>
      by_cases isList : kind label = .list
      · have pattern : (children.map KeyedTree.key).head? = some star := by
          apply shaped.pattern [] _
          rw [face?_map, ← isList]
          rfl
        have nodup : (children.map KeyedTree.key).Nodup :=
          (distinct_map.mp shaped.distinct).nodup
        cases children with
        | nil => cases pattern
        | cons first items =>
            rw [getItem, getItems, if_pos isList] at found
            have own : element.key = id := by simpa using List.find?_some found
            have other : first.key ≠ id := by
              rintro same
              rw [List.map_cons, List.nodup_cons] at nodup
              exact nodup.1 (List.mem_map.mpr
                ⟨element, List.mem_of_find?_eq_some found, own.trans same.symm⟩)
            change (first :: items).find? (·.key = id) = some element
            rw [List.find?_cons_of_neg (by simpa using other)]
            exact found
      · rw [getItem, getItems, if_neg isList] at found
        exact found

/-- What is reached without the patterns is at the position of the identifiers. -/
theorem at?_of_opens {ids : List Text} (shaped : Shaped (root.map typeOf kind))
    (found : descend kind false ids root = some element) : root.at? ids = some element := by
  induction ids generalizing root with
  | nil => exact found
  | cons id ids ih =>
      rw [descend, if_neg (by simp), Option.bind_eq_some_iff] at found
      obtain ⟨child, item, later⟩ := found
      have here := shaped.child?_of_getItem_map item
      rw [at?_cons, here, Option.bind_some]
      have below : (root.map typeOf kind).at? [id] = some (child.map typeOf kind) := by
        rw [at?_map, at?_cons, here, Option.bind_some, at?_nil, Option.map_some]
      exact ih (shaped.below below) later

end Opens

theorem child?_of_getItem (shaped : Shaped skeleton)
    (found : getItem (·) skeleton id = some child) : skeleton.child? id = some child := by
  have same : Shaped (skeleton.map (·) (·)) := by
    rw [show skeleton.map (·) (·) = skeleton from map_id skeleton]
    exact shaped
  exact same.child?_of_getItem_map found

theorem getItem_of_child? (shaped : Shaped skeleton) (found : skeleton.child? id = some child)
    (item : skeleton.label = .inr .list → id ≠ star) : getItem (·) skeleton id = some child := by
  cases skeleton with
  | leaf key type => exact found
  | branch key kind children =>
      cases kind with
      | component => exact found
      | list =>
          obtain ⟨pattern, items, rfl, key, _⟩ := shaped.list_children
          have other : pattern.key ≠ id := fun same => item rfl (same.symm.trans key)
          change (pattern :: items).find? (·.key = id) = some child at found
          rw [List.find?_cons_of_neg (by simpa using other)] at found
          exact found

/-- What is found by identifiers is at the position they make. -/
theorem at?_of_descend {patterns : Bool} {ids : List Text} (shaped : Shaped skeleton)
    (found : descend (·) patterns ids skeleton = some element) :
    skeleton.at? ids = some element := by
  induction ids generalizing skeleton with
  | nil => exact found
  | cons id ids ih =>
      rw [descend, Option.bind_eq_some_iff] at found
      obtain ⟨child, first, later⟩ := found
      have here : skeleton.child? id = some child := by
        split at first
        next own => exact own.2 ▸ shaped.child?_of_getPattern first
        next => exact shaped.child?_of_getItem first
      rw [at?_cons, here, Option.bind_some]
      apply ih _ later
      have below : skeleton.at? [id] = some child := by
        rw [at?_cons, here, Option.bind_some, at?_nil]
      exact shaped.below below

/-- One step down enters a child, which is the pattern of a list when it is called `*`. -/
theorem step_iff (shaped : Shaped skeleton) :
    (if true = true ∧ id = star then getPattern (·) skeleton else getItem (·) skeleton id) =
        some child ↔
      skeleton.child? id = some child ∧ (id = star → skeleton.label = .inr .list) := by
  by_cases own : id = star
  · subst own
    rw [if_pos ⟨rfl, rfl⟩]
    constructor
    · intro pattern
      refine ⟨shaped.child?_of_getPattern pattern, fun _ => ?_⟩
      cases skeleton with
      | leaf key type => cases pattern
      | branch key kind children =>
          cases kind with
          | component => cases pattern
          | list => rfl
    · rintro ⟨found, list⟩
      cases skeleton with
      | leaf own type => cases list rfl
      | branch own kind children =>
          cases list rfl
          obtain ⟨pattern, items, rfl, key, _⟩ := shaped.list_children
          have first : (branch own ContainerKind.list (pattern :: items)).child? star =
              some pattern := List.find?_cons_of_pos (decide_eq_true key)
          rw [first] at found
          exact found
  · rw [if_neg (fun both => own both.2)]
    exact ⟨fun item => ⟨shaped.child?_of_getItem item, fun same => absurd same own⟩,
      fun ⟨found, _⟩ => shaped.getItem_of_child? found fun _ => own⟩

/-- With the patterns, every element is reached unless something else is called `*`. -/
theorem descends_iff {ids : List Text} (shaped : Shaped skeleton) :
    (descend (·) true ids skeleton).isSome ↔ (skeleton.face? ids).isSome ∧
      ∀ list, list ++ [star] <+: ids → ∃ keys, skeleton.face? list = some (.inr .list, keys) := by
  induction ids generalizing skeleton with
  | nil =>
      refine iff_of_true rfl ⟨rfl, fun list below => ?_⟩
      have empty := List.prefix_nil.mp below
      simp at empty
  | cons id ids ih =>
      constructor
      · intro way
        obtain ⟨element, found⟩ := Option.isSome_iff_exists.mp way
        rw [descend, Option.bind_eq_some_iff] at found
        obtain ⟨child, step, later⟩ := found
        obtain ⟨here, isList⟩ := shaped.step_iff.mp step
        have at' : skeleton.at? [id] = some child := by
          rw [at?_cons, here, Option.bind_some, at?_nil]
        obtain ⟨inside, patterns⟩ := (ih (shaped.below at')).mp (by rw [later]; rfl)
        refine ⟨by rw [face?_cons, here]; exact inside, fun list below => ?_⟩
        cases list with
        | nil =>
            obtain ⟨rfl, _⟩ := List.cons_prefix_cons.mp below
            exact ⟨_, by rw [face?, at?_nil, Option.map_some, KeyedTree.face, isList rfl]⟩
        | cons first list =>
            rw [List.cons_append, List.cons_prefix_cons] at below
            obtain ⟨rfl, below⟩ := below
            rw [face?_cons, here, Option.bind_some]
            exact patterns list below
      · rintro ⟨inside, patterns⟩
        rw [face?_cons] at inside
        cases here : skeleton.child? id with
        | none =>
            rw [here] at inside
            cases inside
        | some child =>
            rw [here, Option.bind_some] at inside
            have isList : id = star → skeleton.label = .inr .list := by
              rintro rfl
              obtain ⟨keys, face⟩ := patterns [] (List.prefix_append [star] ids)
              exact congrArg Prod.fst (Option.some.inj face)
            have at' : skeleton.at? [id] = some child := by
              rw [at?_cons, here, Option.bind_some, at?_nil]
            rw [descend, shaped.step_iff.mpr ⟨here, isList⟩, Option.bind_some, ih (shaped.below at')]
            refine ⟨inside, fun list below => ?_⟩
            have face := patterns (id :: list) ((List.prefix_cons_inj id).mpr below)
            rwa [face?_cons, here, Option.bind_some] at face

/-- Without the patterns no way down goes through one. -/
theorem ne_star_of_descend {ids : List Text} {list : Position} {keys : List Text}
    (shaped : Shaped skeleton) (found : descend (·) false ids skeleton = some element)
    (below : list ++ [id] <+: ids) (isList : skeleton.face? list = some (.inr .list, keys)) :
    id ≠ star := by
  induction ids generalizing skeleton list with
  | nil =>
      have empty := List.prefix_nil.mp below
      simp at empty
  | cons first ids ih =>
      rw [descend, if_neg (by simp), Option.bind_eq_some_iff] at found
      obtain ⟨child, item, later⟩ := found
      have here := shaped.child?_of_getItem item
      cases list with
      | nil =>
          obtain ⟨rfl, _⟩ := List.cons_prefix_cons.mp below
          cases skeleton with
          | leaf own type => cases item
          | branch own kind children =>
              cases isList
              obtain ⟨pattern, items, rfl, key, others⟩ := shaped.list_children
              change items.find? (·.key = id) = some child at item
              have own : child.key = id := by simpa using List.find?_some item
              exact own ▸ others child (List.mem_of_find?_eq_some item)
      | cons first' list =>
          rw [List.cons_append, List.cons_prefix_cons] at below
          obtain ⟨rfl, below⟩ := below
          rw [face?_cons, here, Option.bind_some] at isList
          have found : skeleton.at? [first'] = some child := by
            rw [at?_cons, here, Option.bind_some, at?_nil]
          exact ih (shaped.below found) later below isList

/-- Without the patterns, what is in none is reached. -/
theorem descends_outside {ids : List Text} (shaped : Shaped skeleton)
    (inside : (skeleton.face? ids).isSome) (outside : ¬ InPattern skeleton ids) :
    (descend (·) false ids skeleton).isSome := by
  induction ids generalizing skeleton with
  | nil => rfl
  | cons id ids ih =>
      rw [face?_cons] at inside
      cases here : skeleton.child? id with
      | none =>
          rw [here] at inside
          cases inside
      | some child =>
          rw [here, Option.bind_some] at inside
          have item : skeleton.label = .inr .list → id ≠ star := by
            rintro isList rfl
            refine outside ⟨[], skeleton.children.map KeyedTree.key, ?_, List.prefix_append [star] ids⟩
            rw [face?, at?_nil, Option.map_some, KeyedTree.face, isList]
          have at' : skeleton.at? [id] = some child := by
            rw [at?_cons, here, Option.bind_some, at?_nil]
          rw [descend, if_neg (by simp), shaped.getItem_of_child? here item, Option.bind_some]
          apply ih (shaped.below at') inside
          rintro ⟨list, keys, isList, under⟩
          refine outside ⟨id :: list, keys, ?_, (List.prefix_cons_inj id).mpr under⟩
          rw [face?_cons, here, Option.bind_some, isList]

section AddChild

variable {kind : ContainerKind} {children : List Skeleton}

theorem distinct_addChild (shaped : Shaped skeleton) (shapedChild : Shaped child)
    (found : skeleton.at? position = some (branch id kind children))
    (fresh : child.key ∉ children.map KeyedTree.key) :
    (update (KeyedTree.addChild child) position skeleton).Distinct := by
  rw [distinct_iff_face]
  intro other label keys face
  obtain ⟨rest, rfl, same⟩ | ⟨rfl, same⟩ | ⟨-, -, old⟩ := face?_addChild_cases found fresh face
  · exact distinct_iff_face.mp shapedChild.distinct rest label keys same
  · cases same
    have nodup := distinct_iff_face.mp shaped.distinct other _ _ (face?_of_at? found)
    refine List.nodup_append.mpr ⟨nodup, List.nodup_singleton _, ?_⟩
    intro a mem b last
    cases List.mem_singleton.mp last
    rintro rfl
    exact fresh mem
  · exact distinct_iff_face.mp shaped.distinct other label keys old

theorem whole_addChild (shaped : Shaped skeleton) (shapedChild : Shaped child)
    (found : skeleton.at? position = some (branch id kind children))
    (fresh : child.key ∉ children.map KeyedTree.key) (whole : '/' ∉ child.key) :
    ∀ other label keys,
      (update (KeyedTree.addChild child) position skeleton).face? other = some (label, keys) →
        ∀ key ∈ keys, '/' ∉ key := by
  intro other label keys face key mem
  obtain ⟨rest, rfl, same⟩ | ⟨rfl, same⟩ | ⟨-, -, old⟩ := face?_addChild_cases found fresh face
  · exact shapedChild.whole rest label keys same key mem
  · cases same
    rcases List.mem_append.mp mem with mem | last
    · exact shaped.whole other _ _ (face?_of_at? found) key mem
    · exact List.mem_singleton.mp last ▸ whole
  · exact shaped.whole other label keys old key mem

theorem pattern_addChild (shaped : Shaped skeleton) (shapedChild : Shaped child)
    (found : skeleton.at? position = some (branch id kind children))
    (fresh : child.key ∉ children.map KeyedTree.key) :
    ∀ other keys,
      (update (KeyedTree.addChild child) position skeleton).face? other = some (.inr .list, keys) →
        keys.head? = some star := by
  intro other keys face
  obtain ⟨rest, rfl, same⟩ | ⟨rfl, same⟩ | ⟨-, -, old⟩ := face?_addChild_cases found fresh face
  · exact shapedChild.pattern rest keys same
  · cases same
    rw [List.head?_append, shaped.pattern other _ (face?_of_at? found), Option.some_or]
  · exact shaped.pattern other keys old

/-- A node that was a component still is one. -/
theorem component_addChild (found : skeleton.at? position = some (branch id kind children))
    (fresh : child.key ∉ children.map KeyedTree.key) {other : Position} {ids : List Text}
    (face : skeleton.face? other = some (.inr .component, ids)) :
    ∃ ids', (update (KeyedTree.addChild child) position skeleton).face? other =
      some (.inr .component, ids') := by
  by_cases here : other = position
  · subst here
    rw [face?_of_at? found] at face
    cases face
    have outside : ¬ other ++ [child.key] <+: other := fun below =>
      absurd below.length_le (by simp)
    rw [face?_addChild found fresh, if_neg outside, if_pos rfl]
    exact ⟨_, rfl⟩
  · exact ⟨ids, by rw [face?_addChild_of_old found fresh (by rw [face]; rfl) here, face]⟩

theorem items_addChild (shaped : Shaped skeleton) (shapedChild : Shaped child)
    (found : skeleton.at? position = some (branch id kind children))
    (fresh : child.key ∉ children.map KeyedTree.key)
    (component : kind = .list → ∃ ids, child.face? [] = some (.inr .component, ids)) :
    ∀ other keys,
      (update (KeyedTree.addChild child) position skeleton).face? other = some (.inr .list, keys) →
        ∀ key ∈ keys, ∃ keys', (update (KeyedTree.addChild child) position skeleton).face?
          (other ++ [key]) = some (.inr .component, keys') := by
  intro other keys face key mem
  obtain ⟨rest, rfl, same⟩ | ⟨rfl, same⟩ | ⟨-, -, old⟩ := face?_addChild_cases found fresh face
  · obtain ⟨keys', item⟩ := shapedChild.items rest keys same key mem
    refine ⟨keys', ?_⟩
    rw [List.append_assoc _ rest, face?_addChild_below found fresh, item]
  · cases same
    rcases List.mem_append.mp mem with mem | last
    · obtain ⟨keys', item⟩ := shaped.items other _ (face?_of_at? found) key mem
      exact component_addChild found fresh item
    · cases List.mem_singleton.mp last
      obtain ⟨ids, face⟩ := component rfl
      have below := face?_addChild_below found fresh []
      rw [List.append_nil, face] at below
      exact ⟨ids, below⟩
  · obtain ⟨keys', item⟩ := shaped.items other keys old key mem
    exact component_addChild found fresh item

/-- One more child with an identifier of its own, which is a component in a list. -/
theorem addChild (shaped : Shaped skeleton) (shapedChild : Shaped child)
    (found : skeleton.at? position = some (branch id kind children))
    (fresh : child.key ∉ children.map KeyedTree.key) (whole : '/' ∉ child.key)
    (component : kind = .list → ∃ ids, child.face? [] = some (.inr .component, ids)) :
    Shaped (update (KeyedTree.addChild child) position skeleton) where
  distinct := distinct_addChild shaped shapedChild found fresh
  whole := whole_addChild shaped shapedChild found fresh whole
  pattern := pattern_addChild shaped shapedChild found fresh
  items := items_addChild shaped shapedChild found fresh component

end AddChild

end Shaped

/-- The path of the position leads back to it. -/
structure Findable (skeleton : Skeleton) (position : Position) : Prop where
  ne_nil : position ≠ []
  clean : Clean position
  descends : (descend (·) true position skeleton).isSome

theorem Findable.getItemFromRoot {skeleton : Skeleton} {position : Position}
    (findable : Findable skeleton position) :
    getItemFromRoot (·) true skeleton (pathText position) = some position := by
  have path : pathText position ≠ [] := by
    intro root
    have split := findable.clean.split_pathText
    rw [root] at split
    exact findable.ne_nil split.symm
  obtain ⟨element, found⟩ := Option.isSome_iff_exists.mp findable.descends
  rw [Structure.getItemFromRoot, if_neg path, findable.clean.split_pathText, found, Option.map_some]

/-- What the path from an element to one below it leads to. -/
theorem getItemFromRoot_relative {skeleton : Skeleton} {base rest : Position}
    (clean : Clean (base ++ rest)) :
    Structure.getItemFromRoot (·) true skeleton
        (getRelativePath (pathText base) (pathText (base ++ rest))) =
      if rest = [] then none else (descend (·) true rest skeleton).map fun _ => rest := by
  have split := clean.relative
  rw [Structure.getItemFromRoot, split]
  by_cases own : rest = []
  · subst own
    have empty : getRelativePath (pathText base) (pathText (base ++ [])) = [] := by
      rw [List.append_nil, getRelativePath]
      split
      next root => exact root
      next => rw [if_pos List.prefix_rfl, List.drop_length, List.dropWhile_nil]
    rw [if_pos empty, if_pos rfl]
  · have some : getRelativePath (pathText base) (pathText (base ++ rest)) ≠ [] := by
      intro empty
      rw [empty] at split
      exact own split.symm
    rw [if_neg some, if_neg own]

/-- An element is found when no identifier on the way is empty and none is `*` but the ones of
patterns. -/
theorem findable_iff {skeleton : Skeleton} {position : Position} (shaped : Shaped skeleton) :
    Findable skeleton position ↔ position ≠ [] ∧ Clean position ∧
      (skeleton.face? position).isSome ∧
        ∀ list, list ++ [star] <+: position → ∃ keys, skeleton.face? list = some (.inr .list, keys) := by
  rw [← shaped.descends_iff]
  exact ⟨fun ⟨ne_nil, clean, descends⟩ => ⟨ne_nil, clean, descends⟩,
    fun ⟨ne_nil, clean, descends⟩ => ⟨ne_nil, clean, descends⟩⟩

/-- Every element is still there, and is what it was. -/
def Grows (skeleton skeleton' : Skeleton) : Prop :=
  ∀ position label keys, skeleton.face? position = some (label, keys) →
    ∃ keys', skeleton'.face? position = some (label, keys')

theorem Grows.isSome {skeleton skeleton' : Skeleton} {position : Position}
    (grows : Grows skeleton skeleton') (inside : (skeleton.face? position).isSome) :
    (skeleton'.face? position).isSome := by
  obtain ⟨⟨label, keys⟩, face⟩ := Option.isSome_iff_exists.mp inside
  obtain ⟨keys', face'⟩ := grows position label keys face
  rw [face']
  rfl

theorem Findable.grows {skeleton skeleton' : Skeleton} {position : Position}
    (findable : Findable skeleton position) (shaped : Shaped skeleton)
    (shaped' : Shaped skeleton') (grows : Grows skeleton skeleton') :
    Findable skeleton' position := by
  rw [findable_iff shaped] at findable
  obtain ⟨ne_nil, clean, inside, patterns⟩ := findable
  refine (findable_iff shaped').mpr ⟨ne_nil, clean, grows.isSome inside, fun list below => ?_⟩
  obtain ⟨keys, face⟩ := patterns list below
  exact grows list _ keys face

theorem grows_addChild {skeleton child : Skeleton} {position : Position} {id : Text}
    {kind : ContainerKind} {children : List Skeleton}
    (found : skeleton.at? position = some (branch id kind children))
    (fresh : child.key ∉ children.map KeyedTree.key) :
    Grows skeleton (update (KeyedTree.addChild child) position skeleton) := by
  intro other label keys face
  by_cases here : other = position
  · subst here
    rw [face?, found] at face
    cases face
    have above : ¬ other ++ [child.key] <+: other := fun below => absurd below.length_le (by simp)
    rw [face?_addChild found fresh, if_neg above, if_pos rfl]
    exact ⟨_, rfl⟩
  · rw [face?_addChild_of_old found fresh (by rw [face]; rfl) here]
    exact ⟨keys, face⟩

/-- What the path of a position leads to is its position without the empty identifiers. -/
theorem findable_of_getItemFromRoot {skeleton : Skeleton} {position found : Position}
    (whole : ∀ id ∈ position, '/' ∉ id)
    (get : getItemFromRoot (·) true skeleton (pathText position) = some found) :
    Findable skeleton found ∧ found = position.filter (· ≠ []) := by
  unfold getItemFromRoot at get
  split at get
  · cases get
  next path =>
    obtain ⟨element, descends, rfl⟩ := Option.map_eq_some_iff.mp get
    rw [splitPath_pathText whole] at descends ⊢
    refine ⟨⟨filter_ne_nil path, ?_, by rw [descends]; rfl⟩, rfl⟩
    intro id mem
    obtain ⟨mem, own⟩ := List.mem_filter.mp mem
    exact ⟨whole id mem, of_decide_eq_true own⟩

end Structure

end OpenSand.Conf
