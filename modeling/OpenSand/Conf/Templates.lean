import OpenSand.Conf.Cloning

/-!
What the runs of a data model leave of its creation.

Without its values and the items of its lists a model is the one that was created (`blank`), an
item without them is the pattern of its list (`Regular`), and the references of an item are the
ones of the pattern, moved to it (`Tracks`). So the elements and the references of a model can be
made again from a new one, by adding the items and setting the values (`DataModel.Kept`).
-/

namespace OpenSand.Conf

variable {δ : Type}

/-- What is seen of the elements of a data model. -/
abbrev States (δ : Type) := KeyedTree Text (DataType × Option (Value δ)) ContainerKind

namespace States

open KeyedTree Structure

mutual

/-- The elements without their values and the items of the lists. -/
def blank : States δ → States δ
  | .leaf id (type, _) => .leaf id (type, none)
  | .branch id .component items => .branch id .component (blanks items)
  | .branch id .list [] => .branch id .list []
  | .branch id .list (pattern :: _) => .branch id .list [pattern]

def blanks : List (States δ) → List (States δ)
  | [] => []
  | item :: items => blank item :: blanks items

end

theorem blanks_eq (items : List (States δ)) : blanks items = items.map blank := by
  induction items with
  | nil => rfl
  | cons item items ih => rw [blanks, ih, List.map_cons]

@[simp] theorem key_blank (tree : States δ) : (blank tree).key = tree.key := by
  unfold blank
  split
  · rfl
  · rfl
  · rfl
  · rfl

theorem blank_rekey (id : Text) (tree : States δ) : blank (tree.rekey id) = (blank tree).rekey id := by
  cases tree with
  | leaf own label => rfl
  | branch own kind items =>
      cases kind with
      | component => rfl
      | list =>
          cases items with
          | nil => rfl
          | cons pattern items => rfl

/-- Each item of a list started as the pattern. -/
inductive Regular : States δ → Prop
  | parameter (id : Text) (label : DataType × Option (Value δ)) : Regular (.leaf id label)
  | component (id : Text) (items : List (States δ)) (each : ∀ item ∈ items, Regular item) :
      Regular (.branch id .component items)
  | list (id : Text) (pattern : States δ) (items : List (States δ)) (own : Regular pattern)
      (new : blank pattern = pattern) (each : ∀ item ∈ items, Regular item)
      (copies : ∀ item ∈ items, blank item = pattern.rekey item.key) :
      Regular (.branch id .list (pattern :: items))

theorem Regular.rekey {tree : States δ} (regular : Regular tree) (id : Text) :
    Regular (tree.rekey id) := by
  cases regular with
  | parameter own label => exact .parameter id label
  | component own items each => exact .component id items each
  | list own pattern items regular new each copies =>
      exact .list id pattern items regular new each copies

/-- The elements of a structure, none of them set. -/
def new (skeleton : Skeleton) : States δ := skeleton.map (fun type => (type, none)) id

theorem regular_new {skeleton : Skeleton} (distinct : skeleton.Distinct)
    (lists : ∀ position ids, skeleton.face? position = some (.inr .list, ids) → ids = [star]) :
    Regular (new skeleton : States δ) ∧ blank (new skeleton : States δ) = new skeleton := by
  induction skeleton using induction_children with
  | step skeleton ih =>
      have below : ∀ child ∈ skeleton.children,
          Regular (new child : States δ) ∧ blank (new child : States δ) = new child := by
        intro child mem
        refine ih child mem (distinct.child mem) fun position ids face => ?_
        apply lists (child.key :: position)
        rw [face?, distinct.at?_child mem]
        exact face
      cases skeleton with
      | leaf own type => exact ⟨.parameter own _, rfl⟩
      | branch own kind items =>
          rw [new, KeyedTree.map, mapAll_eq]
          cases kind with
          | component =>
              constructor
              · refine .component own _ fun item mem => ?_
                obtain ⟨child, memChild, rfl⟩ := List.mem_map.mp mem
                exact (below child memChild).1
              · rw [id, blank, blanks_eq, List.map_map]
                congr 1
                exact List.map_congr_left fun child mem => (below child mem).2
          | list =>
              have keys := lists [] _ rfl
              obtain ⟨pattern, rfl, key⟩ := List.map_eq_singleton_iff.mp keys
              have first := below pattern (List.mem_singleton_self _)
              exact ⟨.list own _ [] first.1 first.2 (List.forall_mem_nil _) (List.forall_mem_nil _),
                rfl⟩

/-- A change of an element that is reached shows in what was set and in the items only. -/
theorem Regular.update {tree node : States δ} {change : States δ → States δ} {position : Position}
    (regular : Regular tree) (distinct : tree.Distinct)
    (opened : descend (·) false position tree = some node) (regular' : Regular (change node))
    (same : blank (change node) = blank node) :
    Regular (tree.update change position) ∧ blank (tree.update change position) = blank tree := by
  induction position generalizing tree with
  | nil =>
      cases opened
      exact ⟨regular', same⟩
  | cons id position ih =>
      rw [descend, if_neg (by simp), Option.bind_eq_some_iff] at opened
      obtain ⟨inner, item, later⟩ := opened
      -- the item that is reached is the only child with its identifier
      have moved (child : States δ) (mem : child ∈ tree.children) (inside : inner ∈ tree.children)
          (own : inner.key = id) (regular : Regular child) :
          Regular (if child.key = id then child.update change position else child) ∧
            blank (if child.key = id then child.update change position else child) =
              blank child := by
        by_cases here : child.key = id
        · have only : child = inner :=
            List.inj_on_of_nodup_map distinct.nodup mem inside (here.trans own.symm)
          rw [if_pos here]
          exact ih regular (distinct.child mem) (only ▸ later)
        · rw [if_neg here]
          exact ⟨regular, rfl⟩
      rw [getItem] at item
      have own : inner.key = id := by simpa using List.find?_some item
      have mem := List.mem_of_find?_eq_some item
      cases regular with
      | parameter key label => cases mem
      | component key items each =>
          have moved child mem' := moved child mem' mem own (each child mem')
          rw [KeyedTree.update]
          constructor
          · refine .component key _ fun child mem' => ?_
            obtain ⟨former, memFormer, rfl⟩ := List.mem_map.mp mem'
            exact (moved former memFormer).1
          · rw [blank, blank, blanks_eq, blanks_eq, List.map_map]
            congr 1
            exact List.map_congr_left fun child mem' => (moved child mem').2
      | list key pattern items regular new each copies =>
          have inside : inner ∈ pattern :: items := List.mem_cons_of_mem _ mem
          have apart : pattern.key ≠ id := by
            intro patternKey
            have nodup := distinct.nodup
            change ((pattern :: items).map KeyedTree.key).Nodup at nodup
            rw [List.map_cons, List.nodup_cons, patternKey] at nodup
            exact nodup.1 (List.mem_map.mpr ⟨inner, mem, own⟩)
          have moved child mem' :=
            moved child (List.mem_cons_of_mem _ mem') inside own (each child mem')
          rw [KeyedTree.update, List.map_cons, if_neg apart]
          refine ⟨.list key pattern _ regular new ?_ ?_, rfl⟩
          · intro child mem'
            obtain ⟨former, memFormer, rfl⟩ := List.mem_map.mp mem'
            exact (moved former memFormer).1
          · intro child mem'
            obtain ⟨former, memFormer, rfl⟩ := List.mem_map.mp mem'
            have kept := (moved former memFormer).2
            have keys := congrArg KeyedTree.key kept
            rw [key_blank, key_blank] at keys
            rw [kept, keys, copies former memFormer]

/-- What is reached in a regular model is regular. -/
theorem Regular.opened {tree node : States δ} {position : Position} (regular : Regular tree)
    (opened : descend (·) false position tree = some node) : Regular node := by
  induction position generalizing tree with
  | nil =>
      cases opened
      exact regular
  | cons id position ih =>
      rw [descend, if_neg (by simp), Option.bind_eq_some_iff] at opened
      obtain ⟨inner, item, later⟩ := opened
      refine ih ?_ later
      have mem := List.mem_of_find?_eq_some item
      cases regular with
      | parameter key label => cases mem
      | component key items each => exact each inner mem
      | list key pattern items regular new each copies => exact each inner mem

end States

open DataElement

/-! ### References of the items -/

variable [FloatingText δ]

/-- The items of the lists have what their patterns have, and the references of the pattern moved
to them. A list whose pattern refers into itself has no items. -/
structure Tracks (root : DataElement δ) : Prop where
  shapes : ∀ list ids id rest label keys, (skeleton root).face? list = some (.inr .list, ids) →
    id ∈ ids → id ≠ star → (skeleton root).face? (list ++ star :: rest) = some (label, keys) →
      ∃ keys', (skeleton root).face? (list ++ id :: rest) = some (label, keys')
  copies : ∀ list ids id rest, (skeleton root).face? list = some (.inr .list, ids) →
    id ∈ ids → id ≠ star → ((skeleton root).face? (list ++ star :: rest)).isSome →
      Element.referenceAt root (list ++ id :: rest) =
        (Element.referenceAt root (list ++ star :: rest)).map (Reference.moved list id)
  accepted : ∀ list ids id held, (skeleton root).face? list = some (.inr .list, ids) →
    id ∈ ids → id ≠ star → Element.referenceAt root (list ++ [star]) = some held →
      ¬ list ++ [star] <+: held.target.position

/-- No list of a created model has items yet. -/
theorem tracks_new {root : DataElement δ}
    (lists : ∀ position ids, (skeleton root).face? position = some (.inr .list, ids) → ids = [star]) :
    Tracks root := by
  have none {list : Position} {ids : List Text} {id : Text} {P : Prop}
      (isList : (skeleton root).face? list = some (.inr .list, ids)) (mem : id ∈ ids)
      (ne : id ≠ star) : P := by
    rw [lists list ids isList] at mem
    exact absurd (List.mem_singleton.mp mem) ne
  exact ⟨fun _ _ _ _ _ _ isList mem ne _ => none isList mem ne,
    fun _ _ _ _ isList mem ne _ => none isList mem ne,
    fun _ _ _ _ isList mem ne _ => none isList mem ne⟩

namespace ItemAdded

variable {d : DataModel δ} {model count : Nat} {after : DataElement δ} {list : Position}

/-- The new item has the references of the pattern, which is not one that refers into itself. -/
theorem tracks (added : ItemAdded d.root after list count) (sound : d.Sound model)
    (outside : ¬ Structure.InPattern (skeleton d.root) list)
    (accepted : ∀ held, Element.referenceAt d.root (list ++ [star]) = some held →
      ¬ list ++ [star] <+: held.target.position) (tracks : Tracks d.root) : Tracks after where
  shapes := by
    intro other ids id rest label keys isList mem ne face
    rcases added.list_cases isList mem with ⟨inner, rfl, bare⟩ | ⟨rfl, rfl⟩ | ⟨apart, ids', former, old⟩
    · cases sound.patterns _ _ _ _ added.isList bare
      exact absurd (List.mem_singleton.mp mem) ne
    · rw [added.others _ (added.pattern_apart outside isList (not_under_self _))
        (added.not_in_pattern outside isList)] at face
      exact ⟨keys, (added.below rest).trans face⟩
    · rw [added.others _ (added.pattern_apart outside isList apart)
        (added.not_in_pattern outside isList)] at face
      obtain ⟨keys', face'⟩ := tracks.shapes other ids' id rest label keys former old ne face
      exact added.grows _ _ _ face'
  copies := by
    intro other ids id rest isList mem ne inside
    rcases added.list_cases isList mem with ⟨inner, rfl, bare⟩ | ⟨rfl, rfl⟩ | ⟨apart, ids', former, old⟩
    · cases sound.patterns _ _ _ _ added.isList bare
      exact absurd (List.mem_singleton.mp mem) ne
    · rw [added.referenceBelow,
        added.referenceOthers _ (added.pattern_apart outside isList (not_under_self _))]
    · rw [added.others _ (added.pattern_apart outside isList apart)
        (added.not_in_pattern outside isList)] at inside
      obtain ⟨⟨label, keys⟩, face⟩ := Option.isSome_iff_exists.mp inside
      obtain ⟨keys', item⟩ := tracks.shapes other ids' id rest label keys former old ne face
      rw [added.referenceOthers _ (added.pattern_apart outside isList apart),
        added.referenceOthers _ (added.outside (by rw [item]; rfl)),
        tracks.copies other ids' id rest former old ne inside]
  accepted := by
    intro other ids id held isList mem ne referenced
    rcases added.list_cases isList mem with ⟨inner, rfl, bare⟩ | ⟨rfl, rfl⟩ | ⟨apart, ids', former, old⟩
    · cases sound.patterns _ _ _ _ added.isList bare
      exact absurd (List.mem_singleton.mp mem) ne
    · rw [added.referenceOthers _ (added.pattern_apart outside isList (not_under_self _))]
        at referenced
      exact accepted held referenced
    · rw [added.referenceOthers _ (added.pattern_apart outside isList apart)] at referenced
      exact tracks.accepted other ids' id held former old ne referenced

end ItemAdded

namespace ListCleared

variable {d : DataModel δ} {model : Nat} {after : DataElement δ} {list : Position}

theorem tracks (cleared : ListCleared d.root after list) (sound : d.Sound model)
    (tracks : Tracks d.root) : Tracks after := by
  -- a list that is left with an item is another one, and the items that are left keep what the
  -- patterns have
  have left {other rest : Position} {ids : List Text} {id : Text}
      (isList : (skeleton after).face? other = some (.inr .list, ids)) (mem : id ∈ ids)
      (ne : id ≠ star) (pattern : ((skeleton after).face? (other ++ star :: rest)).isSome) :
      (skeleton d.root).face? other = some (.inr .list, ids) ∧
        ∀ id', list ++ [id'] <+: other ++ id :: rest → id' = star := by
    rcases cleared.face_cases isList with ⟨-, -, rfl⟩ | ⟨here, former⟩
    · exact absurd (List.mem_singleton.mp mem) ne
    refine ⟨former, fun id' under => ?_⟩
    rcases prefix_append_cons_cases under with above | ⟨same, -⟩ | ⟨inner, rfl, below⟩
    · exact cleared.stars (by rw [isList]; rfl) id' above
    · exact absurd same.symm here
    · obtain ⟨last, rfl⟩ := under_iff.mp below
      have inside := cleared.shrinks.isSome pattern
      rw [← List.cons_append, ← List.append_assoc] at inside
      obtain ⟨⟨label, keys⟩, face⟩ := Option.isSome_iff_exists.mp (KeyedTree.face?_above inside)
      obtain ⟨keys', item⟩ := tracks.shapes other ids id inner label keys former mem ne face
      obtain ⟨keys'', isList'⟩ := cleared.isList
      rw [item] at isList'
      cases isList'
      have mem' := KeyedTree.mem_keys_of_below face inside
      rw [sound.patterns _ _ _ _ former face] at mem'
      exact List.mem_singleton.mp mem'
  constructor
  · intro other ids id rest label keys isList mem ne face
    obtain ⟨former, stars⟩ := left isList mem ne (by rw [face]; rfl)
    obtain ⟨keys', face'⟩ := cleared.shrinks _ _ _ face
    obtain ⟨keys'', item⟩ := tracks.shapes other ids id rest label keys' former mem ne face'
    exact cleared.stays item stars
  · intro other ids id rest isList mem ne inside
    obtain ⟨former, stars⟩ := left isList mem ne inside
    rw [cleared.references _ stars, cleared.references _ (cleared.stars inside)]
    exact tracks.copies other ids id rest former mem ne (cleared.shrinks.isSome inside)
  · intro other ids id held isList mem ne referenced
    have inside := inside_of_referenceAt referenced
    obtain ⟨former, -⟩ := left isList mem ne inside
    rw [cleared.references _ (cleared.stars inside)] at referenced
    exact tracks.accepted other ids id held former mem ne referenced

end ListCleared

/-! ### States of a changed model -/

namespace DataModel

open KeyedTree

variable {d : DataModel δ} {model : Nat} {position : Position} {node : DataElement δ}

omit [FloatingText δ] in
theorem distinct_states (sound : d.Sound model) : d.root.states.Distinct :=
  distinct_map.mpr (distinct_map.mp sound.shaped.distinct)

omit [FloatingText δ] in
theorem descend_states (root : DataElement δ) (position : Position) :
    Structure.descend (·) false position root.states = (opens root position).map states :=
  Structure.descend_map (fun _ => rfl) false position root

omit [FloatingText δ] in
/-- The states of a model in which the element at a position is replaced. -/
theorem states_update (sound : d.Sound model) (opened : opens d.root position = some node)
    {change : DataElement δ → DataElement δ} (key : (change node).key = node.key) :
    states (d.root.update change position) =
      d.root.states.update (put (change node).states) position := by
  apply map_update_found (distinct_map.mp sound.shaped.distinct) (sound.shaped.at?_of_opens opened)
  exact (put_self ((key_map _ _ _).trans (key.trans (key_map _ _ node).symm))).symm

end DataModel

/-- What is kept of a model since it was created. -/
structure DataModel.Kept (m : MetaModel δ) (model : Nat) (d : DataModel δ) : Prop where
  sound : d.Sound model
  version : d.version = m.version
  types : d.types = m.types.createData
  regular : States.Regular d.root.states
  blank : States.blank d.root.states = States.new (MetaElement.skeleton m.root)
  tracks : Tracks d.root

namespace DataModel.Kept

open KeyedTree

variable {m : MetaModel δ} {d : DataModel δ} {model : Nat} {position : Position}
  {node : DataElement δ} (kept : d.Kept m model)

include kept

/-- An element that is reached is replaced by one that differs in the values and the items. -/
theorem replaced (opened : opens d.root position = some node)
    {change : DataElement δ → DataElement δ}
    (regular : States.Regular node.states → States.Regular (change node).states)
    (same : States.blank (change node).states = States.blank node.states)
    (sound : DataModel.Sound model { d with root := d.root.update change position })
    (tracks : Tracks (d.root.update change position)) :
    DataModel.Kept m model { d with root := d.root.update change position } := by
  have shown : Structure.descend (·) false position d.root.states = some node.states := by
    rw [descend_states, opened]
    rfl
  have keys := congrArg KeyedTree.key same
  rw [States.key_blank, States.key_blank] at keys
  have put : put (change node).states node.states = (change node).states := put_self keys
  have key : (change node).key = node.key := by
    rwa [states, states, key_map, key_map] at keys
  have eq := states_update kept.sound opened key
  have regularNode := kept.regular.opened shown
  obtain ⟨regular', blank'⟩ := kept.regular.update (distinct_states kept.sound) shown
    (put.symm ▸ regular regularNode) (put.symm ▸ same)
  refine ⟨sound, kept.version, kept.types, ?_, ?_, tracks⟩
  · rw [eq]
    exact regular'
  · rw [eq, blank', kept.blank]

end DataModel.Kept

/-! ### Calls -/

namespace DataModels

open KeyedTree

variable {models : DataModels δ} {m : MetaModel δ} {d : DataModel δ} {model : Nat}
  {list : Position} {own : Text} {reference : Option (Reference δ)} {pattern : DataElement δ}
  {items : List (DataElement δ)}

/-- The states of a new item are the ones of the pattern. -/
theorem newItem_states (sound : d.Sound model) (living : models model = some d)
    (found : d.root.at? list = some (.branch own ⟨.list, reference⟩ (pattern :: items)))
    {count : Nat} {item : DataElement δ} (made : models.newItem model list count pattern = some item) :
    item.states = pattern.states.rekey (itemId count) := by
  have same := (newItem_spec sound found living count made).1
  rw [DataModel.states_congr same, states, map_rekey]
  congr 1
  rw [DataElement.copied, map_map, states]
  congr 1
  funext label
  exact Prod.ext (Data.duplicate_type label.own) (Data.duplicate_state label.own)

omit [FloatingText δ] in
/-- The pattern of a list as a part of the model. -/
theorem referenceAt_star (sound : d.Sound model)
    (found : d.root.at? list = some (.branch own ⟨.list, reference⟩ (pattern :: items))) :
    Element.referenceAt d.root (list ++ [star]) = Element.reference pattern := by
  rw [← referenceAt_pattern sound found []]
  rfl

/-- One more item of a list that is reached. -/
theorem addItem_states (sound : d.Sound model) (living : models model = some d)
    (opened : opens d.root list = some (.branch own ⟨.list, reference⟩ (pattern :: items)))
    (free : ¬ SelfReferring list pattern) :
    ∃ item : DataElement δ, item.states = pattern.states.rekey (itemId items.length) ∧
      models.addItem model list = some (Function.update models model
        (some { d with root := d.root.update (.addChild item) list })) ∧
      ItemAdded d.root (d.root.update (.addChild item) list) list items.length := by
  have found := sound.shaped.at?_of_opens opened
  obtain ⟨item, made⟩ := Option.isSome_iff_exists.mp
    ((newItem_isSome_iff sound found living items.length).mpr free)
  refine ⟨item, newItem_states sound living found made, ?_,
    newItem_added sound living found made⟩
  rw [addItem, living, Option.bind_some, opened]
  dsimp only
  rw [made, Option.map_some]

end DataModels

namespace DataModel.Kept

open KeyedTree DataModels

variable {m : MetaModel δ} {d : DataModel δ} {model : Nat} {list : Position} {own : Text}
  {reference : Option (Reference δ)} {pattern : DataElement δ} {items : List (DataElement δ)}
  (kept : d.Kept m model)

include kept

theorem addItem (opened : opens d.root list = some (.branch own ⟨.list, reference⟩ (pattern :: items)))
    (free : ¬ SelfReferring list pattern) {item : DataElement δ}
    (copy : item.states = pattern.states.rekey (itemId items.length))
    (added : ItemAdded d.root (d.root.update (.addChild item) list) list items.length) :
    DataModel.Kept m model { d with root := d.root.update (.addChild item) list } := by
  have outside := kept.sound.outside_of_opens opened
  have found := kept.sound.shaped.at?_of_opens opened
  have shown (added : List (DataElement δ)) : states (.branch own ⟨.list, reference⟩
      (pattern :: added)) = .branch own .list (pattern.states :: added.map states) := by
    rw [states, KeyedTree.map, mapAll_eq]
    rfl
  apply kept.replaced opened
  · rw [addChild, List.cons_append, shown, shown, List.map_append, List.map_singleton, copy]
    intro regular
    cases regular with
    | list _ _ _ regular new each copies =>
        refine .list own _ _ regular new ?_ ?_
        · intro other mem
          rcases List.mem_append.mp mem with old | last
          · exact each other old
          · cases List.mem_singleton.mp last
            exact regular.rekey _
        · intro other mem
          rcases List.mem_append.mp mem with old | last
          · exact copies other old
          · cases List.mem_singleton.mp last
            rw [States.blank_rekey, new, key_rekey]
  · rw [addChild, List.cons_append, shown, shown, States.blank, States.blank]
  · exact kept.sound.itemAdded added outside
  · refine added.tracks kept.sound outside ?_ kept.tracks
    rw [referenceAt_star kept.sound found]
    intro held refers inside
    exact free ⟨held, refers, inside⟩

theorem clearItems (opened : opens d.root list = some (.branch own ⟨.list, reference⟩ items)) :
    DataModel.Kept m model { d with root := d.root.update .keepFirst list } := by
  have found := kept.sound.shaped.at?_of_opens opened
  have face : (skeleton d.root).face? list = some (.inr .list, items.map KeyedTree.key) := by
    rw [skeleton, face?_map, face?_of_at? found]
    rfl
  cases items with
  | nil => cases kept.sound.shaped.pattern list _ face
  | cons pattern items =>
      have cleared := keepFirst_cleared kept.sound found
      apply kept.replaced opened
      · intro regular
        cases regular with
        | list _ _ _ regular new each copies =>
            exact .list own _ [] regular new (List.forall_mem_nil _) (List.forall_mem_nil _)
      · rfl
      · exact kept.sound.listCleared cleared
      · exact cleared.tracks kept.sound kept.tracks

theorem changeParameter {position : Position} {id : Text} {label : Referring δ (Data δ)}
    (opened : opens d.root position = some (.leaf id label)) {change : Data δ → Data δ}
    (keeps : ∀ data, (change data).type = data.type) :
    DataModel.Kept m model { d with root := d.root.update (changeData change) position } := by
  have same := skeleton_changeData keeps position d.root
  have references := fun other => referenceAt_changeData change position other d.root
  apply kept.replaced opened
  · exact fun _ => .parameter _ _
  · change States.blank (.leaf id ((change label.own).type, _)) = .leaf id (label.own.type, none)
    rw [States.blank, keeps]
  · exact kept.sound.sameShape same references
  · obtain ⟨shapes, copies, accepted⟩ := kept.tracks
    constructor
    · rw [same]
      exact shapes
    · rw [same]
      simp only [references]
      exact copies
    · rw [same]
      simp only [references]
      exact accepted

/-- Every call on a model keeps what is left of its creation. -/
theorem call {models : DataModels δ} (living : models model = some d) (c : DataCall δ) :
    ∃ d', models.call model c model = some d' ∧ d'.Kept m model := by
  have changed {parameter : Position} {change : Data δ → Data δ}
      (keeps : ∀ data, (change data).type = data.type) :
      ∃ d', models.changeParameter model parameter change model = some d' ∧ d'.Kept m model := by
    rw [DataModels.changeParameter, living]
    dsimp only
    cases opened : opens d.root parameter with
    | none => exact ⟨d, living, kept⟩
    | some element =>
        cases element with
        | leaf id label =>
            exact ⟨_, Function.update_self model _ models, kept.changeParameter opened keeps⟩
        | branch id label items => exact ⟨d, living, kept⟩
  cases c with
  | addItem list =>
      rw [DataModels.call]
      cases done : models.addItem model list with
      | none => exact ⟨d, living, kept⟩
      | some models' =>
          have some : (models.addItem model list).isSome := by rw [done]; rfl
          rw [DataModels.addItem, living, Option.bind_some] at done
          split at done
          next own reference pattern items opened =>
            have free := (addItem_isSome_iff kept.sound living opened).mp some
            obtain ⟨item, copy, made, added⟩ := addItem_states kept.sound living opened free
            rw [DataModels.addItem, living, Option.bind_some, opened] at made
            dsimp only at made
            rw [done] at made
            cases made
            exact ⟨_, Function.update_self model _ models, kept.addItem opened free copy added⟩
          · cases done
  | clearItems list =>
      rcases clearItems_cases d model list with refused | ⟨own, reference, items, opened, eq⟩
      · rw [DataModels.call, refused models living]
        exact ⟨d, living, kept⟩
      · rw [DataModels.call, eq models living]
        exact ⟨_, Function.update_self model _ models, kept.clearItems opened⟩
  | set parameter value => exact changed fun data => Data.set_type data value
  | reset parameter => exact changed Data.reset_type

theorem after {models : DataModels δ} (living : models model = some d) (calls : List (DataCall δ)) :
    ∃ d', models.after model calls model = some d' ∧ d'.Kept m model := by
  induction calls generalizing models d with
  | nil => exact ⟨d, living, kept⟩
  | cons c calls ih =>
      obtain ⟨d', living', kept'⟩ := kept.call living c
      exact ih kept' living'

end DataModel.Kept

/-! ### Creation -/

/-- The reference of the same model under another identity. -/
def Reference.within (model : Nat) (reference : Reference δ) : Reference δ :=
  ⟨⟨model, reference.target.position⟩, reference.expected⟩

namespace Element

variable {α β : Type} {typeOf : α → DataType} {find : Element δ α β → Text → Option Position}
  {model : Nat} {root root' copy : Element δ α β}

theorem linked_within (structural : Structural find) (same : copy.erase = root.erase) (other : Nat)
    {entry : Link δ} {position : Position} {reference : Reference δ}
    (link : linked typeOf find model [] root entry = some (position, reference)) :
    linked typeOf find other [] copy entry = some (position, reference.within other) := by
  rw [linked_eq_some] at link
  obtain ⟨element, target, parameter, found, isParameter, kinds, rfl⟩ := link
  rw [linked_congr structural same, linked_eq_some]
  exact ⟨element, target, parameter, found, isParameter, kinds, rfl⟩

/-- The same pass over the same structure under another identity. -/
theorem linkAll_within (structural : Structural find) (within : Inside find root)
    (same : copy.erase = root.erase) (other : Nat)
    (references : ∀ position,
      copy.referenceAt position = (root.referenceAt position).map (Reference.within other))
    {entries : List (Link δ)} (done : linkAll typeOf find model [] root entries = some root') :
    ∃ copy', linkAll typeOf find other [] copy entries = some copy' ∧ ∀ position,
      copy'.referenceAt position = (root'.referenceAt position).map (Reference.within other) := by
  induction entries generalizing root copy with
  | nil =>
      cases done
      exact ⟨copy, rfl, references⟩
  | cons entry entries ih =>
      rw [linkAll, Option.bind_eq_some_iff] at done
      obtain ⟨⟨position, reference⟩, first, later⟩ := done
      have inside := linked_inside within first
      have insideCopy : (copy.at? position).isSome := by
        have nodes := congrArg (KeyedTree.at? position) same
        rw [at?_erase, at?_erase] at nodes
        rw [← Option.isSome_map (f := erase), nodes, Option.isSome_map]
        exact inside
      rw [linkAll, linked_within structural same other first, Option.bind_some]
      apply ih (within.congr structural (erase_update _ _ root).symm) _ _ later
      · rw [erase_update, erase_update, same]
      · intro position'
        rw [referenceAt_update inside, referenceAt_update insideCopy]
        split
        · rfl
        · exact references position'

end Element

namespace MetaModel

open KeyedTree

variable {m : MetaModel δ} {d : DataModel δ} {model : Nat}

theorem createData_states (sound : m.Sound) (created : m.createData model = some d) :
    d.root.states = States.new (MetaElement.skeleton m.root) := by
  have made : MetaElement.createData m.types.createData m.root = some (m.root.map
      (fun label => (⟨Data.create label.own.type, none⟩ : Referring δ (Data δ)))
      fun label => ⟨label.own.kind, none⟩) := by
    apply traverse_eq_map (distinct_map.mp sound.shaped.distinct)
    · intro position label keys face
      have shown : (MetaElement.skeleton m.root).face? position =
          some (.inl label.own.type, keys) := by
        rw [MetaElement.skeleton, face?_map, face]
        rfl
      rw [DataTypesList.getType_createData (sound.registered position _ keys shown)]
      rfl
    · exact fun _ _ _ _ => rfl
  rw [MetaModel.createData, made, Option.bind_some] at created
  dsimp only at created
  split at created
  · obtain ⟨root, linked, rfl⟩ := Option.map_eq_some_iff.mp created
    rw [DataModel.states_congr (Element.linkAll_erase linked), DataElement.states, map_map,
      States.new, MetaElement.skeleton, map_map]
    rfl
  · cases created

theorem createData_version (created : m.createData model = some d) : d.version = m.version := by
  rw [MetaModel.createData, Option.bind_eq_some_iff] at created
  obtain ⟨root, -, created⟩ := created
  dsimp only at created
  split at created
  · obtain ⟨root, -, rfl⟩ := Option.map_eq_some_iff.mp created
    rfl
  · cases created

theorem createData_kept (sound : m.Sound) (created : m.createData model = some d) :
    d.Kept m model := by
  have same := DataModel.createData_skeleton sound created
  have lists : ∀ position ids, (skeleton d.root).face? position = some (.inr .list, ids) →
      ids = [star] := same ▸ sound.lists
  have states := createData_states sound created
  obtain ⟨regular, blank⟩ := States.regular_new (δ := δ) sound.shaped.distinct sound.lists
  exact ⟨DataModel.createData_sound sound created, createData_version created,
    (DataModel.createData_cases sound created).1, states ▸ regular, states ▸ blank,
    tracks_new lists⟩

/-- The data can be created under any identity, with the same references. -/
theorem createData_within (sound : m.Sound) (created : m.createData model = some d) (other : Nat) :
    ∃ c, m.createData other = some c ∧ ∀ position, Element.referenceAt c.root position =
      (Element.referenceAt d.root position).map (Reference.within other) := by
  obtain ⟨root, made, same, unreferenced⟩ := DataModel.createData_root sound
  have shaped : Structure.Shaped (skeleton root) := same ▸ sound.shaped
  rw [MetaModel.createData, made, Option.bind_some] at created
  rw [MetaModel.createData, made, Option.bind_some]
  dsimp only at created ⊢
  split at created
  next all =>
    obtain ⟨root', linked, rfl⟩ := Option.map_eq_some_iff.mp created
    obtain ⟨copy, done, references⟩ := Element.linkAll_within getItemFromRoot_structural
      (getItemFromRoot_inside shaped) rfl other (fun position => by rw [unreferenced]; rfl) linked
    rw [if_pos all, done]
    exact ⟨_, rfl, references⟩
  · cases created

end MetaModel

/-! ### What was created -/

/-- The elements of a created model stay, with their references. -/
structure Origin (created root : DataElement δ) : Prop where
  grows : Structure.Grows (skeleton created) (skeleton root)
  references : ∀ position, ((skeleton created).face? position).isSome →
    Element.referenceAt root position = Element.referenceAt created position

theorem Changed.origin {created : DataElement δ} {d : DataModel δ} {after : DataElement δ}
    (change : Changed d.root after)
    (lists : ∀ position ids, (skeleton created).face? position = some (.inr .list, ids) →
      ids = [star])
    (origin : Origin created d.root) : Origin created after := by
  cases change with
  | item list count added outside =>
      refine ⟨fun position label keys face => ?_, fun position inside => ?_⟩
      · obtain ⟨keys', former⟩ := origin.grows position label keys face
        exact added.grows _ _ _ former
      · rw [added.referenceOthers _ (added.outside (origin.grows.isSome inside))]
        exact origin.references position inside
  | cleared list cleared =>
      -- a list of the created model has nothing but its pattern
      have stars {position : Position} (inside : ((skeleton created).face? position).isSome) :
          ∀ id, list ++ [id] <+: position → id = star := by
        intro id under
        obtain ⟨rest, rfl⟩ := under_iff.mp under
        obtain ⟨⟨label, keys⟩, face⟩ :=
          Option.isSome_iff_exists.mp (KeyedTree.face?_above inside)
        obtain ⟨keys', former⟩ := origin.grows _ _ _ face
        obtain ⟨ids, isList⟩ := cleared.isList
        rw [former] at isList
        cases isList
        have mem := KeyedTree.mem_keys_of_below face inside
        rw [lists list keys face] at mem
        exact List.mem_singleton.mp mem
      refine ⟨fun position label keys face => ?_, fun position inside => ?_⟩
      · obtain ⟨keys', former⟩ := origin.grows position label keys face
        exact cleared.stays former (stars (by rw [face]; rfl))
      · rw [cleared.references _ (stars inside)]
        exact origin.references position inside
  | kept same references =>
      refine ⟨fun position label keys face => ?_, fun position inside => ?_⟩
      · rw [same]
        exact origin.grows position label keys face
      · rw [references]
        exact origin.references position inside

namespace MetaModel

variable {m : MetaModel δ} {d : DataModel δ} {model : Nat}

/-- What every run leaves of a created model. -/
theorem after_kept (sound : m.Sound) (created : m.createData model = some d)
    {models : DataModels δ} (living : models model = some d) (calls : List (DataCall δ)) :
    ∃ d', models.after model calls model = some d' ∧ d'.Kept m model ∧ Origin d.root d'.root := by
  have kept := createData_kept sound created
  have lists : ∀ position ids, (skeleton d.root).face? position = some (.inr .list, ids) →
      ids = [star] := DataModel.createData_skeleton sound created ▸ sound.lists
  obtain ⟨d', after, kept'⟩ := kept.after living calls
  obtain ⟨root, after', -, origin⟩ := DataModels.after_induction kept.sound living
    (P := Origin d.root) ⟨fun _ _ keys face => ⟨keys, face⟩, fun _ _ => rfl⟩
    (fun _ _ _ change => change.origin lists) calls
  rw [after] at after'
  cases after'
  exact ⟨_, after, kept', origin⟩

end MetaModel

end OpenSand.Conf
