import OpenSand.Conf.MetaModel

/-!
What the calls that build a meta model keep.

The calls change an element in place, add one to a component, or add an enumeration. `Sound`
says what all of them keep (`build_sound`): the structure is well shaped, the types of the
parameters are registered and every reference targets a parameter whose type its expected data
has.
-/

namespace OpenSand.Conf

namespace MetaElement

variable {δ : Type} {root : MetaElement δ} {position : Position}

theorem isSome_face? :
    ((skeleton root).face? position).isSome ↔ (root.at? position).isSome := by
  rw [KeyedTree.face?, skeleton, KeyedTree.at?_map, Option.isSome_map, Option.isSome_map]

theorem getItemFromRoot_eq_some {path : Text} :
    getItemFromRoot root path = some position ↔
      path ≠ [] ∧ splitPath path = position ∧ (root.at? position).isSome := by
  rw [getItemFromRoot]
  split
  next empty => simp [empty]
  next ne =>
    rw [Option.map_eq_some_iff, Option.isSome_iff_exists]
    constructor
    · rintro ⟨element, found, rfl⟩
      exact ⟨ne, rfl, element, found⟩
    · rintro ⟨-, rfl, element, found⟩
      exact ⟨element, found, rfl⟩

end MetaElement

namespace MetaModel

open MetaElement

variable {δ : Type}

/-- What every sequence of calls keeps. -/
structure Sound (m : MetaModel δ) : Prop where
  shaped : Structure.Shaped (skeleton m.root)
  key : m.root.key = []
  component : ∃ ids, (skeleton m.root).face? [] = some (.inr .component, ids)
  lists : ∀ position ids, (skeleton m.root).face? position = some (.inr .list, ids) → ids = [star]
  registered : ∀ position type ids, (skeleton m.root).face? position = some (.inl type, ids) →
    m.types.getType type.id = some type
  references : ∀ position reference, Element.referenceAt m.root position = some reference →
    reference.target.model = m.id ∧
      ∃ ids, (skeleton m.root).face? reference.target.position =
        some (.inl reference.expected.type, ids)
  enums : ∀ entry ∈ m.types.entries,
    entry.2.values ≠ [] ∧ uniqueValues entry.2.values = entry.2.values ∧
      ∀ kind : ValueKind, kind.id ≠ entry.1

variable {m m' : MetaModel δ} {position : Position}

/-- A change of the elements that keeps the structure. -/
theorem Sound.of_root (sound : m.Sound) {root : MetaElement δ}
    (same : skeleton root = skeleton m.root)
    (references : ∀ position reference, Element.referenceAt root position = some reference →
      reference.target.model = m.id ∧
        ∃ ids, (skeleton m.root).face? reference.target.position =
          some (.inl reference.expected.type, ids)) :
    Sound { m with root := root } where
  shaped := by
    rw [same]
    exact sound.shaped
  key := by
    have keys := congrArg KeyedTree.key same
    rw [skeleton, skeleton, KeyedTree.key_map, KeyedTree.key_map, sound.key] at keys
    exact keys
  component := by
    rw [same]
    exact sound.component
  lists := by
    rw [same]
    exact sound.lists
  registered := by
    rw [same]
    exact sound.registered
  references := by
    rw [same]
    exact references
  enums := sound.enums

/-- A change of one element in place. -/
theorem Sound.change (sound : m.Sound) {change : MetaElement δ → MetaElement δ}
    (inPlace : Element.InPlace change)
    (hidden : ∀ element, skeleton (change element) = skeleton element)
    (changed : ∀ element, m.root.at? position = some element → ∀ reference,
      Element.reference (change element) = some reference →
        reference.target.model = m.id ∧
          ∃ ids, (skeleton m.root).face? reference.target.position =
            some (.inl reference.expected.type, ids)) :
    Sound { m with root := m.root.update change position } := by
  apply sound.of_root (KeyedTree.map_update hidden position m.root)
  intro other reference found
  rw [inPlace.referenceAt] at found
  by_cases here : other = position
  · rw [if_pos here, Option.bind_eq_some_iff] at found
    obtain ⟨element, foundAt, own⟩ := found
    exact changed element foundAt reference own
  · rw [if_neg here] at found
    exact sound.references other reference found

theorem changeInfo_inPlace (change : MetaInfo → MetaInfo) :
    Element.InPlace (changeInfo change : MetaElement δ → MetaElement δ) := by
  constructor
  · intro element
    cases element with
    | leaf id label => rfl
    | branch id label items => rfl
  · intro element id ids
    cases element with
    | leaf id label => rfl
    | branch id label items => rfl

theorem setUnit_inPlace (unit : Text) :
    Element.InPlace (setUnit unit : MetaElement δ → MetaElement δ) := by
  constructor
  · intro element
    cases element with
    | leaf id label => rfl
    | branch id label items => rfl
  · intro element id ids
    cases element with
    | leaf id label => rfl
    | branch id label items => rfl

theorem changeExpected_inPlace (change : Data δ → Data δ) :
    Element.InPlace (changeExpected change : MetaElement δ → MetaElement δ) :=
  ⟨fun element => Element.key_setReference _ element,
    fun element => Element.at?_setReference _ element⟩

theorem skeleton_setReference (reference : Option (Reference δ)) (element : MetaElement δ) :
    skeleton (Element.setReference reference element) = skeleton element := by
  cases element with
  | leaf id label => rfl
  | branch id label items => rfl

theorem Sound.changeInfo (sound : m.Sound) (change : MetaInfo → MetaInfo) :
    Sound { m with root := m.root.update (changeInfo change) position } := by
  apply sound.change (changeInfo_inPlace change)
  · intro element
    cases element with
    | leaf id label => rfl
    | branch id label items => rfl
  · intro element found reference own
    apply sound.references position
    rw [Element.referenceAt, found, Option.bind_some, ← own]
    cases element with
    | leaf id label => rfl
    | branch id label items => rfl

theorem Sound.setUnit (sound : m.Sound) (unit : Text) :
    Sound { m with root := m.root.update (setUnit unit) position } := by
  apply sound.change (setUnit_inPlace unit)
  · intro element
    cases element with
    | leaf id label => rfl
    | branch id label items => rfl
  · intro element found reference own
    apply sound.references position
    rw [Element.referenceAt, found, Option.bind_some, ← own]
    cases element with
    | leaf id label => rfl
    | branch id label items => rfl

theorem Sound.changeExpected (sound : m.Sound) {change : Data δ → Data δ}
    (keeps : ∀ data, (change data).type = data.type) :
    Sound { m with root := m.root.update (changeExpected change) position } := by
  apply sound.change (changeExpected_inPlace change)
  · exact fun element => skeleton_setReference _ element
  · intro element found reference own
    rw [MetaElement.changeExpected, Element.reference_setReference, Option.map_eq_some_iff] at own
    obtain ⟨former, held, rfl⟩ := own
    have before := sound.references position former (by
      rw [Element.referenceAt, found, Option.bind_some, held])
    rw [keeps]
    exact before

theorem parameterAt_skeleton {root : MetaElement δ} {parameter : MetaParameter}
    (found : Element.parameterAt root position = some parameter) :
    (skeleton root).face? position = some (.inl parameter.type, []) := by
  rw [KeyedTree.face?, skeleton, KeyedTree.at?_map]
  unfold Element.parameterAt at found
  split at found
  next foundAt =>
    cases found
    rw [foundAt]
    rfl
  · cases found

theorem Sound.setReference [FloatingText δ] (sound : m.Sound) (element target : Position) :
    (m.setReference element target).Sound := by
  unfold MetaModel.setReference
  split
  · exact sound
  next parameter found =>
    split
    · apply sound.change (Element.setReference_inPlace _)
      · exact fun element => skeleton_setReference _ element
      · intro element _ reference own
        rw [Element.reference_setReference] at own
        cases own
        exact ⟨rfl, [], parameterAt_skeleton found⟩
    · exact sound

/-! ### New items -/

theorem skeleton_newComponent (id name description : Text) :
    skeleton (newComponent id name description : MetaElement δ) = .branch id .component [] := rfl

theorem skeleton_newParameter (id name description : Text) (type : DataType) :
    skeleton (newParameter id name description type : MetaElement δ) = .leaf id type := rfl

theorem skeleton_newList (id name description patternName patternDescription : Text) :
    skeleton (newList id name description patternName patternDescription : MetaElement δ) =
      .branch id .list [.branch star .component []] := rfl

theorem newList_shaped (id : Text) :
    Structure.Shaped (.branch id .list [.branch star .component []]) := by
  apply Structure.Shaped.of_children
  · exact List.nodup_singleton _
  · exact List.forall_mem_singleton.mpr (by decide)
  · exact fun _ => rfl
  · exact fun _ => List.forall_mem_singleton.mpr rfl
  · exact List.forall_mem_singleton.mpr (.component star)

/-- What a new item has to be: it has no references, and its parameters are registered. -/
structure NewItem (types : MetaTypesList) (item : MetaElement δ) : Prop where
  shaped : Structure.Shaped (skeleton item)
  lists : ∀ position ids, (skeleton item).face? position = some (.inr .list, ids) → ids = [star]
  registered : ∀ position type ids, (skeleton item).face? position = some (.inl type, ids) →
    types.getType type.id = some type
  unreferenced : ∀ position, Element.referenceAt item position = none

theorem addItem_cases (m : MetaModel δ) (position : Position) (item : MetaElement δ) :
    m.addItem position item = m ∨ ∃ id label items,
      m.root.at? position = some (.branch id label items) ∧ label.own.kind = .component ∧
        item.key ∉ items.map KeyedTree.key ∧ '/' ∉ item.key ∧
          m.addItem position item = { m with root := m.root.update (.addChild item) position } := by
  unfold MetaModel.addItem
  split
  next id label items found =>
    split
    next accepted =>
      obtain ⟨component, checked, absent⟩ := accepted
      have none : (KeyedTree.branch id label items).child? item.key = none :=
        Option.isNone_iff_eq_none.mp absent
      refine .inr ⟨id, label, items, found, component, KeyedTree.child?_eq_none.mp none, ?_, rfl⟩
      simpa [checkPathId] using checked
    · exact .inl rfl
  · exact .inl rfl

section NewItem

variable {id : Text} {label : Referring δ MetaContainer} {items : List (MetaElement δ)}
  {item : MetaElement δ} (found : m.root.at? position = some (.branch id label items))
  (component : label.own.kind = .component)

include found component

theorem at?_skeleton :
    (skeleton m.root).at? position = some (.branch id .component (items.map skeleton)) := by
  rw [skeleton, KeyedTree.at?_map, found, Option.map_some, KeyedTree.map, component,
    KeyedTree.mapAll_eq]
  rfl

omit found component in
theorem key_skeleton_notMem (fresh : item.key ∉ items.map KeyedTree.key) :
    (skeleton item).key ∉ (items.map skeleton).map KeyedTree.key := by
  have keys : (items.map skeleton).map KeyedTree.key = items.map KeyedTree.key := by
    rw [List.map_map]
    exact List.map_congr_left fun child _ => KeyedTree.key_map _ _ child
  rw [skeleton, KeyedTree.key_map, keys]
  exact fresh

omit found component in
theorem skeleton_addChild (position : Position) (item root : MetaElement δ) :
    skeleton (root.update (.addChild item) position) =
      (skeleton root).update (.addChild (skeleton item)) position :=
  KeyedTree.map_update_comm (fun tree => KeyedTree.map_addChild _ _ item tree) position root

variable (fresh : item.key ∉ items.map KeyedTree.key) {other : Position}
  {kind : DataType ⊕ ContainerKind} {ids : List Text} (others : kind ≠ .inr .component)

include fresh others

/-- The nodes that are no components are old ones or nodes of the new item. -/
theorem face_addChild
    (face : (skeleton (m.root.update (.addChild item) position)).face? other = some (kind, ids)) :
    (skeleton m.root).face? other = some (kind, ids) ∨
      ∃ rest, (skeleton item).face? rest = some (kind, ids) := by
  rw [skeleton_addChild, KeyedTree.face?_addChild (at?_skeleton found component)
    (key_skeleton_notMem fresh)] at face
  split at face
  · exact .inr ⟨_, face⟩
  split at face
  · cases face
    exact absurd rfl others
  · exact .inl face

theorem face_addChild_of_old (face : (skeleton m.root).face? other = some (kind, ids)) :
    (skeleton (m.root.update (.addChild item) position)).face? other = some (kind, ids) := by
  have found' := at?_skeleton found component
  have ne : other ≠ position := by
    rintro rfl
    rw [KeyedTree.face?, found'] at face
    cases face
    exact others rfl
  rw [skeleton_addChild, KeyedTree.face?_addChild_of_old found' (key_skeleton_notMem fresh)
    (by rw [face]; rfl) ne, face]

end NewItem

theorem Sound.addItem (sound : m.Sound) {item : MetaElement δ} (new : NewItem m.types item) :
    (m.addItem position item).Sound := by
  rcases addItem_cases m position item with same |
    ⟨id, label, items, found, component, fresh, whole, eq⟩
  · rw [same]
    exact sound
  rw [eq]
  have found' := at?_skeleton found component
  have fresh' := key_skeleton_notMem fresh
  have key : (skeleton item).key = item.key := KeyedTree.key_map _ _ item
  constructor
  · rw [skeleton_addChild]
    apply sound.shaped.addChild new.shaped found' fresh'
    · rw [key]
      exact whole
    · rintro ⟨⟩
  · exact (KeyedTree.key_update (KeyedTree.key_addChild item) position m.root).trans sound.key
  · obtain ⟨ids, root⟩ := sound.component
    by_cases here : position = []
    · subst here
      rw [skeleton_addChild, KeyedTree.face?_addChild found' fresh', if_neg (by simp), if_pos rfl]
      exact ⟨_, rfl⟩
    · refine ⟨ids, ?_⟩
      rw [skeleton_addChild, KeyedTree.face?_addChild_of_old found' fresh' (by rw [root]; rfl)
        (Ne.symm here), root]
  · intro other ids face
    rcases face_addChild found component fresh (by rintro ⟨⟩) face with old | ⟨rest, inItem⟩
    · exact sound.lists other ids old
    · exact new.lists rest ids inItem
  · intro other type ids face
    rcases face_addChild found component fresh (by rintro ⟨⟩) face with old | ⟨rest, inItem⟩
    · exact sound.registered other type ids old
    · exact new.registered rest type ids inItem
  · intro other reference referenced
    rw [Element.referenceAt_addChild found fresh] at referenced
    split at referenced
    · rw [new.unreferenced] at referenced
      cases referenced
    obtain ⟨model, ids, target⟩ := sound.references other reference referenced
    exact ⟨model, ids, face_addChild_of_old found component fresh (by rintro ⟨⟩) target⟩
  · exact sound.enums

theorem newComponent_new (types : MetaTypesList) (id name description : Text) :
    NewItem types (newComponent id name description : MetaElement δ) := by
  constructor
  · exact .component id
  · intro position ids face
    cases position with
    | nil => cases face
    | cons first rest => cases face
  · intro position type ids face
    cases position with
    | nil => cases face
    | cons first rest => cases face
  · intro position
    cases position with
    | nil => rfl
    | cons first rest => rfl

theorem newParameter_new (types : MetaTypesList) (id name description : Text) {type : DataType}
    (registered : types.getType type.id = some type) :
    NewItem types (newParameter id name description type : MetaElement δ) := by
  constructor
  · exact .leaf id type
  · intro position ids face
    cases position with
    | nil => cases face
    | cons first rest => cases face
  · intro position type' ids face
    cases position with
    | nil =>
        cases face
        exact registered
    | cons first rest => cases face
  · intro position
    cases position with
    | nil => rfl
    | cons first rest => rfl

theorem newList_new (types : MetaTypesList)
    (id name description patternName patternDescription : Text) :
    NewItem types
      (newList id name description patternName patternDescription : MetaElement δ) := by
  have pattern := newComponent_new (δ := δ) types star patternName patternDescription
  constructor
  · exact newList_shaped id
  · intro position ids face
    cases position with
    | nil =>
        cases face
        rfl
    | cons first rest =>
        by_cases own : first = star
        · subst own
          exact pattern.lists rest ids face
        · rw [skeleton_newList, KeyedTree.face?_cons, KeyedTree.child?_singleton] at face
          split at face
          next same => exact absurd same.symm own
          · cases face
  · intro position type ids face
    cases position with
    | nil => cases face
    | cons first rest =>
        by_cases own : first = star
        · subst own
          exact pattern.registered rest type ids face
        · rw [skeleton_newList, KeyedTree.face?_cons, KeyedTree.child?_singleton] at face
          split at face
          next same => exact absurd same.symm own
          · cases face
  · intro position
    cases position with
    | nil => rfl
    | cons first rest =>
        by_cases own : first = star
        · subst own
          exact pattern.unreferenced rest
        · rw [Element.referenceAt, newList, KeyedTree.at?_cons, KeyedTree.child?_singleton]
          split
          next same => exact absurd same.symm own
          · rfl

/-! ### Runs -/

/-- More types are registered. -/
theorem Sound.of_types (sound : m.Sound) {types : MetaTypesList}
    (kept : ∀ id type, m.types.getType id = some type → types.getType id = some type)
    (enums : ∀ entry ∈ types.entries, entry.2.values ≠ [] ∧
      uniqueValues entry.2.values = entry.2.values ∧ ∀ kind : ValueKind, kind.id ≠ entry.1) :
    Sound { m with types := types } where
  shaped := sound.shaped
  key := sound.key
  component := sound.component
  lists := sound.lists
  registered position type ids face := kept type.id type (sound.registered position type ids face)
  references := sound.references
  enums := enums

theorem Sound.addEnumType (sound : m.Sound) (id name : Text) (values : List Text)
    (description : Text) :
    Sound { m with types := (m.types.addEnumType id name values description).getD m.types } := by
  cases added : m.types.addEnumType id name values description with
  | none => exact sound
  | some types =>
      apply sound.of_types
      · exact fun other type found => MetaTypesList.getType_addEnumType added found
      · obtain ⟨nonempty, unknown, rfl⟩ := MetaTypesList.addEnumType_eq added
        apply SortedMap.forall_insert sound.enums
        exact ⟨nonempty, uniqueValues_of_strict (uniqueValues_strict values),
          (MetaTypesList.getType_eq_none unknown).2⟩

theorem create_sound (id : Nat) (version : Text) : (create id version : MetaModel δ).Sound where
  shaped := .component []
  key := rfl
  component := ⟨[], rfl⟩
  lists := (newComponent_new .empty [] _ _).lists
  registered := (newComponent_new .empty [] _ _).registered
  references := by
    intro position reference found
    rw [create, (newComponent_new .empty [] _ _).unreferenced] at found
    cases found
  enums := List.forall_mem_nil _

variable [FloatingText δ]

theorem Sound.call (sound : m.Sound) (call : MetaCall δ) : (m.call call).Sound := by
  cases call with
  | addEnumType id name values description => exact sound.addEnumType id name values description
  | setEnumDescription id description =>
      apply sound.of_types
      · intro other type found
        rw [MetaTypesList.getType_setDescription, found]
      · exact SortedMap.forall_modify sound.enums fun value own => own
  | setDescription element description => exact sound.changeInfo _
  | setAdvanced element advanced => exact sound.changeInfo _
  | setReadOnly element readOnly => exact sound.changeInfo _
  | setUnit parameter unit => exact sound.setUnit unit
  | addComponent component id name description =>
      exact sound.addItem (newComponent_new m.types id name description)
  | addList component id name patternName description patternDescription =>
      exact sound.addItem (newList_new m.types id name description patternName patternDescription)
  | addParameter component id name type description =>
      rw [MetaModel.call]
      split
      · exact sound
      next type' registered =>
        have own := MetaTypesList.getType_id registered
        exact sound.addItem (newParameter_new m.types id name description (by rw [own, registered]))
  | setReference element target => exact sound.setReference element target
  | resetReference element =>
      apply sound.change (Element.setReference_inPlace none)
      · exact fun element => skeleton_setReference none element
      · intro element _ reference own
        rw [Element.reference_setReference] at own
        cases own
  | setExpected element value => exact sound.changeExpected fun data => Data.set_type data value
  | resetExpected element => exact sound.changeExpected Data.reset_type

theorem build_sound (id : Nat) (version : Text) (calls : List (MetaCall δ)) :
    (build id version calls).Sound := by
  unfold build
  have start := create_sound (δ := δ) id version
  generalize create id version = m at start
  induction calls generalizing m with
  | nil => exact start
  | cons call calls ih => exact ih _ (start.call call)

end MetaModel

end OpenSand.Conf
