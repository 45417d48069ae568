import OpenSand.Conf.DataModel
import OpenSand.Conf.MetaSound

/-!
What the data models keep, from their creation on.

`DataModel.Sound` says that the items of a list are numbered, that no pattern has items in its
lists, and that each reference is between two elements that their paths lead to. The data of a
meta model are sound (`createData_sound`), and a pattern of a sound model is duplicated label by
label (`DataModels.duplicate_eq`).
-/

namespace OpenSand.Conf

/-! ### Types -/

namespace DataTypesList

theorem getType_addType (types : DataTypesList) (type : DataType) (id : Text) :
    getType (addType types type) id =
      (getType types id).or (if type.id = id then some type else none) := by
  unfold addType
  split
  next known =>
    by_cases same : type.id = id
    · subst same
      obtain ⟨former, found⟩ := Option.isSome_iff_exists.mp known
      rw [found, Option.some_or]
    · rw [if_neg same, Option.or_none]
  next =>
    rw [getType, List.find?_append]
    congr 1
    by_cases same : type.id = id
    · simp [same]
    · simp [same]

theorem getType_foldl (added types : DataTypesList) (id : Text) :
    getType (added.foldl addType types) id =
      (getType types id).or (added.find? (·.id = id)) := by
  induction added generalizing types with
  | nil => exact Option.or_none.symm
  | cons type added ih =>
      rw [List.foldl_cons, ih, getType_addType, Option.or_assoc]
      congr 1
      by_cases same : type.id = id
      · simp [same]
      · simp [same]

/-- The types of a meta model are the ones of its data. -/
theorem getType_createData {types : MetaTypesList} {id : Text} {type : DataType}
    (found : types.getType id = some type) : types.createData.getType id = some type := by
  rw [MetaTypesList.createData, getType_foldl, List.find?_append, List.find?_map, List.find?_map]
  change Option.or none (Option.or (Option.map _ (builtinTypes.find? (·.id = id)))
    (Option.map _ (types.entries.find? (·.1 = id)))) = some type
  unfold MetaTypesList.getType at found
  split at found
  next kind builtin =>
    cases found
    rw [builtin]
    rfl
  next absent =>
    rw [absent, Option.map_none, Option.none_or, Option.none_or]
    obtain ⟨enum, stored, rfl⟩ := Option.map_eq_some_iff.mp found
    obtain ⟨entry, first, rfl⟩ := Option.map_eq_some_iff.mp stored
    have own : entry.1 = id := by simpa using List.find?_some first
    have first' : types.entries.find? (·.1 = id) = some entry := by convert first
    rw [first', ← own]
    rfl

end DataTypesList

/-! ### Structure and references -/

namespace Data

variable {δ : Type} [FloatingText δ]

/-- What a copy of a reference expects. -/
def renewed (data : Data δ) : Data δ := ((create data.type).copy data).2

@[simp] theorem renewed_type (data : Data δ) : data.renewed.type = data.type :=
  copy_type (create data.type) data

theorem copy_renewed (data : Data δ) : (create data.type).copy data = (true, data.renewed) := by
  obtain ⟨copied, eq, -⟩ := copy_create data
  rw [renewed, eq]

theorem renewed_same_iff (data : Data δ) : data.renewed.Same data ↔ data.Copies := by
  obtain ⟨copied, eq, -, state⟩ := copy_create data
  rw [Same, renewed, eq, ← state]
  exact and_iff_right (renewed_type data ▸ by rw [renewed, eq])

end Data

namespace DataElement

variable {δ : Type} {root other : DataElement δ} {position : Position}

theorem skeleton_congr (same : root.erase = other.erase) : skeleton root = skeleton other := by
  have eq (root : DataElement δ) : skeleton root = root.erase.map Data.type id := by
    rw [Element.erase, KeyedTree.map_map]
    rfl
  rw [eq, eq, same]

theorem getItemFromRoot_skeleton (root : DataElement δ) :
    getItemFromRoot root = Structure.getItemFromRoot (·) true (skeleton root) := by
  funext path
  have same : Structure.getItemFromRoot (·) true (skeleton root) path =
      Structure.getItemFromRoot Referring.own true root path :=
    Structure.getItemFromRoot_map (fun _ => rfl) true root path
  exact same.symm

theorem getItemFromRoot_structural : Element.Structural (getItemFromRoot (δ := δ)) := by
  intro root other same
  rw [getItemFromRoot_skeleton, getItemFromRoot_skeleton, skeleton_congr same]

theorem isSome_at?_skeleton : ((skeleton root).face? position).isSome = (root.at? position).isSome := by
  rw [KeyedTree.face?, skeleton, KeyedTree.at?_map, Option.isSome_map, Option.isSome_map]

theorem getItemFromRoot_inside (shaped : Structure.Shaped (skeleton root)) :
    Element.Inside getItemFromRoot root := by
  intro path position found
  rw [getItemFromRoot_skeleton, Structure.getItemFromRoot] at found
  split at found
  · cases found
  obtain ⟨element, way, rfl⟩ := Option.map_eq_some_iff.mp found
  rw [← isSome_at?_skeleton, KeyedTree.face?, shaped.at?_of_descend way]
  rfl

theorem parameterAt_face {data : Data δ} (found : Element.parameterAt root position = some data) :
    (skeleton root).face? position = some (.inl data.type, []) := by
  unfold Element.parameterAt at found
  split at found
  next id label foundAt =>
    cases found
    rw [KeyedTree.face?, skeleton, KeyedTree.at?_map, foundAt]
    rfl
  · cases found

theorem exists_parameterAt {type : DataType} {ids : List Text}
    (face : (skeleton root).face? position = some (.inl type, ids)) :
    ∃ data, Element.parameterAt root position = some data ∧ data.type = type :=
  Element.exists_parameterAt face

end DataElement

/-- What a reference of a model keeps: the paths of the element and of its target lead to them,
and a target in an item of a list is one for the elements of that item only. -/
structure Reference.Sound {δ : Type} (model : Nat) (skeleton : Skeleton) (position : Position)
    (reference : Reference δ) : Prop where
  model : reference.target.model = model
  element : Structure.Findable skeleton position
  target : Structure.Findable skeleton reference.target.position
  typed : ∃ ids, skeleton.face? reference.target.position =
    some (.inl reference.expected.type, ids)
  enclosed : ∀ list id keys, skeleton.face? list = some (.inr .list, keys) → id ≠ star →
    list ++ [id] <+: reference.target.position → list ++ [id] <+: position

namespace DataModel

open DataElement

variable {δ : Type}

structure Sound (model : Nat) (d : DataModel δ) : Prop where
  shaped : Structure.Shaped (skeleton d.root)
  key : d.root.key = []
  component : ∃ ids, (skeleton d.root).face? [] = some (.inr .component, ids)
  numbered : ∀ list ids, (skeleton d.root).face? list = some (.inr .list, ids) →
    ∃ count, ids = star :: (List.range count).map DataModels.itemId
  patterns : ∀ list rest keys ids, (skeleton d.root).face? list = some (.inr .list, keys) →
    (skeleton d.root).face? (list ++ star :: rest) = some (.inr .list, ids) → ids = [star]
  registered : ∀ position type ids, (skeleton d.root).face? position = some (.inl type, ids) →
    d.types.getType type.id = some type
  references : ∀ position reference, Element.referenceAt d.root position = some reference →
    reference.Sound model (skeleton d.root) position

variable [FloatingText δ] {m : MetaModel δ}

/-! ### Creation -/

theorem createData_root (sound : m.Sound) :
    ∃ root : DataElement δ, MetaElement.createData m.types.createData m.root = some root ∧
      skeleton root = MetaElement.skeleton m.root ∧
        ∀ position, Element.referenceAt root position = none := by
  let bare : KeyedTree Text (Data δ) ContainerKind :=
    m.root.map (fun label => Data.create label.own.type) (fun label => label.own.kind)
  refine ⟨Element.bare bare, ?_, ?_, Element.referenceAt_bare bare⟩
  · rw [Element.bare, KeyedTree.map_map]
    apply KeyedTree.traverse_eq_map (KeyedTree.distinct_map.mp sound.shaped.distinct)
    · intro position label keys face
      have shown : (MetaElement.skeleton m.root).face? position =
          some (.inl label.own.type, keys) := by
        rw [MetaElement.skeleton, KeyedTree.face?_map, face]
        rfl
      rw [DataTypesList.getType_createData (sound.registered position _ keys shown)]
      rfl
    · exact fun _ _ _ _ => rfl
  · rw [skeleton, Element.bare, KeyedTree.map_map, KeyedTree.map_map]
    rfl

/-- The references of the data come from the ones of the meta model. -/
theorem linked_sound {root : DataElement δ} (sound : m.Sound)
    (same : skeleton root = MetaElement.skeleton m.root) {model : Nat} {entry : Element.Link δ}
    (mem : entry ∈ Element.links m.root) {position : Position} {reference : Reference δ}
    (link : Element.linked Data.type getItemFromRoot model [] root entry =
      some (position, reference)) :
    reference.Sound model (skeleton root) position := by
  obtain ⟨⟨element, former⟩, found, rfl⟩ := List.mem_map.mp mem
  have referenced : Element.referenceAt m.root element = some former :=
    (Element.referenced_of_mem (fun _ => .refl _)
      (KeyedTree.distinct_map.mp sound.shaped.distinct)).mp found
  obtain ⟨node, foundNode, -⟩ := Option.bind_eq_some_iff.mp referenced
  obtain ⟨-, keys, face⟩ := sound.references element former referenced
  have wholeElement : ∀ id ∈ element, '/' ∉ id := sound.shaped.whole_position (by
    rw [MetaElement.skeleton, KeyedTree.face?_map, KeyedTree.face?, foundNode]
    rfl)
  have wholeTarget : ∀ id ∈ former.target.position, '/' ∉ id :=
    sound.shaped.whole_position (by rw [face]; rfl)
  obtain ⟨foundElement, target, parameter, foundTarget, isParameter, -, rfl⟩ :=
    Element.linked_eq_some.mp link
  rw [getItemFromRoot_skeleton] at foundElement foundTarget
  have findable := (Structure.findable_of_getItemFromRoot wholeTarget foundTarget).1
  have typed := parameterAt_face isParameter
  refine ⟨rfl, (Structure.findable_of_getItemFromRoot wholeElement foundElement).1, findable, ?_, ?_⟩
  · rw [Data.copy_type, Data.create_type]
    exact ⟨[], typed⟩
  · intro list id keys isList other below
    obtain ⟨rest, below⟩ := below
    rw [List.append_assoc] at below
    have inside : ((skeleton root).face? (list ++ id :: rest)).isSome := by
      rw [← List.singleton_append, below]
      exact Option.isSome_iff_exists.mpr ⟨_, typed⟩
    have mem := KeyedTree.mem_keys_of_below isList inside
    rw [same] at isList
    rw [sound.lists list keys isList] at mem
    exact absurd (List.mem_singleton.mp mem) other

/-- The data have the elements of the meta model, and their references are set in a second pass. -/
theorem createData_cases (sound : m.Sound) {model : Nat} {d : DataModel δ}
    (created : m.createData model = some d) :
    d.types = m.types.createData ∧ ∃ root : DataElement δ,
      skeleton root = MetaElement.skeleton m.root ∧
      (∀ position, Element.referenceAt root position = none) ∧
      Element.linkAll Data.type getItemFromRoot model [] root (Element.links m.root) = some d.root := by
  obtain ⟨root, made, same, unreferenced⟩ := createData_root sound
  rw [MetaModel.createData, made, Option.bind_some] at created
  dsimp only at created
  split at created
  · obtain ⟨root', linked, rfl⟩ := Option.map_eq_some_iff.mp created
    exact ⟨rfl, root, same, unreferenced, linked⟩
  · cases created

theorem createData_skeleton (sound : m.Sound) {model : Nat} {d : DataModel δ}
    (created : m.createData model = some d) : skeleton d.root = MetaElement.skeleton m.root := by
  obtain ⟨-, root, same, -, linked⟩ := createData_cases sound created
  exact (skeleton_congr (Element.linkAll_erase linked)).trans same

/-- Every reference of the data comes from an entry of the second pass. -/
theorem createData_linked (sound : m.Sound) {model : Nat} {d : DataModel δ}
    (created : m.createData model = some d) {position : Position} {reference : Reference δ}
    (referenced : Element.referenceAt d.root position = some reference) :
    ∃ root : DataElement δ, skeleton root = MetaElement.skeleton m.root ∧
      ∃ entry ∈ Element.links m.root,
        Element.linked Data.type getItemFromRoot model [] root entry = some (position, reference) := by
  obtain ⟨-, root, same, unreferenced, linked⟩ := createData_cases sound created
  have shaped : Structure.Shaped (skeleton root) := same ▸ sound.shaped
  rcases Element.linkAll_origin getItemFromRoot_structural (getItemFromRoot_inside shaped) linked
    position with ⟨kept, -⟩ | ⟨entry, mem, reference', link, final⟩
  · rw [unreferenced, referenced] at kept
    cases kept
  · rw [referenced] at final
    cases final
    exact ⟨root, same, entry, mem, link⟩

theorem createData_sound (sound : m.Sound) {model : Nat} {d : DataModel δ}
    (created : m.createData model = some d) : d.Sound model := by
  have types := (createData_cases sound created).1
  have same := createData_skeleton sound created
  constructor
  · rw [same]
    exact sound.shaped
  · have keys := congrArg KeyedTree.key same
    rwa [skeleton, KeyedTree.key_map, MetaElement.skeleton, KeyedTree.key_map, sound.key] at keys
  · rw [same]
    exact sound.component
  · intro list ids face
    rw [same] at face
    exact ⟨0, sound.lists list ids face⟩
  · intro list rest keys ids _ face
    rw [same] at face
    exact sound.lists _ ids face
  · intro position type ids face
    rw [same] at face
    rw [types]
    exact DataTypesList.getType_createData (sound.registered position type ids face)
  · intro position reference referenced
    obtain ⟨root, same', entry, mem, link⟩ := createData_linked sound created referenced
    rw [same, ← same']
    exact linked_sound sound same' mem link

end DataModel

end OpenSand.Conf
