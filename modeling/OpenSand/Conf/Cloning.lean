import OpenSand.Conf.ItemReferences
import OpenSand.Lib.Turns

/-!
The copies of models (`MetaModel::clone`, `MetaModel::createData`, `DataModel::clone`).

The second pass gives each element of a copy the reference of the original, with its target at the
same position of the copy (`Element.exists_relinked`), provided that the paths of both lead to
them. What a reference expects is copied whether it is set or not. `cloneLaw_iff` says for which
meta models the copies are faithful.
-/

namespace OpenSand.Conf

variable {δ : Type}

/-! ### The references of a copy -/

/-- The reference of a copy of a model: it stays in the copy and expects the same. -/
structure Reference.Mirror (model : Nat) (reference copy : Reference δ) : Prop where
  target : copy.target = ⟨model, reference.target.position⟩
  expected : copy.expected.Same reference.expected

namespace Element

variable {α β α' β' : Type}

/-- The elements of a copy have the references of the original, within the copy. -/
def Mirrors (model : Nat) (root : Element δ α β) (copy : Element δ α' β') : Prop :=
  ∀ position, Option.Rel (Reference.Mirror model) (root.referenceAt position)
    (copy.referenceAt position)

variable {root : Element δ α β} {copy : Element δ α' β'} {model : Nat}

theorem Mirrors.of_original (mirrors : Mirrors model root copy) {position : Position}
    {reference : Reference δ} (referenced : root.referenceAt position = some reference) :
    ∃ reference', copy.referenceAt position = some reference' ∧
      reference.Mirror model reference' := by
  have related := mirrors position
  rw [referenced] at related
  generalize copy.referenceAt position = other at related
  cases related with
  | some mirror => exact ⟨_, rfl, mirror⟩

theorem Mirrors.of_copy (mirrors : Mirrors model root copy) {position : Position}
    {reference' : Reference δ} (referenced : copy.referenceAt position = some reference') :
    ∃ reference, root.referenceAt position = some reference ∧
      reference.Mirror model reference' := by
  have related := mirrors position
  rw [referenced] at related
  generalize root.referenceAt position = other at related
  cases related with
  | some mirror => exact ⟨_, rfl, mirror⟩

/-- The entry of the second pass for a reference. -/
def link (position : Position) (reference : Reference δ) : Link δ :=
  ⟨pathText position, pathText reference.target.position, reference.expected⟩

theorem mem_links (distinct : root.Distinct) {entry : Link δ} :
    entry ∈ links root ↔ ∃ position reference, root.referenceAt position = some reference ∧
      entry = link position reference := by
  rw [links, List.mem_map]
  constructor
  · rintro ⟨⟨position, reference⟩, mem, rfl⟩
    exact ⟨position, reference, (referenced_of_mem (fun _ => .refl _) distinct).mp mem, rfl⟩
  · rintro ⟨position, reference, referenced, rfl⟩
    exact ⟨(position, reference),
      (referenced_of_mem (fun _ => .refl _) distinct).mpr referenced, rfl⟩

end Element

variable [FloatingText δ]

/-- The reference that the second pass gives to an element of a copy. -/
def Reference.relinked (model : Nat) (reference : Reference δ) : Reference δ :=
  ⟨⟨model, reference.target.position⟩, reference.expected.renewed⟩

theorem Reference.mirror_relinked_iff (model : Nat) (reference : Reference δ) :
    reference.Mirror model (reference.relinked model) ↔ reference.expected.Copies := by
  rw [← Data.renewed_same_iff]
  exact ⟨fun mirror => mirror.expected, fun same => ⟨rfl, same⟩⟩

namespace Element

variable {α β α' β' : Type} {root : Element δ α β} {copy : Element δ α' β'} {model : Nat}

variable {typeOf : α' → DataType} {find : Element δ α' β' → Text → Option Position}

theorem linked_link {position : Position} {reference : Reference δ} {parameter : α'}
    (element : find copy (pathText position) = some position)
    (target : find copy (pathText reference.target.position) = some reference.target.position)
    (isParameter : copy.parameterAt reference.target.position = some parameter)
    (typed : typeOf parameter = reference.expected.type) :
    linked typeOf find model [] copy (link position reference) =
      some (position, reference.relinked model) := by
  rw [linked_eq_some]
  refine ⟨element, _, parameter, target, isParameter, by rw [typed]; rfl, ?_⟩
  rw [typed, link, Data.copy_renewed]
  rfl

/-- The references of a copy, when each of them is found by its paths. -/
theorem linkAll_relinked (structural : Structural find) (within : Inside find copy)
    (distinct : root.Distinct) (unreferenced : ∀ position, copy.referenceAt position = none)
    (found : ∀ position reference, root.referenceAt position = some reference →
      linked typeOf find model [] copy (link position reference) =
        some (position, reference.relinked model))
    {copy' : Element δ α' β'} (done : linkAll typeOf find model [] copy (links root) = some copy')
    (position : Position) :
    copy'.referenceAt position = (root.referenceAt position).map (Reference.relinked model) := by
  rcases linkAll_origin structural within done position with
    ⟨kept, untouched⟩ | ⟨entry, mem, reference', linked, final⟩
  · rw [kept, unreferenced, eq_comm, Option.map_eq_none_iff, Option.eq_none_iff_forall_ne_some]
    intro reference referenced
    exact untouched _ ((mem_links distinct).mpr ⟨position, reference, referenced, rfl⟩) _
      (found position reference referenced)
  · obtain ⟨position', reference, referenced, rfl⟩ := (mem_links distinct).mp mem
    rw [found position' reference referenced] at linked
    cases linked
    rw [final, referenced, Option.map_some]

theorem exists_relinked (structural : Structural find) (within : Inside find copy)
    (distinct : root.Distinct) (unreferenced : ∀ position, copy.referenceAt position = none)
    (found : ∀ position reference, root.referenceAt position = some reference →
      linked typeOf find model [] copy (link position reference) =
        some (position, reference.relinked model)) :
    ∃ copy', linkAll typeOf find model [] copy (links root) = some copy' ∧
      copy'.erase = copy.erase ∧ ∀ position, copy'.referenceAt position =
        (root.referenceAt position).map (Reference.relinked model) := by
  have each : ∀ entry ∈ links root, (linked typeOf find model [] copy entry).isSome := by
    intro entry mem
    obtain ⟨position, reference, referenced, rfl⟩ := (mem_links distinct).mp mem
    rw [found position reference referenced]
    rfl
  obtain ⟨copy', done⟩ := Option.isSome_iff_exists.mp ((linkAll_isSome structural).mpr each)
  exact ⟨copy', done, linkAll_erase done,
    linkAll_relinked structural within distinct unreferenced found done⟩

theorem mirrors_relinked (relinked : ∀ position, copy.referenceAt position =
      (root.referenceAt position).map (Reference.relinked model))
    (copies : ∀ position reference, root.referenceAt position = some reference →
      reference.expected.Copies) : Mirrors model root copy := by
  intro position
  rw [relinked]
  cases referenced : root.referenceAt position with
  | none => exact .none
  | some reference =>
      exact .some ((reference.mirror_relinked_iff model).mpr (copies position reference referenced))

end Element

/-! ### Clones of meta models -/

namespace MetaElement

omit [FloatingText δ] in
theorem getItemFromRoot_structural : Element.Structural (getItemFromRoot (δ := δ)) := by
  intro root other same
  funext path
  have nodes : (root.at? (splitPath path)).map Element.erase =
      (other.at? (splitPath path)).map Element.erase := by
    rw [← Element.at?_erase, ← Element.at?_erase, same]
  apply Option.ext
  intro position
  rw [getItemFromRoot_eq_some, getItemFromRoot_eq_some]
  refine and_congr_right fun _ => and_congr_right ?_
  rintro rfl
  rw [← Option.isSome_map (f := Element.erase), nodes, Option.isSome_map]

omit [FloatingText δ] in
theorem getItemFromRoot_inside (root : MetaElement δ) : Element.Inside getItemFromRoot root :=
  fun _ _ found => (getItemFromRoot_eq_some.mp found).2.2

end MetaElement

namespace MetaModel

variable {m c : MetaModel δ} {model : Nat}

/-- A copy of a meta model, with the same elements. -/
structure Copy (model : Nat) (m c : MetaModel δ) : Prop where
  id : c.id = model
  version : c.version = m.version
  types : c.types = m.types
  root : c.root.erase = m.root.erase
  references : Element.Mirrors model m.root c.root

/-- The references lead by paths from and to where they are, and what they expect is set, or cannot
be set. -/
def Clonable (m : MetaModel δ) : Prop :=
  ∀ position reference, Element.referenceAt m.root position = some reference →
    position ≠ [] ∧ [] ∉ position ∧ [] ∉ reference.target.position ∧ reference.expected.Copies

omit [FloatingText δ] in
theorem skeleton_erase (root : MetaElement δ) : MetaElement.skeleton root =
    root.erase.map MetaParameter.type MetaContainer.kind := by
  rw [Element.erase, KeyedTree.map_map]
  rfl

omit [FloatingText δ] in
/-- A copy of a sound model is sound. -/
theorem Copy.sound (copy : m.Copy model c) (sound : m.Sound) : c.Sound := by
  have same : MetaElement.skeleton c.root = MetaElement.skeleton m.root := by
    rw [skeleton_erase, copy.root, ← skeleton_erase]
  constructor
  · rw [same]
    exact sound.shaped
  · have keys := congrArg KeyedTree.key copy.root
    rwa [Element.erase, Element.erase, KeyedTree.key_map, KeyedTree.key_map, sound.key] at keys
  · rw [same]
    exact sound.component
  · rw [same]
    exact sound.lists
  · rw [same, copy.types]
    exact sound.registered
  · intro position reference' referenced
    obtain ⟨reference, original, mirror⟩ := copy.references.of_copy referenced
    rw [mirror.target, copy.id, mirror.expected.1, same]
    exact ⟨rfl, (sound.references position reference original).2⟩
  · rw [copy.types]
    exact sound.enums

omit [FloatingText δ] in
/-- The structure of the clone. -/
theorem clone_root (sound : m.Sound) :
    m.root.clone m.types = some (Element.bare m.root.erase) := by
  rw [Element.bare, Element.erase, KeyedTree.map_map]
  apply KeyedTree.traverse_eq_map (KeyedTree.distinct_map.mp sound.shaped.distinct)
  · intro position label keys face
    have shown : (MetaElement.skeleton m.root).face? position =
        some (.inl label.own.type, keys) := by
      rw [MetaElement.skeleton, KeyedTree.face?_map, face]
      rfl
    rw [sound.registered position _ keys shown]
    rfl
  · exact fun _ _ _ _ => rfl

theorem clone_eq (sound : m.Sound) (model : Nat) : m.clone model =
    (Element.linkAll MetaParameter.type MetaElement.getItemFromRoot model []
      (Element.bare m.root.erase) (Element.links m.root)).map
        fun root => ⟨model, m.version, m.types, root⟩ := by
  rw [MetaModel.clone, clone_root sound, Option.bind_some]

omit [FloatingText δ] in
/-- A path leads to the position without the empty identifiers. -/
theorem getItemFromRoot_bare (sound : m.Sound) {position found : Position}
    (inside : (m.root.at? position).isSome) :
    MetaElement.getItemFromRoot (Element.bare m.root.erase : MetaElement δ) (pathText position) =
        some found ↔
      found ≠ [] ∧ found = position.filter (· ≠ []) ∧ (m.root.at? found).isSome := by
  have whole : ∀ id ∈ position, '/' ∉ id :=
    sound.shaped.whole_position (MetaElement.isSome_face?.mpr inside)
  have nodes (other : Position) :
      ((Element.bare m.root.erase : MetaElement δ).at? other).isSome =
        (m.root.at? other).isSome := by
    rw [Element.bare, KeyedTree.at?_map, Option.isSome_map, Element.at?_erase, Option.isSome_map]
  rw [MetaElement.getItemFromRoot_eq_some, splitPath_pathText whole, nodes]
  constructor
  · rintro ⟨ne, rfl, here⟩
    exact ⟨filter_ne_nil ne, rfl, here⟩
  · rintro ⟨ne, rfl, here⟩
    refine ⟨?_, rfl, here⟩
    intro root
    have split := splitPath_pathText whole
    rw [root] at split
    exact ne split.symm

omit [FloatingText δ] in
theorem parameterAt_bare (root : MetaElement δ) (position : Position) :
    Element.parameterAt (Element.bare root.erase : MetaElement δ) position =
      root.parameterAt position :=
  Element.parameterAt_erase (Element.erase_bare root.erase) position

omit [FloatingText δ] in
/-- The target of a reference is a parameter of the type that is expected. -/
theorem exists_target (sound : m.Sound) {position : Position} {reference : Reference δ}
    (referenced : Element.referenceAt m.root position = some reference) :
    ∃ parameter, m.root.parameterAt reference.target.position = some parameter ∧
      parameter.type = reference.expected.type := by
  obtain ⟨-, ids, face⟩ := sound.references position reference referenced
  exact Element.exists_parameterAt face

/-- In a clone a reference is found again by its paths. -/
theorem linked_clone (sound : m.Sound) (clonable : m.Clonable) (model : Nat) {position : Position}
    {reference : Reference δ} (referenced : Element.referenceAt m.root position = some reference) :
    Element.linked MetaParameter.type MetaElement.getItemFromRoot model []
        (Element.bare m.root.erase) (Element.link position reference) =
      some (position, reference.relinked model) := by
  obtain ⟨ne, named, namedTarget, -⟩ := clonable position reference referenced
  obtain ⟨parameter, isParameter, typed⟩ := exists_target sound referenced
  have inside := Element.inside_of_referenceAt referenced
  have insideTarget := Element.inside_of_parameterAt isParameter
  have below : reference.target.position ≠ [] := by
    intro root
    obtain ⟨ids, component⟩ := sound.component
    obtain ⟨-, ids', face⟩ := sound.references position reference referenced
    rw [root, component] at face
    cases face
  apply Element.linked_link
  · rw [getItemFromRoot_bare sound inside, filter_eq_self_iff.mpr named]
    exact ⟨ne, rfl, inside⟩
  · rw [getItemFromRoot_bare sound insideTarget, filter_eq_self_iff.mpr namedTarget]
    exact ⟨below, rfl, insideTarget⟩
  · rw [parameterAt_bare, isParameter]
  · exact typed

theorem Clonable.exists_copy (clonable : m.Clonable) (sound : m.Sound) (model : Nat) :
    ∃ c, m.clone model = some c ∧ m.Copy model c := by
  obtain ⟨root, done, same, relinked⟩ := Element.exists_relinked
    MetaElement.getItemFromRoot_structural (MetaElement.getItemFromRoot_inside _)
    (KeyedTree.distinct_map.mp sound.shaped.distinct) (Element.referenceAt_bare m.root.erase)
    fun _ _ => linked_clone sound clonable model
  refine ⟨⟨model, m.version, m.types, root⟩, ?_, rfl, rfl, rfl, ?_, ?_⟩
  · rw [clone_eq sound, done]
    rfl
  · exact same.trans (Element.erase_bare m.root.erase)
  · apply Element.mirrors_relinked relinked
    intro position reference referenced
    exact (clonable position reference referenced).2.2.2

/-- What a clone refers to is found by the paths of an element and a target. -/
theorem clone_linked (sound : m.Sound) {model : Nat} (cloned : m.clone model = some c)
    {position : Position} {reference' : Reference δ}
    (referenced : Element.referenceAt c.root position = some reference') :
    ∃ position' reference, Element.referenceAt m.root position' = some reference ∧
      Element.linked MetaParameter.type MetaElement.getItemFromRoot model []
        (Element.bare m.root.erase) (Element.link position' reference) =
      some (position, reference') := by
  rw [clone_eq sound, Option.map_eq_some_iff] at cloned
  obtain ⟨root, done, rfl⟩ := cloned
  have distinct : m.root.Distinct := KeyedTree.distinct_map.mp sound.shaped.distinct
  rcases Element.linkAll_origin MetaElement.getItemFromRoot_structural
    (MetaElement.getItemFromRoot_inside _) done position with
    ⟨kept, -⟩ | ⟨entry, mem, reference'', linked, final⟩
  · rw [Element.referenceAt_bare, referenced] at kept
    cases kept
  · obtain ⟨position', reference, original, rfl⟩ := (Element.mem_links distinct).mp mem
    rw [referenced] at final
    cases final
    exact ⟨position', reference, original, linked⟩

/-- A faithful clone was made of references that are found by their paths. -/
theorem Copy.clonable (copy : m.Copy model c) (sound : m.Sound) (cloned : m.clone model = some c) :
    m.Clonable := by
  have named {position : Position} {reference : Reference δ}
      (referenced : Element.referenceAt m.root position = some reference) :
      position ≠ [] ∧ [] ∉ position := by
    obtain ⟨reference', copied, -⟩ := copy.references.of_original referenced
    obtain ⟨position', former, original, linked⟩ := clone_linked sound cloned copied
    obtain ⟨ne, own, -⟩ := (getItemFromRoot_bare sound (Element.inside_of_referenceAt original)).mp
      (Element.linked_eq_some.mp linked).1
    refine ⟨ne, ?_⟩
    rw [own]
    simp
  intro position reference referenced
  obtain ⟨reference', copied, mirror⟩ := copy.references.of_original referenced
  obtain ⟨position', former, original, linked⟩ := clone_linked sound cloned copied
  obtain ⟨found, target, parameter, foundTarget, isParameter, -, rfl⟩ :=
    Element.linked_eq_some.mp linked
  -- the elements with references have names, so only the own entry leads to the position
  have own := ((getItemFromRoot_bare sound (Element.inside_of_referenceAt original)).mp found).2.1
  rw [filter_eq_self_iff.mpr (named original).2] at own
  subst own
  cases original.symm.trans referenced
  obtain rfl : target = reference.target.position := congrArg Pointer.position mirror.target
  obtain ⟨parameter', isParameter', typed⟩ := exists_target sound referenced
  rw [parameterAt_bare, isParameter'] at isParameter
  cases isParameter
  have namedTarget :=
    ((getItemFromRoot_bare sound (Element.inside_of_parameterAt isParameter')).mp foundTarget).2.1
  refine ⟨(named referenced).1, (named referenced).2, ?_, ?_⟩
  · rw [namedTarget]
    simp
  · have same := mirror.expected
    rwa [typed, Element.link, Data.copy_renewed, Data.renewed_same_iff] at same

end MetaModel

/-! ### Data -/

omit [FloatingText δ] in
/-- A path that leads anywhere leads to its own element when no identifier is empty. -/
theorem DataElement.getItemFromRoot_own {root : DataElement δ} {position found : Position}
    (shaped : Structure.Shaped root.skeleton) (inside : (root.skeleton.face? position).isSome)
    (named : [] ∉ position) (get : root.getItemFromRoot (pathText position) = some found) :
    root.getItemFromRoot (pathText position) = some position := by
  rw [getItemFromRoot_skeleton] at get ⊢
  have same := (Structure.findable_of_getItemFromRoot (shaped.whole_position inside) get).2
  rw [get, same, filter_eq_self_iff.mpr named]

namespace MetaModel

variable {m : MetaModel δ}

theorem createData_isSet (sound : m.Sound) {model : Nat} {d : DataModel δ}
    (created : m.createData model = some d) {position : Position} {reference : Reference δ}
    (referenced : Element.referenceAt m.root position = some reference) :
    reference.expected.isSet = true := by
  obtain ⟨root, made, -, -⟩ := DataModel.createData_root sound
  rw [MetaModel.createData, made, Option.bind_some] at created
  dsimp only at created
  split at created
  next all =>
    have distinct : m.root.Distinct := KeyedTree.distinct_map.mp sound.shaped.distinct
    have mem := (Element.mem_links distinct).mpr ⟨position, reference, referenced, rfl⟩
    exact List.all_eq_true.mp all _ mem
  · cases created

/-- The references of the data, when those of the meta model are found by their paths. -/
theorem Clonable.createData_relinked (clonable : m.Clonable) (sound : m.Sound) {model : Nat}
    {d : DataModel δ} (created : m.createData model = some d) (position : Position) :
    Element.referenceAt d.root position =
      (Element.referenceAt m.root position).map (Reference.relinked model) := by
  obtain ⟨-, root, same, unreferenced, done⟩ := DataModel.createData_cases sound created
  have shaped : Structure.Shaped (DataElement.skeleton root) := same ▸ sound.shaped
  have distinct : m.root.Distinct := KeyedTree.distinct_map.mp sound.shaped.distinct
  refine Element.linkAll_relinked DataElement.getItemFromRoot_structural
    (DataElement.getItemFromRoot_inside shaped) distinct unreferenced ?_ done position
  intro position reference referenced
  obtain ⟨-, named, namedTarget, -⟩ := clonable position reference referenced
  obtain ⟨-, ids, face⟩ := sound.references position reference referenced
  rw [← same] at face
  obtain ⟨data, isParameter, typed⟩ := DataElement.exists_parameterAt face
  have linked := (Element.linkAll_isSome DataElement.getItemFromRoot_structural).mp
    (by rw [done]; rfl) _ ((Element.mem_links distinct).mpr ⟨position, reference, referenced, rfl⟩)
  obtain ⟨⟨position', reference'⟩, linked⟩ := Option.isSome_iff_exists.mp linked
  obtain ⟨found, target, parameter, foundTarget, -, -, -⟩ := Element.linked_eq_some.mp linked
  apply Element.linked_link
  · refine DataElement.getItemFromRoot_own shaped ?_ named found
    rw [same]
    exact MetaElement.isSome_face?.mpr (Element.inside_of_referenceAt referenced)
  · exact DataElement.getItemFromRoot_own shaped (by rw [face]; rfl) namedTarget foundTarget
  · exact isParameter
  · exact typed

end MetaModel

/-! ### Clones of data models -/

/-- What an observer sees of the elements of a data model. -/
def DataElement.states (root : DataElement δ) :
    KeyedTree Text (DataType × Option (Value δ)) ContainerKind :=
  root.map (fun label => (label.own.type, label.own.state)) Referring.own

namespace DataModel

open DataElement

variable {d c : DataModel δ} {model other : Nat}

/-- A copy of a data model, with the same elements, values and states. -/
structure Copy (model : Nat) (d c : DataModel δ) : Prop where
  version : c.version = d.version
  types : c.types = d.types
  root : c.root.states = d.root.states
  references : Element.Mirrors model d.root c.root

omit [FloatingText δ] in
theorem skeleton_states (root : DataElement δ) : skeleton root = root.states.map Prod.fst id := by
  rw [states, KeyedTree.map_map]
  rfl

omit [FloatingText δ] in
/-- A copy of a sound model is sound. -/
theorem Copy.sound (copy : d.Copy other c) (sound : d.Sound model) : c.Sound other := by
  have same : skeleton c.root = skeleton d.root := by
    rw [skeleton_states, copy.root, ← skeleton_states]
  constructor
  · rw [same]
    exact sound.shaped
  · have keys := congrArg KeyedTree.key copy.root
    rwa [states, states, KeyedTree.key_map, KeyedTree.key_map, sound.key] at keys
  · rw [same]
    exact sound.component
  · rw [same]
    exact sound.numbered
  · rw [same]
    exact sound.patterns
  · rw [same, copy.types]
    exact sound.registered
  · intro position reference' referenced
    obtain ⟨reference, original, mirror⟩ := copy.references.of_copy referenced
    have kept := sound.references position reference original
    rw [same]
    refine ⟨by rw [mirror.target], kept.element, ?_, ?_, ?_⟩
    · rw [mirror.target]
      exact kept.target
    · rw [mirror.target, mirror.expected.1]
      exact kept.typed
    · rw [mirror.target]
      exact kept.enclosed

/-- The structure of the clone. -/
theorem clone_root (sound : d.Sound model) : d.root.clone d.types = some (Element.bare
    (d.root.map (fun label => label.own.duplicate) Referring.own)) := by
  rw [Element.bare, KeyedTree.map_map]
  apply KeyedTree.traverse_eq_map (KeyedTree.distinct_map.mp sound.shaped.distinct)
  · intro position label keys face
    have shown : (skeleton d.root).face? position = some (.inl label.own.type, keys) := by
      rw [skeleton, KeyedTree.face?_map, face]
      rfl
    rw [Data.clone, sound.registered position _ keys shown]
    rfl
  · exact fun _ _ _ _ => rfl

theorem states_duplicate (root : DataElement δ) : states (Element.bare
    (root.map (fun label => label.own.duplicate) Referring.own)) = root.states := by
  rw [states, Element.bare, KeyedTree.map_map, KeyedTree.map_map, states]
  congr 1
  funext label
  exact Prod.ext (Data.duplicate_type label.own) (Data.duplicate_state label.own)

/-- Every value that is expected is set. -/
def AllSet (root : DataElement δ) : Prop :=
  ∀ position reference, Element.referenceAt root position = some reference →
    reference.expected.isSet = true

omit [FloatingText δ] in
theorem states_congr {root root' : DataElement δ} (same : root.erase = root'.erase) :
    root.states = root'.states := by
  have eq (root : DataElement δ) :
      root.states = root.erase.map (fun data => (data.type, data.state)) id := by
    rw [Element.erase, KeyedTree.map_map]
    rfl
  rw [eq, eq, same]

/-- In a copy of the structure a reference is found again by its paths. -/
theorem linked_copy (sound : d.Sound model) {copy : DataElement δ}
    (same : skeleton copy = skeleton d.root) (other : Nat) {position : Position}
    {reference : Reference δ} (referenced : Element.referenceAt d.root position = some reference) :
    Element.linked Data.type getItemFromRoot other [] copy (Element.link position reference) =
      some (position, reference.relinked other) := by
  have kept := sound.references position reference referenced
  obtain ⟨ids, typed⟩ := kept.typed
  rw [← same] at typed
  obtain ⟨data, isParameter, type⟩ := exists_parameterAt typed
  apply Element.linked_link
  · rw [getItemFromRoot_skeleton, same, kept.element.getItemFromRoot]
  · rw [getItemFromRoot_skeleton, same, kept.target.getItemFromRoot]
  · exact isParameter
  · exact type

/-- A sound model that expects set values only has a faithful clone. -/
theorem exists_copy (sound : d.Sound model) (set : AllSet d.root) (other : Nat) :
    ∃ c, d.clone other = some c ∧ d.Copy other c := by
  have states := states_duplicate d.root
  have unreferenced := Element.referenceAt_bare (δ := δ)
    (d.root.map (fun label => label.own.duplicate) Referring.own)
  have cloned := clone_root sound
  generalize Element.bare (d.root.map (fun label => label.own.duplicate) Referring.own) = copy
    at states unreferenced cloned
  have shown : skeleton copy = skeleton d.root := by
    rw [skeleton_states, states, ← skeleton_states]
  obtain ⟨root, done, same, relinked⟩ := Element.exists_relinked getItemFromRoot_structural
    (getItemFromRoot_inside (shown ▸ sound.shaped))
    (KeyedTree.distinct_map.mp sound.shaped.distinct) unreferenced
    fun _ _ => linked_copy sound shown other
  refine ⟨⟨d.version, d.types, root⟩, ?_, rfl, rfl, (states_congr same).trans states, ?_⟩
  · rw [DataModel.clone, cloned, Option.bind_some, done]
    rfl
  · exact Element.mirrors_relinked relinked fun position reference referenced =>
      .inl (set position reference referenced)

end DataModel

open DataElement

/-! ### Runs -/

theorem Changed.allSet {before after : DataElement δ} (change : Changed before after)
    (set : DataModel.AllSet before) : DataModel.AllSet after := by
  intro position reference referenced
  cases change with
  | item list count added outside =>
      by_cases under : list ++ [DataModels.itemId count] <+: position
      · obtain ⟨rest, rfl⟩ := under_iff.mp under
        rw [added.referenceBelow] at referenced
        obtain ⟨former, found, rfl⟩ := Option.map_eq_some_iff.mp referenced
        exact Data.renewed_isSet (set _ former found)
      · rw [added.referenceOthers position under] at referenced
        exact set position reference referenced
  | cleared list cleared =>
      rw [cleared.references _ (cleared.stars (inside_of_referenceAt referenced))] at referenced
      exact set position reference referenced
  | kept same references =>
      rw [references] at referenced
      exact set position reference referenced

theorem MetaModel.Clonable.createData_allSet {m : MetaModel δ} (clonable : m.Clonable)
    (sound : m.Sound) {model : Nat} {d : DataModel δ} (created : m.createData model = some d) :
    DataModel.AllSet d.root := by
  intro position reference referenced
  rw [clonable.createData_relinked sound created] at referenced
  obtain ⟨former, found, rfl⟩ := Option.map_eq_some_iff.mp referenced
  exact Data.renewed_isSet (createData_isSet sound created found)

/-! ### Validation of copies -/

namespace Data

omit [FloatingText δ] in
theorem Same.isSet {data other : Data δ} (same : data.Same other) : data.isSet = other.isSet := by
  have states := same.2
  cases own : other.isSet with
  | false =>
      rw [state_eq_none.mpr own] at states
      exact state_eq_none.mp states
  | true =>
      rw [state_eq_some.mpr ⟨own, rfl⟩] at states
      exact (state_eq_some.mp states).1

/-- Data that are the same for an observer are equal to the same data. -/
theorem equal_congr {data data' other other' : Data δ} (same : data'.Same data)
    (sameOther : other'.Same other) : data'.equal other' = data.equal other := by
  rw [equal, equal, same.1, sameOther.1, same.isSet, sameOther.isSet]
  cases set : data.isSet with
  | false => rfl
  | true =>
      cases setOther : other.isSet with
      | false => simp
      | true =>
          have value := same.2
          rw [state_eq_some.mpr ⟨set, rfl⟩] at value
          have valueOther := sameOther.2
          rw [state_eq_some.mpr ⟨setOther, rfl⟩] at valueOther
          rw [(state_eq_some.mp value).2, (state_eq_some.mp valueOther).2]

end Data

namespace DataModel

variable {models models' : DataModels δ} {d c : DataModel δ} {model other : Nat}

omit [FloatingText δ] in
theorem at?_states (root : DataElement δ) (position : Position) :
    root.states.at? position = (root.at? position).map states := KeyedTree.at?_map

omit [FloatingText δ] in
/-- The parameters of a copy are the same for an observer. -/
theorem Copy.parameterAt (copy : d.Copy other c) (position : Position) :
    Option.Rel (fun data data' => Data.Same data' data) (Element.parameterAt d.root position)
      (Element.parameterAt c.root position) := by
  have nodes : (c.root.at? position).map states = (d.root.at? position).map states := by
    rw [← at?_states, ← at?_states, copy.root]
  rw [Element.parameterAt, Element.parameterAt]
  cases found : d.root.at? position with
  | none =>
      rw [found, Option.map_none, Option.map_eq_none_iff] at nodes
      rw [nodes]
      exact .none
  | some node =>
      rw [found, Option.map_some, Option.map_eq_some_iff] at nodes
      obtain ⟨node', found', same⟩ := nodes
      rw [found']
      cases node with
      | leaf id label =>
          cases node' with
          | leaf id' label' =>
              have seen := (KeyedTree.leaf.inj same).2
              exact .some ⟨(Prod.mk.inj seen).1, (Prod.mk.inj seen).2⟩
          | branch id' label' items' => cases same
      | branch id label items =>
          cases node' with
          | leaf id' label' => cases same
          | branch id' label' items' => exact .none

/-- The references of a copy are met as those of the original. -/
theorem Copy.checkReferenceAt (copy : d.Copy other c) (sound : d.Sound model)
    (living : models model = some d) (living' : models' other = some c) (position : Position) :
    models'.checkReferenceAt other position = models.checkReferenceAt model position := by
  have nodes : (c.root.at? position).map states = (d.root.at? position).map states := by
    rw [← at?_states, ← at?_states, copy.root]
  have mirror := copy.references position
  rw [DataModels.checkReferenceAt, DataModels.checkReferenceAt, living, living', Option.bind_some,
    Option.bind_some]
  rw [Element.referenceAt, Element.referenceAt] at mirror
  cases found : d.root.at? position with
  | none =>
      rw [found, Option.map_none, Option.map_eq_none_iff] at nodes
      rw [nodes]
      rfl
  | some node =>
      rw [found, Option.map_some, Option.map_eq_some_iff] at nodes
      obtain ⟨node', found', -⟩ := nodes
      rw [found, found', Option.bind_some, Option.bind_some] at mirror
      rw [found', Option.map_some, Option.map_some, Option.some_inj, DataModels.checkReference,
        DataModels.checkReference]
      generalize own : Element.reference node = reference at mirror
      generalize own' : Element.reference node' = reference' at mirror
      cases mirror with
      | none => rfl
      | @some held held' mirror =>
          have referenced : Element.referenceAt d.root position = some held := by
            rw [Element.referenceAt, found, Option.bind_some, own]
          have inModel := (sound.references position held referenced).model
          have target : models.dataAt held.target =
              Element.parameterAt d.root held.target.position := by
            rw [DataModels.dataAt, inModel, living, Option.bind_some]
          have target' : models'.dataAt held'.target =
              Element.parameterAt c.root held.target.position := by
            rw [DataModels.dataAt, mirror.target, living', Option.bind_some]
          have data := copy.parameterAt held.target.position
          dsimp only
          rw [target, target', mirror.expected.isSet]
          generalize Element.parameterAt d.root held.target.position = data₀ at data
          generalize Element.parameterAt c.root held.target.position = data₁ at data
          cases data with
          | none => rfl
          | some same =>
              dsimp only
              rw [same.isSet, Data.equal_congr same mirror.expected]

/-- The references are met on the whole way to an element that is reached. -/
theorem active_iff (sound : d.Sound model) (living : models model = some d) (position : Position) :
    models.Active d.root position ↔ ∀ above, above <+: position → (opens d.root above).isSome →
      models.checkReferenceAt model above = some true := by
  have met {above : Position} {node : DataElement δ} (opened : opens d.root above = some node) :
      models.checkReferenceAt model above = some (models.checkReference node) := by
    rw [DataModels.checkReferenceAt, living, Option.bind_some, sound.shaped.at?_of_opens opened,
      Option.map_some]
  constructor
  · intro active above under reached
    obtain ⟨node, opened⟩ := Option.isSome_iff_exists.mp reached
    rw [met opened, active above node under opened]
  · intro all above node under opened
    have own := all above under (by rw [opened]; rfl)
    rw [met opened] at own
    exact Option.some.inj own

/-- A copy is valid exactly when the original is. -/
theorem Copy.validate (copy : d.Copy other c) (sound : d.Sound model)
    (living : models model = some d) (living' : models' other = some c) :
    models'.validate c.root = models.validate d.root := by
  have sound' := copy.sound sound
  have ways (position : Position) :
      (opens c.root position).map states = (opens d.root position).map states := by
    have shown (root : DataElement δ) : Structure.descend (·) false position root.states =
        (opens root position).map states := Structure.descend_map (fun _ => rfl) false position root
    rw [← shown, ← shown, copy.root]
  have reached (position : Position) :
      (opens c.root position).isSome = (opens d.root position).isSome := by
    rw [← Option.isSome_map (f := states), ways, Option.isSome_map]
  have active (position : Position) :
      models'.Active c.root position ↔ models.Active d.root position := by
    rw [active_iff sound living, active_iff sound' living']
    simp only [reached, copy.checkReferenceAt sound living living']
  have leaves {root root' : DataElement δ} {position : Position} {id : Text}
      {label : Referring δ (Data δ)}
      (same : (opens root' position).map states = (opens root position).map states)
      (opened : opens root position = some (.leaf id label)) :
      ∃ label', opens root' position = some (.leaf id label') ∧ label'.own.Same label.own := by
    rw [opened, Option.map_some, Option.map_eq_some_iff] at same
    obtain ⟨node, opened', same⟩ := same
    cases node with
    | leaf id' label' =>
        obtain ⟨rfl, seen⟩ := KeyedTree.leaf.inj same
        exact ⟨label', opened', (Prod.mk.inj seen).1, (Prod.mk.inj seen).2⟩
    | branch id' label' items' => cases same
  rw [Bool.eq_iff_iff, DataModels.validate_iff (KeyedTree.distinct_map.mp sound'.shaped.distinct),
    DataModels.validate_iff (KeyedTree.distinct_map.mp sound.shaped.distinct)]
  constructor
  · intro complete position id label opened way
    obtain ⟨label', opened', same⟩ := leaves (ways position) opened
    rw [← same.isSet]
    exact complete position id label' opened' ((active position).mpr way)
  · intro complete position id label opened way
    obtain ⟨label', opened', same⟩ := leaves (ways position).symm opened
    rw [← same.isSet]
    exact complete position id label' opened' ((active position).mp way)

end DataModel

/-- After any calls a model is valid exactly when its active parameters are set, and its copies are
valid as it is. -/
theorem validate_law (id : Nat) (version : Text) (metaCalls : List (MetaCall δ))
    {models : DataModels δ} {model : Nat} {d : DataModel δ}
    (created : (MetaModel.build id version metaCalls).createData model = some d)
    (living : models model = some d) (calls : List (DataCall δ)) :
    ∃ d', models.after model calls model = some d' ∧
      ((models.after model calls).validate d'.root = true ↔
        (models.after model calls).Complete d'.root) ∧
      ∀ (models' : DataModels δ) other c, models' other = some c → d'.Copy other c →
        models'.validate c.root = (models.after model calls).validate d'.root := by
  have sound := DataModel.createData_sound (MetaModel.build_sound id version metaCalls) created
  obtain ⟨root, after, sound', -⟩ := DataModels.after_induction sound living
    (P := fun _ => True) trivial (fun _ _ _ _ _ => trivial) calls
  refine ⟨_, after, DataModels.validate_iff (KeyedTree.distinct_map.mp sound'.shaped.distinct), ?_⟩
  exact fun models' other c living' copy => copy.validate sound' after living'

theorem switchedLevels_validate : ∃ d₀ : DataModel Int,
    (MetaModel.build 0 [] switchedLevels).createData 0 = some d₀ ∧
      ∃ d, DataModels.after 0 (fun _ => some d₀) [.addItem [['l']]] 0 = some d ∧
        ((DataModels.after 0 (fun _ => some d₀) [.addItem [['l']]]).validate d.root = true ↔
          (DataModels.after 0 (fun _ => some d₀) [.addItem [['l']]]).Complete d.root) := by
  obtain ⟨d₀, created⟩ : ∃ d, (MetaModel.build 0 [] switchedLevels).createData 0 = some d := ⟨_, rfl⟩
  obtain ⟨d, after, valid, -⟩ := @validate_law Int _ 0 [] switchedLevels (fun _ => some d₀) 0 d₀
    created rfl [.addItem [['l']]]
  exact ⟨d₀, created, d, after, valid⟩

/-! ### Calls on several models -/

namespace DataModels

variable {models models' : DataModels δ} {d : DataModel δ} {model : Nat}

/-- A call on a model does what this model alone tells. -/
def Acts (call : DataModels δ → DataModels δ) (model : Nat) (d : DataModel δ) : Prop :=
  ∃ root, ∀ models, models model = some d →
    call models = Function.update models model (some { d with root := root })

omit [FloatingText δ] in
theorem acts_of_refused {call : DataModels δ → DataModels δ}
    (refused : ∀ models, models model = some d → call models = models) : Acts call model d := by
  refine ⟨d.root, fun models living => ?_⟩
  rw [refused models living, ← living, Function.update_eq_self]

theorem acts_addItem (sound : d.Sound model) (list : Position) :
    Acts (fun models => (models.addItem model list).getD models) model d := by
  by_cases isList : ∃ own reference pattern items,
      opens d.root list = some (.branch own ⟨.list, reference⟩ (pattern :: items))
  · obtain ⟨own, reference, pattern, items, opened⟩ := isList
    have found := sound.shaped.at?_of_opens opened
    have each (models : DataModels δ) (living : models model = some d) :
        models.addItem model list = (Element.linkAll Data.type getItemFromRoot model
          (list ++ [itemId items.length]) ((DataElement.copied pattern).rekey (itemId items.length))
          (patternLinks list pattern)).map fun item => Function.update models model
            (some { d with root := d.root.update (.addChild item) list }) := by
      rw [addItem, living, Option.bind_some, opened]
      dsimp only
      rw [newItem_eq sound found living]
    cases made : Element.linkAll Data.type getItemFromRoot model (list ++ [itemId items.length])
      ((DataElement.copied pattern).rekey (itemId items.length)) (patternLinks list pattern) with
    | none =>
        apply acts_of_refused
        intro models living
        rw [each models living, made]
        rfl
    | some item =>
        refine ⟨d.root.update (.addChild item) list, fun models living => ?_⟩
        dsimp only
        rw [each models living, made]
        rfl
  · apply acts_of_refused
    intro models living
    rw [addItem, living, Option.bind_some]
    split
    next own reference pattern items opened =>
      exact absurd ⟨own, reference, pattern, items, opened⟩ isList
    · rfl

omit [FloatingText δ] in
theorem acts_clearItems (list : Position) :
    Acts (fun models => models.clearItems model list) model d := by
  rcases clearItems_cases d model list with refused | ⟨own, reference, items, -, eq⟩
  · exact acts_of_refused refused
  · exact ⟨_, eq⟩

omit [FloatingText δ] in
theorem acts_changeParameter (parameter : Position) (change : Data δ → Data δ) :
    Acts (fun models => models.changeParameter model parameter change) model d := by
  rcases changeParameter_cases d model change parameter with refused | eq
  · exact acts_of_refused refused
  · exact ⟨_, eq⟩

theorem acts_call (sound : d.Sound model) (c : DataCall δ) :
    Acts (fun models => models.call model c) model d := by
  cases c with
  | addItem list => exact acts_addItem sound list
  | clearItems list => exact acts_clearItems list
  | set parameter value => exact acts_changeParameter parameter _
  | reset parameter => exact acts_changeParameter parameter _

/-- The other models are left as they are. -/
theorem call_others {other : Nat} (ne : other ≠ model) (c : DataCall δ) :
    models.call model c other = models other := by
  cases living : models model with
  | none =>
      cases c with
      | addItem list => rw [call, addItem, living]; rfl
      | clearItems list => rw [call, clearItems, living]
      | set parameter value => rw [call, changeParameter, living]
      | reset parameter => rw [call, changeParameter, living]
  | some d =>
      have apart {call : DataModels δ → DataModels δ} (acts : Acts call model d) :
          call models other = models other := by
        obtain ⟨root, all⟩ := acts
        rw [all models living, Function.update_of_ne ne]
      cases c with
      | addItem list =>
          rw [call, addItem, living, Option.bind_some]
          split
          next own reference pattern items opened =>
            cases models.newItem model list items.length pattern with
            | none => rfl
            | some item => exact Function.update_of_ne ne _ models
          · rfl
      | clearItems list => exact apart (acts_clearItems list)
      | set parameter value => exact apart (acts_changeParameter parameter _)
      | reset parameter => exact apart (acts_changeParameter parameter _)

/-- A sound model is living. -/
def LivingSound (model : Nat) (living : Option (DataModel δ)) : Prop :=
  ∃ d, living = some d ∧ d.Sound model

theorem separate : Separate (call (δ := δ)) LivingSound where
  others _ _ _ c ne := call_others ne c
  own := by
    rintro model models models' c ⟨d, living, sound⟩ same
    obtain ⟨root, all⟩ := acts_call sound c
    dsimp only at all
    rw [all models living, all models' (same.symm.trans living), Function.update_self,
      Function.update_self]
  keeps := by
    rintro model models c ⟨d, living, sound⟩
    obtain ⟨root, after, change⟩ := call_changed sound living c
    exact ⟨_, after, sound.changed change⟩

/-- The references of a sound model stay in it. -/
theorem checkReferenceAt_own (kept : LivingSound model (models model))
    (same : models model = models' model) (element : Position) :
    models.checkReferenceAt model element = models'.checkReferenceAt model element := by
  obtain ⟨d, living, sound⟩ := kept
  have living' := same.symm.trans living
  rw [checkReferenceAt, checkReferenceAt, living, living', Option.bind_some, Option.bind_some]
  refine Option.map_congr fun node found => checkReference_congr rfl fun reference refers => ?_
  have referenced : Element.referenceAt d.root element = some reference := by
    rw [Element.referenceAt, found, Option.bind_some, refers]
  rw [dataAt, dataAt, (sound.references element reference referenced).model, living, living']

theorem isolated (sound : d.Sound model) (living : models model = some d) :
    Isolated call checkReferenceAt models model :=
  separate.isolated (fun _ _ kept same => checkReferenceAt_own kept same) ⟨d, living, sound⟩

end DataModels

/-! ### Calls on several meta models -/

/-- The living meta models by their identities. -/
abbrev MetaModels (δ : Type) := Nat → Option (MetaModel δ)

theorem MetaModel.call_id (m : MetaModel δ) (c : MetaCall δ) : (m.call c).id = m.id := by
  have added (component : Position) (item : MetaElement δ) :
      (m.addItem component item).id = m.id := by
    rcases addItem_cases m component item with same | ⟨id, label, items, -, -, -, -, eq⟩
    · rw [same]
    · rw [eq]
  cases c with
  | addComponent component id name description => exact added component _
  | addList component id name patternName description patternDescription => exact added component _
  | addParameter component id name type description =>
      rw [MetaModel.call]
      split
      · rfl
      · exact added component _
  | setReference element target =>
      rw [MetaModel.call, MetaModel.setReference]
      split
      · rfl
      · split
        · rfl
        · rfl
  | addEnumType id name values description => rfl
  | setEnumDescription id description => rfl
  | setDescription element description => rfl
  | setAdvanced element advanced => rfl
  | setReadOnly element readOnly => rfl
  | setUnit parameter unit => rfl
  | resetReference element => rfl
  | setExpected element value => rfl
  | resetExpected element => rfl

namespace MetaModels

variable {models models' : MetaModels δ} {m : MetaModel δ} {model : Nat}

/-- A call on one of the models. -/
def call (model : Nat) (models : MetaModels δ) (c : MetaCall δ) : MetaModels δ :=
  match models model with
  | none => models
  | some m => Function.update models model (some (m.call c))

/-- The parameter that the reference of an element leads to. -/
def targetAt (models : MetaModels δ) (model : Nat) (element : Position) : Option MetaParameter :=
  (models model).bind fun m => (Element.referenceAt m.root element).bind fun reference =>
    (models reference.target.model).bind fun m => m.root.parameterAt reference.target.position

/-- A sound model is living. -/
def LivingSound (model : Nat) (living : Option (MetaModel δ)) : Prop :=
  ∃ m, living = some m ∧ m.Sound ∧ m.id = model

theorem separate : Separate (call (δ := δ)) LivingSound where
  others := by
    intro model other models c ne
    unfold call
    cases models model with
    | none => rfl
    | some m => exact Function.update_of_ne ne _ models
  own := by
    rintro model models models' c ⟨m, living, -⟩ same
    rw [call, call, living, same.symm.trans living]
    dsimp only
    rw [Function.update_self, Function.update_self]
  keeps := by
    rintro model models c ⟨m, living, sound, id⟩
    refine ⟨m.call c, ?_, sound.call c, (m.call_id c).trans id⟩
    rw [call, living]
    exact Function.update_self model _ models

omit [FloatingText δ] in
/-- The references of a sound model stay in it. -/
theorem targetAt_own (kept : LivingSound model (models model)) (same : models model = models' model)
    (element : Position) : models.targetAt model element = models'.targetAt model element := by
  obtain ⟨m, living, sound, id⟩ := kept
  have living' := same.symm.trans living
  rw [targetAt, targetAt, living, living', Option.bind_some, Option.bind_some]
  refine Option.bind_congr fun reference referenced => ?_
  rw [(sound.references element reference referenced).1, id, living, living']

theorem isolated (sound : m.Sound) (id : m.id = model) (living : models model = some m) :
    Isolated call targetAt models model :=
  separate.isolated (fun _ _ kept same => targetAt_own kept same) ⟨m, living, sound, id⟩

end MetaModels

/-! ### The law -/

/-- The clones of a meta model and of its data are faithful, and later calls on an original or on
its clone do not reach the other; the data refer to each other as the meta model does. -/
structure CloneLaw (m : MetaModel δ) : Prop where
  clone : ∀ model, ∃ c, m.clone model = some c ∧ m.Copy model c ∧
    ∀ models : MetaModels δ, models m.id = some m → model ≠ m.id →
      Isolated MetaModels.call MetaModels.targetAt (Function.update models model (some c)) m.id ∧
        Isolated MetaModels.call MetaModels.targetAt (Function.update models model (some c)) model
  createData : ∀ model d, m.createData model = some d → Element.Mirrors model m.root d.root
  cloneData : ∀ (models : DataModels δ) model d calls, m.createData model = some d →
    models model = some d → ∃ d', models.after model calls model = some d' ∧
      ∀ other, ∃ c, d'.clone other = some c ∧ d'.Copy other c ∧
        (other ≠ model →
          Isolated DataModels.call DataModels.checkReferenceAt
              (Function.update (models.after model calls) other (some c)) model ∧
            Isolated DataModels.call DataModels.checkReferenceAt
              (Function.update (models.after model calls) other (some c)) other)

/-- The clones are faithful exactly when the elements with a reference and their targets are found
by their paths, and what the references expect can be copied. -/
theorem cloneLaw_iff (id : Nat) (version : Text) (calls : List (MetaCall δ)) :
    CloneLaw (MetaModel.build id version calls) ↔ (MetaModel.build id version calls).Clonable := by
  have sound := MetaModel.build_sound id version calls
  generalize MetaModel.build id version calls = m at sound
  constructor
  · intro law
    obtain ⟨c, cloned, copy, -⟩ := law.clone 0
    exact copy.clonable sound cloned
  · intro clonable
    constructor
    · intro model
      obtain ⟨c, cloned, copy⟩ := clonable.exists_copy sound model
      refine ⟨c, cloned, copy, fun models living apart => ⟨?_, ?_⟩⟩
      · apply MetaModels.isolated sound rfl
        rw [Function.update_of_ne (Ne.symm apart), living]
      · exact MetaModels.isolated (copy.sound sound) copy.id (Function.update_self model _ models)
    · intro model d created
      apply Element.mirrors_relinked (clonable.createData_relinked sound created)
      intro position reference referenced
      exact (clonable position reference referenced).2.2.2
    · intro models model d dataCalls created living
      obtain ⟨root, kept, sound', set⟩ := DataModels.after_induction
        (DataModel.createData_sound sound created) living (P := DataModel.AllSet)
        (clonable.createData_allSet sound created) (fun _ _ _ change => change.allSet) dataCalls
      refine ⟨_, kept, fun other => ?_⟩
      obtain ⟨c, cloned, copy⟩ := DataModel.exists_copy sound' set other
      refine ⟨c, cloned, copy, fun apart => ⟨?_, ?_⟩⟩
      · apply DataModels.isolated sound'
        rw [Function.update_of_ne (Ne.symm apart), kept]
      · exact DataModels.isolated (copy.sound sound') (Function.update_self other _ _)

/-- An element that refers to a text, and expects nothing of it yet. The root expects a text. -/
theorem unset_expected_fails :
    ¬ CloneLaw (MetaModel.build 0 []
        [.addParameter [] ['a'] [] (ValueKind.string).id [],
          .addComponent [] ['b'] [] [], .setReference [['b']] [['a']]] : MetaModel Int) ∧
      ¬ CloneLaw (MetaModel.build 0 []
        [.addParameter [] ['a'] [] (ValueKind.string).id [], .setReference [] [['a']],
          .setExpected [] (.text ['x'])] : MetaModel Int) := by
  constructor
  · intro law
    obtain ⟨c, cloned, copy, -⟩ := law.clone 1
    have clonable := copy.clonable (MetaModel.build_sound 0 [] _) cloned
    obtain ⟨-, -, -, set | refused⟩ := clonable [['b']] _ rfl
    · cases set
    · cases refused
  · intro law
    obtain ⟨c, cloned, -, -⟩ := law.clone 1
    cases cloned

end OpenSand.Conf
