import OpenSand.Conf.DataSound

/-!
The items of the lists of a data model (`DataList::addItem`).

A pattern is duplicated label by label, with its references (`DataModels.duplicate_eq`); the
references into the pattern are then set anew, each on the element and the target that the paths
of the pattern lead to in the item.
-/

namespace OpenSand.Conf

/-- A pointer into the pattern of a list, moved to one of its items. -/
def Pointer.moved (list : Position) (id : Text) (pointer : Pointer) : Pointer :=
  if list ++ [star] <+: pointer.position then
    ⟨pointer.model, list ++ id :: pointer.position.drop (list.length + 1)⟩
  else pointer

theorem Pointer.moved_pattern (model : Nat) (list rest : Position) (id : Text) :
    Pointer.moved list id ⟨model, list ++ star :: rest⟩ = ⟨model, list ++ id :: rest⟩ := by
  have dropped : (list ++ star :: rest).drop (list.length + 1) = rest := by
    rw [← List.singleton_append, ← List.append_assoc]
    exact List.drop_left' (by simp)
  rw [Pointer.moved, if_pos (prefix_append_cons list rest star), dropped]

theorem Pointer.moved_outside {list : Position} {pointer : Pointer} (id : Text)
    (outside : ¬ list ++ [star] <+: pointer.position) : pointer.moved list id = pointer :=
  if_neg outside

variable {δ : Type}

namespace DataModels

open DataElement

variable {models : DataModels δ}

/-- A reference whose target is a living parameter of the type that is expected. -/
def Aims (models : DataModels δ) (reference : Reference δ) : Prop :=
  ∃ data, models.dataAt reference.target = some data ∧ data.type = reference.expected.type

/-- All the references of an element. -/
def AllAim (models : DataModels δ) (element : DataElement δ) : Prop :=
  ∀ position reference, Element.referenceAt element position = some reference →
    models.Aims reference

variable {element : DataElement δ}

theorem AllAim.child {child : DataElement δ} (aim : models.AllAim element)
    (distinct : element.Distinct) (mem : child ∈ element.children) : models.AllAim child := by
  intro position reference found
  apply aim (child.key :: position)
  rw [Element.referenceAt, distinct.at?_child mem]
  exact found

theorem itemsFirst_perm (root : DataElement δ) : (itemsFirst root).Perm root.children := by
  cases root with
  | leaf id label => exact .refl _
  | branch id label items =>
      rw [itemsFirst]
      split
      · cases items with
        | nil => exact .refl _
        | cons first rest => exact List.perm_append_singleton first rest
      · exact .refl _

/-- The entry for an element of a pattern with a target in the pattern. -/
def patternLink (list position : Position) (reference : Reference δ) : Element.Link δ :=
  ⟨getRelativePath (pathText (list ++ [star])) (pathText (list ++ [star] ++ position)),
    getRelativePath (pathText (list ++ [star])) (pathText reference.target.position),
    reference.expected⟩

theorem pathText_star (list : Position) : pathText (list ++ [star]) = pathText list ++ '/' :: star := by
  rw [pathText_concat, elementPath, if_neg]
  intro root
  have length := congrArg List.length root
  simp at length

section Pattern

variable {d : DataModel δ} {model : Nat} {list : Position} {own : Text}
  {reference : Option (Reference δ)} {pattern : DataElement δ} {items : List (DataElement δ)}
  (sound : d.Sound model)
  (found : d.root.at? list = some (.branch own ⟨.list, reference⟩ (pattern :: items)))

include found

theorem face_list : (skeleton d.root).face? list =
    some (.inr .list, (pattern :: items).map KeyedTree.key) := by
  rw [skeleton, KeyedTree.face?_map, KeyedTree.face?, found]
  rfl

include sound

theorem at?_pattern : d.root.at? (list ++ [star]) = some pattern := by
  have key : pattern.key = star :=
    Option.some.inj (sound.shaped.pattern list _ (face_list found))
  have first : (KeyedTree.branch own ⟨ContainerKind.list, reference⟩ (pattern :: items)).child? star =
      some pattern := List.find?_cons_of_pos (decide_eq_true key)
  rw [KeyedTree.at?_append, found, Option.bind_some, KeyedTree.at?_cons, first, Option.bind_some,
    KeyedTree.at?_nil]

theorem skeleton_pattern (position : Position) :
    (skeleton pattern).face? position = (skeleton d.root).face? (list ++ star :: position) := by
  rw [← List.singleton_append, ← List.append_assoc, KeyedTree.face?_append, skeleton, skeleton,
    KeyedTree.at?_map, at?_pattern sound found]
  rfl

theorem shaped_pattern : Structure.Shaped (skeleton pattern) := by
  have here : (skeleton d.root).at? (list ++ [star]) = some (skeleton pattern) := by
    rw [skeleton, KeyedTree.at?_map, at?_pattern sound found]
    rfl
  exact sound.shaped.below here

theorem referenceAt_pattern (position : Position) : Element.referenceAt pattern position =
    Element.referenceAt d.root (list ++ star :: position) := by
  rw [← List.singleton_append, ← List.append_assoc, Element.referenceAt_face,
    Element.referenceAt_face, KeyedTree.face?_append, at?_pattern sound found]
  rfl

/-- What the duplicates of a pattern need. -/
theorem allAim_pattern (living : models model = some d) : models.AllAim pattern := by
  intro position reference referenced
  rw [referenceAt_pattern sound found] at referenced
  have kept := sound.references _ reference referenced
  obtain ⟨ids, typed⟩ := kept.typed
  obtain ⟨data, here, type⟩ := exists_parameterAt typed
  exact ⟨data, by rw [dataAt, kept.model, living, Option.bind_some, here], type⟩

theorem mem_patternLinks {entry : Element.Link δ} :
    entry ∈ patternLinks list pattern ↔ ∃ position held,
      Element.referenceAt pattern position = some held ∧
        list ++ [star] <+: held.target.position ∧ entry = patternLink list position held := by
  have distinct : pattern.Distinct :=
    KeyedTree.distinct_map.mp (shaped_pattern sound found).distinct
  have below {position : Position} {held : Reference δ}
      (referenced : Element.referenceAt pattern position = some held) :
      getCommonPath (pathText list) (pathText held.target.position) = pathText list ∧
          (splitPath (getRelativePath
            (getCommonPath (pathText list) (pathText held.target.position))
            (pathText held.target.position))).head? = some star ↔
        list ++ [star] <+: held.target.position := by
    rw [referenceAt_pattern sound found] at referenced
    have kept := sound.references _ held referenced
    exact kept.element.clean.left.below_child kept.target.clean star
  rw [patternLinks, List.mem_filterMap]
  constructor
  · rintro ⟨⟨position, held⟩, mem, eq⟩
    have referenced := (Element.referenced_of_mem itemsFirst_perm distinct).mp mem
    dsimp only at eq
    split at eq
    next inside =>
      cases eq
      refine ⟨position, held, referenced, (below referenced).mp inside, ?_⟩
      rw [patternLink, pathText_star, List.append_assoc, List.singleton_append]
    · cases eq
  · rintro ⟨position, held, referenced, inside, rfl⟩
    refine ⟨(position, held), (Element.referenced_of_mem itemsFirst_perm distinct).mpr referenced, ?_⟩
    dsimp only
    rw [if_pos ((below referenced).mpr inside), patternLink, pathText_star, List.append_assoc,
      List.singleton_append]

/-- What the pattern of a list leads to, an item of it leads to as well. -/
theorem descends_item {rest : Position} (id : Text)
    (findable : Structure.Findable (skeleton d.root) (list ++ star :: rest)) :
    (Structure.descend (·) true rest ((skeleton pattern).rekey id)).isSome := by
  obtain ⟨-, -, inside, patterns⟩ := (Structure.findable_iff sound.shaped).mp findable
  rw [((shaped_pattern sound found).rekey id).descends_iff, KeyedTree.face?_rekey,
    skeleton_pattern sound found]
  refine ⟨inside, fun above below => ?_⟩
  rw [KeyedTree.face?_rekey, skeleton_pattern sound found]
  apply patterns (list ++ star :: above)
  rw [List.append_assoc, List.prefix_append_right_inj, List.cons_append, List.prefix_cons_inj]
  exact below

end Pattern

end DataModels

variable [FloatingText δ]

/-- The reference of a copy, which has the same target. -/
def Reference.renewed (reference : Reference δ) : Reference δ :=
  { reference with expected := reference.expected.renewed }

/-- The reference of a new item: one into the pattern is moved to the item. -/
def Reference.moved (list : Position) (id : Text) (reference : Reference δ) : Reference δ :=
  ⟨reference.target.moved list id, reference.expected.renewed⟩

/-- A copy of an element with its references. -/
def DataElement.copied (element : DataElement δ) : DataElement δ :=
  element.map (fun label => ⟨label.own.duplicate, label.reference.map Reference.renewed⟩)
    (fun label => ⟨label.own, label.reference.map Reference.renewed⟩)

namespace DataModels

open DataElement

variable {models : DataModels δ} {element : DataElement δ}

/-! ### Duplicates -/

theorem duplicateOwnReference_eq (aim : models.AllAim element) (copy : DataElement δ) :
    models.duplicateOwnReference element copy =
      some (Element.setReference
        (((Element.reference element).map Reference.renewed).or (Element.reference copy)) copy) := by
  unfold duplicateOwnReference
  split
  next none =>
    rw [none, Option.map_none, Option.none_or]
    cases copy with
    | leaf id label => rfl
    | branch id label items => rfl
  next reference found =>
    obtain ⟨data, living, typed⟩ := aim [] reference found
    rw [living, Option.bind_some, typed, Data.copy_renewed, found]
    rfl

theorem duplicateReferences_eq {items copies : List (DataElement δ)}
    (each : List.Forall₂ (fun item copy => models.duplicateReference item copy = some copy) items
      copies) : models.duplicateReferences items copies = some copies := by
  induction each with
  | nil => rfl
  | cons first _ ih =>
      rw [duplicateReferences, first, Option.bind_some, ih]
      rfl

theorem copied_branch (own id : Text) (label : Referring δ ContainerKind)
    (items : List (DataElement δ)) :
    (copied (.branch own label items)).rekey id =
      .branch id ⟨label.own, label.reference.map Reference.renewed⟩ (items.map copied) := by
  rw [copied, KeyedTree.map, KeyedTree.mapAll_eq]
  rfl

theorem key_copied (element : DataElement δ) : element.copied.key = element.key :=
  KeyedTree.key_map _ _ element

theorem reference_copied (element : DataElement δ) :
    Element.reference element.copied = (Element.reference element).map Reference.renewed := by
  cases element with
  | leaf id label => rfl
  | branch id label items => rfl

/-- The references of the copies of the items are set once more, to the same. -/
theorem duplicateReference_copied (aim : models.AllAim element) (distinct : element.Distinct)
    (id : Text) (reference : Option (Reference δ))
    (former : ((Element.reference element).map Reference.renewed).or reference =
      (Element.reference element).map Reference.renewed) :
    models.duplicateReference element (Element.setReference reference (element.copied.rekey id)) =
      some (element.copied.rekey id) := by
  induction element using KeyedTree.induction_children generalizing id reference with
  | step element ih =>
      cases element with
      | leaf own label =>
          rw [duplicateReference, duplicateOwnReference_eq aim, Element.reference_setReference, former]
          rfl
      | branch own label items =>
          have each : List.Forall₂ (fun item copy => models.duplicateReference item copy = some copy)
              items (items.map copied) := by
            rw [List.forall₂_map_right_iff, List.forall₂_same]
            intro item mem
            have same := ih item mem (aim.child distinct mem) (distinct.child mem) item.key
              (Element.reference item.copied) (by rw [reference_copied, Option.or_self])
            rwa [← key_copied, KeyedTree.rekey_self, Element.setReference_self] at same
          rw [copied_branch, Element.setReference, duplicateReference, duplicateOwnReference_eq aim,
            Option.bind_some]
          change (models.duplicateReferences items (items.map copied)).map (KeyedTree.branch id
            ⟨label.own, ((Element.reference (.branch own label items)).map Reference.renewed).or
              reference⟩) = _
          rw [duplicateReferences_eq each, former]
          rfl

theorem duplicateItems_eq {items : List (DataElement δ)}
    (each : ∀ item ∈ items, models.duplicateReference item
      (models.duplicateObject item.key item) = some item.copied) :
    models.duplicateItems items = items.map copied := by
  induction items with
  | nil => rfl
  | cons item items ih =>
      rw [duplicateItems, each item List.mem_cons_self]
      exact congrArg _ (ih fun other mem => each other (List.mem_cons_of_mem _ mem))

/-- The new element has no reference of its own yet. -/
theorem duplicateObject_eq (aim : models.AllAim element) (distinct : element.Distinct) (id : Text) :
    models.duplicateObject id element = Element.setReference none (element.copied.rekey id) := by
  induction element using KeyedTree.induction_children generalizing id with
  | step element ih =>
      cases element with
      | leaf own label => rfl
      | branch own label items =>
          have each : ∀ item ∈ items, models.duplicateReference item
              (models.duplicateObject item.key item) = some (copied item) := by
            intro item mem
            have aimItem := aim.child distinct mem
            have distinctItem := distinct.child mem
            rw [ih item mem aimItem distinctItem,
              duplicateReference_copied aimItem distinctItem item.key none Option.or_none,
              ← key_copied, KeyedTree.rekey_self]
          rw [duplicateObject, duplicateItems_eq each, copied_branch]
          rfl

theorem duplicate_eq (aim : models.AllAim element) (distinct : element.Distinct) (id : Text) :
    models.duplicate id element = some (element.copied.rekey id) := by
  rw [duplicate, duplicateObject_eq aim distinct,
    duplicateReference_copied aim distinct id none Option.or_none]

/-! ### New items -/

theorem skeleton_copied (element : DataElement δ) : skeleton element.copied = skeleton element := by
  rw [skeleton, copied, KeyedTree.map_map, skeleton]
  congr 1
  funext label
  exact Data.duplicate_type label.own

theorem referenceAt_copied (element : DataElement δ) (position : Position) :
    Element.referenceAt element.copied position =
      (Element.referenceAt element position).map Reference.renewed := by
  rw [Element.referenceAt, copied, KeyedTree.at?_map, Option.bind_map, Element.referenceAt,
    Option.map_bind]
  exact Option.bind_congr fun node _ => reference_copied node

omit [FloatingText δ] in
theorem referenceAt_rekey (element : DataElement δ) (id : Text) (position : Position) :
    Element.referenceAt (element.rekey id) position = Element.referenceAt element position := by
  rw [Element.referenceAt_face, KeyedTree.face?_rekey, ← Element.referenceAt_face]

section NewItem

variable {d : DataModel δ} {model : Nat} {list : Position} {own : Text}
  {reference : Option (Reference δ)} {pattern : DataElement δ} {items : List (DataElement δ)}
  (sound : d.Sound model)
  (found : d.root.at? list = some (.branch own ⟨.list, reference⟩ (pattern :: items)))

include sound found

/-- The path of the pattern from itself on is empty, and leads nowhere. -/
theorem linked_patternLink {position : Position} {held : Reference δ} (id : Text)
    (referenced : Element.referenceAt pattern position = some held)
    (inside : list ++ [star] <+: held.target.position) :
    Element.linked Data.type getItemFromRoot model (list ++ [id]) (pattern.copied.rekey id)
        (patternLink list position held) =
      if position = [] then none else some (position, held.moved list id) := by
  rw [referenceAt_pattern sound found] at referenced
  have kept := sound.references _ held referenced
  have cleanElement := kept.element.clean
  have cleanTarget := kept.target.clean
  have findable := kept.target
  obtain ⟨ids, typed⟩ := kept.typed
  obtain ⟨rest, target⟩ := inside
  rw [← target] at cleanTarget findable typed
  rw [List.append_assoc, List.singleton_append] at findable typed
  have shown : skeleton (pattern.copied.rekey id) = (skeleton pattern).rekey id := by
    rw [skeleton, KeyedTree.map_rekey]
    exact congrArg _ (skeleton_copied pattern)
  have clean : Clean (list ++ [star] ++ position) := by
    rw [List.append_assoc]
    exact cleanElement
  by_cases self : position = []
  · rw [if_pos self, Element.linked, patternLink]
    dsimp only
    rw [getItemFromRoot_skeleton, Structure.getItemFromRoot_relative clean, if_pos self,
      Option.bind_none]
  rw [if_neg self, Element.linked_eq_some, patternLink]
  dsimp only
  have below : rest ≠ [] := by
    rintro rfl
    obtain ⟨keys, component⟩ := sound.shaped.items list _ (face_list found) star
      (List.mem_of_mem_head? (sound.shaped.pattern list _ (face_list found)))
    rw [typed] at component
    cases component
  have same : (skeleton (pattern.copied.rekey id)).face? rest =
      some (.inl held.expected.type, ids) := by
    rw [shown, KeyedTree.face?_rekey, skeleton_pattern sound found, typed]
  obtain ⟨data, isParameter, type⟩ := exists_parameterAt same
  obtain ⟨element, way⟩ := Option.isSome_iff_exists.mp (descends_item sound found id kept.element)
  obtain ⟨element', way'⟩ := Option.isSome_iff_exists.mp (descends_item sound found id findable)
  refine ⟨?_, rest, data, ?_, isParameter, by rw [type], ?_⟩
  · rw [getItemFromRoot_skeleton, Structure.getItemFromRoot_relative clean, if_neg self, shown, way]
    rfl
  · rw [getItemFromRoot_skeleton, ← target, Structure.getItemFromRoot_relative cleanTarget,
      if_neg below, shown, way']
    rfl
  · rw [type, Data.copy_renewed, List.append_assoc, List.singleton_append,
      ← Pointer.moved_pattern, ← List.singleton_append (x := star), ← List.append_assoc, target,
      ← kept.model]
    rfl

/-- The pattern of a list has itself a reference to one of the elements in it. -/
def SelfReferring (list : Position) (pattern : DataElement δ) : Prop :=
  ∃ held, Element.reference pattern = some held ∧ list ++ [star] <+: held.target.position

variable (living : models model = some d) (count : Nat)

include living

theorem newItem_eq : models.newItem model list count pattern =
    Element.linkAll Data.type getItemFromRoot model (list ++ [itemId count])
      (pattern.copied.rekey (itemId count)) (patternLinks list pattern) := by
  have distinct : pattern.Distinct :=
    KeyedTree.distinct_map.mp (shaped_pattern sound found).distinct
  rw [newItem, duplicate_eq (allAim_pattern sound found living) distinct, Option.bind_some]

theorem newItem_isSome_iff :
    (models.newItem model list count pattern).isSome ↔ ¬ SelfReferring list pattern := by
  rw [newItem_eq sound found living, Element.linkAll_isSome getItemFromRoot_structural]
  constructor
  · rintro all ⟨held, own, inside⟩
    have referenced : Element.referenceAt pattern [] = some held := own
    have made := all _ ((mem_patternLinks sound found).mpr ⟨[], held, referenced, inside, rfl⟩)
    rw [linked_patternLink sound found _ referenced inside, if_pos rfl] at made
    cases made
  · intro refers entry mem
    obtain ⟨position, held, referenced, inside, rfl⟩ := (mem_patternLinks sound found).mp mem
    have below : position ≠ [] := by
      rintro rfl
      exact refers ⟨held, referenced, inside⟩
    rw [linked_patternLink sound found _ referenced inside, if_neg below]
    rfl

/-- A new item is the copy of the pattern, with the references into the pattern moved to it. -/
theorem newItem_spec {item : DataElement δ}
    (made : models.newItem model list count pattern = some item) :
    Element.erase item = Element.erase (pattern.copied.rekey (itemId count)) ∧
      ∀ position, Element.referenceAt item position =
        (Element.referenceAt pattern position).map (Reference.moved list (itemId count)) := by
  rw [newItem_eq sound found living] at made
  refine ⟨Element.linkAll_erase made, fun position => ?_⟩
  have shown : skeleton (pattern.copied.rekey (itemId count)) =
      (skeleton pattern).rekey (itemId count) := by
    rw [skeleton, KeyedTree.map_rekey]
    exact congrArg _ (skeleton_copied pattern)
  have shaped : Structure.Shaped (skeleton (pattern.copied.rekey (itemId count))) := by
    rw [shown]
    exact (shaped_pattern sound found).rekey _
  have each := (Element.linkAll_isSome getItemFromRoot_structural).mp (by rw [made]; rfl)
  rcases Element.linkAll_origin getItemFromRoot_structural (getItemFromRoot_inside shaped) made
    position with ⟨kept, untouched⟩ | ⟨entry, mem, new, link, final⟩
  · rw [kept, referenceAt_rekey, referenceAt_copied]
    refine Option.map_congr fun held referenced => ?_
    rw [Reference.moved, Pointer.moved_outside]
    · rfl
    intro inside
    have mem := (mem_patternLinks sound found).mpr ⟨position, held, referenced, inside, rfl⟩
    have linked := each _ mem
    rw [linked_patternLink sound found _ referenced inside] at linked
    by_cases self : position = []
    · rw [if_pos self] at linked
      cases linked
    · apply untouched _ mem (held.moved list (itemId count))
      rw [linked_patternLink sound found _ referenced inside, if_neg self]
  · obtain ⟨position', held, referenced, inside, rfl⟩ := (mem_patternLinks sound found).mp mem
    rw [linked_patternLink sound found _ referenced inside] at link
    split at link
    · cases link
    · cases link
      rw [final, referenced, Option.map_some]

end NewItem

end DataModels

end OpenSand.Conf
