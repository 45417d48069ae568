import OpenSand.Conf.ListItems
import OpenSand.Lib.CharStream

/-!
One more item in a list, and the changes of values.

`ItemAdded` is what one more item does to the elements and the references of a model, by
positions: below the item everything is as in the pattern, with the references into the pattern
moved to the item. A sound model stays sound (`DataModel.Sound.itemAdded`,
`DataModel.Sound.sameShape`).
-/

namespace OpenSand.Conf

variable {δ : Type}

open DataElement

/-! ### Identifiers of the items -/

namespace DataModels

theorem itemId_injective : Function.Injective itemId := CharStream.toDigits_injective

theorem itemId_clean (count : Nat) : '/' ∉ itemId count ∧ itemId count ≠ [] := by
  refine ⟨CharStream.notMem_toDigits rfl count, ?_⟩
  obtain ⟨c, chars, digits, _⟩ := CharStream.toDigits_cons count
  rw [itemId, digits]
  exact List.cons_ne_nil c chars

theorem itemId_ne_star (count : Nat) : itemId count ≠ star := by
  intro same
  apply @CharStream.notMem_toDigits '*' rfl count
  change '*' ∈ itemId count
  rw [same]
  exact List.mem_singleton_self _

end DataModels

/-! ### One more item -/

/-- The identifiers in a list with this many items. -/
def itemKeys (count : Nat) : List Text := star :: (List.range count).map DataModels.itemId

theorem itemId_notMem (count : Nat) : DataModels.itemId count ∉ itemKeys count := by
  intro mem
  rcases List.mem_cons.mp mem with same | earlier
  · exact DataModels.itemId_ne_star count same
  · obtain ⟨former, inside, same⟩ := List.mem_map.mp earlier
    rw [DataModels.itemId_injective same] at inside
    exact absurd (List.mem_range.mp inside) (Nat.lt_irrefl count)

theorem itemKeys_succ (count : Nat) :
    itemKeys (count + 1) = itemKeys count ++ [DataModels.itemId count] := by
  rw [itemKeys, List.range_succ, List.map_append]
  rfl

/-- One more item of a list is a copy of its pattern. -/
structure ItemAdded [FloatingText δ] (before after : DataElement δ) (list : Position)
    (count : Nat) : Prop where
  key : after.key = before.key
  isList : (skeleton before).face? list = some (.inr .list, itemKeys count)
  below : ∀ rest, (skeleton after).face? (list ++ DataModels.itemId count :: rest) =
    (skeleton before).face? (list ++ star :: rest)
  own : (skeleton after).face? list = some (.inr .list, itemKeys (count + 1))
  others : ∀ other, ¬ list ++ [DataModels.itemId count] <+: other → other ≠ list →
    (skeleton after).face? other = (skeleton before).face? other
  referenceBelow : ∀ rest,
    Element.referenceAt after (list ++ DataModels.itemId count :: rest) =
      (Element.referenceAt before (list ++ star :: rest)).map
        (Reference.moved list (DataModels.itemId count))
  referenceOthers : ∀ other, ¬ list ++ [DataModels.itemId count] <+: other →
    Element.referenceAt after other = Element.referenceAt before other

namespace DataModels

variable [FloatingText δ] {models : DataModels δ} {d : DataModel δ} {model : Nat} {list : Position}
  {own : Text} {reference : Option (Reference δ)} {pattern : DataElement δ}
  {items : List (DataElement δ)}

omit [FloatingText δ] in
theorem skeleton_addChild (position : Position) (item root : DataElement δ) :
    skeleton (root.update (.addChild item) position) =
      (skeleton root).update (.addChild (skeleton item)) position :=
  KeyedTree.map_update_comm (fun tree => KeyedTree.map_addChild _ _ item tree) position root

omit [FloatingText δ] in
/-- The identifiers in a list that has items. -/
theorem keys_of_list (sound : d.Sound model)
    (found : d.root.at? list = some (.branch own ⟨.list, reference⟩ (pattern :: items))) :
    (pattern :: items).map KeyedTree.key = itemKeys items.length := by
  obtain ⟨count, keys⟩ := sound.numbered list _ (face_list found)
  have length := congrArg List.length keys
  simp only [List.length_map, List.length_cons, List.length_range, Nat.add_right_cancel_iff] at length
  rw [keys, length]
  rfl

theorem newItem_added (sound : d.Sound model) (living : models model = some d)
    (found : d.root.at? list = some (.branch own ⟨.list, reference⟩ (pattern :: items)))
    {item : DataElement δ}
    (made : models.newItem model list items.length pattern = some item) :
    ItemAdded d.root (d.root.update (.addChild item) list) list items.length := by
  obtain ⟨same, references⟩ := newItem_spec sound found living items.length made
  have shown : skeleton item = (skeleton pattern).rekey (itemId items.length) := by
    rw [skeleton_congr same, skeleton, KeyedTree.map_rekey]
    exact congrArg _ (skeleton_copied pattern)
  have key : item.key = itemId items.length := by
    have keys := congrArg KeyedTree.key shown
    rwa [skeleton, KeyedTree.key_map, KeyedTree.key_rekey] at keys
  have keyShown : (skeleton item).key = itemId items.length := by
    rw [skeleton, KeyedTree.key_map, key]
  have keys := keys_of_list sound found
  have fresh : item.key ∉ (pattern :: items).map KeyedTree.key := by
    rw [key, keys]
    exact itemId_notMem _
  have found' : (skeleton d.root).at? list =
      some (.branch own .list ((pattern :: items).map skeleton)) := by
    rw [skeleton, KeyedTree.at?_map, found, Option.map_some, KeyedTree.map, KeyedTree.mapAll_eq]
    rfl
  have keysShown : ((pattern :: items).map skeleton).map KeyedTree.key =
      (pattern :: items).map KeyedTree.key := by
    rw [List.map_map]
    exact List.map_congr_left fun child _ => KeyedTree.key_map _ _ child
  have fresh' : (skeleton item).key ∉ ((pattern :: items).map skeleton).map KeyedTree.key := by
    rw [keysShown, keyShown, ← key]
    exact fresh
  have faces := KeyedTree.face?_addChild found' fresh'
  rw [keyShown, keysShown, ← skeleton_addChild] at faces
  have referenceFaces := Element.referenceAt_addChild found fresh
  rw [key] at referenceFaces
  have dropped (id : Text) (rest : Position) : (list ++ id :: rest).drop (list.length + 1) = rest := by
    rw [← List.singleton_append, ← List.append_assoc]
    exact List.drop_left' (by simp)
  refine ⟨KeyedTree.key_update (KeyedTree.key_addChild item) list d.root, ?_, ?_, ?_, ?_, ?_, ?_⟩
  · rw [face_list found, keys]
  · intro rest
    rw [faces, if_pos (prefix_append_cons list rest _), dropped, shown, KeyedTree.face?_rekey,
      skeleton_pattern sound found]
  · have outside : ¬ list ++ [itemId items.length] <+: list := fun inside =>
      absurd inside.length_le (by simp)
    rw [faces, if_neg outside, if_pos rfl, keys, itemKeys_succ]
  · intro other outside ne
    rw [faces, if_neg outside, if_neg ne]
  · intro rest
    rw [referenceFaces, if_pos (prefix_append_cons list rest _), dropped, references, referenceAt_pattern sound found]
  · intro other outside
    rw [referenceFaces, if_neg outside]

end DataModels

namespace ItemAdded

variable [FloatingText δ] {before after : DataElement δ} {list other : Position} {count : Nat}
  {label : DataType ⊕ ContainerKind} {ids : List Text}
  (added : ItemAdded before after list count)

include added

/-- There was no item with the new identifier. -/
theorem outside (old : ((skeleton before).face? other).isSome) :
    ¬ list ++ [DataModels.itemId count] <+: other := by
  rintro ⟨rest, rfl⟩
  rw [List.append_assoc] at old
  exact itemId_notMem count (KeyedTree.mem_keys_of_below added.isList old)

theorem face_old (old : ((skeleton before).face? other).isSome) (ne : other ≠ list) :
    (skeleton after).face? other = (skeleton before).face? other :=
  added.others other (added.outside old) ne

theorem grows : Structure.Grows (skeleton before) (skeleton after) := by
  intro other label ids face
  by_cases here : other = list
  · subst here
    rw [added.isList] at face
    cases face
    exact ⟨_, added.own⟩
  · rw [added.face_old (by rw [face]; rfl) here]
    exact ⟨ids, face⟩

/-- An element is one of the new item, the list or a former one. -/
theorem face_cases (face : (skeleton after).face? other = some (label, ids)) :
    (∃ rest, other = list ++ DataModels.itemId count :: rest ∧
        (skeleton before).face? (list ++ star :: rest) = some (label, ids)) ∨
      (other = list ∧ label = .inr .list ∧ ids = itemKeys (count + 1)) ∨
      (¬ list ++ [DataModels.itemId count] <+: other ∧ other ≠ list ∧
        (skeleton before).face? other = some (label, ids)) := by
  by_cases inside : list ++ [DataModels.itemId count] <+: other
  · obtain ⟨rest, rfl⟩ := inside
    rw [List.append_assoc, List.singleton_append] at face ⊢
    rw [added.below] at face
    exact .inl ⟨rest, rfl, face⟩
  by_cases here : other = list
  · subst here
    rw [added.own] at face
    cases face
    exact .inr (.inl ⟨rfl, rfl, rfl⟩)
  · rw [added.others other inside here] at face
    exact .inr (.inr ⟨inside, here, face⟩)

theorem shaped (shaped : Structure.Shaped (skeleton before)) :
    Structure.Shaped (skeleton after) := by
  constructor
  · rw [KeyedTree.distinct_iff_face]
    intro other label ids face
    rcases added.face_cases face with ⟨rest, -, old⟩ | ⟨-, -, rfl⟩ | ⟨-, -, old⟩
    · exact KeyedTree.distinct_iff_face.mp shaped.distinct _ _ _ old
    · have nodup := KeyedTree.distinct_iff_face.mp shaped.distinct _ _ _ added.isList
      rw [itemKeys_succ]
      refine List.nodup_append.mpr ⟨nodup, List.nodup_singleton _, ?_⟩
      intro a mem b last
      cases List.mem_singleton.mp last
      rintro rfl
      exact itemId_notMem count mem
    · exact KeyedTree.distinct_iff_face.mp shaped.distinct _ _ _ old
  · intro other label ids face id mem
    rcases added.face_cases face with ⟨rest, -, old⟩ | ⟨-, -, rfl⟩ | ⟨-, -, old⟩
    · exact shaped.whole _ _ _ old id mem
    · rw [itemKeys_succ] at mem
      rcases List.mem_append.mp mem with mem | last
      · exact shaped.whole _ _ _ added.isList id mem
      · cases List.mem_singleton.mp last
        exact (DataModels.itemId_clean count).1
    · exact shaped.whole _ _ _ old id mem
  · intro other ids face
    rcases added.face_cases face with ⟨rest, -, old⟩ | ⟨-, -, rfl⟩ | ⟨-, -, old⟩
    · exact shaped.pattern _ _ old
    · rfl
    · exact shaped.pattern _ _ old
  · intro other ids face id mem
    rcases added.face_cases face with ⟨rest, rfl, old⟩ | ⟨rfl, -, rfl⟩ | ⟨-, -, old⟩
    · obtain ⟨ids', component⟩ := shaped.items _ _ old id mem
      refine ⟨ids', ?_⟩
      rw [List.append_assoc, List.cons_append, added.below]
      rwa [List.append_assoc, List.cons_append] at component
    · rw [itemKeys_succ] at mem
      rcases List.mem_append.mp mem with mem | last
      · obtain ⟨ids', component⟩ := shaped.items _ _ added.isList id mem
        exact added.grows _ _ _ component
      · cases List.mem_singleton.mp last
        obtain ⟨ids', component⟩ := shaped.items _ _ added.isList star List.mem_cons_self
        exact ⟨ids', (added.below []).trans component⟩
    · obtain ⟨ids', component⟩ := shaped.items _ _ old id mem
      exact added.grows _ _ _ component

/-- What leads into the pattern leads to the same place in the item. -/
theorem findable_item (shaped : Structure.Shaped (skeleton before)) {rest : Position}
    (findable : Structure.Findable (skeleton before) (list ++ star :: rest)) :
    Structure.Findable (skeleton after) (list ++ DataModels.itemId count :: rest) := by
  obtain ⟨-, clean, inside, patterns⟩ := (Structure.findable_iff shaped).mp findable
  rw [Structure.findable_iff (added.shaped shaped)]
  refine ⟨by simp, ?_, by rw [added.below]; exact inside, fun above under => ?_⟩
  · apply clean.left.append
    intro id mem
    rcases List.mem_cons.mp mem with rfl | mem
    · exact DataModels.itemId_clean count
    · exact clean.right id (List.mem_cons_of_mem _ mem)
  · rcases prefix_append_cons_cases under with above' | ⟨-, own⟩ | ⟨inner, rfl, below⟩
    · obtain ⟨keys, face⟩ := patterns above (above'.trans (List.prefix_append _ _))
      exact added.grows _ _ _ face
    · exact absurd own.symm (DataModels.itemId_ne_star count)
    · rw [added.below]
      apply patterns
      rw [List.append_assoc, List.prefix_append_right_inj, List.cons_append, List.prefix_cons_inj]
      exact below

theorem findable_old (shaped : Structure.Shaped (skeleton before))
    (findable : Structure.Findable (skeleton before) other) :
    Structure.Findable (skeleton after) other :=
  findable.grows shaped (added.shaped shaped) added.grows

/-- What a list holds in the new model it held before, if its items are former elements. -/
theorem list_old {id : Text} {rest : Position}
    (face : (skeleton after).face? other = some (.inr .list, ids))
    (old : ((skeleton before).face? (other ++ id :: rest)).isSome) :
    ∃ ids', (skeleton before).face? other = some (.inr .list, ids') := by
  rcases added.face_cases face with ⟨inner, rfl, -⟩ | ⟨rfl, -, -⟩ | ⟨-, -, old⟩
  · apply absurd _ (added.outside old)
    rw [List.append_assoc]
    exact prefix_append_cons list _ _
  · exact ⟨_, added.isList⟩
  · exact ⟨_, old⟩

/-- The references of a model stay sound when none was made. -/
theorem reference_old (shaped : Structure.Shaped (skeleton before)) {model : Nat}
    {reference : Reference δ} (kept : reference.Sound model (skeleton before) other) :
    reference.Sound model (skeleton after) other where
  model := kept.model
  element := added.findable_old shaped kept.element
  target := added.findable_old shaped kept.target
  typed := by
    obtain ⟨ids, face⟩ := kept.typed
    exact added.grows _ _ _ face
  enclosed := by
    intro above id keys face ne under
    obtain ⟨rest, same⟩ := under
    rw [List.append_assoc, List.singleton_append] at same
    obtain ⟨ids, typed⟩ := kept.typed
    obtain ⟨ids', isList⟩ := added.list_old face (by rw [same, typed]; rfl)
    apply kept.enclosed above id ids' isList ne
    rw [← same]
    exact prefix_append_cons above rest id

/-- The reference of an element of the item is sound as the one of the pattern was. -/
theorem reference_item (shaped : Structure.Shaped (skeleton before)) {model : Nat}
    {held : Reference δ} {rest : Position}
    (kept : held.Sound model (skeleton before) (list ++ star :: rest)) :
    (held.moved list (DataModels.itemId count)).Sound model (skeleton after)
      (list ++ DataModels.itemId count :: rest) := by
  obtain ⟨ids, typed⟩ := kept.typed
  have element := added.findable_item shaped kept.element
  by_cases inside : list ++ [star] <+: held.target.position
  · -- the target is moved to the item
    obtain ⟨target, same⟩ := inside
    rw [List.append_assoc, List.singleton_append] at same
    have moved : (held.moved list (DataModels.itemId count)).target =
        ⟨held.target.model, list ++ DataModels.itemId count :: target⟩ := by
      rw [← Pointer.moved_pattern, same]
      rfl
    have target' := kept.target
    rw [← same] at typed target'
    refine ⟨by rw [moved]; exact kept.model, element, ?_, ?_, ?_⟩
    · rw [moved]
      exact added.findable_item shaped target'
    · rw [moved, added.below, typed]
      exact ⟨ids, by rw [Reference.moved, Data.renewed_type]⟩
    · intro above id keys isList ne under
      rw [moved] at under
      rcases prefix_append_cons_cases under with above' | ⟨rfl, rfl⟩ | ⟨inner, rfl, below⟩
      · exact above'.trans (List.prefix_append _ _)
      · exact prefix_append_cons above rest _
      · rw [added.below] at isList
        have inside : list ++ star :: inner ++ [id] <+: held.target.position := by
          rw [← same, List.append_assoc, List.prefix_append_right_inj, List.cons_append,
            List.prefix_cons_inj]
          exact below
        have enclosed := kept.enclosed _ id keys isList ne inside
        rw [List.append_assoc, List.prefix_append_right_inj, List.cons_append,
          List.prefix_cons_inj] at enclosed ⊢
        exact enclosed
  · have moved : (held.moved list (DataModels.itemId count)).target = held.target :=
      Pointer.moved_outside _ inside
    refine ⟨by rw [moved]; exact kept.model, element, ?_, ?_, ?_⟩
    · rw [moved]
      exact added.findable_old shaped kept.target
    · rw [moved, Reference.moved, Data.renewed_type]
      exact added.grows _ _ _ typed
    · intro above id keys isList ne under
      rw [moved] at under
      obtain ⟨below, same⟩ := under
      rw [List.append_assoc, List.singleton_append] at same
      obtain ⟨ids', former⟩ := added.list_old isList (by rw [same, typed]; rfl)
      have target : above ++ [id] <+: held.target.position := same ▸ prefix_append_cons above below id
      rcases prefix_append_cons_cases (kept.enclosed above id ids' former ne target) with
        above' | ⟨rfl, own⟩ | ⟨inner, rfl, -⟩
      · exact above'.trans (List.prefix_append _ _)
      · exact absurd own ne
      · apply absurd _ inside
        rw [← same, List.append_assoc]
        exact prefix_append_cons list _ star

end ItemAdded

namespace DataModel

variable [FloatingText δ] {d : DataModel δ} {model count : Nat} {list : Position}
  {after : DataElement δ}

/-- A list that is reached without the patterns gets one more item. -/
theorem Sound.itemAdded (sound : d.Sound model) (added : ItemAdded d.root after list count)
    (outside : ¬ Structure.InPattern (skeleton d.root) list) : Sound model { d with root := after } where
  shaped := added.shaped sound.shaped
  key := added.key.trans sound.key
  component := by
    obtain ⟨ids, face⟩ := sound.component
    exact added.grows _ _ _ face
  numbered := by
    intro other ids face
    rcases added.face_cases face with ⟨rest, -, old⟩ | ⟨-, -, rfl⟩ | ⟨-, -, old⟩
    · exact ⟨0, sound.patterns _ _ _ _ added.isList old⟩
    · exact ⟨count + 1, rfl⟩
    · exact sound.numbered _ _ old
  patterns := by
    intro other rest keys ids isList face
    rcases added.face_cases face with ⟨inner, -, old⟩ | ⟨same, -, -⟩ | ⟨outside, -, old⟩
    · exact sound.patterns _ _ _ _ added.isList old
    · -- the list would be in a pattern
      have above : ((skeleton d.root).face? (other ++ star :: rest)).isSome := by
        rw [same, added.isList]
        rfl
      obtain ⟨keys', former⟩ := added.list_old isList above
      exact absurd ⟨other, keys', former, same ▸ prefix_append_cons other rest star⟩ outside
    · obtain ⟨keys', former⟩ := added.list_old isList (by rw [old]; rfl)
      exact sound.patterns _ _ _ _ former old
  registered := by
    intro other type ids face
    rcases added.face_cases face with ⟨rest, -, old⟩ | ⟨-, label, -⟩ | ⟨-, -, old⟩
    · exact sound.registered _ _ _ old
    · cases label
    · exact sound.registered _ _ _ old
  references := by
    intro other reference referenced
    by_cases inside : list ++ [DataModels.itemId count] <+: other
    · obtain ⟨rest, rfl⟩ := inside
      rw [List.append_assoc, List.singleton_append] at referenced ⊢
      change Element.referenceAt after _ = _ at referenced
      rw [added.referenceBelow, Option.map_eq_some_iff] at referenced
      obtain ⟨held, former, rfl⟩ := referenced
      exact added.reference_item sound.shaped (sound.references _ _ former)
    · change Element.referenceAt after _ = _ at referenced
      rw [added.referenceOthers other inside] at referenced
      exact added.reference_old sound.shaped (sound.references _ _ referenced)

omit [FloatingText δ] in
theorem Sound.outside_of_opens (sound : d.Sound model) {element : DataElement δ}
    (found : opens d.root list = some element) : ¬ Structure.InPattern (skeleton d.root) list := by
  rintro ⟨above, keys, isList, below⟩
  have way : Structure.descend (·) false list (skeleton d.root) = some (skeleton element) := by
    have same : Structure.descend (·) false list (skeleton d.root) =
        (Structure.descend Referring.own false list d.root).map skeleton :=
      Structure.descend_map (fun _ => rfl) false list d.root
    rw [same]
    unfold opens at found
    rw [found]
    rfl
  exact sound.shaped.ne_star_of_descend way below isList rfl

omit [FloatingText δ] in
theorem changeData_inPlace (change : Data δ → Data δ) :
    Element.InPlace (DataModels.changeData change) := by
  constructor
  · intro element
    cases element with
    | leaf id label => rfl
    | branch id label items => rfl
  · intro element id ids
    cases element with
    | leaf id label => rfl
    | branch id label items => rfl

omit [FloatingText δ] in
theorem skeleton_changeData {change : Data δ → Data δ}
    (keeps : ∀ data, (change data).type = data.type) (position : Position) (root : DataElement δ) :
    skeleton (root.update (DataModels.changeData change) position) = skeleton root := by
  apply KeyedTree.map_update
  intro element
  cases element with
  | leaf id label => exact congrArg (KeyedTree.leaf id) (keeps label.own)
  | branch id label items => rfl

omit [FloatingText δ] in
theorem referenceAt_changeData (change : Data δ → Data δ) (position other : Position)
    (root : DataElement δ) :
    Element.referenceAt (root.update (DataModels.changeData change) position) other =
      Element.referenceAt root other := by
  rw [(changeData_inPlace change).referenceAt]
  split
  next here =>
    subst here
    rw [Element.referenceAt]
    refine Option.bind_congr fun element _ => ?_
    cases element with
    | leaf id label => rfl
    | branch id label items => rfl
  · rfl

omit [FloatingText δ] in
/-- The elements and the references stay, and the values may change. -/
theorem Sound.sameShape (sound : d.Sound model) (same : skeleton after = skeleton d.root)
    (references : ∀ position,
      Element.referenceAt after position = Element.referenceAt d.root position) :
    Sound model { d with root := after } := by
  refine ⟨?_, ?_, ?_, ?_, ?_, ?_, ?_⟩
  all_goals dsimp only
  · rw [same]
    exact sound.shaped
  · have keys := congrArg KeyedTree.key same
    rwa [skeleton, skeleton, KeyedTree.key_map, KeyedTree.key_map, sound.key] at keys
  · rw [same]
    exact sound.component
  · rw [same]
    exact sound.numbered
  · rw [same]
    exact sound.patterns
  · rw [same]
    exact sound.registered
  · rw [same]
    intro other reference referenced
    rw [references] at referenced
    exact sound.references other reference referenced

end DataModel

end OpenSand.Conf
