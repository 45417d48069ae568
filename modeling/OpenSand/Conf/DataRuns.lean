import OpenSand.Conf.ItemSound

/-!
Runs of a data model: items are added and cleared, values are set and reset.

`Changed` says by positions what one call can do, and every call does one of these
(`DataModels.call_changed`). What they keep, a whole run keeps (`DataModels.after_induction`).
-/

namespace OpenSand.Conf

variable {δ : Type}

open DataElement

theorem DataElement.inside_of_referenceAt {root : DataElement δ} {position : Position}
    {reference : Reference δ} (referenced : Element.referenceAt root position = some reference) :
    ((skeleton root).face? position).isSome := by
  rw [isSome_at?_skeleton]
  exact Element.inside_of_referenceAt referenced

/-! ### Cleared lists -/

/-- A list without its items is left with its pattern. -/
structure ListCleared (before after : DataElement δ) (list : Position) : Prop where
  key : after.key = before.key
  isList : ∃ ids, (skeleton before).face? list = some (.inr .list, ids)
  own : (skeleton after).face? list = some (.inr .list, [star])
  gone : ∀ id rest, id ≠ star → (skeleton after).face? (list ++ id :: rest) = none
  others : ∀ other, other ≠ list → (∀ id, list ++ [id] <+: other → id = star) →
    (skeleton after).face? other = (skeleton before).face? other
  references : ∀ other, (∀ id, list ++ [id] <+: other → id = star) →
    Element.referenceAt after other = Element.referenceAt before other

namespace DataModels

variable {d : DataModel δ} {model : Nat} {list : Position} {own : Text}
  {reference : Option (Reference δ)} {pattern : DataElement δ} {items : List (DataElement δ)}

theorem keepFirst_cleared (sound : d.Sound model)
    (found : d.root.at? list = some (.branch own ⟨.list, reference⟩ (pattern :: items))) :
    ListCleared d.root (d.root.update .keepFirst list) list := by
  have key : pattern.key = star :=
    Option.some.inj (sound.shaped.pattern list _ (face_list found))
  have apart {other : Position} (ne : other ≠ list)
      (stars : ∀ id, list ++ [id] <+: other → id = star) :
      (d.root.update .keepFirst list).face? other = d.root.face? other := by
    by_cases below : list <+: other
    · obtain ⟨rest, rfl⟩ := below
      cases rest with
      | nil => exact absurd (List.append_nil list) ne
      | cons id rest =>
          rw [KeyedTree.face?_keepFirst_below found, key, if_pos]
          exact stars id (prefix_append_cons list rest id)
    · exact KeyedTree.face?_update_other KeyedTree.key_keepFirst below d.root
  have gone {id : Text} (rest : Position) (ne : id ≠ star) :
      (d.root.update .keepFirst list).face? (list ++ id :: rest) = none := by
    rw [KeyedTree.face?_keepFirst_below found, key, if_neg ne]
  refine ⟨KeyedTree.key_update KeyedTree.key_keepFirst list d.root, ⟨_, face_list found⟩, ?_, ?_, ?_,
    ?_⟩
  · rw [skeleton, KeyedTree.face?_map, KeyedTree.face?_keepFirst found, key]
    rfl
  · intro id rest ne
    rw [skeleton, KeyedTree.face?_map, gone rest ne]
    rfl
  · intro other ne stars
    rw [skeleton, KeyedTree.face?_map, apart ne stars, skeleton, KeyedTree.face?_map]
  · intro other stars
    rw [Element.referenceAt_face, Element.referenceAt_face]
    by_cases here : other = list
    · subst here
      rw [KeyedTree.face?_keepFirst found, KeyedTree.face?_of_at? found]
      rfl
    · rw [apart here stars]

end DataModels

namespace ListCleared

variable {before after : DataElement δ} {list other : Position}
  {label : DataType ⊕ ContainerKind} {ids : List Text} (cleared : ListCleared before after list)

include cleared

theorem stars (left : ((skeleton after).face? other).isSome) :
    ∀ id, list ++ [id] <+: other → id = star := by
  rintro id ⟨rest, rfl⟩
  by_contra ne
  rw [List.append_assoc, List.singleton_append, cleared.gone id rest ne] at left
  cases left

/-- What is left is the list and former elements. -/
theorem face_cases (face : (skeleton after).face? other = some (label, ids)) :
    other = list ∧ label = .inr .list ∧ ids = [star] ∨
      other ≠ list ∧ (skeleton before).face? other = some (label, ids) := by
  by_cases here : other = list
  · subst here
    rw [cleared.own] at face
    cases face
    exact .inl ⟨rfl, rfl, rfl⟩
  · rw [cleared.others other here (cleared.stars (by rw [face]; rfl))] at face
    exact .inr ⟨here, face⟩

theorem shrinks : Structure.Grows (skeleton after) (skeleton before) := by
  intro other label ids face
  rcases cleared.face_cases face with ⟨rfl, rfl, -⟩ | ⟨-, old⟩
  · exact cleared.isList
  · exact ⟨ids, old⟩

theorem stays (face : (skeleton before).face? other = some (label, ids))
    (stars : ∀ id, list ++ [id] <+: other → id = star) :
    ∃ ids', (skeleton after).face? other = some (label, ids') := by
  by_cases here : other = list
  · subst here
    obtain ⟨keys, isList⟩ := cleared.isList
    rw [face] at isList
    cases isList
    exact ⟨_, cleared.own⟩
  · exact ⟨ids, (cleared.others other here stars).trans face⟩

theorem shaped (shaped : Structure.Shaped (skeleton before)) :
    Structure.Shaped (skeleton after) := by
  constructor
  · rw [KeyedTree.distinct_iff_face]
    intro other label ids face
    rcases cleared.face_cases face with ⟨-, -, rfl⟩ | ⟨-, old⟩
    · exact List.nodup_singleton star
    · exact KeyedTree.distinct_iff_face.mp shaped.distinct _ _ _ old
  · intro other label ids face id mem
    rcases cleared.face_cases face with ⟨-, -, rfl⟩ | ⟨-, old⟩
    · cases List.mem_singleton.mp mem
      exact of_decide_eq_true rfl
    · exact shaped.whole _ _ _ old id mem
  · intro other ids face
    rcases cleared.face_cases face with ⟨-, -, rfl⟩ | ⟨-, old⟩
    · rfl
    · exact shaped.pattern _ _ old
  · intro other ids face id mem
    have item : ∃ ids', (skeleton before).face? (other ++ [id]) = some (.inr .component, ids') := by
      rcases cleared.face_cases face with ⟨rfl, -, rfl⟩ | ⟨-, old⟩
      · obtain ⟨keys, isList⟩ := cleared.isList
        cases List.mem_singleton.mp mem
        exact shaped.items _ _ isList star (List.mem_of_head? (shaped.pattern _ _ isList))
      · exact shaped.items _ _ old id mem
    obtain ⟨ids', component⟩ := item
    apply cleared.stays component
    intro id' under
    rcases List.prefix_concat_iff.mp under with same | above
    · obtain ⟨rfl, last⟩ := List.append_inj' same rfl
      cases last
      rw [cleared.own] at face
      cases face
      exact List.mem_singleton.mp mem
    · exact cleared.stars (by rw [face]; rfl) id' above

theorem findable (shaped : Structure.Shaped (skeleton before))
    (findable : Structure.Findable (skeleton before) other)
    (stars : ∀ id, list ++ [id] <+: other → id = star) :
    Structure.Findable (skeleton after) other := by
  obtain ⟨ne, clean, inside, patterns⟩ := (Structure.findable_iff shaped).mp findable
  refine (Structure.findable_iff (cleared.shaped shaped)).mpr ⟨ne, clean, ?_, fun above under => ?_⟩
  · obtain ⟨⟨label, ids⟩, face⟩ := Option.isSome_iff_exists.mp inside
    obtain ⟨ids', face'⟩ := cleared.stays face stars
    rw [face']
    rfl
  · obtain ⟨keys, isList⟩ := patterns above under
    apply cleared.stays isList
    exact fun id below => stars id (below.trans ((List.prefix_append above [star]).trans under))

end ListCleared

theorem DataModel.Sound.listCleared {d : DataModel δ} {model : Nat} {list : Position}
    {after : DataElement δ} (sound : d.Sound model) (cleared : ListCleared d.root after list) :
    Sound model { d with root := after } where
  shaped := cleared.shaped sound.shaped
  key := cleared.key.trans sound.key
  component := by
    obtain ⟨ids, face⟩ := sound.component
    apply cleared.stays face
    intro id under
    exact absurd (List.prefix_nil.mp under) (by simp)
  numbered := by
    intro other ids face
    rcases cleared.face_cases face with ⟨-, -, rfl⟩ | ⟨-, old⟩
    · exact ⟨0, rfl⟩
    · exact sound.numbered _ _ old
  patterns := by
    intro other rest keys ids isList face
    obtain ⟨keys', former⟩ := cleared.shrinks _ _ _ isList
    rcases cleared.face_cases face with ⟨-, -, rfl⟩ | ⟨-, old⟩
    · rfl
    · exact sound.patterns _ _ _ _ former old
  registered := by
    intro other type ids face
    rcases cleared.face_cases face with ⟨-, label, -⟩ | ⟨-, old⟩
    · cases label
    · exact sound.registered _ _ _ old
  references := by
    intro other reference referenced
    change Element.referenceAt after other = some reference at referenced
    have stars := cleared.stars (inside_of_referenceAt referenced)
    have former := (cleared.references other stars).symm.trans referenced
    have kept := sound.references other reference former
    -- a target among the items would be one for elements of the same item only
    have starsTarget : ∀ id, list ++ [id] <+: reference.target.position → id = star := by
      intro id under
      by_contra ne
      obtain ⟨keys, isList⟩ := cleared.isList
      exact ne (stars id (kept.enclosed list id keys isList ne under))
    obtain ⟨ids, typed⟩ := kept.typed
    refine ⟨kept.model, cleared.findable sound.shaped kept.element stars,
      cleared.findable sound.shaped kept.target starsTarget, cleared.stays typed starsTarget, ?_⟩
    intro above id keys isList ne under
    obtain ⟨keys', former⟩ := cleared.shrinks _ _ _ isList
    exact kept.enclosed above id keys' former ne under

/-! ### Calls -/

/-- What one call can do to the elements of a model. -/
inductive Changed [FloatingText δ] (before after : DataElement δ) : Prop
  | item (list : Position) (count : Nat) (added : ItemAdded before after list count)
      (outside : ¬ Structure.InPattern (skeleton before) list)
  | cleared (list : Position) (cleared : ListCleared before after list)
  | kept (same : skeleton after = skeleton before) (references : ∀ position,
      Element.referenceAt after position = Element.referenceAt before position)

/-- The calls that change a data model; its elements are given by their positions. -/
inductive DataCall (δ : Type)
  | addItem (list : Position)
  | clearItems (list : Position)
  | set (parameter : Position) (value : Value δ)
  | reset (parameter : Position)

variable [FloatingText δ]

theorem DataModel.Sound.changed {d : DataModel δ} {model : Nat} {after : DataElement δ}
    (sound : d.Sound model) (change : Changed d.root after) :
    Sound model { d with root := after } := by
  cases change with
  | item list count added outside => exact sound.itemAdded added outside
  | cleared list cleared => exact sound.listCleared cleared
  | kept same references => exact sound.sameShape same references

namespace DataModels

/-- A list of a model is left without items. -/
def clearItems (models : DataModels δ) (model : Nat) (list : Position) : DataModels δ :=
  match models model with
  | none => models
  | some d =>
      match opens d.root list with
      | some (.branch _ ⟨.list, _⟩ _) =>
          Function.update models model (some { d with root := d.root.update .keepFirst list })
      | _ => models

/-- A call on a model, which changes nothing when it is refused. -/
def call (model : Nat) (models : DataModels δ) : DataCall δ → DataModels δ
  | .addItem list => (models.addItem model list).getD models
  | .clearItems list => models.clearItems model list
  | .set parameter value => models.changeParameter model parameter fun data => (data.set value).2
  | .reset parameter => models.changeParameter model parameter Data.reset

/-- The models after some calls on one of them. -/
def after (model : Nat) (models : DataModels δ) (calls : List (DataCall δ)) : DataModels δ :=
  calls.foldl (call model) models

variable {models : DataModels δ} {d : DataModel δ} {model : Nat} {position : Position}
  (sound : d.Sound model) (living : models model = some d)

include sound living

/-- One more item, when none is refused. -/
theorem addItem_added {models' : DataModels δ} {list : Position}
    (done : models.addItem model list = some models') :
    ∃ root count, models' = Function.update models model (some { d with root := root }) ∧
      ItemAdded d.root root list count ∧ ¬ Structure.InPattern (skeleton d.root) list := by
  rw [addItem, living, Option.bind_some] at done
  split at done
  next own reference pattern items opened =>
    have found := sound.shaped.at?_of_opens opened
    obtain ⟨item, made, rfl⟩ := Option.map_eq_some_iff.mp done
    exact ⟨_, _, rfl, newItem_added sound living found made, sound.outside_of_opens opened⟩
  · cases done

/-- An item is refused when the pattern refers to one of its elements itself. -/
theorem addItem_isSome_iff {list : Position} {own : Text} {reference : Option (Reference δ)}
    {pattern : DataElement δ} {items : List (DataElement δ)}
    (opened : opens d.root list = some (.branch own ⟨.list, reference⟩ (pattern :: items))) :
    (models.addItem model list).isSome ↔ ¬ SelfReferring list pattern := by
  rw [addItem, living, Option.bind_some, opened]
  dsimp only
  rw [Option.isSome_map,
    newItem_isSome_iff sound (sound.shaped.at?_of_opens opened) living items.length]

theorem addItem_changed (list : Position) :
    ∃ root, (models.addItem model list).getD models model = some { d with root := root } ∧
      Changed d.root root := by
  cases done : models.addItem model list with
  | none => exact ⟨d.root, living, .kept rfl fun _ => rfl⟩
  | some models' =>
      obtain ⟨root, count, rfl, added, outside⟩ := addItem_added sound living done
      exact ⟨root, Function.update_self model _ models, .item list count added outside⟩

omit [FloatingText δ] sound living in
/-- Whether a list is cleared is told by the model it is in. -/
theorem clearItems_cases (d : DataModel δ) (model : Nat) (list : Position) :
    (∀ models, models model = some d → clearItems models model list = models) ∨
      ∃ own reference items, opens d.root list = some (.branch own ⟨.list, reference⟩ items) ∧
        ∀ models, models model = some d → clearItems models model list =
          Function.update models model (some { d with root := d.root.update .keepFirst list }) := by
  by_cases isList : ∃ own reference items,
      opens d.root list = some (.branch own ⟨.list, reference⟩ items)
  · obtain ⟨own, reference, items, opened⟩ := isList
    refine .inr ⟨own, reference, items, opened, fun models living => ?_⟩
    rw [clearItems, living]
    dsimp only
    rw [opened]
  · refine .inl fun models living => ?_
    rw [clearItems, living]
    dsimp only
    split
    next own reference items opened => exact absurd ⟨own, reference, items, opened⟩ isList
    · rfl

theorem clearItems_changed (list : Position) :
    ∃ root, models.clearItems model list model = some { d with root := root } ∧
      Changed d.root root := by
  rcases clearItems_cases d model list with same | ⟨own, reference, items, opened, eq⟩
  · rw [same models living]
    exact ⟨d.root, living, .kept rfl fun _ => rfl⟩
  · rw [eq models living]
    have found := sound.shaped.at?_of_opens opened
    have face : (skeleton d.root).face? list = some (.inr .list, items.map KeyedTree.key) := by
      rw [skeleton, KeyedTree.face?_map, KeyedTree.face?_of_at? found]
      rfl
    cases items with
    | nil => cases sound.shaped.pattern list _ face
    | cons pattern items =>
        exact ⟨_, Function.update_self model _ models, .cleared list (keepFirst_cleared sound found)⟩

omit [FloatingText δ] sound living in
/-- Whether a parameter is changed is told by the model it is in. -/
theorem changeParameter_cases (d : DataModel δ) (model : Nat) (change : Data δ → Data δ)
    (parameter : Position) :
    (∀ models, models model = some d → changeParameter models model parameter change = models) ∨
      ∀ models, models model = some d → changeParameter models model parameter change =
        Function.update models model
          (some { d with root := d.root.update (changeData change) parameter }) := by
  by_cases isLeaf : ∃ id label, opens d.root parameter = some (.leaf id label)
  · obtain ⟨id, label, opened⟩ := isLeaf
    refine .inr fun models living => ?_
    rw [changeParameter, living]
    dsimp only
    rw [opened]
  · refine .inl fun models living => ?_
    rw [changeParameter, living]
    dsimp only
    split
    next id label opened => exact absurd ⟨id, label, opened⟩ isLeaf
    · rfl

omit sound in
theorem changeParameter_changed {change : Data δ → Data δ}
    (keeps : ∀ data, (change data).type = data.type) (parameter : Position) :
    ∃ root, models.changeParameter model parameter change model = some { d with root := root } ∧
      Changed d.root root := by
  rcases changeParameter_cases d model change parameter with same | eq
  · rw [same models living]
    exact ⟨d.root, living, .kept rfl fun _ => rfl⟩
  · rw [eq models living]
    exact ⟨_, Function.update_self model _ models,
      .kept (DataModel.skeleton_changeData keeps parameter d.root)
        fun position => DataModel.referenceAt_changeData change parameter position d.root⟩

theorem call_changed (call : DataCall δ) :
    ∃ root, models.call model call model = some { d with root := root } ∧ Changed d.root root := by
  cases call with
  | addItem list => exact addItem_changed sound living list
  | clearItems list => exact clearItems_changed sound living list
  | set parameter value =>
      exact changeParameter_changed living (fun data => Data.set_type data value) parameter
  | reset parameter => exact changeParameter_changed living Data.reset_type parameter

/-- What every change of a sound model keeps holds after every run. -/
theorem after_induction {P : DataElement δ → Prop} (init : P d.root)
    (step : ∀ (d : DataModel δ) (after : DataElement δ), d.Sound model → Changed d.root after →
      P d.root → P after) (calls : List (DataCall δ)) :
    ∃ root, models.after model calls model = some { d with root := root } ∧
      DataModel.Sound model { d with root := root } ∧ P root := by
  induction calls generalizing models d with
  | nil => exact ⟨d.root, living, sound, init⟩
  | cons call calls ih =>
      obtain ⟨root, living', change⟩ := call_changed sound living call
      have sound' : DataModel.Sound model { d with root := root } := sound.changed change
      have rest := ih sound' living' (step d root sound change init)
      exact rest

end DataModels

end OpenSand.Conf
