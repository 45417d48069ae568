import OpenSand.Conf.DataRuns
import OpenSand.Conf.ModelEquality

/-!
The references of the items of the lists, in every run of a data model.

An item has the references of the pattern, and those into the pattern lead to the item itself
(`Follows`). No call changes this, so what is set in an item is seen by the references of that
item only. An item is refused when the pattern itself refers to one of its elements
(`siblings_iff`).
-/

namespace OpenSand.Conf

variable {δ : Type} [FloatingText δ]

open DataElement

/-! ### Expected values -/

namespace Data

/-- Set, or as it was created. -/
def Fresh (data : Data δ) : Prop := data.isSet = true ∨ data = create data.type

theorem set_fresh (type : DataType) (value : Value δ) : ((create type).set value).2.Fresh := by
  unfold set
  split
  · exact .inl rfl
  · exact .inr rfl

theorem copy_fresh (type : DataType) (data : Data δ) : ((create type).copy data).2.Fresh := by
  unfold copy
  split
  · exact set_fresh type data.value
  · exact .inr rfl

theorem renewed_fresh (data : Data δ) : data.renewed.Fresh := copy_fresh data.type data

theorem renewed_isSet {data : Data δ} (isSet : data.isSet = true) : data.renewed.isSet = true := by
  have same := ((renewed_same_iff data).mpr (.inl isSet)).2
  rw [state_eq_some.mpr ⟨isSet, rfl⟩] at same
  exact (state_eq_some.mp same).1

theorem Fresh.renewed_copies {data : Data δ} (fresh : data.Fresh) (copies : data.Copies) :
    data.renewed.Copies := by
  rcases fresh with set | created
  · exact .inl (renewed_isSet set)
  · rcases renewed_fresh data with set | created'
    · exact .inl set
    · -- neither is set, and both are as created
      rw [created', renewed_type, ← created]
      exact copies

end Data

/-! ### Siblings -/

/-- The reference of an element of an item, and the one of the pattern that it goes back to. -/
structure Reference.Sibling (list : Position) (id : Text) (held reference : Reference δ) : Prop where
  target : reference.target = held.target.moved list id
  expected : list ++ [star] <+: held.target.position → reference.expected.Same held.expected

/-- A reference within a pattern is not the one of the pattern itself, and what it expects can be
copied. -/
def PatternsFit (root : DataElement δ) : Prop :=
  ∀ list ids rest held, (skeleton root).face? list = some (.inr .list, ids) →
    Element.referenceAt root (list ++ star :: rest) = some held →
      list ++ [star] <+: held.target.position → rest ≠ [] ∧ held.expected.Copies

/-- The items of the lists follow their patterns. -/
structure Follows (root : DataElement δ) : Prop where
  fits : PatternsFit root
  fresh : ∀ position held, Element.referenceAt root position = some held → held.expected.Fresh
  shapes : ∀ list ids id rest label keys, (skeleton root).face? list = some (.inr .list, ids) →
    id ∈ ids → id ≠ star → (skeleton root).face? (list ++ star :: rest) = some (label, keys) →
      ∃ keys', (skeleton root).face? (list ++ id :: rest) = some (label, keys')
  siblings : ∀ list ids id rest held, (skeleton root).face? list = some (.inr .list, ids) →
    id ∈ ids → id ≠ star → Element.referenceAt root (list ++ star :: rest) = some held →
      ∃ reference, Element.referenceAt root (list ++ id :: rest) = some reference ∧
        held.Sibling list id reference

/-- A list is in the pattern of one that is in no pattern, or in none itself. -/
theorem Structure.exists_outermost {skeleton : Skeleton} {list : Position} {ids : List Text}
    (isList : skeleton.face? list = some (.inr .list, ids)) :
    ∃ above keys, skeleton.face? above = some (.inr .list, keys) ∧ ¬ InPattern skeleton above ∧
      above ++ [star] <+: list ++ [star] := by
  induction length : list.length using Nat.strong_induction_on generalizing list ids with
  | _ n ih =>
      by_cases pattern : InPattern skeleton list
      · obtain ⟨above, keys, aboveList, under⟩ := pattern
        have shorter : above.length < n := by
          have le := under.length_le
          rw [List.length_append, List.length_singleton] at le
          omega
        obtain ⟨outer, keys', outerList, outside, below⟩ := ih _ shorter aboveList rfl
        exact ⟨outer, keys', outerList, outside,
          below.trans (under.trans (List.prefix_append list [star]))⟩
      · exact ⟨list, ids, isList, pattern, List.prefix_rfl⟩

namespace ItemAdded

variable {d : DataModel δ} {model count : Nat} {after : DataElement δ} {list other rest : Position}
  {ids : List Text} {id : Text} (added : ItemAdded d.root after list count)

omit [FloatingText δ] in
theorem not_under_self (id : Text) : ¬ list ++ [id] <+: list := fun under =>
  absurd under.length_le (by simp)

include added

/-- A child of a list is one of the new item, the item itself or a former one. -/
theorem list_cases (isList : (skeleton after).face? other = some (.inr .list, ids))
    (mem : id ∈ ids) :
    (∃ inner, other = list ++ DataModels.itemId count :: inner ∧
        (skeleton d.root).face? (list ++ star :: inner) = some (.inr .list, ids)) ∨
      (other = list ∧ id = DataModels.itemId count) ∨
      (¬ list ++ [DataModels.itemId count] <+: other ∧
        ∃ ids', (skeleton d.root).face? other = some (.inr .list, ids') ∧ id ∈ ids') := by
  rcases added.face_cases isList with ⟨inner, rfl, former⟩ | ⟨rfl, -, rfl⟩ | ⟨apart, -, former⟩
  · exact .inl ⟨inner, rfl, former⟩
  · rw [itemKeys_succ, List.mem_append, List.mem_singleton] at mem
    rcases mem with old | new
    · exact .inr (.inr ⟨not_under_self _, _, added.isList, old⟩)
    · exact .inr (.inl ⟨rfl, new⟩)
  · exact .inr (.inr ⟨apart, ids, former, mem⟩)

/-- The list that got the item is in no pattern. -/
theorem not_in_pattern (outside : ¬ Structure.InPattern (skeleton d.root) list)
    (isList : (skeleton after).face? other = some (.inr .list, ids)) :
    other ++ star :: rest ≠ list := by
  rintro rfl
  obtain ⟨ids', former⟩ := added.list_old isList (by rw [added.isList]; rfl)
  exact outside ⟨other, ids', former, prefix_append_cons other rest star⟩

/-- The pattern of a list is not in the new item unless the list is. -/
theorem pattern_apart (outside : ¬ Structure.InPattern (skeleton d.root) list)
    (isList : (skeleton after).face? other = some (.inr .list, ids))
    (apart : ¬ list ++ [DataModels.itemId count] <+: other) :
    ¬ list ++ [DataModels.itemId count] <+: other ++ star :: rest := by
  intro under
  rcases prefix_append_cons_cases under with above | ⟨-, same⟩ | ⟨inner, same, -⟩
  · exact apart above
  · exact DataModels.itemId_ne_star count same
  · exact added.not_in_pattern outside isList same.symm

theorem fits (sound : d.Sound model) (outside : ¬ Structure.InPattern (skeleton d.root) list) (follows : Follows d.root) :
    PatternsFit after := by
  intro other ids rest held isList referenced inside
  by_cases under : list ++ [DataModels.itemId count] <+: other
  · obtain ⟨inner, rfl⟩ := under_iff.mp under
    rw [added.below] at isList
    rw [List.append_assoc, List.cons_append, added.referenceBelow] at referenced
    obtain ⟨former, found, rfl⟩ := Option.map_eq_some_iff.mp referenced
    obtain ⟨keys, typed⟩ := (sound.references _ former found).typed
    by_cases into : list ++ [star] <+: former.target.position
    · obtain ⟨target, same⟩ := under_iff.mp into
      have moved : (former.moved list (DataModels.itemId count)).target =
          ⟨former.target.model, list ++ DataModels.itemId count :: target⟩ := by
        rw [← Pointer.moved_pattern, ← same]
        rfl
      have within : list ++ star :: inner ++ [star] <+: former.target.position := by
        rw [moved] at inside
        rw [same]
        simpa only [List.append_assoc, List.prefix_append_right_inj, List.cons_append,
          List.prefix_cons_inj] using inside
      have item : Element.referenceAt d.root (list ++ star :: inner ++ star :: rest) = some former := by
        rwa [List.append_assoc, List.cons_append]
      obtain ⟨ne, copies⟩ := follows.fits _ ids rest former isList item within
      exact ⟨ne, (follows.fresh _ former found).renewed_copies copies⟩
    · have same : (former.moved list (DataModels.itemId count)).target = former.target :=
        Pointer.moved_outside _ into
      rw [same] at inside
      apply absurd ((prefix_append_cons list inner _).trans ((List.prefix_append _ [star]).trans inside))
      exact added.outside (by rw [typed]; rfl)
  · rw [added.referenceOthers _ (added.pattern_apart outside isList under)] at referenced
    obtain ⟨ids', former⟩ := added.list_old isList (inside_of_referenceAt referenced)
    exact follows.fits other ids' rest held former referenced inside

theorem follows (sound : d.Sound model) (outside : ¬ Structure.InPattern (skeleton d.root) list) (follows : Follows d.root) :
    Follows after where
  fits := added.fits sound outside follows
  fresh := by
    intro position held referenced
    by_cases under : list ++ [DataModels.itemId count] <+: position
    · obtain ⟨rest, rfl⟩ := under_iff.mp under
      rw [added.referenceBelow] at referenced
      obtain ⟨former, -, rfl⟩ := Option.map_eq_some_iff.mp referenced
      exact Data.renewed_fresh former.expected
    · rw [added.referenceOthers position under] at referenced
      exact follows.fresh position held referenced
  shapes := by
    intro other ids id rest label keys isList mem ne face
    rcases added.list_cases isList mem with ⟨inner, rfl, bare⟩ | ⟨rfl, rfl⟩ | ⟨apart, ids', former, old⟩
    · cases sound.patterns _ _ _ _ added.isList bare
      exact absurd (List.mem_singleton.mp mem) ne
    · rw [added.others _ (added.pattern_apart outside isList (not_under_self _))
        (added.not_in_pattern outside isList)] at face
      exact ⟨keys, (added.below rest).trans face⟩
    · rw [added.others _ (added.pattern_apart outside isList apart)
        (added.not_in_pattern outside isList)] at face
      obtain ⟨keys', face'⟩ := follows.shapes other ids' id rest label keys former old ne face
      exact added.grows _ _ _ face'
  siblings := by
    intro other ids id rest held isList mem ne referenced
    rcases added.list_cases isList mem with ⟨inner, rfl, bare⟩ | ⟨rfl, rfl⟩ | ⟨apart, ids', former, old⟩
    · cases sound.patterns _ _ _ _ added.isList bare
      exact absurd (List.mem_singleton.mp mem) ne
    · rw [added.referenceOthers _ (added.pattern_apart outside isList (not_under_self _))]
        at referenced
      refine ⟨_, (added.referenceBelow rest).trans (congrArg _ referenced), rfl, fun inside => ?_⟩
      have copies := (follows.fits other _ rest held added.isList referenced inside).2
      exact (Data.renewed_same_iff held.expected).mpr copies
    · rw [added.referenceOthers _ (added.pattern_apart outside isList apart)] at referenced
      obtain ⟨reference, found, sibling⟩ :=
        follows.siblings other ids' id rest held former old ne referenced
      refine ⟨reference, ?_, sibling⟩
      rw [added.referenceOthers _ (added.outside (inside_of_referenceAt found)), found]

end ItemAdded

namespace ListCleared

variable {d : DataModel δ} {model : Nat} {after : DataElement δ} {list other rest : Position}
  {ids : List Text} {id : Text} (cleared : ListCleared d.root after list)

include cleared

/-- A list that is left with an item is another one, and an item that is left keeps what the pattern
has. -/
theorem item_stars (sound : d.Sound model) (follows : Follows d.root)
    (isList : (skeleton after).face? other = some (.inr .list, ids)) (mem : id ∈ ids) (ne : id ≠ star)
    (pattern : ((skeleton after).face? (other ++ star :: rest)).isSome) :
    (skeleton d.root).face? other = some (.inr .list, ids) ∧
      ∀ id', list ++ [id'] <+: other ++ id :: rest → id' = star := by
  rcases cleared.face_cases isList with ⟨-, -, rfl⟩ | ⟨here, former⟩
  · exact absurd (List.mem_singleton.mp mem) ne
  refine ⟨former, fun id' under => ?_⟩
  rcases prefix_append_cons_cases under with above | ⟨same, -⟩ | ⟨inner, rfl, below⟩
  · exact cleared.stars (by rw [isList]; rfl) id' above
  · exact absurd same.symm here
  · -- the list would be one of the pattern as well, with an item there
    obtain ⟨last, rfl⟩ := under_iff.mp below
    have inside := cleared.shrinks.isSome pattern
    rw [← List.cons_append, ← List.append_assoc] at inside
    obtain ⟨⟨label, keys⟩, face⟩ :=
      Option.isSome_iff_exists.mp (KeyedTree.face?_above inside)
    obtain ⟨keys', item⟩ := follows.shapes other ids id inner label keys former mem ne face
    obtain ⟨keys'', isList'⟩ := cleared.isList
    rw [item] at isList'
    cases isList'
    have bare := sound.patterns _ _ _ _ former face
    have mem' := KeyedTree.mem_keys_of_below face inside
    rw [bare] at mem'
    exact List.mem_singleton.mp mem'

theorem follows (sound : d.Sound model) (follows : Follows d.root) : Follows after where
  fits := by
    intro other ids rest held isList referenced inside
    obtain ⟨ids', former⟩ := cleared.shrinks _ _ _ isList
    rw [cleared.references _ (cleared.stars (inside_of_referenceAt referenced))] at referenced
    exact follows.fits other ids' rest held former referenced inside
  fresh := by
    intro position held referenced
    rw [cleared.references _ (cleared.stars (inside_of_referenceAt referenced))] at referenced
    exact follows.fresh position held referenced
  shapes := by
    intro other ids id rest label keys isList mem ne face
    obtain ⟨former, stars⟩ := cleared.item_stars sound follows isList mem ne (by rw [face]; rfl)
    obtain ⟨keys', face'⟩ := cleared.shrinks _ _ _ face
    obtain ⟨keys'', item⟩ := follows.shapes other ids id rest label keys' former mem ne face'
    exact cleared.stays item stars
  siblings := by
    intro other ids id rest held isList mem ne referenced
    obtain ⟨former, stars⟩ :=
      cleared.item_stars sound follows isList mem ne (inside_of_referenceAt referenced)
    rw [cleared.references _ (cleared.stars (inside_of_referenceAt referenced))] at referenced
    obtain ⟨reference, found, sibling⟩ :=
      follows.siblings other ids id rest held former mem ne referenced
    exact ⟨reference, (cleared.references _ stars).trans found, sibling⟩

end ListCleared

theorem Changed.follows {d : DataModel δ} {model : Nat} {after : DataElement δ} (sound : d.Sound model)
    (change : Changed d.root after) (follows : Follows d.root) : Follows after := by
  cases change with
  | item list count added outside => exact added.follows sound outside follows
  | cleared list cleared => exact cleared.follows sound follows
  | kept same references =>
      obtain ⟨fits, fresh, shapes, siblings⟩ := follows
      refine ⟨?_, ?_, ?_, ?_⟩
      · unfold PatternsFit
        rw [same]
        simp only [references]
        exact fits
      · simp only [references]
        exact fresh
      · rw [same]
        exact shapes
      · rw [same]
        simp only [references]
        exact siblings

/-! ### References that are met -/

namespace DataModels

/-- Whether the reference of the element at a position is met, if there is one. -/
def checkReferenceAt (models : DataModels δ) (model : Nat) (element : Position) : Option Bool :=
  (models model).bind fun d => (d.root.at? element).map models.checkReference

variable {models : DataModels δ} {d : DataModel δ} {model : Nat} {element parameter : Position}

theorem checkReference_congr {models' : DataModels δ} {node node' : DataElement δ}
    (same : Element.reference node' = Element.reference node)
    (targets : ∀ reference, Element.reference node = some reference →
      models'.dataAt reference.target = models.dataAt reference.target) :
    models'.checkReference node' = models.checkReference node := by
  unfold checkReference
  rw [same]
  cases refers : Element.reference node with
  | none => rfl
  | some reference =>
      dsimp only
      rw [targets reference refers]

/-- A change of a parameter is seen by the references to it only. -/
theorem checkReferenceAt_changeParameter (sound : d.Sound model) (living : models model = some d)
    {change : Data δ → Data δ} (keeps : ∀ data, (change data).type = data.type)
    (other : ∀ reference, Element.referenceAt d.root element = some reference →
      reference.target.position ≠ parameter) :
    (models.changeParameter model parameter change).checkReferenceAt model element =
      models.checkReferenceAt model element := by
  rcases changeParameter_cases d model change parameter with same | eq
  · rw [same models living]
  rw [eq models living, checkReferenceAt, checkReferenceAt, Function.update_self, living, Option.bind_some,
    Option.bind_some]
  have shown := DataModel.skeleton_changeData keeps parameter d.root
  have references := DataModel.referenceAt_changeData change parameter element d.root
  have inside := @isSome_at?_skeleton δ (d.root.update (changeData change) parameter) element
  rw [shown, isSome_at?_skeleton] at inside
  rw [Element.referenceAt, Element.referenceAt] at references
  cases here : d.root.at? element with
  | none =>
      rw [here] at inside
      have gone : (d.root.update (changeData change) parameter).at? element = none := by
        rw [← Option.isNone_iff_eq_none, ← Option.not_isSome, ← inside]
        rfl
      rw [gone]
      rfl
  | some node =>
      rw [here] at inside references
      obtain ⟨node', here'⟩ := Option.isSome_iff_exists.mp inside.symm
      rw [here', Option.bind_some, Option.bind_some] at references
      rw [here', Option.map_some, Option.map_some, Option.some_inj]
      refine checkReference_congr references fun reference refers => ?_
      have referenced : Element.referenceAt d.root element = some reference := by
        rw [Element.referenceAt, here, Option.bind_some, refers]
      have kept := sound.references element reference referenced
      rw [dataAt, dataAt, kept.model, Function.update_self, living, Option.bind_some,
        Option.bind_some]
      exact (DataModel.changeData_inPlace change).parameterAt (other reference referenced) _

/-! ### Validation -/

section Validate

variable (models : DataModels δ)

mutual

/-- Whether the values that are needed are set (`DataElement::validate`). What an element has is not
looked at when its reference is not met. -/
def validate : DataElement δ → Bool
  | .leaf id label =>
      if models.checkReference (.leaf id label) then label.own.isSet else true
  | .branch id ⟨.component, reference⟩ items =>
      if models.checkReference (.branch id ⟨.component, reference⟩ items) then validateItems items
      else true
  | .branch _ ⟨.list, _⟩ [] => true
  | .branch id ⟨.list, reference⟩ (pattern :: items) =>
      if models.checkReference (.branch id ⟨.list, reference⟩ (pattern :: items)) then
        validateItems items
      else true

def validateItems : List (DataElement δ) → Bool
  | [] => true
  | item :: items => if validate item then validateItems items else false

end

/-- The references of an element and of the containers it is in are met. -/
def Active (root : DataElement δ) (position : Position) : Prop :=
  ∀ above node, above <+: position → opens root above = some node → models.checkReference node = true

/-- What is needed of an element: the parameters in it that are active are set. -/
def Complete (root : DataElement δ) : Prop :=
  ∀ position id label, opens root position = some (.leaf id label) → models.Active root position →
    label.own.isSet = true

variable {models}

theorem validateItems_iff (items : List (DataElement δ)) :
    models.validateItems items = true ↔ ∀ item ∈ items, models.validate item = true := by
  induction items with
  | nil => exact ⟨fun _ => List.forall_mem_nil _, fun _ => rfl⟩
  | cons item items ih =>
      rw [List.forall_mem_cons, ← ih, validateItems]
      cases models.validate item with
      | false => simp
      | true => simp

theorem complete_leaf (id : Text) (label : Referring δ (Data δ)) :
    models.Complete (.leaf id label) ↔
      (models.checkReference (.leaf id label) = true → label.own.isSet = true) := by
  constructor
  · intro complete met
    refine complete [] id label rfl fun above node under opened => ?_
    cases List.prefix_nil.mp under
    cases opened
    exact met
  · intro set position own data opened active
    cases position with
    | nil =>
        cases opened
        exact set (active [] _ List.nil_prefix rfl)
    | cons key position => cases opened

theorem complete_branch {id : Text} {label : Referring δ ContainerKind}
    {items : List (DataElement δ)} (nodup : (items.map KeyedTree.key).Nodup) :
    models.Complete (.branch id label items) ↔
      (models.checkReference (.branch id label items) = true →
        ∀ item ∈ Structure.getItems Referring.own (.branch id label items), models.Complete item) := by
  have below {item : DataElement δ} (position : Position)
      (mem : item ∈ Structure.getItems Referring.own (.branch id label items)) :
      opens (.branch id label items) (item.key :: position) = opens item position := by
    have here : opens (.branch id label items) [] = some (.branch id label items) := rfl
    have first : opens (.branch id label items) [item.key] = some item :=
      Structure.descend_item _ here nodup mem
    rw [opens] at first
    rw [opens, ← List.singleton_append, Structure.descend_append, first]
    rfl
  constructor
  · intro complete met item mem position own data opened active
    refine complete (item.key :: position) own data ((below position mem).trans opened) ?_
    intro above node under reached
    cases above with
    | nil =>
        cases reached
        exact met
    | cons key above =>
        obtain ⟨rfl, inner⟩ := List.cons_prefix_cons.mp under
        exact active above node inner ((below above mem).symm.trans reached)
  · intro each position own data opened active
    cases position with
    | nil => cases opened
    | cons key position =>
        have way := opened
        rw [opens, Structure.descend, if_neg (by simp), Option.bind_eq_some_iff] at way
        obtain ⟨item, found, later⟩ := way
        have mem := List.mem_of_find?_eq_some found
        obtain rfl : item.key = key := by simpa using List.find?_some found
        have met := active [] _ List.nil_prefix rfl
        refine each met item mem position own data later fun above node under reached => ?_
        exact active (item.key :: above) node (List.cons_prefix_cons.mpr ⟨rfl, under⟩)
          ((below above mem).trans reached)

theorem validate_iff {element : DataElement δ} (distinct : element.Distinct) :
    models.validate element = true ↔ models.Complete element := by
  induction element using KeyedTree.induction_children with
  | step element ih =>
      cases element with
      | leaf id label =>
          rw [complete_leaf, validate]
          split
          next met => simp [met]
          next unmet => simp [unmet]
      | branch id label items =>
          obtain ⟨kind, reference⟩ := label
          have nodup : (items.map KeyedTree.key).Nodup := distinct.nodup
          have each (items' : List (DataElement δ)) (among : ∀ item ∈ items', item ∈ items) :
              models.validateItems items' = true ↔ ∀ item ∈ items', models.Complete item := by
            rw [validateItems_iff]
            exact forall₂_congr fun item mem => ih item (among item mem) (distinct.child (among item mem))
          rw [complete_branch nodup]
          cases kind with
          | component =>
              rw [validate]
              split
              next met =>
                rw [each items fun _ mem => mem]
                exact ⟨fun all _ => all, fun all => all met⟩
              next unmet => exact iff_of_true rfl fun met => absurd met unmet
          | list =>
              cases items with
              | nil => exact iff_of_true rfl fun _ => List.forall_mem_nil _
              | cons pattern items =>
                  rw [validate]
                  split
                  next met =>
                    rw [each items fun _ mem => List.mem_cons_of_mem _ mem]
                    exact ⟨fun all _ => all, fun all => all met⟩
                  next unmet => exact iff_of_true rfl fun met => absurd met unmet

end Validate

/-! ### The law -/

/-- Every list gets its items, the items refer to themselves where their pattern does, and the
values set in one are not seen outside of it. -/
structure SiblingsLaw (models : DataModels δ) (model : Nat) (d : DataModel δ) : Prop where
  addItem : ∀ list own reference items,
    opens d.root list = some (.branch own ⟨.list, reference⟩ items) →
      (models.addItem model list).isSome
  siblings : ∀ list ids id rest held, (skeleton d.root).face? list = some (.inr .list, ids) →
    id ∈ ids → id ≠ star → Element.referenceAt d.root (list ++ star :: rest) = some held →
      ∃ reference, Element.referenceAt d.root (list ++ id :: rest) = some reference ∧
        held.Sibling list id reference
  apart : ∀ list ids id parameter element call,
    (skeleton d.root).face? list = some (.inr .list, ids) → id ∈ ids → id ≠ star →
      list ++ [id] <+: parameter → ¬ list ++ [id] <+: element →
        (call = .reset parameter ∨ ∃ value, call = .set parameter value) →
          (models.call model call).checkReferenceAt model element =
            models.checkReferenceAt model element

omit [FloatingText δ] in
theorem selfReferring_iff (sound : d.Sound model) {list : Position} {own : Text}
    {reference : Option (Reference δ)} {pattern : DataElement δ} {items : List (DataElement δ)}
    (found : d.root.at? list = some (.branch own ⟨.list, reference⟩ (pattern :: items))) :
    SelfReferring list pattern ↔ ∃ held,
      Element.referenceAt d.root (list ++ [star]) = some held ∧ list ++ [star] <+: held.target.position := by
  have own : Element.referenceAt pattern [] = Element.reference pattern := rfl
  rw [SelfReferring, ← own, referenceAt_pattern sound found]

theorem siblingsLaw_of_follows (sound : d.Sound model) (living : models model = some d)
    (follows : Follows d.root) : models.SiblingsLaw model d where
  addItem := by
    intro list own reference items opened
    have found := sound.shaped.at?_of_opens opened
    have face : (skeleton d.root).face? list = some (.inr .list, items.map KeyedTree.key) := by
      rw [skeleton, KeyedTree.face?_map, KeyedTree.face?_of_at? found]
      rfl
    cases items with
    | nil => cases sound.shaped.pattern list _ face
    | cons pattern items =>
        rw [addItem_isSome_iff sound living opened, selfReferring_iff sound found]
        rintro ⟨held, referenced, inside⟩
        exact (follows.fits list _ [] held face referenced inside).1 rfl
  siblings := follows.siblings
  apart := by
    intro list ids id parameter element call isList _ ne into outside changes
    have other (reference) (referenced : Element.referenceAt d.root element = some reference) :
        reference.target.position ≠ parameter := by
      rintro rfl
      exact outside ((sound.references element reference referenced).enclosed list id ids isList ne
        into)
    rcases changes with rfl | ⟨value, rfl⟩
    · exact checkReferenceAt_changeParameter sound living Data.reset_type other
    · exact checkReferenceAt_changeParameter sound living (fun data => Data.set_type data value) other

/-! ### Refused items -/

omit [FloatingText δ] in
/-- A list that is in no pattern is reached. -/
theorem exists_opens (sound : d.Sound model) {list : Position} {ids : List Text}
    (isList : (skeleton d.root).face? list = some (.inr .list, ids))
    (outside : ¬ Structure.InPattern (skeleton d.root) list) : ∃ own reference pattern items,
      opens d.root list = some (.branch own ⟨.list, reference⟩ (pattern :: items)) := by
  have way := sound.shaped.descends_outside (by rw [isList]; rfl) outside
  have same : Structure.descend (·) false list (skeleton d.root) =
      (opens d.root list).map skeleton := Structure.descend_map (fun _ => rfl) false list d.root
  rw [same, Option.isSome_map] at way
  obtain ⟨node, opened⟩ := Option.isSome_iff_exists.mp way
  have found := sound.shaped.at?_of_opens opened
  have face := isList
  rw [skeleton, KeyedTree.face?_map, KeyedTree.face?, found] at face
  cases node with
  | leaf own label => cases face
  | branch own label items =>
      obtain ⟨kind, reference⟩ := label
      cases kind with
      | component => cases face
      | list =>
          cases items with
          | nil =>
              have head := sound.shaped.pattern list _ isList
              cases face
              cases head
          | cons pattern items => exact ⟨own, reference, pattern, items, opened⟩

/-- What holds in every run of the models. -/
def Always (models : DataModels δ) (model : Nat) : Prop :=
  ∀ calls, ∃ d, models.after model calls model = some d ∧
    (models.after model calls).SiblingsLaw model d

/-- One more item of a list, as the law has it. -/
theorem Always.exists_item (law : models.Always model) (sound : d.Sound model)
    (living : models model = some d) {list : Position} {ids : List Text}
    (isList : (skeleton d.root).face? list = some (.inr .list, ids))
    (outside : ¬ Structure.InPattern (skeleton d.root) list) :
    ∃ models' root count, DataModels.Always models' model ∧
      models' model = some { d with root := root } ∧ ItemAdded d.root root list count := by
  obtain ⟨own, reference, pattern, items, opened⟩ := exists_opens sound isList outside
  obtain ⟨d', living', now⟩ := law []
  cases living.symm.trans living'
  obtain ⟨models', done⟩ := Option.isSome_iff_exists.mp (now.addItem list own reference _ opened)
  change models.addItem model list = some models' at done
  obtain ⟨root, count, eq, added, -⟩ := addItem_added sound living done
  refine ⟨models', root, count, fun calls => ?_, by rw [eq, Function.update_self], added⟩
  have later := law (.addItem list :: calls)
  have first : models.call model (.addItem list) = models' := by
    rw [call, done, Option.getD_some]
  rwa [after, List.foldl_cons, first] at later

/-- No pattern refers to one of its elements itself: the items of the lists around it would have such
a pattern as well. -/
theorem Always.not_self (law : models.Always model) (sound : d.Sound model)
    (living : models model = some d) {list : Position} {ids : List Text} {held : Reference δ}
    (isList : (skeleton d.root).face? list = some (.inr .list, ids))
    (referenced : Element.referenceAt d.root (list ++ [star]) = some held) :
    ¬ list ++ [star] <+: held.target.position := by
  induction stars : list.count star using Nat.strong_induction_on
    generalizing models d list ids held with
  | _ n ih =>
      intro inside
      obtain ⟨above, keys, aboveList, outside, under⟩ := Structure.exists_outermost isList
      by_cases same : above = list
      · subst same
        obtain ⟨own, reference, pattern, items, opened⟩ := exists_opens sound isList outside
        obtain ⟨d', living', now⟩ := law []
        cases living.symm.trans living'
        have made := now.addItem above own reference _ opened
        have found := sound.shaped.at?_of_opens opened
        exact (addItem_isSome_iff sound living opened).mp made
          ((selfReferring_iff sound found).mpr ⟨held, referenced, inside⟩)
      · -- the list around it gets an item, which has such a list as well
        have below : above ++ [star] <+: list := by
          rcases List.prefix_concat_iff.mp under with own | below
          · exact absurd (List.append_inj' own rfl).1 same
          · exact below
        obtain ⟨inner, rfl⟩ := under_iff.mp below
        obtain ⟨target, position⟩ := under_iff.mp inside
        obtain ⟨models', root, count, law', living', added⟩ :=
          law.exists_item sound living aboveList outside
        have fewer : (above ++ itemId count :: inner).count star < n := by
          rw [← stars, List.count_append, List.count_append, List.count_cons_self,
            List.count_cons_of_ne (itemId_ne_star count)]
          omega
        have referenced' : Element.referenceAt root (above ++ itemId count :: inner ++ [star]) =
            some (held.moved above (itemId count)) := by
          rw [List.append_assoc, List.cons_append, added.referenceBelow]
          rw [List.append_assoc, List.cons_append] at referenced
          rw [referenced, Option.map_some]
        have moved : (held.moved above (itemId count)).target =
            ⟨held.target.model, above ++ itemId count :: (inner ++ star :: target)⟩ := by
          rw [← Pointer.moved_pattern, ← List.cons_append, ← List.append_assoc, ← position]
          rfl
        apply @ih _ fewer models' { d with root := root } law' (sound.itemAdded added outside) living'
          _ _ (held.moved above (itemId count)) ((added.below inner).trans isList) referenced' rfl
        rw [moved, ← List.cons_append, ← List.append_assoc]
        exact prefix_append_cons _ target star

theorem Always.fits (law : models.Always model) (sound : d.Sound model)
    (living : models model = some d) : PatternsFit d.root := by
  intro list ids rest held isList referenced inside
  constructor
  · rintro rfl
    exact law.not_self sound living isList referenced inside
  · obtain ⟨above, keys, aboveList, outside, under⟩ := Structure.exists_outermost isList
    obtain ⟨rest', same⟩ := under_iff.mp (under.trans (prefix_append_cons list rest star))
    obtain ⟨models', root, count, law', living', added⟩ :=
      law.exists_item sound living aboveList outside
    obtain ⟨d', living'', now⟩ := law' []
    cases living'.symm.trans living''
    rw [same] at referenced
    have kept : Element.referenceAt root (above ++ star :: rest') = some held := by
      rw [added.referenceOthers _ (added.pattern_apart outside added.own
        (ItemAdded.not_under_self _)), referenced]
    have new : itemId count ∈ itemKeys (count + 1) := by
      rw [itemKeys_succ]
      exact List.mem_concat_self
    obtain ⟨reference, found, sibling⟩ :=
      now.siblings above _ (itemId count) rest' held added.own new (itemId_ne_star count) kept
    rw [added.referenceBelow, referenced, Option.map_some, Option.some_inj] at found
    subst found
    exact (Data.renewed_same_iff held.expected).mp (sibling.expected (under.trans inside))

end DataModels

theorem follows_of_fits {m : MetaModel δ} (sound : m.Sound) {model : Nat} {d : DataModel δ}
    (created : m.createData model = some d) (fits : PatternsFit d.root) : Follows d.root := by
  have bare {list : Position} {ids : List Text}
      (isList : (skeleton d.root).face? list = some (.inr .list, ids)) : ids = [star] := by
    rw [DataModel.createData_skeleton sound created] at isList
    exact sound.lists list ids isList
  refine ⟨fits, ?_, ?_, ?_⟩
  · intro position held referenced
    obtain ⟨root, -, entry, -, link⟩ := DataModel.createData_linked sound created referenced
    obtain ⟨-, target, parameter, -, -, -, rfl⟩ := Element.linked_eq_some.mp link
    exact Data.copy_fresh parameter.type entry.expected
  · intro list ids id rest label keys isList mem ne
    rw [bare isList] at mem
    exact absurd (List.mem_singleton.mp mem) ne
  · intro list ids id rest held isList mem ne
    rw [bare isList] at mem
    exact absurd (List.mem_singleton.mp mem) ne

/-- The items refer to their own siblings in every run exactly when no pattern refers to one of its
elements itself and what is expected within the patterns can be copied. -/
theorem siblings_iff (id : Nat) (version : Text) (calls : List (MetaCall δ)) (models : DataModels δ)
    (model : Nat) (d : DataModel δ)
    (created : (MetaModel.build id version calls).createData model = some d)
    (living : models model = some d) : models.Always model ↔ PatternsFit d.root := by
  have sound := MetaModel.build_sound id version calls
  have soundData := DataModel.createData_sound sound created
  constructor
  · exact fun law => law.fits soundData living
  · intro fits dataCalls
    obtain ⟨root, kept, sound', follows⟩ := DataModels.after_induction soundData living
      (P := Follows) (follows_of_fits sound created fits)
      (fun _ _ sound change => change.follows sound) dataCalls
    exact ⟨_, kept, DataModels.siblingsLaw_of_follows sound' kept follows⟩

/-- A list whose items have a switch, and a level that needs it. -/
def switchedLevels : List (MetaCall Int) :=
  [.addList [] ['l'] [] [] [] [],
    .addParameter [['l'], star] ['s'] [] (ValueKind.bool).id [],
    .addParameter [['l'], star] ['v'] [] (ValueKind.int).id [],
    .setReference [['l'], star, ['v']] [['l'], star, ['s']],
    .setExpected [['l'], star, ['v']] (.bool true)]

theorem switchedLevels_siblings : ∃ d : DataModel Int,
    (MetaModel.build 0 [] switchedLevels).createData 0 = some d ∧
      DataModels.Always (fun _ => some d) 0 := by
  obtain ⟨d, created⟩ : ∃ d, (MetaModel.build 0 [] switchedLevels).createData 0 = some d := ⟨_, rfl⟩
  refine ⟨d, created, (siblings_iff 0 [] switchedLevels (fun _ => some d) 0 d created rfl).mpr ?_⟩
  have sound := DataModel.createData_sound (MetaModel.build_sound 0 [] switchedLevels) created
  have distinct : d.root.Distinct := KeyedTree.distinct_map.mp sound.shaped.distinct
  cases created
  intro list ids rest held isList referenced inside
  -- the level is the only element with a reference
  have mem := (@Element.referenced_of_mem _ _ _ _ KeyedTree.children (fun _ => .refl _) distinct
    (list ++ star :: rest, held)).mpr referenced
  obtain ⟨position, rfl⟩ := Prod.mk.inj (List.mem_singleton.mp mem)
  refine ⟨?_, .inl rfl⟩
  rintro rfl
  have last := congrArg List.getLast? position
  rw [List.getLast?_concat] at last
  cases last

/-- A list whose items need a switch of their own. -/
def selfSwitched : List (MetaCall Int) :=
  [.addList [] ['l'] [] [] [] [],
    .addParameter [['l'], star] ['s'] [] (ValueKind.bool).id [],
    .setReference [['l'], star] [['l'], star, ['s']],
    .setExpected [['l'], star] (.bool true)]

/-- The path of the pattern from itself on is empty: the first item is refused. -/
theorem selfSwitched_refused : ¬ ∀ (models : DataModels Int) (model : Nat) (d : DataModel Int),
    (MetaModel.build 0 [] selfSwitched).createData model = some d → models model = some d →
      models.Always model := by
  intro law
  obtain ⟨d, created⟩ : ∃ d, (MetaModel.build 0 [] selfSwitched).createData 0 = some d := ⟨_, rfl⟩
  have sound := DataModel.createData_sound (MetaModel.build_sound 0 [] selfSwitched) created
  obtain ⟨d', living, now⟩ := law (fun _ => some d) 0 d created rfl []
  cases living
  cases created
  have made := now.addItem [['l']] _ _ _ rfl
  exact (DataModels.addItem_isSome_iff sound rfl rfl).mp made ⟨_, rfl, [['s']], rfl⟩

end OpenSand.Conf
