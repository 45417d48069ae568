import OpenSand.Conf.DataModel

/-!
Comparison of models (`DataModel::equal`, `MetaModel::equal` and those of their parts).

The types, the items of a container and the data of a parameter are held by pointers, and it is
the pointers that are compared. A type, an element or the data of a parameter is known here by its
model and what it is there. `equal_iff` says for which models the comparison tells whether they
have the same structure.
-/

namespace OpenSand.Conf

/-! ### Runs of a comparison -/

/-- The result of a comparison that is given enough fuel. -/
def Returns (run : Nat → Option Bool) (result : Bool) : Prop :=
  ∃ enough, ∀ fuel, enough ≤ fuel → run fuel = some result

/-- The comparison comes to an end and decides a property. -/
def Decides (run : Nat → Option Bool) (property : Prop) : Prop :=
  ∃ result, Returns run result ∧ (result = true ↔ property)

theorem Returns.unique {run : Nat → Option Bool} {result result' : Bool}
    (returns : Returns run result) (returns' : Returns run result') : result = result' := by
  obtain ⟨enough, all⟩ := returns
  obtain ⟨enough', all'⟩ := returns'
  have one := all (max enough enough') (Nat.le_max_left _ _)
  rw [all' (max enough enough') (Nat.le_max_right _ _)] at one
  exact (Option.some.inj one).symm

theorem decides_of_returns {run : Nat → Option Bool} {result : Bool} {property : Prop}
    (returns : Returns run result) : Decides run property ↔ (result = true ↔ property) := by
  constructor
  · rintro ⟨result', returns', decided⟩
    rwa [returns.unique returns']
  · exact fun decided => ⟨result, returns, decided⟩

theorem decides_true_iff {run : Nat → Option Bool} {property : Prop} (holds : property) :
    Decides run property ↔ Returns run true := by
  constructor
  · rintro ⟨result, returns, decided⟩
    exact decided.mpr holds ▸ returns
  · exact fun returns => ⟨true, returns, iff_of_true rfl holds⟩

/-! ### Elements -/

section Elements

variable {δ α β : Type}

/-- The parts of a comparison of two elements: their classes, what comes before the references,
and what comes after them, which knows the elements by their pointers. -/
structure Comparison (δ α β : Type) where
  cast : Element δ α β → Element δ α β → Bool
  before : Element δ α β → Element δ α β → Bool
  after : Pointer × Element δ α β → Pointer × Element δ α β → Bool

/-- Two elements, with the targets of their references and the values expected of these. A target
may have a reference as well. -/
def Comparison.equal [FloatingText δ] (comparison : Comparison δ α β) (find : Pointer → Option (Element δ α β)) :
    Nat → Pointer → Pointer → Option Bool
  | 0, _, _ => none
  | fuel + 1, p, q =>
      match find p, find q with
      | some element, some other =>
          if !comparison.cast element other then some false
          else if !comparison.before element other then some false
          else
            match element.reference, other.reference with
            | none, none => some (comparison.after (p, element) (q, other))
            | some reference, some reference' =>
                (comparison.equal find fuel reference.target reference'.target).map fun same =>
                  same && reference.expected.equal reference'.expected &&
                    comparison.after (p, element) (q, other)
            | _, _ => some false
      | _, _ => none

/-- The items of a container, as they are held. -/
def handles (p : Pointer) (items : List (Element δ α β)) : List Pointer :=
  items.map fun item => ⟨p.model, p.position ++ [item.key]⟩

/-- The path an element has as the one of its parent. -/
def parentPath (p : Pointer) : Text := pathText p.position.dropLast

/-- The references from an element on come to an end, and no value expected on the way is a number
that differs from itself. -/
inductive Settled [FloatingText δ] (find : Pointer → Option (Element δ α β)) : Pointer → Prop
  | plain {p : Pointer} {element : Element δ α β} (found : find p = some element)
      (alone : element.reference = none) : Settled find p
  | referring {p : Pointer} {element : Element δ α β} {reference : Reference δ}
      (found : find p = some element) (refers : element.reference = some reference)
      (same : reference.expected.equal reference.expected = true)
      (next : Settled find reference.target) : Settled find p

/-- An element is the same as itself, its references apart. -/
structure Comparison.Reflexive (comparison : Comparison δ α β) : Prop where
  cast : ∀ element, comparison.cast element element = true
  before : ∀ element, comparison.before element element = true
  after : ∀ entry, comparison.after entry entry = true

variable [FloatingText δ] {comparison : Comparison δ α β} {find : Pointer → Option (Element δ α β)} {p : Pointer}

theorem Comparison.equal_self (reflexive : comparison.Reflexive) {element : Element δ α β}
    (found : find p = some element) (fuel : Nat) :
    comparison.equal find (fuel + 1) p p =
      match element.reference with
      | none => some true
      | some reference =>
          (comparison.equal find fuel reference.target reference.target).map fun same =>
            same && reference.expected.equal reference.expected := by
  rw [Comparison.equal, found]
  simp only [reflexive.cast, reflexive.before, Bool.not_true, Bool.false_eq_true, if_false]
  cases element.reference with
  | none => simp [reflexive.after]
  | some reference => simp [reflexive.after]

theorem Settled.returns (reflexive : comparison.Reflexive) (settled : Settled find p) :
    Returns (comparison.equal find · p p) true := by
  induction settled with
  | plain found alone =>
      refine ⟨1, fun fuel enough => ?_⟩
      obtain ⟨fuel, rfl⟩ := Nat.exists_eq_add_of_le' enough
      show comparison.equal find (fuel + 1) _ _ = _
      rw [Comparison.equal_self reflexive found, alone]
  | referring found refers same _ ih =>
      obtain ⟨enough, all⟩ := ih
      refine ⟨enough + 1, fun fuel more => ?_⟩
      obtain ⟨fuel, rfl⟩ := Nat.exists_eq_add_of_le' (Nat.le_of_add_left_le more)
      show comparison.equal find (fuel + 1) _ _ = _
      have below : comparison.equal find fuel _ _ = _ := all fuel (Nat.le_of_succ_le_succ more)
      rw [Comparison.equal_self reflexive found, refers]
      simp only [below, same]
      rfl

theorem settled_of_equal (reflexive : comparison.Reflexive) {fuel : Nat}
    (result : comparison.equal find fuel p p = some true) : Settled find p := by
  induction fuel generalizing p with
  | zero => cases result
  | succ fuel ih =>
      cases found : find p with
      | none =>
          rw [Comparison.equal, found] at result
          cases result
      | some element =>
          rw [Comparison.equal_self reflexive found] at result
          cases refers : element.reference with
          | none => exact .plain found refers
          | some reference =>
              rw [refers] at result
              obtain ⟨same, compared, both⟩ := Option.map_eq_some_iff.mp result
              obtain ⟨rfl, expected⟩ := Bool.and_eq_true_iff.mp both
              exact .referring found refers expected (ih compared)

theorem returns_true_iff (reflexive : comparison.Reflexive) :
    Returns (comparison.equal find · p p) true ↔ Settled find p := by
  constructor
  · rintro ⟨enough, all⟩
    exact settled_of_equal reflexive (all enough le_rfl)
  · exact Settled.returns reflexive

end Elements

variable {δ : Type}

/-- The types of a list in the order of their identifiers, as they are held. -/
def typesHandles (model : Nat) (ids : List Text) : List (Text × Nat × Text) :=
  (ids.insertionSort (· ≤ ·)).map fun id => (id, model, id)

/-- Two models do not hold the same types. -/
theorem typesHandles_ne {model other : Nat} (ne : model ≠ other) {ids ids' : List Text}
    (nonempty : ids ≠ []) : typesHandles model ids ≠ typesHandles other ids' := by
  have sorted : ids.insertionSort (· ≤ ·) ≠ [] := by
    rw [← List.length_pos_iff, List.length_insertionSort]
    exact List.length_pos_iff.mpr nonempty
  rw [typesHandles, typesHandles]
  obtain ⟨id, rest, first⟩ := List.exists_cons_of_ne_nil sorted
  rw [first]
  cases ids'.insertionSort (· ≤ ·) with
  | nil => exact List.cons_ne_nil _ _
  | cons id' rest' =>
      intro same
      exact ne (congrArg (·.2.1) (List.cons.inj same).1)

/-- A reference as its model knows it: a target of its own is known by its position. -/
def Reference.view (model : Nat) (reference : Reference δ) :
    Option Nat × Position × DataType × Option (Value δ) :=
  (if reference.target.model = model then none else some reference.target.model,
    reference.target.position, reference.expected.type, reference.expected.state)

/-! ### Data models -/

namespace DataElement

/-- The classes of the elements (`dynamic_cast`). -/
def cast : DataElement δ → DataElement δ → Bool
  | .leaf _ _, .leaf _ _ => true
  | .branch _ label _, .branch _ label' _ => label.own = label'.own
  | _, _ => false

/-- The items of a container; the pattern of a list is not one of them. -/
def getItems : DataElement δ → List (DataElement δ)
  | .leaf _ _ => []
  | .branch _ label items => if label.own = .list then items.tail else items

/-- `DataElement::equal` behind the references, then `DataParameter::equal` or
`DataContainer::equal`. -/
def equalAfter (entry other : Pointer × DataElement δ) : Bool :=
  entry.2.key = other.2.key && parentPath entry.1 = parentPath other.1 &&
    match entry.2, other.2 with
    | .leaf _ _, .leaf _ _ => entry.1 = other.1
    | element, element' =>
        handles entry.1 (getItems element) = handles other.1 (getItems element')

def comparison : Comparison δ (Data δ) ContainerKind := ⟨cast, fun _ _ => true, equalAfter⟩

theorem comparison_reflexive : (comparison : Comparison δ _ _).Reflexive where
  cast element := by
    cases element with
    | leaf id label => rfl
    | branch id label items => exact decide_eq_true rfl
  before _ := rfl
  after entry := by
    obtain ⟨p, element⟩ := entry
    cases element with
    | leaf id label => simp [comparison, equalAfter]
    | branch id label items => simp [comparison, equalAfter]

end DataElement

namespace DataModels

variable (models : DataModels δ)

def elementAt (p : Pointer) : Option (DataElement δ) :=
  (models p.model).bind fun d => d.root.at? p.position

/-- `DataModel::equal`. -/
def equal [FloatingText δ] (model other : Nat) (fuel : Nat) : Option Bool :=
  match models model, models other with
  | some d, some d' =>
      -- the version is compared with itself
      if d.version = d.version ∧
          typesHandles model (d.types.map DataType.id) =
            typesHandles other (d'.types.map DataType.id) then
        DataElement.comparison.equal models.elementAt fuel ⟨model, []⟩ ⟨other, []⟩
      else some false
  | _, _ => none

end DataModels

/-- The data models of two identities have the same structure. -/
structure DataModel.Same (model other : Nat) (d d' : DataModel δ) : Prop where
  version : d.version = d'.version
  types : ∀ id, d.types.getType id = d'.types.getType id
  root : d.root.map (fun label => (label.own.type, label.own.state,
        label.reference.map (Reference.view model)))
      (fun label => (label.own, label.reference.map (Reference.view model))) =
    d'.root.map (fun label => (label.own.type, label.own.state,
        label.reference.map (Reference.view other)))
      (fun label => (label.own, label.reference.map (Reference.view other)))

theorem DataModel.Same.refl (model : Nat) (d : DataModel δ) : DataModel.Same model model d d :=
  ⟨rfl, fun _ => rfl, rfl⟩

theorem decides_false_iff {property : Prop} :
    Decides (fun _ => some false) property ↔ ¬ property := by
  rw [decides_of_returns ⟨0, fun _ _ => rfl⟩]
  simp

theorem DataModels.decides_iff [FloatingText δ] (models : DataModels δ) {model other : Nat}
    {d d' : DataModel δ} (living : models model = some d) (living' : models other = some d')
    (nonempty : d.types ≠ []) :
    Decides (models.equal model other) (DataModel.Same model other d d') ↔
      model = other ∧ Settled models.elementAt ⟨model, []⟩ ∨ ¬ DataModel.Same model other d d' := by
  by_cases eq : model = other
  · subst eq
    cases living.symm.trans living'
    have same := DataModel.Same.refl model d
    have run : models.equal model model =
        (DataElement.comparison.equal models.elementAt · ⟨model, []⟩ ⟨model, []⟩) := by
      funext fuel
      rw [equal, living]
      exact if_pos ⟨rfl, rfl⟩
    rw [decides_true_iff same, run, returns_true_iff DataElement.comparison_reflexive]
    simp [same]
  · have ids : d.types.map DataType.id ≠ [] := fun empty => nonempty (List.map_eq_nil_iff.mp empty)
    have run : models.equal model other = fun _ => some false := by
      funext fuel
      rw [equal, living, living']
      exact if_neg fun both => typesHandles_ne eq ids both.2
    rw [run, decides_false_iff]
    simp [eq]

/-! ### Types of data models -/

namespace DataModels

/-- The living data models have types. -/
def Typed (models : DataModels δ) : Prop := ∀ model d, models model = some d → d.types ≠ []

theorem Typed.update {models : DataModels δ} (typed : models.Typed) (model : Nat)
    {d : DataModel δ} (nonempty : d.types ≠ []) : Typed (Function.update models model (some d)) := by
  intro other d' living
  by_cases eq : other = model
  · rw [eq, Function.update_self] at living
    cases living
    exact nonempty
  · rw [Function.update_of_ne eq] at living
    exact typed other d' living

variable [FloatingText δ] {models : DataModels δ} {model : Nat} {d : DataModel δ}

/-- A type is never removed from a list. -/
theorem foldl_addType_ne_nil {types : DataTypesList} (nonempty : types ≠ []) (added : List DataType) :
    added.foldl DataTypesList.addType types ≠ [] := by
  induction added generalizing types with
  | nil => exact nonempty
  | cons type added ih =>
      apply ih
      unfold DataTypesList.addType
      split
      · exact nonempty
      · exact List.append_ne_nil_of_left_ne_nil nonempty _

theorem Typed.createData (typed : models.Typed) {m : MetaModel δ}
    (created : m.createData model = some d) : Typed (Function.update models model (some d)) := by
  apply typed.update
  rw [MetaModel.createData] at created
  obtain ⟨root, -, linked⟩ := Option.bind_eq_some_iff.mp created
  dsimp only at linked
  split at linked
  · obtain ⟨root', -, rfl⟩ := Option.map_eq_some_iff.mp linked
    exact foldl_addType_ne_nil (List.cons_ne_nil _ _) _
  · cases linked

theorem Typed.clone (typed : models.Typed) {original : Nat} {d' : DataModel δ}
    (living : models original = some d') (cloned : d'.clone model = some d) :
    Typed (Function.update models model (some d)) := by
  apply typed.update
  rw [DataModel.clone] at cloned
  obtain ⟨root, -, linked⟩ := Option.bind_eq_some_iff.mp cloned
  obtain ⟨root', -, rfl⟩ := Option.map_eq_some_iff.mp linked
  exact typed original d' living

theorem Typed.addItem (typed : models.Typed) {list : Position} {models' : DataModels δ}
    (added : models.addItem model list = some models') : models'.Typed := by
  rw [DataModels.addItem] at added
  obtain ⟨d, living, added⟩ := Option.bind_eq_some_iff.mp added
  split at added
  · obtain ⟨item, -, rfl⟩ := Option.map_eq_some_iff.mp added
    exact typed.update model (typed model d living)
  · cases added

omit [FloatingText δ] in
theorem Typed.changeParameter (typed : models.Typed) (parameter : Position)
    (change : Data δ → Data δ) : Typed (models.changeParameter model parameter change) := by
  rw [DataModels.changeParameter]
  cases living : models model with
  | none => exact typed
  | some d =>
      dsimp only
      split
      · exact typed.update model (typed model d living)
      · exact typed

end DataModels

/-! ### Meta models -/

namespace MetaElement

def cast : MetaElement δ → MetaElement δ → Bool
  | .leaf _ _, .leaf _ _ => true
  | .branch _ label _, .branch _ label' _ => label.own.kind = label'.own.kind
  | _, _ => false

def info : MetaElement δ → MetaInfo
  | .leaf _ label => label.own.toMetaInfo
  | .branch _ label _ => label.own.toMetaInfo

/-- `NamedElement::equal`. -/
def namedEqual (element other : MetaElement δ) : Bool :=
  element.key = other.key && (info element).name = (info other).name &&
    (info element).description = (info other).description

/-- `MetaElement::equal` behind the references, then `MetaParameter::equal` or
`MetaContainer::equal`. -/
def equalAfter (entry other : Pointer × MetaElement δ) : Bool :=
  parentPath entry.1 = parentPath other.1 &&
    (info entry.2).advanced = (info other.2).advanced &&
    (info entry.2).readOnly = (info other.2).readOnly &&
    match entry.2, other.2 with
    | .leaf _ label, .leaf _ label' =>
        (entry.1.model, label.own.type.id) = (other.1.model, label'.own.type.id) &&
          label.own.unit = label'.own.unit
    | element, element' => handles entry.1 element.children = handles other.1 element'.children

def comparison : Comparison δ MetaParameter MetaContainer := ⟨cast, namedEqual, equalAfter⟩

theorem comparison_reflexive : (comparison : Comparison δ _ _).Reflexive where
  cast element := by
    cases element with
    | leaf id label => rfl
    | branch id label items => exact decide_eq_true rfl
  before element := by simp [comparison, namedEqual]
  after entry := by
    obtain ⟨p, element⟩ := entry
    cases element with
    | leaf id label => simp [comparison, equalAfter]
    | branch id label items => simp [comparison, equalAfter]

end MetaElement

namespace MetaModel

/-- The elements of two models. -/
def elementAt (m m' : MetaModel δ) (p : Pointer) : Option (MetaElement δ) :=
  if p.model = m.id then m.root.at? p.position
  else if p.model = m'.id then m'.root.at? p.position
  else none

/-- `MetaModel::equal`. -/
def equal [FloatingText δ] (m m' : MetaModel δ) (fuel : Nat) : Option Bool :=
  -- the version is compared with itself
  if m.version = m.version ∧
      typesHandles m.id (builtinTypes.map ValueKind.id) =
        typesHandles m'.id (builtinTypes.map ValueKind.id) ∧
      typesHandles m.id (m.types.entries.map Prod.fst) =
        typesHandles m'.id (m'.types.entries.map Prod.fst) then
    MetaElement.comparison.equal (elementAt m m') fuel ⟨m.id, []⟩ ⟨m'.id, []⟩
  else some false

/-- Two meta models have the same structure. -/
structure Same (m m' : MetaModel δ) : Prop where
  version : m.version = m'.version
  types : m.types.entries = m'.types.entries
  root : m.root.map (fun label => (label.own, label.reference.map (Reference.view m.id)))
      (fun label => (label.own, label.reference.map (Reference.view m.id))) =
    m'.root.map (fun label => (label.own, label.reference.map (Reference.view m'.id)))
      (fun label => (label.own, label.reference.map (Reference.view m'.id)))

theorem Same.refl (m : MetaModel δ) : m.Same m := ⟨rfl, rfl, rfl⟩

theorem decides_iff [FloatingText δ] {m m' : MetaModel δ} (identity : m.id = m'.id → m = m') :
    Decides (m.equal m') (m.Same m') ↔
      m = m' ∧ Settled (elementAt m m) ⟨m.id, []⟩ ∨ ¬ m.Same m' := by
  by_cases eq : m.id = m'.id
  · cases identity eq
    have same := Same.refl m
    have run : m.equal m =
        (MetaElement.comparison.equal (elementAt m m) · ⟨m.id, []⟩ ⟨m.id, []⟩) :=
      funext fun fuel => if_pos ⟨rfl, rfl, rfl⟩
    rw [decides_true_iff same, run, returns_true_iff MetaElement.comparison_reflexive]
    simp [same]
  · have run : m.equal m' = fun _ => some false :=
      funext fun fuel => if_neg fun all => typesHandles_ne eq (by decide) all.2.1
    have ne : m ≠ m' := fun same => eq (congrArg MetaModel.id same)
    rw [run, decides_false_iff]
    simp [ne]

end MetaModel

/-! ### All models -/

/-- The comparison tells whether two models have the same structure when they have not, or when
they are one model and the references from its root on come to an end. -/
theorem equal_decides_iff [FloatingText δ] (models : DataModels δ) (typed : models.Typed) :
    (∀ model other d d', models model = some d → models other = some d' →
      (Decides (models.equal model other) (DataModel.Same model other d d') ↔
        model = other ∧ Settled models.elementAt ⟨model, []⟩ ∨
          ¬ DataModel.Same model other d d')) ∧
    ∀ m m' : MetaModel δ, (m.id = m'.id → m = m') →
      (Decides (m.equal m') (m.Same m') ↔
        m = m' ∧ Settled (MetaModel.elementAt m m) ⟨m.id, []⟩ ∨ ¬ m.Same m') :=
  ⟨fun model _ d _ living living' => models.decides_iff living living' (typed model d living),
    fun _ _ => MetaModel.decides_iff⟩

/-- Numbers without a fraction. -/
instance wholeNumbers : FloatingText Int where
  zero := 0
  equal x y := x = y
  print _ := CharStream.decimal
  parse _ _ := none

/-- A data model with a root and the built-in types. -/
def blank : DataModel Int :=
  ⟨['1'], builtinTypes.map .value, .branch [] ⟨.component, none⟩ []⟩

/-- Two models of the same structure. -/
def twins : DataModels Int := fun model => if model < 2 then some blank else none

theorem twins_differ : ¬ Decides (twins.equal 0 1) (DataModel.Same 0 1 blank blank) := by
  have typed : twins.Typed := by
    intro model d living
    rw [twins] at living
    split at living
    · cases living
      exact List.cons_ne_nil _ _
    · cases living
  have same : DataModel.Same 0 1 blank blank := ⟨rfl, fun _ => rfl, rfl⟩
  rw [(equal_decides_iff twins typed).1 0 1 blank blank rfl rfl]
  simp [same]

/-- A meta model with nothing added to it. -/
def untouched (model : Nat) : MetaModel Int := MetaModel.create model ['1']

theorem untouched_differ :
    ¬ Decides ((untouched 0).equal (untouched 1)) ((untouched 0).Same (untouched 1)) := by
  have same : (untouched 0).Same (untouched 1) := ⟨rfl, rfl, rfl⟩
  have returned : Returns ((untouched 0).equal (untouched 1)) false :=
    ⟨0, fun _ _ => if_neg fun all => typesHandles_ne (by decide) (by decide) all.2.1⟩
  rw [decides_of_returns returned]
  simp [same]

end OpenSand.Conf
