import OpenSand.Conf.Element
import OpenSand.Lib.SortedMap

/-!
The meta model and the calls that build it (`MetaModel`, `MetaComponent`, `MetaTypesList`).

A meta list holds its pattern only. `MetaModel.call` is one call of the public API, which
changes nothing when it is refused. A reference is accepted by the paths of the two elements alone: no list may be
entered on the way from their common path to the target.
-/

namespace OpenSand.Conf

structure MetaInfo where
  name : Text
  description : Text
  advanced : Bool
  readOnly : Bool
deriving DecidableEq, Repr

structure MetaParameter extends MetaInfo where
  type : DataType
  unit : Text
deriving DecidableEq, Repr

structure MetaContainer extends MetaInfo where
  kind : ContainerKind
deriving DecidableEq, Repr

abbrev MetaElement (δ : Type) := Element δ MetaParameter MetaContainer

structure MetaEnumType where
  name : Text
  description : Text
  values : List Text
deriving DecidableEq, Repr

/-- The enumerations of a model; the built-in types are in every list. -/
abbrev MetaTypesList := SortedMap Text MetaEnumType

def builtinTypes : List ValueKind := [.bool, .double, .float, .int, .short, .long, .string]

namespace MetaTypesList

variable (types : MetaTypesList)

def getType (id : Text) : Option DataType :=
  match builtinTypes.find? (·.id = id) with
  | some kind => some (.value kind)
  | none => (types.lookup id).map fun enum => .enumeration id enum.values

def addEnumType (id name : Text) (values : List Text) (description : Text) :
    Option MetaTypesList :=
  if uniqueValues values = [] ∨ (types.getType id).isSome then none
  else some (types.insert id ⟨name, description, uniqueValues values⟩)

def setDescription (id description : Text) : MetaTypesList :=
  types.modify id fun enum => { enum with description := description }

end MetaTypesList

namespace MetaElement

variable {δ : Type}

def newInfo (name description : Text) : MetaInfo := ⟨name, description, false, false⟩

def newComponent (id name description : Text) : MetaElement δ :=
  .branch id ⟨⟨newInfo name description, .component⟩, none⟩ []

def newList (id name description patternName patternDescription : Text) : MetaElement δ :=
  .branch id ⟨⟨newInfo name description, .list⟩, none⟩
    [newComponent star patternName patternDescription]

def newParameter (id name description : Text) (type : DataType) : MetaElement δ :=
  .leaf id ⟨⟨newInfo name description, type, []⟩, none⟩

def changeInfo (change : MetaInfo → MetaInfo) : MetaElement δ → MetaElement δ
  | .leaf id label =>
      .leaf id { label with own := { label.own with toMetaInfo := change label.own.toMetaInfo } }
  | .branch id label items =>
      .branch id { label with own := { label.own with toMetaInfo := change label.own.toMetaInfo } }
        items

def setUnit (unit : Text) : MetaElement δ → MetaElement δ
  | .leaf id label => .leaf id { label with own := { label.own with unit := unit } }
  | .branch id label items => .branch id label items

/-- A change of the expected data, if the element has a reference. -/
def changeExpected (change : Data δ → Data δ) (element : MetaElement δ) : MetaElement δ :=
  Element.setReference
    ((Element.reference element).map fun ref => { ref with expected := change ref.expected }) element

/-- The element of a path (`MetaElement::getItemFromRoot`), as its position. -/
def getItemFromRoot (root : MetaElement δ) (path : Text) : Option Position :=
  if path = [] then none else (root.at? (splitPath path)).map fun _ => splitPath path

def isList : MetaElement δ → Bool
  | .leaf _ _ => false
  | .branch _ label _ => label.own.kind = .list

/-- The way down exists and enters no list. -/
def reaches : MetaElement δ → List Text → Bool
  | _, [] => true
  | element, id :: ids =>
      match element.child? id with
      | none => false
      | some child => !isList child && reaches child ids

def skeleton (root : MetaElement δ) : Skeleton :=
  root.map (fun label => label.own.type) (fun label => label.own.kind)

end MetaElement

structure MetaModel (δ : Type) where
  id : Nat
  version : Text
  types : MetaTypesList
  root : MetaElement δ

/-- The calls of the public API that change a model; elements are given by their positions. -/
inductive MetaCall (δ : Type)
  | addEnumType (id name : Text) (values : List Text) (description : Text)
  | setEnumDescription (id description : Text)
  | setDescription (element : Position) (description : Text)
  | setAdvanced (element : Position) (advanced : Bool)
  | setReadOnly (element : Position) (readOnly : Bool)
  | setUnit (parameter : Position) (unit : Text)
  | addComponent (component : Position) (id name description : Text)
  | addList (component : Position) (id name patternName description patternDescription : Text)
  | addParameter (component : Position) (id name type description : Text)
  | setReference (element target : Position)
  | resetReference (element : Position)
  | setExpected (element : Position) (value : Value δ)
  | resetExpected (element : Position)

namespace MetaModel

open MetaElement

variable {δ : Type}

def create (id : Nat) (version : Text) : MetaModel δ where
  id := id
  version := version
  types := .empty
  root := newComponent [] ['R', 'o', 'o', 't']
    ['R', 'o', 'o', 't', ' ', 'c', 'o', 'm', 'p', 'o', 'n', 'e', 'n', 't']

variable (m : MetaModel δ)

/-- A component gets one more item, unless its identifier has a slash or is already used. -/
def addItem (component : Position) (item : MetaElement δ) : MetaModel δ :=
  match m.root.at? component with
  | some (.branch _ label items) =>
      if label.own.kind = .component ∧ checkPathId item.key = true ∧
          (items.find? (·.key = item.key)).isNone = true then
        { m with root := m.root.update (.addChild item) component }
      else m
  | _ => m

/-- The test of `setReference`, on the paths of the element and of the target. -/
def accepts (element target : Position) : Bool :=
  let commonPath := getCommonPath (pathText element) (pathText target)
  let remainingIds := splitPath (getRelativePath commonPath (pathText target))
  if remainingIds = [] then false
  else
    match if commonPath = [] then some [] else getItemFromRoot m.root commonPath with
    | none => false
    | some position => ((m.root.at? position).map fun element => reaches element remainingIds).getD false

section Call

variable [FloatingText δ]

def setReference (element target : Position) : MetaModel δ :=
  match m.root.parameterAt target with
  | none => m
  | some parameter =>
      if m.accepts element target then
        { m with
          root := m.root.update (Element.setReference
            (some ⟨⟨m.id, target⟩, Data.create parameter.type⟩)) element }
      else m

def call : MetaCall δ → MetaModel δ
  | .addEnumType id name values description =>
      { m with types := (m.types.addEnumType id name values description).getD m.types }
  | .setEnumDescription id description =>
      { m with types := m.types.setDescription id description }
  | .setDescription element description =>
      { m with root := m.root.update (changeInfo ({ · with description := description })) element }
  | .setAdvanced element advanced =>
      { m with root := m.root.update (changeInfo ({ · with advanced := advanced })) element }
  | .setReadOnly element readOnly =>
      { m with root := m.root.update (changeInfo ({ · with readOnly := readOnly })) element }
  | .setUnit parameter unit => { m with root := m.root.update (MetaElement.setUnit unit) parameter }
  | .addComponent component id name description =>
      m.addItem component (newComponent id name description)
  | .addList component id name patternName description patternDescription =>
      m.addItem component (newList id name description patternName patternDescription)
  | .addParameter component id name type description =>
      match m.types.getType type with
      | none => m
      | some type => m.addItem component (newParameter id name description type)
  | .setReference element target => m.setReference element target
  | .resetReference element =>
      { m with root := m.root.update (Element.setReference none) element }
  | .setExpected element value =>
      { m with root := m.root.update (changeExpected fun data => (data.set value).2) element }
  | .resetExpected element =>
      { m with root := m.root.update (changeExpected Data.reset) element }

end Call

/-- The model a sequence of calls builds. -/
def build [FloatingText δ] (id : Nat) (version : Text) (calls : List (MetaCall δ)) : MetaModel δ :=
  calls.foldl (fun m => m.call) (create id version)

end MetaModel

/-! ### Types -/

namespace MetaTypesList

variable {types types' : MetaTypesList} {id name description : Text} {values : List Text}

theorem getType_id {type : DataType} (found : types.getType id = some type) : type.id = id := by
  unfold getType at found
  split at found
  next kind builtin =>
    cases found
    have own : kind.id = id := by simpa using List.find?_some builtin
    exact own
  next =>
    obtain ⟨enum, _, rfl⟩ := Option.map_eq_some_iff.mp found
    rfl

theorem find_builtin (kind : ValueKind) :
    builtinTypes.find? (fun other => other.id = kind.id) = some kind := by
  cases kind
  all_goals decide

theorem getType_value (kind : ValueKind) : types.getType kind.id = some (.value kind) := by
  rw [getType, find_builtin]

theorem addEnumType_eq (added : types.addEnumType id name values description = some types') :
    uniqueValues values ≠ [] ∧ types.getType id = none ∧
      types' = types.insert id ⟨name, description, uniqueValues values⟩ := by
  unfold addEnumType at added
  split at added
  · cases added
  next accepted =>
    cases added
    rw [not_or, Bool.not_eq_true, Option.isSome_eq_false_iff, Option.isNone_iff_eq_none] at accepted
    exact ⟨accepted.1, accepted.2, rfl⟩

theorem getType_eq_none (unknown : types.getType id = none) :
    types.lookup id = none ∧ ∀ kind : ValueKind, kind.id ≠ id := by
  unfold getType at unknown
  split at unknown
  · cases unknown
  next absent =>
    refine ⟨Option.map_eq_none_iff.mp unknown, ?_⟩
    rintro kind rfl
    rw [find_builtin] at absent
    cases absent

/-- Types are added, never changed. -/
theorem getType_addEnumType {other : Text} {type : DataType}
    (added : types.addEnumType id name values description = some types')
    (found : types.getType other = some type) : types'.getType other = some type := by
  obtain ⟨_, unknown, rfl⟩ := addEnumType_eq added
  have ne : other ≠ id := by
    rintro rfl
    rw [unknown] at found
    cases found
  unfold getType at found ⊢
  split
  next kind builtin =>
    rw [builtin] at found
    exact found
  next absent =>
    rw [absent] at found
    rw [SortedMap.lookup_insert (getType_eq_none unknown).1, if_neg ne]
    exact found

theorem getType_setDescription (other : Text) :
    (types.setDescription id description).getType other = types.getType other := by
  unfold getType setDescription
  split
  · rfl
  · rw [SortedMap.lookup_modify]
    split
    · rw [Option.map_map]
      rfl
    · rw [Option.map_id']

end MetaTypesList

end OpenSand.Conf
