import OpenSand.Conf.MetaModel

/-!
The data models: their creation, their copies and the items of their lists
(`DataModel`, `DataElement`, `DataList`).

The living models are known by their identity, and a reference holds a pointer to its target,
so a reference into another model can be told from one into its own. `DataModels.addItem`
follows `DataList::addItem`: the pattern is duplicated with its references, which still have the
targets of the pattern, and those into the pattern are then set anew by paths.
-/

namespace OpenSand.Conf

abbrev DataElement (δ : Type) := Element δ (Data δ) ContainerKind

/-- The types of a data model, each identifier once. -/
abbrev DataTypesList := List DataType

namespace DataTypesList

def getType (types : DataTypesList) (id : Text) : Option DataType := types.find? (·.id = id)

def addType (types : DataTypesList) (type : DataType) : DataTypesList :=
  if (getType types type.id).isSome then types else types ++ [type]

end DataTypesList

structure DataModel (δ : Type) where
  version : Text
  types : DataTypesList
  root : DataElement δ

/-- The living models by their identities. -/
abbrev DataModels (δ : Type) := Nat → Option (DataModel δ)

section FloatingText

variable {δ : Type} [FloatingText δ]

/-! ### Creation -/

def MetaTypesList.createData (types : MetaTypesList) : DataTypesList :=
  (builtinTypes.map DataType.value ++
    types.entries.map fun entry => DataType.enumeration entry.1 entry.2.values).foldl
      DataTypesList.addType []

namespace DataElement

def skeleton (root : DataElement δ) : Skeleton :=
  root.map (fun label => label.own.type) (fun label => label.own)

/-- The element of a path, where `*` is a pattern (`DataElement::getItemFromRoot`). -/
def getItemFromRoot (root : DataElement δ) (path : Text) : Option Position :=
  Structure.getItemFromRoot Referring.own true root path

/-- What the user of a model can reach: the patterns of the lists are not. -/
def opens (root : DataElement δ) (position : Position) : Option (DataElement δ) :=
  Structure.descend Referring.own false position root

end DataElement

open DataElement

/-- The structure of the data of an element, without references (`MetaElement::createData`). -/
def MetaElement.createData (types : DataTypesList) (root : MetaElement δ) :
    Option (DataElement δ) :=
  root.traverse (fun label => (types.getType label.own.type.id).map (⟨Data.create ·, none⟩))
    (fun label => some ⟨label.own.kind, none⟩)

/-- The entries of the second pass over a copy of a whole model. -/
def Element.links {α β : Type} (root : Element δ α β) : List (Element.Link δ) :=
  (root.referenced KeyedTree.children).map fun (position, reference) =>
    ⟨pathText position, pathText reference.target.position, reference.expected⟩

/-- The data of a model, under an identity (`MetaModel::createData`). All the expected values
have to be set. -/
def MetaModel.createData (m : MetaModel δ) (model : Nat) : Option (DataModel δ) :=
  let types := m.types.createData
  (MetaElement.createData types m.root).bind fun root =>
    let links := Element.links m.root
    if links.all (·.expected.isSet) then
      (Element.linkAll Data.type getItemFromRoot model [] root links).map fun root =>
        ⟨m.version, types, root⟩
    else none

/-! ### Clones -/

def Data.clone (types : DataTypesList) (data : Data δ) : Option (Data δ) :=
  (types.getType data.type.id).map fun type =>
    if data.isSet then ((Data.create type).set data.value).2 else Data.create type

/-- The structure of a copy (`DataElement::clone`). -/
def DataElement.clone (types : DataTypesList) (root : DataElement δ) : Option (DataElement δ) :=
  root.traverse (fun label => (label.own.clone types).map (⟨·, none⟩))
    (fun label => some ⟨label.own, none⟩)

def DataModel.clone (d : DataModel δ) (model : Nat) : Option (DataModel δ) :=
  (d.root.clone d.types).bind fun root =>
    (Element.linkAll Data.type getItemFromRoot model [] root (Element.links d.root)).map fun root =>
      ⟨d.version, d.types, root⟩

/-- The structure of a copy (`MetaElement::clone`). -/
def MetaElement.clone (types : MetaTypesList) (root : MetaElement δ) : Option (MetaElement δ) :=
  root.traverse
    (fun label => (types.getType label.own.type.id).map fun type =>
      ⟨{ label.own with type := type }, none⟩)
    (fun label => some ⟨label.own, none⟩)

def MetaModel.clone (m : MetaModel δ) (model : Nat) : Option (MetaModel δ) :=
  (m.root.clone m.types).bind fun root =>
    (Element.linkAll MetaParameter.type MetaElement.getItemFromRoot model [] root
      (Element.links m.root)).map fun root => ⟨model, m.version, m.types, root⟩

namespace DataModels

variable (models : DataModels δ)

/-- The data of the parameter a pointer targets. -/
def dataAt (target : Pointer) : Option (Data δ) :=
  (models target.model).bind fun d => Element.parameterAt d.root target.position

def checkReference (element : DataElement δ) : Bool :=
  match Element.reference element with
  | none => true
  | some reference =>
      reference.expected.isSet &&
        match models.dataAt reference.target with
        | none => false
        | some data => data.isSet && data.equal reference.expected

/-! ### Duplicates -/

/-- The copy gets a reference to the same target (`DataElement::duplicateReference`). -/
def duplicateOwnReference (element copy : DataElement δ) : Option (DataElement δ) :=
  match Element.reference element with
  | none => some copy
  | some reference =>
      (models.dataAt reference.target).bind fun data =>
        let (copied, expected) := (Data.create data.type).copy reference.expected
        if copied then some (Element.setReference (some ⟨reference.target, expected⟩) copy)
        else none

mutual

/-- The reference of an element and the ones of its items, pattern included. -/
def duplicateReference : DataElement δ → DataElement δ → Option (DataElement δ)
  | .leaf id label, copy => models.duplicateOwnReference (.leaf id label) copy
  | .branch id label items, copy =>
      (models.duplicateOwnReference (.branch id label items) copy).bind fun
        | .leaf _ _ => none
        | .branch copyId copyLabel copies =>
            (duplicateReferences items copies).map (.branch copyId copyLabel)

def duplicateReferences : List (DataElement δ) → List (DataElement δ) → Option (List (DataElement δ))
  | [], [] => some []
  | item :: items, copy :: copies =>
      (duplicateReference item copy).bind fun copy =>
        (duplicateReferences items copies).map (copy :: ·)
  | _, _ => none

end

mutual

/-- A new element with the same items; an item whose reference cannot be set is left out. -/
def duplicateObject (id : Text) : DataElement δ → DataElement δ
  | .leaf _ label => .leaf id ⟨label.own.duplicate, none⟩
  | .branch _ label items => .branch id ⟨label.own, none⟩ (duplicateItems items)

def duplicateItems : List (DataElement δ) → List (DataElement δ)
  | [] => []
  | item :: items =>
      match models.duplicateReference item (duplicateObject item.key item) with
      | none => duplicateItems items
      | some copy => copy :: duplicateItems items

end

def duplicate (id : Text) (element : DataElement δ) : Option (DataElement δ) :=
  models.duplicateReference element (models.duplicateObject id element)

/-! ### Items of lists -/

/-- The children of a container, the pattern of a list last. -/
def itemsFirst : DataElement δ → List (DataElement δ)
  | .leaf _ _ => []
  | .branch _ label items => if label.own = .list then items.tail ++ items.take 1 else items

/-- The elements of the pattern of a list whose target is in the pattern, with their paths and
the ones of their targets from the pattern on. -/
def patternLinks (list : Position) (pattern : DataElement δ) :
    List (Element.Link δ) :=
  let path := pathText list
  (Element.referenced itemsFirst pattern).filterMap fun (position, reference) =>
    let target := pathText reference.target.position
    let commonPath := getCommonPath path target
    if commonPath = path ∧ (splitPath (getRelativePath commonPath target)).head? = some star then
      some ⟨getRelativePath (path ++ '/' :: star) (pathText (list ++ star :: position)),
        getRelativePath (path ++ '/' :: star) target, reference.expected⟩
    else none

/-- The identifier of the next item. -/
def itemId (count : Nat) : Text := Nat.toDigits 10 count

/-- A new item of a list, as a copy of its pattern. -/
def newItem (model : Nat) (list : Position) (count : Nat) (pattern : DataElement δ) :
    Option (DataElement δ) :=
  (models.duplicate (itemId count) pattern).bind fun item =>
    Element.linkAll Data.type getItemFromRoot model (list ++ [itemId count]) item
      (patternLinks list pattern)

/-- A list of a model gets one more item; nothing is added on failure. -/
def addItem (model : Nat) (list : Position) : Option (DataModels δ) :=
  (models model).bind fun d =>
    match opens d.root list with
    | some (.branch _ ⟨.list, _⟩ (pattern :: items)) =>
        (models.newItem model list items.length pattern).map fun item =>
          Function.update models model
            (some { d with root := d.root.update (.addChild item) list })
    | _ => none

/-! ### Values -/

def changeData (change : Data δ → Data δ) : DataElement δ → DataElement δ
  | .leaf id label => .leaf id { label with own := change label.own }
  | .branch id label items => .branch id label items

/-- The parameters are changed through their data. -/
def changeParameter (model : Nat) (parameter : Position) (change : Data δ → Data δ) :
    DataModels δ :=
  match models model with
  | none => models
  | some d =>
      match opens d.root parameter with
      | some (.leaf _ _) =>
          Function.update models model
            (some { d with root := d.root.update (changeData change) parameter })
      | _ => models

end DataModels

end FloatingText

end OpenSand.Conf
