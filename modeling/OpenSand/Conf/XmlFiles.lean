import OpenSand.Conf.Templates

/-!
Data models in XML files (`toXML`, `fromXML`).

A file has the values of the parameters that are set and the items of the lists; it is read into a
new model of the meta model. `reread` is what the reader makes of a written element, on its own.
A model comes back as a faithful copy exactly when each value is written as a text that gives
this value again (`roundTrip_iff`).
-/

namespace OpenSand.Conf

open DataElement

/-! ### Documents -/

/-- An element of a document, with its text or its elements. -/
abbrev XmlNode := KeyedTree Text Text Unit

/-- The content that a node has after a text was set (`xmlNodeSetContent`, which expands
entities). -/
class XmlContent where
  content : Text → Text

structure XmlDocument where
  name : Text
  version : Text
  nodes : List XmlNode

namespace XmlNode

def modelName : Text := ['m', 'o', 'd', 'e', 'l']

def rootName : Text := ['r', 'o', 'o', 't']

def itemName : Text := ['i', 't', 'e', 'm']

mutual

/-- All the text in a node. -/
def getNodeContent : XmlNode → Text
  | .leaf _ text => text
  | .branch _ _ nodes => getContents nodes

def getContents : List XmlNode → Text
  | [] => []
  | node :: nodes => getNodeContent node ++ getContents nodes

end

end XmlNode

open XmlNode

variable {δ : Type} [FloatingText δ]

/-! ### Writing -/

section Writing

variable [XmlContent]

def parameterToXML (data : Data δ) : Text :=
  if data.isSet then XmlContent.content data.toString else []

/-- The parameters are written when they have a content. -/
def hasContent : XmlNode → Bool
  | .leaf _ text => text ≠ []
  | .branch _ _ _ => true

mutual

def elementToXML : DataElement δ → XmlNode
  | .leaf id label => .leaf id (parameterToXML label.own)
  | .branch id ⟨.component, _⟩ items => .branch id () (itemsToXML items)
  | .branch id ⟨.list, _⟩ [] => .branch id () []
  | .branch id ⟨.list, _⟩ (_ :: items) =>
      .branch id () ((itemsToXML items).map (KeyedTree.rekey itemName))

def itemsToXML : List (DataElement δ) → List XmlNode
  | [] => []
  | item :: items =>
      let node := elementToXML item
      if hasContent node then node :: itemsToXML items else itemsToXML items

end

def rootToXML (root : DataElement δ) : XmlNode := .branch rootName () (itemsToXML root.children)

def toXML (d : DataModel δ) : XmlDocument := ⟨modelName, d.version, [rootToXML d.root]⟩

end Writing

/-! ### Reading -/

namespace DataModels

variable (models : DataModels δ) (model : Nat)

def reached (position : Position) : Option (DataElement δ) :=
  (models model).bind fun d => opens d.root position

/-- The identifier of the next item of a list. -/
def nextItem (list : Position) : Text :=
  match models.reached model list with
  | some element => itemId (Structure.getItems Referring.own element).length
  | none => itemId 0

/-- A parameter is set from a text, if there is any. -/
def loadParameter (position : Position) (text : Text) : Option (DataModels δ) :=
  if text = [] then some models
  else
    match models.reached model position with
    | some (.leaf _ label) =>
        if (label.own.fromString text).1 then
          some (models.changeParameter model position fun data => (data.fromString text).2)
        else none
    | _ => none

mutual

/-- The element at a position is read from a node, by what it is. -/
def loadElement (model : Nat) (position : Position) :
    XmlNode → DataModels δ → Option (DataModels δ)
  | .leaf _ text, models =>
      match models.reached model position with
      | none => none
      | some (.leaf _ _) => models.loadParameter model position text
      | some (.branch _ _ _) => some models
  | .branch _ _ nodes, models =>
      match models.reached model position with
      | none => none
      | some (.leaf _ _) => models.loadParameter model position (getContents nodes)
      | some (.branch _ ⟨.component, _⟩ _) => loadComponent model position nodes models
      | some (.branch _ ⟨.list, _⟩ _) => loadList model position nodes models

/-- The nodes in the one of a component (`loadComponentFromXML`). -/
def loadComponent (model : Nat) (position : Position) :
    List XmlNode → DataModels δ → Option (DataModels δ)
  | [], models => some models
  | node :: nodes, models =>
      (loadElement model (position ++ [node.key]) node models).bind
        (loadComponent model position nodes)

/-- The nodes in the one of a list, where those of the items count. -/
def loadList (model : Nat) (list : Position) :
    List XmlNode → DataModels δ → Option (DataModels δ)
  | [], models => some models
  | .leaf name _ :: nodes, models =>
      if name = itemName then (models.addItem model list).bind (loadList model list nodes)
      else loadList model list nodes models
  | .branch name _ inner :: nodes, models =>
      if name = itemName then
        (models.addItem model list).bind fun grown =>
          (loadComponent model (list ++ [models.nextItem model list]) inner grown).bind
            (loadList model list nodes)
      else loadList model list nodes models

end

end DataModels

/-- The node of the root has to be the only one with its name. -/
def loadRoot (model : Nat) (nodes : List XmlNode) (models : DataModels δ) :
    Option (DataModels δ) :=
  match nodes.filter (·.key = rootName) with
  | [root] => DataModels.loadComponent model [] root.children models
  | _ => none

/-- A model is read under a new identity. The schema of the meta model is made and used by the
library, where errors in a file are not counted (`usable`). -/
def MetaModel.fromXML (m : MetaModel δ) (models : DataModels δ) (model : Nat) (usable : Bool)
    (document : XmlDocument) : Option (DataModels δ) :=
  if usable ∧ document.name = modelName ∧ document.version = m.version then
    (m.createData model).bind fun d =>
      loadRoot model document.nodes (Function.update models model (some d))
  else none

/-! ### What is read of a written element -/

/-- A text is read by its type only. -/
theorem Data.fromString_create (data : Data δ) (text : Text) :
    (data.fromString text).1 = ((create data.type : Data δ).fromString text).1 ∧
      ((data.fromString text).1 = true → (data.fromString text).2.state =
        ((create data.type : Data δ).fromString text).2.state) := by
  rw [fromString, fromString, create_type]
  cases (Value.parse data.type.kind text : Option (Value δ)) with
  | none => exact ⟨rfl, by rintro ⟨⟩⟩
  | some value =>
      dsimp only
      by_cases accepted : value.OfKind data.type.kind ∧ data.type.check value = true
      · rw [set_eq data accepted.1 accepted.2, set_eq (create data.type) accepted.1 accepted.2]
        exact ⟨rfl, fun _ => rfl⟩
      · have refused (other : Data δ) (same : other.type = data.type) :
            other.set value = (false, other) := dif_neg (same ▸ accepted)
        rw [refused data rfl, refused (create data.type) rfl]
        exact ⟨rfl, by rintro ⟨⟩⟩

section Reread

variable [XmlContent]

/-- What a new parameter of the same type gets from the text that is written. -/
def Data.reread (data : Data δ) : Option (Option (Value δ)) :=
  if parameterToXML data = [] then some none
  else
    let read := (create data.type).fromString (parameterToXML data)
    if read.1 then some read.2.state else none

mutual

def reread : DataElement δ → Option (States δ)
  | .leaf id label => label.own.reread.map fun state => .leaf id (label.own.type, state)
  | .branch id ⟨.component, _⟩ items => (rereadItems items).map (.branch id .component)
  | .branch id ⟨.list, _⟩ [] => some (.branch id .list [])
  | .branch id ⟨.list, _⟩ (pattern :: items) =>
      (rereadItems items).map fun items => .branch id .list (DataElement.states pattern :: items)

def rereadItems : List (DataElement δ) → Option (List (States δ))
  | [] => some []
  | item :: items =>
      (reread item).bind fun item => (rereadItems items).map (item :: ·)

end

theorem key_reread {element : DataElement δ} {read : States δ} (done : reread element = some read) :
    read.key = element.key := by
  unfold reread at done
  split at done
  · obtain ⟨state, -, rfl⟩ := Option.map_eq_some_iff.mp done
    rfl
  · obtain ⟨items, -, rfl⟩ := Option.map_eq_some_iff.mp done
    rfl
  · cases done
    rfl
  · obtain ⟨items, -, rfl⟩ := Option.map_eq_some_iff.mp done
    rfl

/-- A value is read as it was written. -/
def Data.Carried (data : Data δ) : Prop :=
  ∀ value, data.state = some value →
    XmlContent.content (value.print data.type.kind) ≠ [] ∧
      Value.parse data.type.kind (XmlContent.content (value.print data.type.kind)) = some value

theorem Data.reread_iff (data : Data δ) : data.reread = some data.state ↔ data.Carried := by
  cases isSet : data.isSet with
  | false =>
      have unset := state_eq_none.mpr isSet
      have text : parameterToXML data = [] := by
        rw [parameterToXML, isSet]
        rfl
      rw [reread, if_pos text, Carried, unset]
      exact ⟨by rintro - value ⟨⟩, fun _ => rfl⟩
  | true =>
      have state := state_eq_some.mpr ⟨isSet, rfl⟩
      have text : parameterToXML data = XmlContent.content (data.value.print data.type.kind) := by
        rw [parameterToXML, if_pos isSet, toString, if_pos isSet]
      have carried : data.Carried ↔ parameterToXML data ≠ [] ∧
          Value.parse data.type.kind (parameterToXML data) = some data.value := by
        rw [text, Carried, state]
        exact ⟨fun all => all _ rfl, by rintro here value ⟨⟩; exact here⟩
      rw [carried, reread, state]
      generalize parameterToXML data = text
      by_cases empty : text = []
      · rw [if_pos empty]
        exact ⟨(by rintro ⟨⟩), fun here => absurd empty here.1⟩
      rw [if_neg empty, fromString, create_type]
      cases parsed : (Value.parse data.type.kind text : Option (Value δ)) with
      | none => exact ⟨(by rintro ⟨⟩), by rintro ⟨-, ⟨⟩⟩⟩
      | some value =>
          dsimp only
          by_cases accepted : value.OfKind data.type.kind ∧ data.type.check value = true
          · rw [set_eq (create data.type) accepted.1 accepted.2, if_pos rfl]
            change some (some value) = some (some data.value) ↔ _
            rw [Option.some_inj]
            exact ⟨fun same => ⟨empty, same⟩, fun here => here.2⟩
          · have refused : (create data.type).set value = (false, create data.type) :=
              dif_neg accepted
            rw [refused, if_neg (by simp)]
            refine ⟨(by rintro ⟨⟩), ?_⟩
            rintro ⟨-, ⟨⟩⟩
            exact absurd ⟨data.typed, data.checked isSet⟩ accepted

/-- Numbers without a fraction and truth values are read as they were written; for the others it is
told by their texts. -/
theorem Data.carried_iff (plain : ∀ text, '&' ∉ text → XmlContent.content text = text)
    (data : Data δ) : data.Carried ↔ ∀ value, data.state = some value →
      match value with
      | .bool _ => True
      | .integer _ => True
      | .text t => t ≠ [] ∧ XmlContent.content t = t
      | .floating x =>
          let text := XmlContent.content (FloatingText.print data.type.kind x)
          text ≠ [] ∧ FloatingText.parse data.type.kind text = some x := by
  refine forall₂_congr fun value state => ?_
  have typed : value.OfKind data.type.kind := (state_eq_some.mp state).2 ▸ data.typed
  generalize data.type.kind = kind at typed
  cases value with
  | bool b =>
      have kept : XmlContent.content ((Value.bool b : Value δ).print kind) =
          (Value.bool b : Value δ).print kind := by
        apply plain
        cases b <;> simp [Value.print]
      rw [kept]
      cases kind <;> cases typed
      refine iff_true_intro ⟨?_, ?_⟩
      · cases b <;> simp [Value.print]
      · cases b <;> rfl
  | integer i =>
      have kept : XmlContent.content ((Value.integer i : Value δ).print kind) =
          (Value.integer i : Value δ).print kind :=
        plain _ (CharStream.notMem_decimal rfl (by decide) i)
      have nonempty : CharStream.decimal i ≠ [] := by
        cases i with
        | ofNat n => exact Nat.toDigits_ne_nil
        | negSucc n => exact List.cons_ne_nil _ _
      rw [kept]
      refine iff_true_intro ⟨nonempty, ?_⟩
      have read (w : Nat) (low : -2 ^ (w - 1) ≤ i) (high : i < 2 ^ (w - 1)) :=
        CharStream.extractSigned_decimal low high 0
      cases kind
      case int => simp [Value.parse, Value.print, ValueKind.width, read 32 typed.1 typed.2]
      case short => simp [Value.parse, Value.print, ValueKind.width, read 16 typed.1 typed.2]
      case long => simp [Value.parse, Value.print, ValueKind.width, read 64 typed.1 typed.2]
      all_goals cases typed
  | text t =>
      cases kind <;> cases typed
      simp only [Value.print, Value.parse, Option.some_inj, Value.text.injEq]
      constructor
      · rintro ⟨nonempty, same⟩
        exact ⟨same ▸ nonempty, same⟩
      · rintro ⟨nonempty, same⟩
        exact ⟨same.symm ▸ nonempty, same⟩
  | floating x =>
      have inj : Function.Injective (Value.floating : δ → Value δ) := fun _ _ => Value.floating.inj
      cases kind <;> cases typed
      · rw [Value.print, Value.parse, ← Option.map_some, (Option.map_injective inj).eq_iff]
      · rw [Value.print, Value.parse, ← Option.map_some, (Option.map_injective inj).eq_iff]

end Reread

/-! ### Reading -/

/-- A model that is read from the file of another: its elements refer to each other as those of
the other do. -/
structure Reading (m : MetaModel δ) (d : DataModel δ) (model : Nat) (r : DataModel δ) : Prop where
  kept : r.Kept m model
  references : ∀ position, ((skeleton r.root).face? position).isSome →
    Element.referenceAt r.root position =
      (Element.referenceAt d.root position).map (Reference.within model)

omit [FloatingText δ] in
theorem Pointer.moved_within (list : Position) (id : Text) (model : Nat) (pointer : Pointer) :
    Pointer.moved list id ⟨model, pointer.position⟩ =
      ⟨model, (pointer.moved list id).position⟩ := by
  unfold Pointer.moved
  split
  · rfl
  · rfl

theorem Reference.moved_within (list : Position) (id : Text) (model : Nat)
    (reference : Reference δ) : (reference.within model).moved list id =
      (reference.moved list id).within model :=
  congrArg (Reference.mk · _) (Pointer.moved_within list id model reference.target)

/-- The elements at a position of a model, seen as states. -/
def Shows (r : DataModel δ) (position : Position) (states : States δ) : Prop :=
  Structure.descend (·) false position r.root.states = some states

namespace Reading

open KeyedTree DataModels

variable {m : MetaModel δ} {d r : DataModel δ} {models : DataModels δ} {model other : Nat}
  {position : Position} {element : DataElement δ} {own : Text}
  {reference : Option (Reference δ)} {pattern : DataElement δ} {items : List (DataElement δ)}
  (reading : Reading m d model r)

include reading

theorem changeParameter {id : Text} {label : Referring δ (Data δ)}
    (opened : opens r.root position = some (.leaf id label)) {change : Data δ → Data δ}
    (keeps : ∀ data, (change data).type = data.type) :
    Reading m d model { r with root := r.root.update (changeData change) position } where
  kept := reading.kept.changeParameter opened keeps
  references := by
    intro other inside
    rw [DataModel.skeleton_changeData keeps] at inside
    rw [DataModel.referenceAt_changeData]
    exact reading.references other inside

/-- The written model got the item as well. -/
theorem free (kept : d.Kept m other)
    (found : d.root.at? position = some (.branch own ⟨.list, reference⟩ (pattern :: items)))
    (more : items ≠ []) {own' : Text} {reference' : Option (Reference δ)}
    {pattern' : DataElement δ} {items' : List (DataElement δ)}
    (opened : opens r.root position = some (.branch own' ⟨.list, reference'⟩ (pattern' :: items'))) :
    ¬ SelfReferring position pattern' := by
  rintro ⟨held', refers, inside⟩
  have found' := reading.kept.sound.shaped.at?_of_opens opened
  have star' := referenceAt_star reading.kept.sound found'
  have within := reading.references (position ++ [star])
    (inside_of_referenceAt (star'.trans refers))
  rw [star', refers, eq_comm, Option.map_eq_some_iff] at within
  obtain ⟨held, referenced, rfl⟩ := within
  have keys := keys_of_list kept.sound found
  obtain ⟨item, rest, rfl⟩ := List.exists_cons_of_ne_nil more
  refine kept.tracks.accepted position _ (itemId 0) held (face_list found) ?_
    (itemId_ne_star 0) referenced inside
  rw [keys]
  exact List.mem_cons_of_mem _ (List.mem_map.mpr ⟨0, by simp, rfl⟩)

/-- The new item has the references of the one that was written. -/
theorem addItem (kept : d.Kept m other)
    (found : d.root.at? position = some (.branch own ⟨.list, reference⟩ (pattern :: items)))
    {own' : Text} {reference' : Option (Reference δ)} {pattern' : DataElement δ}
    {items' : List (DataElement δ)}
    (opened : opens r.root position = some (.branch own' ⟨.list, reference'⟩ (pattern' :: items')))
    (same : skeleton pattern' = skeleton pattern) (more : items'.length < items.length)
    {item : DataElement δ} (copy : item.states = pattern'.states.rekey (itemId items'.length))
    (added : ItemAdded r.root (r.root.update (.addChild item) position) position items'.length) :
    Reading m d model { r with root := r.root.update (.addChild item) position } where
  kept := by
    have ne : items ≠ [] := by
      rintro rfl
      exact absurd more (Nat.not_lt_zero _)
    exact reading.kept.addItem opened (reading.free kept found ne opened) copy added
  references := by
    have keys := keys_of_list kept.sound found
    have found' := reading.kept.sound.shaped.at?_of_opens opened
    intro other inside
    by_cases under : position ++ [itemId items'.length] <+: other
    · obtain ⟨rest, rfl⟩ := under_iff.mp under
      rw [added.below] at inside
      have insideD : ((skeleton d.root).face? (position ++ star :: rest)).isSome := by
        rwa [← skeleton_pattern kept.sound found, ← same,
          skeleton_pattern reading.kept.sound found']
      have mem : itemId items'.length ∈ (pattern :: items).map KeyedTree.key := by
        rw [keys]
        exact List.mem_cons_of_mem _ (List.mem_map.mpr ⟨_, List.mem_range.mpr more, rfl⟩)
      rw [added.referenceBelow, reading.references _ inside,
        kept.tracks.copies position _ _ rest (face_list found) mem (itemId_ne_star _) insideD,
        Option.map_map, Option.map_map]
      exact Option.map_congr fun held _ => Reference.moved_within position _ model held
    · rw [added.referenceOthers other under]
      apply reading.references
      by_cases here : other = position
      · rw [here, added.isList]
        rfl
      · rwa [added.others other under here] at inside

end Reading

namespace Shows

open KeyedTree

variable {r r' : DataModel δ} {model : Nat} {position : Position} {seen : States δ}

omit [FloatingText δ] in
theorem exists_opens (shows : Shows r position seen) :
    ∃ element, opens r.root position = some element ∧ element.states = seen := by
  unfold Shows at shows
  rw [DataModel.descend_states] at shows
  exact Option.map_eq_some_iff.mp shows

omit [FloatingText δ] in
theorem nodup (shows : Shows r position seen) (sound : r.Sound model) :
    (seen.children.map KeyedTree.key).Nodup := by
  obtain ⟨element, opened, rfl⟩ := shows.exists_opens
  have distinct : element.Distinct :=
    (distinct_map.mp sound.shaped.distinct).below (sound.shaped.at?_of_opens opened)
  rw [DataElement.states, children_map, List.map_map]
  refine (List.map_congr_left fun child _ => ?_).symm ▸ distinct.nodup
  exact key_map _ _ child

omit [FloatingText δ] in
theorem item (shows : Shows r position seen) (sound : r.Sound model) {child : States δ}
    (mem : child ∈ Structure.getItems (·) seen) : Shows r (position ++ [child.key]) child :=
  Structure.descend_item _ shows (shows.nodup sound) mem

omit [FloatingText δ] in
/-- A container that shows is one, with the children that show. -/
theorem exists_branch {own : Text} {kind : ContainerKind} {children : List (States δ)}
    (shows : Shows r position (.branch own kind children)) :
    ∃ reference items, opens r.root position = some (.branch own ⟨kind, reference⟩ items) ∧
      items.map states = children := by
  obtain ⟨element, opened, same⟩ := shows.exists_opens
  cases element with
  | leaf id label => cases same
  | branch id label items =>
      rw [DataElement.states, KeyedTree.map, mapAll_eq] at same
      obtain ⟨rfl, rfl, rfl⟩ := branch.inj same
      exact ⟨label.reference, items, opened, rfl⟩

omit [FloatingText δ] in
theorem changed (shows : Shows r position seen) {change : States δ → States δ}
    (keeps : ∀ tree, (change tree).key = tree.key)
    (same : r'.root.states = r.root.states.update change position) :
    Shows r' position (change seen) := by
  unfold Shows at *
  rw [same, Structure.descend_update _ keeps, shows]
  rfl

omit [FloatingText δ] in
theorem unchanged (shows : Shows r position seen) (sound : r.Sound model) :
    r.root.states.update (put seen) position = r.root.states := by
  obtain ⟨element, opened, rfl⟩ := shows.exists_opens
  refine update_found (DataModel.distinct_states sound) ?_ (put_self rfl)
  rw [DataElement.states, at?_map, sound.shaped.at?_of_opens opened]
  rfl

end Shows

section Outcome

open KeyedTree DataModels

variable [XmlContent] (m : MetaModel δ) (d : DataModel δ) (model : Nat)

/-- What a part of the reader did: it failed, or what was read is at its position now. -/
def Outcome (models : DataModels δ) (r : DataModel δ) (position : Position)
    (read : Option (States δ)) (result : Option (DataModels δ)) : Prop :=
  match read with
  | none => result = none
  | some states => ∃ r', result = some (Function.update models model (some r')) ∧
      Reading m d model r' ∧ r'.root.states = r.root.states.update (put states) position

/-- An element that is written is read from its node; there may be none. -/
def loadWritten (position : Position) (element : DataElement δ) (models : DataModels δ) :
    Option (DataModels δ) :=
  if hasContent (elementToXML element) then
    models.loadElement model position (elementToXML element)
  else some models

/-- The reader makes of an element what it makes of it on its own. -/
def Loads (element : DataElement δ) : Prop :=
  ∀ position r (models : DataModels δ), opens d.root position = some element →
    models model = some r → Reading m d model r → Shows r position (States.blank element.states) →
      Outcome m d model models r position (reread element)
        (loadWritten model position element models)

variable {m d model} {models : DataModels δ} {r : DataModel δ} {other : Nat} {position : Position}

omit [XmlContent] in
/-- A position that shows what is read already. -/
theorem outcome_self (living : models model = some r) (reading : Reading m d model r)
    {states : States δ} (shows : Shows r position states) :
    Outcome m d model models r position (some states) (some models) := by
  refine ⟨r, ?_, reading, (shows.unchanged reading.kept.sound).symm⟩
  rw [← living, Function.update_eq_self]

omit [XmlContent] in
/-- What is read at a position after something was read below it. -/
theorem Outcome.later {r' : DataModel δ} {rest : Position} {change : States δ → States δ}
    (keeps : ∀ tree, (change tree).key = tree.key)
    (below : r'.root.states = r.root.states.update change (position ++ rest))
    {read : Option (States δ)} {result : Option (DataModels δ)}
    (outcome : Outcome m d model (Function.update models model (some r')) r' position read result) :
    Outcome m d model models r position read result := by
  cases read with
  | none => exact outcome
  | some states =>
      obtain ⟨r'', done, reading, same⟩ := outcome
      refine ⟨r'', ?_, reading, ?_⟩
      · rw [done, Function.update_idem]
      · rw [same, below, update_put_append states keeps]

theorem loads_leaf (id : Text) (label : Referring δ (Data δ)) : Loads m d model (.leaf id label) := by
  intro position r models _ living reading shows
  have shown : Shows r position (.leaf id (label.own.type, none)) := shows
  obtain ⟨element, opened, same⟩ := shown.exists_opens
  cases element with
  | branch own label' items => cases same
  | leaf own label' =>
      obtain ⟨rfl, seen⟩ := leaf.inj same
      obtain ⟨type, -⟩ := Prod.mk.inj seen
      rw [loadWritten, elementToXML, reread, Data.reread]
      by_cases empty : parameterToXML label.own = []
      · rw [if_pos empty, hasContent, empty]
        exact outcome_self living reading shown
      have reached : models.reached model position = some (.leaf own label') := by
        rw [DataModels.reached, living, Option.bind_some, opened]
      have text := Data.fromString_create label'.own (parameterToXML label.own)
      rw [type] at text
      rw [if_neg empty, hasContent, if_pos (decide_eq_true empty), loadElement, reached]
      dsimp only
      rw [loadParameter, if_neg empty, reached]
      dsimp only
      rw [text.1]
      by_cases done : ((Data.create label.own.type : Data δ).fromString (parameterToXML label.own)).1
      · rw [if_pos done, if_pos done, DataModels.changeParameter, living]
        dsimp only
        rw [opened]
        refine ⟨_, rfl, reading.changeParameter opened fun data => Data.fromString_type data _, ?_⟩
        rw [DataModel.states_update reading.kept.sound opened rfl]
        congr 2
        change leaf own (((label'.own.fromString _).2).type, _) = _
        rw [Data.fromString_type, type, text.2 (text.1.trans done)]
      · rw [if_neg done, if_neg done]
        rfl

theorem key_elementToXML (element : DataElement δ) : (elementToXML element).key = element.key := by
  unfold elementToXML
  split
  · rfl
  · rfl
  · rfl
  · rfl

theorem loadComponent_cons (item : DataElement δ) (items : List (DataElement δ)) :
    loadComponent model position (itemsToXML (item :: items)) models =
      (loadWritten model (position ++ [item.key]) item models).bind
        (loadComponent model position (itemsToXML items)) := by
  rw [itemsToXML, loadWritten]
  split
  · rw [loadComponent, key_elementToXML]
  · rfl

/-- The items of a component, when those before are read. -/
theorem loadComponent_outcome {own : Text} {reference : Option (Reference δ)}
    {before rest : List (DataElement δ)} {done : List (States δ)} (sound : d.Sound other)
    (each : ∀ item ∈ rest, Loads m d model item)
    (opened : opens d.root position = some (.branch own ⟨.component, reference⟩ (before ++ rest)))
    (keys : done.map KeyedTree.key = before.map KeyedTree.key) (living : models model = some r)
    (reading : Reading m d model r)
    (shows : Shows r position
      (.branch own .component (done ++ rest.map fun item => States.blank item.states))) :
    Outcome m d model models r position
      ((rereadItems rest).map fun read => .branch own .component (done ++ read))
      (loadComponent model position (itemsToXML rest) models) := by
  induction rest generalizing before done r models with
  | nil => exact outcome_self living reading shows
  | cons item rest ih =>
      have distinct := (distinct_map.mp sound.shaped.distinct).below
        (sound.shaped.at?_of_opens opened)
      have openedItem : opens d.root (position ++ [item.key]) = some item :=
        Structure.descend_item _ opened distinct.nodup (by simp [Structure.getItems])
      have showsItem : Shows r (position ++ [item.key]) (States.blank item.states) := by
        have mem : States.blank item.states ∈ Structure.getItems (·) (.branch own .component
            (done ++ (item :: rest).map fun item => States.blank item.states)) := by
          simp [Structure.getItems]
        have shown := shows.item reading.kept.sound mem
        rwa [States.key_blank, states, key_map] at shown
      have outcome := each item List.mem_cons_self _ r models openedItem living reading showsItem
      rw [loadComponent_cons, rereadItems]
      cases read : reread item with
      | none =>
          rw [read] at outcome
          rw [show loadWritten model (position ++ [item.key]) item models = none from outcome]
          rfl
      | some states =>
          rw [read] at outcome
          obtain ⟨r', loaded, reading', same⟩ := outcome
          have key : states.key = item.key := key_reread read
          have keysItem : (done ++ [states]).map KeyedTree.key = (before ++ [item]).map KeyedTree.key := by
            rw [List.map_append, List.map_append, keys, List.map_singleton, List.map_singleton, key]
          have nodup := shows.nodup reading.kept.sound
          have shows' := shows.changed (key_update (key_put states) [item.key])
            (same.trans (update_append _ _ _ _))
          rw [List.map_cons, ← key, update_put_child own _ states
            (by rw [key, States.key_blank, DataElement.states, key_map]) nodup,
            ← List.singleton_append, ← List.append_assoc] at shows'
          have opened' : opens d.root position =
              some (.branch own ⟨.component, reference⟩ (before ++ [item] ++ rest)) := by
            rw [List.append_assoc]
            exact opened
          have living' : Function.update models model (some r') model = some r' :=
            Function.update_self model _ models
          have later := ih (fun other mem => each other (List.mem_cons_of_mem _ mem)) opened' keysItem
            living' reading' shows'
          rw [loaded, Option.bind_some, Option.bind_some]
          refine Outcome.later (key_put states) same ?_
          rw [Option.map_map]
          convert later using 2
          funext read
          rw [Function.comp_apply, List.append_assoc]
          rfl

theorem loadWritten_component {own : Text} {reference : Option (Reference δ)}
    {items : List (DataElement δ)} (living : models model = some r) {children : List (States δ)}
    (shows : Shows r position (.branch own .component children)) :
    loadWritten model position (.branch own ⟨.component, reference⟩ items) models =
      loadComponent model position (itemsToXML items) models := by
  obtain ⟨reference', items', opened, -⟩ := shows.exists_branch
  rw [loadWritten, elementToXML, hasContent, if_pos rfl, loadElement, reached, living,
    Option.bind_some, opened]

theorem loads_component {own : Text} {reference : Option (Reference δ)}
    {items : List (DataElement δ)} (sound : d.Sound other)
    (each : ∀ item ∈ items, Loads m d model item) :
    Loads m d model (.branch own ⟨.component, reference⟩ items) := by
  intro position r models opened living reading shows
  have shown : Shows r position
      (.branch own .component ([] ++ items.map fun item => States.blank item.states)) := by
    have same : States.blank (states (.branch own ⟨.component, reference⟩ items)) =
        .branch own .component (items.map fun item => States.blank item.states) := by
      rw [states, KeyedTree.map, States.blank, States.blanks_eq, mapAll_eq, List.map_map]
      rfl
    rw [List.nil_append, ← same]
    exact shows
  rw [loadWritten_component living shown, reread]
  have keys : ([] : List (States δ)).map KeyedTree.key = ([] : List (DataElement δ)).map KeyedTree.key := rfl
  exact loadComponent_outcome sound each opened keys living reading shown

omit [FloatingText δ] [XmlContent] in
/-- The items of a list are components. -/
theorem exists_item (sound : d.Sound other) {own : Text} {reference : Option (Reference δ)}
    {pattern item : DataElement δ} {items : List (DataElement δ)}
    (opened : opens d.root position = some (.branch own ⟨.list, reference⟩ (pattern :: items)))
    (mem : item ∈ items) :
    ∃ id reference' inner, item = .branch id ⟨.component, reference'⟩ inner := by
  have found := sound.shaped.at?_of_opens opened
  have below := (distinct_map.mp sound.shaped.distinct).below found
  obtain ⟨ids, face⟩ := sound.shaped.items position _ (face_list found) item.key
    (List.mem_map.mpr ⟨item, List.mem_cons_of_mem _ mem, rfl⟩)
  have child : (KeyedTree.branch own ⟨.list, reference⟩ (pattern :: items)).at? [item.key] =
      some item := below.at?_child (List.mem_cons_of_mem _ mem)
  have at' : d.root.at? (position ++ [item.key]) = some item := by
    rw [at?_append, found, Option.bind_some, child]
  rw [skeleton, face?_map, face?, at', Option.map_some, Option.map_some, Option.some_inj] at face
  cases item with
  | leaf id label => cases (Prod.mk.inj face).1
  | branch id label inner =>
      have kind : label.own = .component := Sum.inr.inj (Prod.mk.inj face).1
      exact ⟨id, label.reference, inner, by rw [← kind]⟩

omit [XmlContent] in
/-- The next item of a list that is read is the pattern, under the identifier of the item that was
written. -/
theorem addItem_outcome {own : Text} {reference : Option (Reference δ)}
    {pattern item : DataElement δ} {before rest : List (DataElement δ)} {done : List (States δ)}
    (kept : d.Kept m other)
    (opened : opens d.root position =
      some (.branch own ⟨.list, reference⟩ (pattern :: (before ++ item :: rest))))
    (count : done.length = before.length) (living : models model = some r)
    (reading : Reading m d model r)
    (shows : Shows r position (.branch own .list (pattern.states :: done))) :
    models.nextItem model position = item.key ∧
      ∃ r', models.addItem model position = some (Function.update models model (some r')) ∧
        Reading m d model r' ∧ r'.root.states = r.root.states.update (put
          (.branch own .list (pattern.states :: (done ++ [States.blank item.states])))) position := by
  have found := kept.sound.shaped.at?_of_opens opened
  have key : item.key = itemId before.length := by
    have keys := congrArg (·[before.length + 1]?) (keys_of_list kept.sound found)
    simpa [itemKeys] using keys
  have regular : States.Regular (states (.branch own ⟨.list, reference⟩
      (pattern :: (before ++ item :: rest)))) := by
    apply kept.regular.opened
    rw [DataModel.descend_states, opened]
    rfl
  have blank : States.blank item.states = pattern.states.rekey (itemId before.length) := by
    rw [states, KeyedTree.map, mapAll_eq] at regular
    cases regular with
    | list _ _ _ _ _ _ copies =>
        rw [copies item.states (List.mem_map.mpr ⟨item, by simp, rfl⟩), states, key_map, key]
        rfl
  obtain ⟨reference', children, opened', same⟩ := shows.exists_branch
  obtain ⟨pattern', items', rfl, patternSame, itemsSame⟩ := List.map_eq_cons_iff.mp same
  have length : items'.length = before.length := by
    rw [← count, ← itemsSame, List.length_map]
  have skeletons : skeleton pattern' = skeleton pattern := by
    rw [DataModel.skeleton_states, patternSame, ← DataModel.skeleton_states]
  have free := reading.free kept found (List.append_ne_nil_of_right_ne_nil _ (by simp)) opened'
  obtain ⟨new, copy, made, added⟩ := addItem_states reading.kept.sound living opened' free
  have more : items'.length < (before ++ item :: rest).length := by
    rw [length, List.length_append, List.length_cons]
    omega
  refine ⟨?_, _, made, reading.addItem kept found opened' skeletons more copy added, ?_⟩
  · rw [nextItem, reached, living, Option.bind_some, opened', key, ← length]
    rfl
  · rw [DataModel.states_update reading.kept.sound opened' rfl, blank, ← length, ← patternSame, ← copy,
      ← itemsSame]
    congr 2
    rw [addChild, states, KeyedTree.map, mapAll_eq, List.cons_append, List.map_cons, List.map_append]
    rfl

theorem loadList_cons {id : Text} {reference : Option (Reference δ)} {inner : List (DataElement δ)}
    (items : List (DataElement δ)) : loadList model position
      ((itemsToXML (.branch id ⟨.component, reference⟩ inner :: items)).map (rekey itemName)) models =
    (models.addItem model position).bind fun grown =>
      (loadComponent model (position ++ [models.nextItem model position]) (itemsToXML inner)
        grown).bind (loadList model position ((itemsToXML items).map (rekey itemName))) := by
  rw [itemsToXML, elementToXML, hasContent, if_pos rfl, List.map_cons, rekey, loadList, if_pos rfl]

/-- The items of a list, when those before are read. -/
theorem loadList_outcome {own : Text} {reference : Option (Reference δ)} {pattern : DataElement δ}
    {before rest : List (DataElement δ)} {done : List (States δ)} (kept : d.Kept m other)
    (each : ∀ item ∈ rest, Loads m d model item)
    (opened : opens d.root position =
      some (.branch own ⟨.list, reference⟩ (pattern :: (before ++ rest))))
    (count : done.length = before.length) (living : models model = some r)
    (reading : Reading m d model r)
    (shows : Shows r position (.branch own .list (pattern.states :: done))) :
    Outcome m d model models r position
      ((rereadItems rest).map fun read => .branch own .list (pattern.states :: (done ++ read)))
      (loadList model position ((itemsToXML rest).map (rekey itemName)) models) := by
  induction rest generalizing before done r models with
  | nil =>
      rw [rereadItems, Option.map_some, List.append_nil]
      exact outcome_self living reading shows
  | cons item rest ih =>
      have mem : item ∈ before ++ item :: rest := by simp
      have found := kept.sound.shaped.at?_of_opens opened
      obtain ⟨id, ownReference, inner, isItem⟩ := exists_item kept.sound opened mem
      obtain ⟨next, grown, made, reading', same⟩ :=
        addItem_outcome kept opened count living reading shows
      have living' : Function.update models model (some grown) model = some grown :=
        Function.update_self model _ models
      have shows' : Shows grown position
          (.branch own .list (pattern.states :: (done ++ [States.blank item.states]))) :=
        shows.changed (key_put _) same
      -- the item that was added is read from the node of the one that was written
      have openedItem : opens d.root (position ++ [item.key]) = some item :=
        Structure.descend_item _ opened
          ((distinct_map.mp kept.sound.shaped.distinct).below found).nodup mem
      have blankKey : (States.blank item.states).key = item.key := by
        rw [States.key_blank, states, key_map]
      have showsItem : Shows grown (position ++ [item.key]) (States.blank item.states) := by
        have memItem : States.blank item.states ∈ Structure.getItems (·) (.branch own .list
            (pattern.states :: (done ++ [States.blank item.states]))) := by
          simp [Structure.getItems]
        have shown := shows'.item reading'.kept.sound memItem
        rwa [blankKey] at shown
      have outcome := each item List.mem_cons_self _ grown _ openedItem living' reading' showsItem
      have written : loadList model position ((itemsToXML (item :: rest)).map (rekey itemName)) models =
          (loadWritten model (position ++ [item.key]) item
            (Function.update models model (some grown))).bind
              (loadList model position ((itemsToXML rest).map (rekey itemName))) := by
        subst isItem
        rw [loadList_cons, made, Option.bind_some, next]
        congr 1
        exact (loadWritten_component living' showsItem).symm
      rw [written, rereadItems]
      cases read : reread item with
      | none =>
          rw [read] at outcome
          rw [show loadWritten model (position ++ [item.key]) item
            (Function.update models model (some grown)) = none from outcome]
          rfl
      | some states =>
          rw [read] at outcome
          obtain ⟨r', loaded, reading'', same'⟩ := outcome
          have key : states.key = item.key := key_reread read
          have nodup := shows'.nodup reading'.kept.sound
          have shows'' := shows'.changed (key_update (key_put states) [item.key])
            (same'.trans (update_append _ _ _ _))
          rw [← List.cons_append, ← key,
            update_put_child own _ states (key.trans blankKey.symm) nodup, List.cons_append] at shows''
          have opened' : opens d.root position =
              some (.branch own ⟨.list, reference⟩ (pattern :: (before ++ [item] ++ rest))) := by
            rw [List.append_assoc]
            exact opened
          have count' : (done ++ [states]).length = (before ++ [item]).length := by
            rw [List.length_append, List.length_append, count]
            rfl
          have living'' : Function.update (Function.update models model (some grown)) model (some r')
              model = some r' := Function.update_self model _ _
          have later := ih (fun other mem => each other (List.mem_cons_of_mem _ mem)) opened' count'
            living'' reading'' shows''
          rw [loaded, Option.bind_some, Option.bind_some, Option.map_map]
          have all : ((fun read => branch own .list (pattern.states :: (done ++ read))) ∘
              fun items => states :: items) = fun read =>
                (branch own .list (pattern.states :: (done ++ [states] ++ read)) : States δ) := by
            funext read
            rw [Function.comp_apply, List.append_assoc]
            rfl
          rw [all]
          have position' : position = position ++ [] := (List.append_nil position).symm
          refine Outcome.later (key_put _) (position' ▸ same) (Outcome.later (key_put states) same' ?_)
          exact later

theorem loads (kept : d.Kept m other) (element : DataElement δ) : Loads m d model element := by
  induction element using induction_children with
  | step element ih =>
      cases element with
      | leaf id label => exact loads_leaf id label
      | branch own label items =>
          obtain ⟨kind, reference⟩ := label
          cases kind with
          | component => exact loads_component kept.sound ih
          | list =>
              intro position r models opened living reading shows
              have found := kept.sound.shaped.at?_of_opens opened
              cases items with
              | nil =>
                  have face : (skeleton d.root).face? position = some (.inr .list, []) := by
                    rw [skeleton, face?_map, face?_of_at? found]
                    rfl
                  cases kept.sound.shaped.pattern position [] face
              | cons pattern items =>
                  have shown : Shows r position (.branch own .list [states pattern]) := by
                    have same : States.blank (states (.branch own ⟨.list, reference⟩
                        (pattern :: items))) = .branch own .list [states pattern] := by
                      rw [states, KeyedTree.map, mapAll_eq, List.map_cons, States.blank]
                      rfl
                    rw [← same]
                    exact shows
                  obtain ⟨reference', items', opened', -⟩ := shown.exists_branch
                  have count : ([] : List (States δ)).length = ([] : List (DataElement δ)).length := rfl
                  rw [loadWritten, elementToXML, hasContent, if_pos rfl, loadElement, reached, living,
                    Option.bind_some, opened', reread]
                  exact loadList_outcome kept
                    (fun item mem => ih item (List.mem_cons_of_mem _ mem)) opened count living
                    reading shown

end Outcome

/-! ### Files -/

section Files

open KeyedTree DataModels

variable [XmlContent] {m : MetaModel δ} {d d₀ : DataModel δ} {model : Nat}

/-- What is read from the file of a model. -/
theorem fromXML_toXML (sound : m.Sound) (created : m.createData model = some d₀)
    (kept : d.Kept m model) (origin : Origin d₀.root d.root) (models : DataModels δ) (other : Nat) :
    match reread d.root with
    | none => m.fromXML models other true (toXML d) = none
    | some states => ∃ r, m.fromXML models other true (toXML d) =
        some (Function.update models other (some r)) ∧ Reading m d other r ∧
          r.root.states = states := by
  obtain ⟨r, createdR, references⟩ := MetaModel.createData_within sound created other
  have reading : Reading m d other r := by
    refine ⟨MetaModel.createData_kept sound createdR, fun position inside => ?_⟩
    rw [references, origin.references position]
    rwa [DataModel.createData_skeleton sound created,
      ← DataModel.createData_skeleton sound createdR]
  have shows : Shows r [] (States.blank d.root.states) := by
    rw [kept.blank, ← MetaModel.createData_states sound createdR]
    rfl
  have living : Function.update models other (some r) other = some r :=
    Function.update_self other _ models
  obtain ⟨own, reference, items, isRoot⟩ : ∃ own reference items,
      d.root = .branch own ⟨.component, reference⟩ items := by
    obtain ⟨ids, component⟩ := kept.sound.component
    rw [skeleton, face?_map, face?, at?_nil, Option.map_some, Option.map_some, Option.some_inj]
      at component
    cases root : d.root with
    | leaf id label =>
        rw [root] at component
        cases (Prod.mk.inj component).1
    | branch id label items =>
        rw [root] at component
        have kind : label.own = .component := Sum.inr.inj (Prod.mk.inj component).1
        exact ⟨id, label.reference, items, by rw [← kind]⟩
  have key : r.root.states.key = [] := by
    rw [DataElement.states, key_map, reading.kept.sound.key]
  have outcome := loads kept d.root [] r _ rfl living reading shows
  have file : m.fromXML models other true (toXML d) =
      loadWritten other [] d.root (Function.update models other (some r)) := by
    have named : ∃ children, States.blank d.root.states = .branch own .component children := by
      rw [isRoot, DataElement.states, KeyedTree.map, States.blank]
      exact ⟨_, rfl⟩
    obtain ⟨children, branch⟩ := named
    rw [branch] at shows
    rw [MetaModel.fromXML, toXML, if_pos ⟨rfl, rfl, kept.version⟩, createdR, Option.bind_some, isRoot,
      loadWritten_component living shows]
    rfl
  rw [file]
  cases read : reread d.root with
  | none =>
      rw [read] at outcome
      exact outcome
  | some states =>
      rw [read] at outcome
      obtain ⟨r', loaded, reading', same⟩ := outcome
      refine ⟨r', ?_, reading', same.trans (put_self ?_)⟩
      · rw [loaded, Function.update_idem]
      · rw [key_reread read, key, kept.sound.key]

/-- Every value that is reached is read as it was written. -/
def Printable (root : DataElement δ) : Prop :=
  ∀ position id label, opens root position = some (.leaf id label) → label.own.Carried

theorem rereadItems_iff (items : List (DataElement δ)) :
    rereadItems items = some (items.map states) ↔ ∀ item ∈ items, reread item = some item.states := by
  induction items with
  | nil => exact ⟨fun _ => List.forall_mem_nil _, fun _ => rfl⟩
  | cons item items ih =>
      rw [List.forall_mem_cons, ← ih, rereadItems, Option.bind_eq_some_iff]
      constructor
      · rintro ⟨states, read, rest⟩
        obtain ⟨others, readOthers, same⟩ := Option.map_eq_some_iff.mp rest
        rw [List.map_cons] at same
        obtain ⟨rfl, rfl⟩ := List.cons.inj same
        exact ⟨read, readOthers⟩
      · rintro ⟨read, rest⟩
        exact ⟨_, read, by rw [rest]; rfl⟩

theorem printable_branch {id : Text} {label : Referring δ ContainerKind}
    {items : List (DataElement δ)} (nodup : (items.map KeyedTree.key).Nodup) :
    Printable (.branch id label items) ↔
      ∀ item ∈ Structure.getItems Referring.own (.branch id label items), Printable item := by
  constructor
  · intro printable item mem position own data opened
    apply printable (item.key :: position) own data
    have here : opens (.branch id label items) [] = some (.branch id label items) := rfl
    have first : opens (.branch id label items) [item.key] = some item :=
      Structure.descend_item _ here nodup mem
    rw [opens] at first opened ⊢
    rw [← List.singleton_append, Structure.descend_append, first, Option.bind_some, opened]
  · intro each position own data opened
    cases position with
    | nil => cases opened
    | cons key position =>
        rw [opens, Structure.descend, if_neg (by simp), Option.bind_eq_some_iff] at opened
        obtain ⟨item, found, later⟩ := opened
        exact each item (List.mem_of_find?_eq_some found) position own data later

/-- An element is read as it was written when all the values in it are. -/
theorem reread_iff {element : DataElement δ} (distinct : element.Distinct) :
    reread element = some element.states ↔ Printable element := by
  induction element using induction_children with
  | step element ih =>
      cases element with
      | leaf id label =>
          have carried : Printable (.leaf id label) ↔ label.own.Carried := by
            constructor
            · exact fun printable => printable [] id label rfl
            · intro carried position own data opened
              cases position with
              | nil =>
                  cases opened
                  exact carried
              | cons key position => cases opened
          rw [carried, ← Data.reread_iff, reread]
          constructor
          · intro read
            obtain ⟨state, own, same⟩ := Option.map_eq_some_iff.mp read
            rw [own]
            exact congrArg some (Prod.mk.inj (leaf.inj same).2).2
          · intro read
            rw [read]
            rfl
      | branch id label items =>
          obtain ⟨kind, reference⟩ := label
          have nodup : (items.map KeyedTree.key).Nodup := distinct.nodup
          have each {f : List (States δ) → States δ} (inj : Function.Injective f)
              (items' : List (DataElement δ)) (among : ∀ item ∈ items', item ∈ items) :
              (rereadItems items').map f = some (f (items'.map states)) ↔
                ∀ item ∈ items', Printable item := by
            rw [← Option.map_some, (Option.map_injective inj).eq_iff, rereadItems_iff]
            exact forall₂_congr fun item mem => ih item (among item mem) (distinct.child (among item mem))
          rw [printable_branch nodup, states, KeyedTree.map, mapAll_eq]
          cases kind with
          | component => exact each (fun _ _ same => (branch.inj same).2.2) items fun _ mem => mem
          | list =>
              cases items with
              | nil => exact ⟨fun _ => List.forall_mem_nil _, fun _ => rfl⟩
              | cons pattern items =>
                  exact each (fun _ _ same => (List.cons.inj (branch.inj same).2.2).2) items
                    fun _ mem => List.mem_cons_of_mem _ mem

end Files

/-- A library that keeps every text. -/
instance plainContent : XmlContent where
  content text := text

/-- A list gets an item, and its switch is set. -/
def switchedOn : List (DataCall Int) :=
  [.addItem [['l']], .set [['l'], ['0'], ['s']] (.bool true)]

end OpenSand.Conf
