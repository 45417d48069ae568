import OpenSand.Conf.Structure

/-!
Elements of the meta and data models and their references.

An element is a tree: a parameter is a leaf, a component or a list a branch. Elements never
move, so a pointer to one is the model it is in and its position there, and the parent path it
stores is the path of its container.

The copies of a model are made in two passes: the structure first, then the references, found
again by the paths of the element and of its target (`linkAll`). The second pass changes no
structure, so each reference is resolved in the structure the first one gave
(`linkAll_isSome`, `linkAll_origin`).
-/

namespace OpenSand.Conf

structure Pointer where
  model : Nat
  position : Position
deriving DecidableEq, Repr

/-- A target and the value expected of it. -/
structure Reference (δ : Type) where
  target : Pointer
  expected : Data δ

/-- What an element is, with its reference if it has one. -/
structure Referring (δ α : Type) where
  own : α
  reference : Option (Reference δ)

/-- An element whose parameters are in `α` and containers in `β`. -/
abbrev Element (δ α β : Type) := KeyedTree Text (Referring δ α) (Referring δ β)

namespace Element

variable {δ α β : Type}

def reference : Element δ α β → Option (Reference δ)
  | .leaf _ label => label.reference
  | .branch _ label _ => label.reference

def setReference (reference : Option (Reference δ)) : Element δ α β → Element δ α β
  | .leaf id label => .leaf id { label with reference := reference }
  | .branch id label items => .branch id { label with reference := reference } items

/-- The structure without the references. -/
def erase (root : Element δ α β) : KeyedTree Text α β := root.map Referring.own Referring.own

/-- The same structure, no element having a reference yet. -/
def bare (root : KeyedTree Text α β) : Element δ α β := root.map (⟨·, none⟩) (⟨·, none⟩)

def referenceAt (root : Element δ α β) (position : Position) : Option (Reference δ) :=
  (root.at? position).bind reference

/-- The parameter at a position (`dynamic_pointer_cast` to a parameter). -/
def parameterAt (root : Element δ α β) (position : Position) : Option α :=
  match root.at? position with
  | some (.leaf _ label) => some label.own
  | _ => none

/-- The elements with a reference, in the order of a walk, with their positions. -/
def referenced (order : Element δ α β → List (Element δ α β)) (root : Element δ α β) :
    List (Position × Reference δ) :=
  (root.walk order).filterMap fun node => (reference node.2).map (node.1, ·)

/-! ### References and structure -/

section Structure

@[simp] theorem key_setReference (reference : Option (Reference δ)) (element : Element δ α β) :
    (element.setReference reference).key = element.key := by
  cases element with
  | leaf id label => rfl
  | branch id label items => rfl

@[simp] theorem reference_setReference (reference : Option (Reference δ))
    (element : Element δ α β) : (element.setReference reference).reference = reference := by
  cases element with
  | leaf id label => rfl
  | branch id label items => rfl

@[simp] theorem setReference_self (element : Element δ α β) :
    element.setReference element.reference = element := by
  cases element with
  | leaf id label => rfl
  | branch id label items => rfl

theorem at?_setReference (reference : Option (Reference δ)) (element : Element δ α β) (id : Text)
    (position : Position) :
    (element.setReference reference).at? (id :: position) = element.at? (id :: position) := by
  cases element with
  | leaf own label => rfl
  | branch own label items => rfl

@[simp] theorem erase_setReference (reference : Option (Reference δ)) (element : Element δ α β) :
    (element.setReference reference).erase = element.erase := by
  cases element with
  | leaf id label => rfl
  | branch id label items => rfl

theorem erase_bare (root : KeyedTree Text α β) : erase (bare root : Element δ α β) = root := by
  rw [erase, bare, KeyedTree.map_map]
  exact KeyedTree.map_id root

theorem referenceAt_bare (root : KeyedTree Text α β) (position : Position) :
    referenceAt (bare root : Element δ α β) position = none := by
  rw [referenceAt, bare, KeyedTree.at?_map]
  cases root.at? position with
  | none => rfl
  | some node =>
      cases node with
      | leaf id label => rfl
      | branch id label items => rfl

variable {root other : Element δ α β}

theorem at?_erase (position : Position) :
    root.erase.at? position = (root.at? position).map erase := KeyedTree.at?_map

theorem distinct_erase : root.erase.Distinct ↔ root.Distinct := KeyedTree.distinct_map

/-- The parameters do not depend on the references. -/
theorem parameterAt_erase (same : root.erase = other.erase) (position : Position) :
    root.parameterAt position = other.parameterAt position := by
  have nodes : (root.at? position).map erase = (other.at? position).map erase := by
    rw [← at?_erase, ← at?_erase, same]
  rw [parameterAt, parameterAt]
  cases here : root.at? position with
  | none =>
      rw [here, Option.map_none] at nodes
      rw [Option.map_eq_none_iff.mp nodes.symm]
  | some node =>
      rw [here] at nodes
      obtain ⟨node', there, alike⟩ := Option.map_eq_some_iff.mp nodes.symm
      rw [there]
      cases node with
      | leaf id label =>
          cases node' with
          | leaf id' label' => exact congrArg some (KeyedTree.leaf.inj alike).2.symm
          | branch id' label' items' => cases alike
      | branch id label items =>
          cases node' with
          | leaf id' label' => cases alike
          | branch id' label' items' => rfl

theorem face_eq (element : Element δ α β) :
    element.face = (element.erase.label.map (⟨·, element.reference⟩) (⟨·, element.reference⟩),
      element.erase.children.map KeyedTree.key) := by
  have keys : element.erase.children.map KeyedTree.key = element.children.map KeyedTree.key := by
    rw [erase, KeyedTree.children_map, List.map_map]
    exact List.map_congr_left fun child _ => KeyedTree.key_map _ _ child
  rw [keys]
  cases element with
  | leaf id label => rfl
  | branch id label items => rfl

/-- An element is determined by its structure and its references. -/
theorem ext_references (distinct : root.Distinct) (structures : root.erase = other.erase)
    (references : ∀ position, root.referenceAt position = other.referenceAt position) :
    root = other := by
  have key : root.key = other.key := by
    have own := congrArg KeyedTree.key structures
    rwa [erase, erase, KeyedTree.key_map, KeyedTree.key_map] at own
  apply KeyedTree.ext_face distinct key
  intro position
  have same : (root.at? position).map erase = (other.at? position).map erase := by
    rw [← at?_erase, ← at?_erase, structures]
  have own := references position
  rw [referenceAt, referenceAt] at own
  rw [KeyedTree.face?, KeyedTree.face?]
  cases found : root.at? position with
  | none =>
      rw [found, Option.map_none] at same
      rw [Option.map_eq_none_iff.mp same.symm]
  | some node =>
      rw [found, Option.map_some, eq_comm, Option.map_eq_some_iff] at same
      obtain ⟨node', found', same⟩ := same
      rw [found, found', Option.bind_some, Option.bind_some] at own
      rw [found', Option.map_some, Option.map_some, face_eq, face_eq, own, same]

theorem referenced_of_mem {order : Element δ α β → List (Element δ α β)}
    (perm : ∀ root, (order root).Perm root.children) (distinct : root.Distinct)
    {entry : Position × Reference δ} :
    entry ∈ root.referenced order ↔ root.referenceAt entry.1 = some entry.2 := by
  rw [referenced, List.mem_filterMap, referenceAt, Option.bind_eq_some_iff]
  constructor
  · rintro ⟨⟨position, node⟩, mem, found⟩
    obtain ⟨reference, own, rfl⟩ := Option.map_eq_some_iff.mp found
    exact ⟨node, (KeyedTree.mem_walk perm distinct).mp mem, own⟩
  · rintro ⟨node, found, own⟩
    refine ⟨(entry.1, node), (KeyedTree.mem_walk perm distinct).mpr found, ?_⟩
    exact Option.map_eq_some_iff.mpr ⟨entry.2, own, rfl⟩

theorem erase_update (reference : Option (Reference δ)) (position : Position)
    (root : Element δ α β) :
    erase (root.update (setReference reference) position) = root.erase :=
  KeyedTree.map_update (fun element => erase_setReference reference element) position root

theorem referenceAt_face (position : Position) :
    root.referenceAt position = (root.face? position).bind fun face =>
      face.1.elim Referring.reference Referring.reference := by
  rw [referenceAt, KeyedTree.face?, Option.bind_map]
  refine Option.bind_congr fun node _ => ?_
  cases node with
  | leaf id label => rfl
  | branch id label items => rfl

/-- A change of an element itself, not of the ones below it. -/
structure InPlace (change : Element δ α β → Element δ α β) : Prop where
  key : ∀ element, (change element).key = element.key
  below : ∀ element id ids, (change element).at? (id :: ids) = element.at? (id :: ids)

/-- The other elements show what they did. -/
theorem InPlace.face? {change : Element δ α β → Element δ α β} (inPlace : InPlace change)
    {position other : Position} (ne : other ≠ position) (root : Element δ α β) :
    (root.update change position).face? other = root.face? other := by
  by_cases below : position <+: other
  · obtain ⟨rest, rfl⟩ := below
    cases rest with
    | nil => exact absurd (List.append_nil position) ne
    | cons id rest =>
        rw [KeyedTree.face?_update_below inPlace.key, KeyedTree.face?_append]
        refine Option.bind_congr fun element _ => ?_
        rw [KeyedTree.face?, KeyedTree.face?, inPlace.below element id rest]
  · exact KeyedTree.face?_update_other inPlace.key below root

theorem InPlace.referenceAt {change : Element δ α β → Element δ α β} (inPlace : InPlace change)
    (position other : Position) (root : Element δ α β) :
    Element.referenceAt (root.update change position) other =
      if other = position then (root.at? position).bind fun element => reference (change element)
      else root.referenceAt other := by
  by_cases same : other = position
  · subst same
    have below := KeyedTree.at?_update_below inPlace.key other [] root
    rw [List.append_nil] at below
    rw [if_pos rfl, Element.referenceAt, below, Option.bind_assoc]
    rfl
  · rw [if_neg same, referenceAt_face, inPlace.face? same, ← referenceAt_face]

theorem parameterAt_eq (position : Position) : root.parameterAt position =
    (root.face? position).bind fun face => face.1.elim (some ·.own) fun _ => none := by
  rw [parameterAt, KeyedTree.face?, Option.bind_map]
  cases root.at? position with
  | none => rfl
  | some node =>
      cases node with
      | leaf id label => rfl
      | branch id label items => rfl

theorem InPlace.parameterAt {change : Element δ α β → Element δ α β} (inPlace : InPlace change)
    {position other : Position} (ne : other ≠ position) (root : Element δ α β) :
    Element.parameterAt (root.update change position) other = root.parameterAt other := by
  rw [parameterAt_eq, inPlace.face? ne, ← parameterAt_eq]

theorem inside_of_referenceAt {position : Position} {reference : Reference δ}
    (referenced : root.referenceAt position = some reference) : (root.at? position).isSome := by
  obtain ⟨element, found, -⟩ := Option.bind_eq_some_iff.mp referenced
  rw [found]
  rfl

theorem inside_of_parameterAt {position : Position} {parameter : α}
    (isParameter : root.parameterAt position = some parameter) : (root.at? position).isSome := by
  cases found : root.at? position with
  | none =>
      rw [parameterAt, found] at isParameter
      cases isParameter
  | some node => rfl

/-- What the structure shows as a parameter is one. -/
theorem exists_parameterAt {α' β' : Type} {typeOf : α → α'} {kindOf : Referring δ β → β'} {type : α'}
    {position : Position} {keys : List Text}
    (face : (root.map (typeOf ·.own) kindOf).face? position = some (.inl type, keys)) :
    ∃ parameter, root.parameterAt position = some parameter ∧ typeOf parameter = type := by
  rw [KeyedTree.face?_map, Option.map_eq_some_iff] at face
  obtain ⟨⟨label, keys'⟩, shown, same⟩ := face
  obtain ⟨node, found, own⟩ := Option.map_eq_some_iff.mp shown
  cases node with
  | leaf id parameter =>
      cases own
      rw [parameterAt, found]
      exact ⟨parameter.own, rfl, Sum.inl.inj (Prod.mk.inj same).1⟩
  | branch id kind items =>
      cases own
      cases same

theorem setReference_inPlace (reference : Option (Reference δ)) :
    InPlace (setReference reference : Element δ α β → Element δ α β) :=
  ⟨key_setReference reference, at?_setReference reference⟩

theorem referenceAt_update {position : Position} (inside : (root.at? position).isSome)
    (reference : Option (Reference δ)) (other : Position) :
    referenceAt (root.update (setReference reference) position) other =
      if other = position then reference else root.referenceAt other := by
  obtain ⟨element, found⟩ := Option.isSome_iff_exists.mp inside
  rw [(setReference_inPlace reference).referenceAt, found, Option.bind_some,
    reference_setReference]

/-- A new child brings its own references. -/
theorem referenceAt_addChild {position : Position} {child : Element δ α β} {id : Text}
    {label : Referring δ β} {items : List (Element δ α β)}
    (found : root.at? position = some (.branch id label items))
    (fresh : child.key ∉ items.map KeyedTree.key) (other : Position) :
    referenceAt (root.update (.addChild child) position) other =
      if position ++ [child.key] <+: other then child.referenceAt (other.drop (position.length + 1))
      else root.referenceAt other := by
  rw [referenceAt_face, KeyedTree.face?_addChild found fresh]
  split
  · rw [← referenceAt_face]
  split
  next here =>
    subst here
    rw [referenceAt_face, KeyedTree.face?, found]
    rfl
  · rw [← referenceAt_face]

variable {find : Element δ α β → Text → Option Position}

/-- Elements are found by the structure. -/
def Structural (find : Element δ α β → Text → Option Position) : Prop :=
  ∀ root other : Element δ α β, root.erase = other.erase → find root = find other

/-- What is found is in the tree. -/
def Inside (find : Element δ α β → Text → Option Position) (root : Element δ α β) : Prop :=
  ∀ path position, find root path = some position → (root.at? position).isSome

theorem Inside.congr (within : Inside find root) (structural : Structural find)
    (same : root.erase = other.erase) : Inside find other := by
  intro path position found
  rw [← structural root other same] at found
  have inside := within path position found
  have at' : (root.at? position).map erase = (other.at? position).map erase := by
    rw [← at?_erase, ← at?_erase, same]
  rw [← Option.isSome_map (f := erase), ← at', Option.isSome_map]
  exact inside

end Structure

/-! ### The second pass -/

/-- The paths of an element and of its target in the original, and the value expected there. -/
structure Link (δ : Type) where
  element : Text
  target : Text
  expected : Data δ

section Linking

variable [FloatingText δ] (typeOf : α → DataType) (find : Element δ α β → Text → Option Position)
  (model : Nat) (base : Position)

/-- The element an entry is for and the reference it gets there. The target has to be a
parameter, and its type has to hold the expected value. -/
def linked (root : Element δ α β) (entry : Link δ) : Option (Position × Reference δ) :=
  (find root entry.element).bind fun position =>
    (find root entry.target).bind fun target =>
      (root.parameterAt target).bind fun parameter =>
        let (copied, expected) := (Data.create (typeOf parameter)).copy entry.expected
        if copied then some (position, ⟨⟨model, base ++ target⟩, expected⟩) else none

/-- Set the references of a copy, one after the other. -/
def linkAll : Element δ α β → List (Link δ) → Option (Element δ α β)
  | root, [] => some root
  | root, entry :: entries =>
      (linked typeOf find model base root entry).bind fun (position, reference) =>
        linkAll (root.update (setReference (some reference)) position) entries

end Linking

section Linking

variable [FloatingText δ] {typeOf : α → DataType} {find : Element δ α β → Text → Option Position}
  {model : Nat} {base : Position} {root root' : Element δ α β}

theorem linked_congr (structural : Structural find) {other : Element δ α β}
    (same : root.erase = other.erase) :
    linked typeOf find model base root = linked typeOf find model base other := by
  funext entry
  rw [linked, linked, structural root other same]
  refine Option.bind_congr fun position _ => Option.bind_congr fun target _ => ?_
  rw [parameterAt_erase same]

variable {entries : List (Link δ)}

/-- The second pass succeeds when each reference can be set, and keeps the structure. -/
theorem linkAll_isSome (structural : Structural find) :
    (linkAll typeOf find model base root entries).isSome ↔
      ∀ entry ∈ entries, (linked typeOf find model base root entry).isSome := by
  induction entries generalizing root with
  | nil => exact ⟨fun _ => List.forall_mem_nil _, fun _ => rfl⟩
  | cons entry entries ih =>
      rw [List.forall_mem_cons, linkAll]
      cases first : linked typeOf find model base root entry with
      | none => simp
      | some write =>
          rw [Option.bind_some, ih, linked_congr structural (erase_update _ _ root)]
          simp

theorem linkAll_erase (done : linkAll typeOf find model base root entries = some root') :
    root'.erase = root.erase := by
  induction entries generalizing root with
  | nil =>
      cases done
      rfl
  | cons entry entries ih =>
      rw [linkAll, Option.bind_eq_some_iff] at done
      obtain ⟨write, _, later⟩ := done
      rw [ih later, erase_update]

theorem linked_eq_some {entry : Link δ} {position : Position} {reference : Reference δ} :
    linked typeOf find model base root entry = some (position, reference) ↔
      find root entry.element = some position ∧ ∃ target parameter,
        find root entry.target = some target ∧ root.parameterAt target = some parameter ∧
          entry.expected.type.kind = (typeOf parameter).kind ∧
            reference = ⟨⟨model, base ++ target⟩,
              ((Data.create (typeOf parameter)).copy entry.expected).2⟩ := by
  simp only [linked, Option.bind_eq_some_iff]
  constructor
  · rintro ⟨own, foundOwn, target, foundTarget, parameter, isParameter, write⟩
    split at write
    next copied =>
      cases write
      exact ⟨foundOwn, target, parameter, foundTarget, isParameter, Data.copy_fst.mp copied, rfl⟩
    · cases write
  · rintro ⟨foundOwn, target, parameter, foundTarget, isParameter, kinds, rfl⟩
    refine ⟨position, foundOwn, target, foundTarget, parameter, isParameter, ?_⟩
    exact if_pos (Data.copy_fst.mpr kinds)

theorem linked_inside (within : Inside find root) {entry : Link δ} {position : Position}
    {reference : Reference δ}
    (link : linked typeOf find model base root entry = some (position, reference)) :
    (root.at? position).isSome := by
  exact within _ _ (linked_eq_some.mp link).1

/-- A reference is the one before the pass, if no entry is for it, or comes from an entry. -/
theorem linkAll_origin (structural : Structural find) (within : Inside find root)
    (done : linkAll typeOf find model base root entries = some root') (position : Position) :
    root'.referenceAt position = root.referenceAt position ∧
        (∀ entry ∈ entries, ∀ reference,
          linked typeOf find model base root entry ≠ some (position, reference)) ∨
      ∃ entry ∈ entries, ∃ reference,
        linked typeOf find model base root entry = some (position, reference) ∧
          root'.referenceAt position = some reference := by
  induction entries generalizing root with
  | nil =>
      cases done
      exact .inl ⟨rfl, List.forall_mem_nil _⟩
  | cons entry entries ih =>
      rw [linkAll, Option.bind_eq_some_iff] at done
      obtain ⟨⟨own, reference⟩, first, later⟩ := done
      have inside := linked_inside within first
      have within' := within.congr structural (erase_update (some reference) own root).symm
      have same : linked typeOf find model base (root.update (setReference (some reference)) own) =
          linked typeOf find model base root :=
        linked_congr structural (erase_update (some reference) own root)
      rw [← same] at first
      rcases ih within' later with ⟨kept, untouched⟩ | ⟨entry', mem, reference', link, final⟩
      · rw [referenceAt_update inside] at kept
        rw [same] at untouched first
        by_cases here : position = own
        · subst here
          rw [if_pos rfl] at kept
          exact .inr ⟨entry, List.mem_cons_self, reference, first, kept⟩
        · rw [if_neg here] at kept
          refine .inl ⟨kept, List.forall_mem_cons.mpr ⟨?_, untouched⟩⟩
          intro reference' link
          rw [first] at link
          cases link
          exact here rfl
      · rw [same] at link
        exact .inr ⟨entry', List.mem_cons_of_mem _ mem, reference', link, final⟩

end Linking

end Element

end OpenSand.Conf
