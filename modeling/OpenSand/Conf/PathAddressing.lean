import OpenSand.Conf.DataRuns
import OpenSand.Conf.ModelEquality

/-!
The paths of the elements as their addresses (`getPath`, `getItemByPath`, `getItemByMetaPath`).

A path is split at the slashes without its empty parts, and `*` leads to the pattern of a list
only. `PathAddressing` asks for every element of a meta model and of the data made from it to be
found by its path, and `pathAddressing_iff` says for which identifiers it holds.
-/

namespace OpenSand.Conf

/-- The empty path is the one of the root. -/
def rooted (path : Text) : Text := if path = ['/'] then [] else path

theorem splitPath_rooted (path : Text) : splitPath (rooted path) = splitPath path := by
  rw [rooted]
  split
  next root =>
    rw [root]
    rfl
  · rfl

theorem splitPath_ne_nil {path : Text} {position : Position} (split : splitPath path = position)
    (ne : position ≠ []) : path ≠ [] := by
  rintro rfl
  exact ne split.symm

namespace Structure

open KeyedTree

variable {α β α' β' : Type} (kind : β → ContainerKind)

def IsList : KeyedTree Text α β → Prop
  | leaf _ _ => False
  | branch _ label _ => kind label = .list

instance decidableIsList (element : KeyedTree Text α β) : Decidable (IsList kind element) :=
  match element with
  | leaf _ _ => isFalse id
  | branch _ label _ => decEq (kind label) .list

/-- The path of an element below one, by the path of that one as it is first joined. The pattern
of a list goes on from there (`addList`), and every other element from the path itself. -/
def pathFrom : Text → KeyedTree Text α β → Position → Option Text
  | joined, _, [] => some (rooted joined)
  | joined, element, id :: ids =>
      (element.child? id).bind fun child =>
        pathFrom ((if id = star ∧ IsList kind element then joined else rooted joined) ++ '/' :: id)
          child ids

def getPath (root : KeyedTree Text α β) (position : Position) : Option Text :=
  pathFrom kind ['/'] root position

variable {kind} {joined path : Text} {element root : KeyedTree Text α β} {position : Position}

theorem pathFrom_isSome :
    (pathFrom kind joined element position).isSome ↔ (element.at? position).isSome := by
  induction position generalizing joined element with
  | nil => exact iff_of_true rfl rfl
  | cons id position ih =>
      rw [pathFrom, at?_cons]
      cases element.child? id with
      | none => rfl
      | some child => exact ih

theorem split_pathFrom (whole : ∀ id ∈ position, '/' ∉ id)
    (found : pathFrom kind joined element position = some path) :
    splitPath path = splitPath joined ++ position.filter (· ≠ []) := by
  induction position generalizing joined element with
  | nil =>
      cases found
      rw [splitPath_rooted, List.filter_nil, List.append_nil]
  | cons id position ih =>
      rw [pathFrom, Option.bind_eq_some_iff] at found
      obtain ⟨child, -, found⟩ := found
      obtain ⟨own, whole⟩ := List.forall_mem_cons.mp whole
      have above : splitPath (if id = star ∧ IsList kind element then joined else rooted joined) =
          splitPath joined := by
        split
        · rfl
        · exact splitPath_rooted joined
      rw [ih whole found, splitPath_append_slash, above, splitPath_of_id own, List.append_assoc,
        List.filter_cons]
      by_cases empty : id = []
      · simp [empty]
      · simp [empty]

theorem pathFrom_map {f : α → α'} {g : β → β'} {kind' : β' → ContainerKind}
    (kinds : ∀ label, kind' (g label) = kind label) :
    pathFrom kind' joined (element.map f g) position = pathFrom kind joined element position := by
  induction position generalizing joined element with
  | nil => rfl
  | cons id position ih =>
      have lists : IsList kind' (element.map f g) ↔ IsList kind element := by
        cases element with
        | leaf own label => rfl
        | branch own label children =>
            rw [KeyedTree.map, IsList, IsList, kinds]
      rw [pathFrom, pathFrom, child?_map, Option.bind_map]
      refine Option.bind_congr fun child _ => ?_
      simp only [lists]
      exact ih

theorem getItemFromRoot_eq_some {patterns : Bool} :
    getItemFromRoot kind patterns root path = some position ↔
      path ≠ [] ∧ splitPath path = position ∧ (descend kind patterns position root).isSome := by
  rw [getItemFromRoot]
  split
  next root => simp [root]
  next ne =>
    rw [Option.map_eq_some_iff, Option.isSome_iff_exists]
    constructor
    · rintro ⟨element, way, rfl⟩
      exact ⟨ne, rfl, element, way⟩
    · rintro ⟨-, rfl, element, way⟩
      exact ⟨element, way, rfl⟩

section Skeleton

variable {skeleton : Skeleton}

theorem getPath_isSome :
    (getPath (·) skeleton position).isSome ↔ (skeleton.face? position).isSome := by
  rw [getPath, pathFrom_isSome, KeyedTree.face?, Option.isSome_map]

theorem Shaped.split_getPath (shaped : Shaped skeleton)
    (found : getPath (·) skeleton position = some path) :
    splitPath path = position.filter (· ≠ []) := by
  have inside := getPath_isSome.mp (Option.isSome_iff_exists.mpr ⟨path, found⟩)
  exact split_pathFrom (shaped.whole_position inside) found

/-- The path of a clean element gives it back. -/
theorem Shaped.split_clean (shaped : Shaped skeleton) (found : getPath (·) skeleton position = some path)
    (clean : Clean position) : splitPath path = position := by
  rw [shaped.split_getPath found, List.filter_eq_self]
  exact fun id mem => decide_eq_true (clean id mem).2

end Skeleton

/-! ### Patterns -/

/-- No identifier is empty. -/
def NonEmpty (skeleton : Skeleton) : Prop :=
  ∀ position, (skeleton.face? position).isSome → [] ∉ position

/-- On the way to an element in a pattern nothing but patterns is called `*`. -/
def StarsArePatterns (skeleton : Skeleton) : Prop :=
  ∀ position, (skeleton.face? position).isSome → InPattern skeleton position →
    ∀ above, above ++ [star] <+: position → ∃ ids, skeleton.face? above = some (.inr .list, ids)

/-- The identifiers are such that the paths lead to the elements. -/
structure Named (skeleton : Skeleton) : Prop where
  clean : ∀ position, (skeleton.face? position).isSome → Clean position
  findable : ∀ position, (skeleton.face? position).isSome → InPattern skeleton position →
    Findable skeleton position

variable {skeleton child : Skeleton}

theorem Shaped.clean (shaped : Shaped skeleton) (nonEmpty : NonEmpty skeleton)
    (inside : (skeleton.face? position).isSome) : Clean position := by
  intro id mem
  refine ⟨shaped.whole_position inside id mem, ?_⟩
  rintro rfl
  exact nonEmpty position inside mem

theorem Shaped.named (shaped : Shaped skeleton) (nonEmpty : NonEmpty skeleton)
    (stars : StarsArePatterns skeleton) : Named skeleton where
  clean position := shaped.clean nonEmpty
  findable position inside pattern := by
    have ne : position ≠ [] := by
      rintro rfl
      obtain ⟨list, ids, -, under⟩ := pattern
      exact absurd (List.prefix_nil.mp under) (by simp)
    exact (findable_iff shaped).mpr
      ⟨ne, shaped.clean nonEmpty inside, inside, stars position inside pattern⟩

end Structure

/-! ### Lookups -/

namespace MetaModel

variable {δ : Type} (m : MetaModel δ)

def getPath (element : Position) : Option Text :=
  Structure.getPath (fun label : Referring δ MetaContainer => label.own.kind) m.root element

def getItemByPath (path : Text) : Option Position := MetaElement.getItemFromRoot m.root path

/-- The paths of distinct elements are distinct, and each leads to its element. -/
structure Addressed : Prop where
  distinct : ∀ element other path, m.getPath element = some path → m.getPath other = some path →
    element = other
  byPath : ∀ element path, element ≠ [] → m.getPath element = some path →
    m.getItemByPath path = some element

end MetaModel

namespace DataModel

variable {δ : Type} (d : DataModel δ)

def getPath (element : Position) : Option Text :=
  Structure.getPath Referring.own d.root element

def getItemByPath (path : Text) : Option Position :=
  Structure.getItemFromRoot Referring.own false d.root path

def getItemByMetaPath (path : Text) : Option Position := DataElement.getItemFromRoot d.root path

/-- The paths of distinct elements are distinct, and each leads to its element, with the patterns
for what is in one. -/
structure Addressed : Prop where
  distinct : ∀ element other path, d.getPath element = some path → d.getPath other = some path →
    element = other
  byPath : ∀ element path, element ≠ [] → d.getPath element = some path →
    ¬ Structure.InPattern (DataElement.skeleton d.root) element →
      d.getItemByPath path = some element
  byMetaPath : ∀ element path, d.getPath element = some path →
    Structure.InPattern (DataElement.skeleton d.root) element →
      d.getItemByMetaPath path = some element

end DataModel

/-! ### Runs of the data -/

namespace Structure

variable {skeleton skeleton' : Skeleton} {position : Position}

/-- What is in a pattern was in one, if the lists that hold it were lists. -/
theorem InPattern.of_lists (pattern : InPattern skeleton' position)
    (lists : ∀ list ids, skeleton'.face? list = some (.inr .list, ids) →
      list ++ [star] <+: position → ∃ ids', skeleton.face? list = some (.inr .list, ids')) :
    InPattern skeleton position := by
  obtain ⟨list, ids, isList, under⟩ := pattern
  obtain ⟨ids', former⟩ := lists list ids isList under
  exact ⟨list, ids', former, under⟩

end Structure

section Runs

variable {δ : Type} [FloatingText δ] {before after : DataElement δ} {list : Position} {count : Nat}

open DataElement Structure

theorem ItemAdded.named (added : ItemAdded before after list count)
    (shaped : Shaped (skeleton before)) (named : Named (skeleton before)) :
    Named (skeleton after) := by
  have listInside : ((skeleton before).face? list).isSome := by
    rw [added.isList]
    rfl
  -- the elements that are not of the item have been there before
  have former {other : Position} (old : ((skeleton before).face? other).isSome)
      (pattern : InPattern (skeleton after) other) : Findable (skeleton after) other := by
    apply added.findable_old shaped
    apply named.findable other old
    apply pattern.of_lists
    rintro above ids isList ⟨rest, rfl⟩
    have item : ((skeleton before).face? (above ++ star :: rest)).isSome := by
      rwa [List.append_assoc] at old
    exact added.list_old isList item
  constructor
  · intro other inside
    obtain ⟨⟨label, ids⟩, face⟩ := Option.isSome_iff_exists.mp inside
    rcases added.face_cases face with ⟨rest, rfl, old⟩ | ⟨rfl, -, -⟩ | ⟨-, -, old⟩
    · have clean := named.clean (list ++ star :: rest) (by rw [old]; rfl)
      refine clean.left.append fun id mem => ?_
      rcases List.mem_cons.mp mem with rfl | mem
      · exact DataModels.itemId_clean count
      · exact clean.right id (List.mem_cons_of_mem star mem)
    · exact named.clean other listInside
    · exact named.clean other (by rw [old]; rfl)
  · intro other inside pattern
    obtain ⟨⟨label, ids⟩, face⟩ := Option.isSome_iff_exists.mp inside
    rcases added.face_cases face with ⟨rest, rfl, old⟩ | ⟨rfl, -, -⟩ | ⟨-, -, old⟩
    · apply added.findable_item shaped
      refine named.findable _ (by rw [old]; rfl) ⟨list, _, added.isList, prefix_append_cons list rest star⟩
    · exact former listInside pattern
    · exact former (by rw [old]; rfl) pattern

omit [FloatingText δ] in
theorem ListCleared.named (cleared : ListCleared before after list)
    (shaped : Shaped (skeleton before)) (named : Named (skeleton before)) :
    Named (skeleton after) := by
  constructor
  · intro other inside
    exact named.clean other (cleared.shrinks.isSome inside)
  · intro other inside pattern
    refine cleared.findable shaped ?_ (cleared.stars inside)
    apply named.findable other (cleared.shrinks.isSome inside)
    exact pattern.of_lists fun above ids isList _ => cleared.shrinks above _ ids isList

theorem Changed.named (shaped : Shaped (skeleton before)) (change : Changed before after)
    (named : Named (skeleton before)) : Named (skeleton after) := by
  cases change with
  | item list count added outside => exact added.named shaped named
  | cleared list cleared => exact cleared.named shaped named
  | kept same references =>
      rw [same]
      exact named

end Runs

/-! ### The law -/

section Law

variable {δ : Type}

open Structure

theorem DataModel.getPath_skeleton (d : DataModel δ) (element : Position) :
    d.getPath element = Structure.getPath (·) (DataElement.skeleton d.root) element := by
  have same : Structure.getPath (·) (DataElement.skeleton d.root) element =
      Structure.getPath Referring.own d.root element := Structure.pathFrom_map fun _ => rfl
  exact same.symm

theorem MetaModel.getPath_skeleton (m : MetaModel δ) (element : Position) :
    m.getPath element = Structure.getPath (·) (MetaElement.skeleton m.root) element := by
  have same : Structure.getPath (·) (MetaElement.skeleton m.root) element =
      Structure.getPath (fun label : Referring δ MetaContainer => label.own.kind) m.root element :=
    Structure.pathFrom_map fun _ => rfl
  exact same.symm

namespace MetaModel

variable {m : MetaModel δ}

theorem addressed_iff (sound : m.Sound) :
    m.Addressed ↔ NonEmpty (MetaElement.skeleton m.root) := by
  constructor
  · intro addressed element inside empty
    obtain ⟨path, found⟩ := Option.isSome_iff_exists.mp (getPath_isSome.mpr inside)
    rw [← m.getPath_skeleton] at found
    have here := addressed.byPath element path (List.ne_nil_of_mem empty) found
    -- no part of a path is empty
    obtain ⟨-, own, -⟩ := MetaElement.getItemFromRoot_eq_some.mp here
    rw [← own] at empty
    exact of_decide_eq_true (List.mem_filter.mp empty).2 rfl
  · intro nonEmpty
    have split {element : Position} {path : Text} (found : m.getPath element = some path) :
        (m.root.at? element).isSome ∧ splitPath path = element := by
      rw [m.getPath_skeleton] at found
      have inside := getPath_isSome.mp (Option.isSome_iff_exists.mpr ⟨path, found⟩)
      exact ⟨MetaElement.isSome_face?.mp inside,
        sound.shaped.split_clean found (sound.shaped.clean nonEmpty inside)⟩
    constructor
    · intro element other path found found'
      exact (split found).2.symm.trans (split found').2
    · intro element path ne found
      obtain ⟨inside, own⟩ := split found
      exact MetaElement.getItemFromRoot_eq_some.mpr ⟨splitPath_ne_nil own ne, own, inside⟩

end MetaModel

namespace DataModel

open DataElement

variable {d : DataModel δ}

theorem getItemByPath_skeleton (path : Text) : d.getItemByPath path =
    Structure.getItemFromRoot (·) false (skeleton d.root) path := by
  have same : Structure.getItemFromRoot (·) false (skeleton d.root) path =
      Structure.getItemFromRoot Referring.own false d.root path :=
    Structure.getItemFromRoot_map (fun _ => rfl) false d.root path
  exact same.symm

theorem getItemByMetaPath_skeleton (path : Text) : d.getItemByMetaPath path =
    Structure.getItemFromRoot (·) true (skeleton d.root) path := by
  rw [getItemByMetaPath, getItemFromRoot_skeleton]

theorem addressed_of_named (shaped : Shaped (skeleton d.root)) (named : Named (skeleton d.root)) :
    d.Addressed := by
  have split {element : Position} {path : Text} (found : d.getPath element = some path) :
      ((skeleton d.root).face? element).isSome ∧ splitPath path = element := by
    rw [d.getPath_skeleton] at found
    have inside := getPath_isSome.mp (Option.isSome_iff_exists.mpr ⟨path, found⟩)
    exact ⟨inside, shaped.split_clean found (named.clean element inside)⟩
  constructor
  · intro element other path found found'
    exact (split found).2.symm.trans (split found').2
  · intro element path ne found outside
    obtain ⟨inside, own⟩ := split found
    rw [getItemByPath_skeleton, Structure.getItemFromRoot_eq_some]
    exact ⟨splitPath_ne_nil own ne, own, shaped.descends_outside inside outside⟩
  · intro element path found pattern
    obtain ⟨inside, own⟩ := split found
    have findable := named.findable element inside pattern
    rw [getItemByMetaPath_skeleton, Structure.getItemFromRoot_eq_some]
    exact ⟨splitPath_ne_nil own findable.ne_nil, own, findable.descends⟩

/-- What is found in a pattern has no other `*` on its way. -/
theorem Addressed.stars (addressed : d.Addressed) (shaped : Shaped (skeleton d.root)) :
    StarsArePatterns (skeleton d.root) := by
  intro element inside pattern
  obtain ⟨path, found⟩ := Option.isSome_iff_exists.mp (getPath_isSome.mpr inside)
  rw [← d.getPath_skeleton] at found
  have here := addressed.byMetaPath element path found pattern
  rw [getItemByMetaPath_skeleton, Structure.getItemFromRoot_eq_some] at here
  exact (shaped.descends_iff.mp here.2.2).2

end DataModel

variable [FloatingText δ]

/-- The paths are addresses in a meta model and in its data after any calls on them. -/
def PathAddressing (m : MetaModel δ) : Prop :=
  m.Addressed ∧ ∀ (models : DataModels δ) model d calls, m.createData model = some d →
    models model = some d → ∃ d', models.after model calls model = some d' ∧ d'.Addressed

theorem pathAddressing_iff (id : Nat) (version : Text) (calls : List (MetaCall δ)) :
    PathAddressing (MetaModel.build id version calls) ↔
      NonEmpty (MetaElement.skeleton (MetaModel.build id version calls).root) ∧
        ((∃ model, ((MetaModel.build id version calls).createData model).isSome) →
          StarsArePatterns (MetaElement.skeleton (MetaModel.build id version calls).root)) := by
  have sound := MetaModel.build_sound id version calls
  rw [PathAddressing, MetaModel.addressed_iff sound]
  refine and_congr_right fun nonEmpty => ?_
  constructor
  · rintro law ⟨model, created⟩
    obtain ⟨d, made⟩ := Option.isSome_iff_exists.mp created
    obtain ⟨d', living, addressed⟩ := law (fun _ => some d) model d [] made rfl
    cases living
    have same := DataModel.createData_skeleton sound made
    have stars := addressed.stars (DataModel.createData_sound sound made).shaped
    rwa [same] at stars
  · intro stars models model d dataCalls made living
    have same := DataModel.createData_skeleton sound made
    have named : Named (DataElement.skeleton d.root) := by
      rw [same]
      exact sound.shaped.named nonEmpty (stars ⟨model, by rw [made]; rfl⟩)
    obtain ⟨root, kept, sound', named'⟩ := DataModels.after_induction
      (P := fun root => Named (DataElement.skeleton root)) (DataModel.createData_sound sound made)
      living named (fun _ _ sound change => change.named sound.shaped) dataCalls
    exact ⟨_, kept, DataModel.addressed_of_named sound'.shaped named'⟩

/-- A component without a name has the path of the root. A component `*` in the pattern of a list is
taken for a pattern. -/
theorem unnamed_component_fails :
    ¬ PathAddressing (MetaModel.build 0 [] [.addComponent [] [] [] []] : MetaModel Int) ∧
      ¬ PathAddressing (MetaModel.build 0 []
        [.addList [] ['l'] [] [] [] [], .addComponent [['l'], star] star [] []] : MetaModel Int) := by
  constructor
  · intro law
    cases law.1.byPath [[]] [] (List.cons_ne_nil [] []) rfl
  · intro law
    obtain ⟨d', living, addressed⟩ := law.2 (fun _ => some _) 0 _ [] rfl rfl
    cases living
    cases addressed.byMetaPath [['l'], star, star] ['/', 'l', '/', '*', '/', '*'] rfl
      ⟨[['l']], [star], rfl, [star], rfl⟩

end Law

end OpenSand.Conf
