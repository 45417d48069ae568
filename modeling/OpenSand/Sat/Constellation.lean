import OpenSand.Sat.SatDispatcher

/-!
Satellites that dispatch frames and bursts together.

All satellites know all spots, and each one its inter-satellite links. What a handler sends
goes to the opposite channel, to the satellite behind a link or the LAN adaptation, or to a
stack below. The tables of all dispatchers are those of the spots.
-/

namespace OpenSand

open SatDispatcher

inductive IslType where
  | none | lanAdaptation | interconnect
deriving DecidableEq

structure IslConfig where
  linkedSatId : Nat
  type : IslType
deriving DecidableEq

def islEnabled (islConfig : List IslConfig) : Bool := islConfig.any fun cfg => cfg.type ≠ .none

/-- Satellites whose dispatchers accept the spots. -/
structure Constellation where
  spotsTopology : List SpotTopology
  distinct : (spotsTopology.map SpotTopology.spotId).Nodup
  defaultSpot : Nat
  getEntityType : Nat → Component
  islConfig : Nat → List IslConfig
  checked : ∀ sat, ∀ topo ∈ spotsTopology, Linked sat (islEnabled (islConfig sat)) topo

inductive DispatchChannel where
  | upward | downward
deriving DecidableEq

/-- How a message goes on. -/
inductive Passage where
  | turnDown | turnUp | hop
deriving DecidableEq

/-- A message given to the stack of a key. -/
structure StackDelivery where
  sat : Nat
  key : RegenerativeSpotComponent
  message : DispatchMessage
  trail : List Passage

/-- Where something that is sent gets. -/
inductive Transport where
  | moved (sat : Nat) (channel : DispatchChannel) (move : Passage) (message : DispatchMessage)
  | delivered (key : RegenerativeSpotComponent) (message : DispatchMessage)
  | lost

namespace Constellation

variable (net : Constellation)

def dispatcher (sat : Nat) : Option SatDispatcher :=
  onInit net.spotsTopology net.defaultSpot sat (islEnabled (net.islConfig sat))

/-- A block is connected above the dispatcher: an interconnect, or a LAN adaptation. -/
def UpperConnected (sat : Nat) (key : IslComponentPair) : Prop :=
  ∃ cfg ∈ net.islConfig sat, cfg.linkedSatId = key.connectedSat ∧
    cfg.type = if key.isDataChannel then .lanAdaptation else .interconnect

instance (sat : Nat) (key : IslComponentPair) : Decidable (net.UpperConnected sat key) :=
  inferInstanceAs (Decidable (∃ _ ∈ _, _))

/-- A stack is connected below the dispatcher; one that is transparent both ways has no
encapsulation. -/
def LowerConnected (sat : Nat) (key : RegenerativeSpotComponent) : Prop :=
  ∃ topo ∈ net.spotsTopology, topo.spotId = key.spotId ∧
    (key.dest = .gateway ∧ topo.satIdGw = sat ∨ key.dest = .terminal ∧ topo.satIdSt = sat) ∧
    (key.isTransparent = true ∨ topo.forwardRegenLevel ≠ .transparent ∨
      topo.returnRegenLevel ≠ .transparent)

instance (sat : Nat) (key : RegenerativeSpotComponent) : Decidable (net.LowerConnected sat key) :=
  inferInstanceAs (Decidable (∃ _ ∈ _, _))

def handle (sat : Nat) (channel : DispatchChannel) (message : DispatchMessage) :
    Option (List Send) :=
  (net.dispatcher sat).bind fun dispatcher =>
    match channel, message with
    | .upward, .frame frame => Upward.handleDvbFrame dispatcher frame
    | .upward, .burst burst => Upward.handleNetBurst dispatcher net.getEntityType burst
    | .downward, .frame frame => Downward.handleDvbFrame dispatcher frame
    | .downward, .burst burst => Downward.handleNetBurst dispatcher net.getEntityType burst

/-- What is sent to a block that is not connected is lost. -/
def transport (sat : Nat) (channel : DispatchChannel) : Send → Transport
  | .toOppositeChannel message =>
      match channel with
      | .upward => .moved sat .downward .turnDown message
      | .downward => .moved sat .upward .turnUp message
  | .toUpperBlock key message =>
      if net.UpperConnected sat key then .moved key.connectedSat .downward .hop message else .lost
  | .toLowerBlock key message =>
      if net.LowerConnected sat key then .delivered key message else .lost

/-- The deliveries of something sent, from those of what it becomes. -/
def follow (deliver : List Passage → Nat → DispatchChannel → DispatchMessage →
    Option (List StackDelivery)) (trail : List Passage) (sat : Nat) (channel : DispatchChannel)
    (send : Send) : Option (List StackDelivery) :=
  match net.transport sat channel send with
  | .moved sat channel move message => deliver (trail ++ [move]) sat channel message
  | .delivered key message => some [⟨sat, key, message, trail⟩]
  | .lost => some []

/-- All the deliveries of a message, within a number of handlings. -/
def deliver : Nat → List Passage → Nat → DispatchChannel → DispatchMessage →
    Option (List StackDelivery)
  | 0, _, _, _, _ => none
  | fuel + 1, trail, sat, channel, message =>
      (net.handle sat channel message).bind fun sends =>
        (sends.mapM (net.follow (deliver fuel) trail sat channel)).map List.flatten

/-! ### The tables of the spots -/

def satId (topo : SpotTopology) : Component → Option Nat
  | .gateway => some topo.satIdGw
  | .terminal => some topo.satIdSt
  | _ => none

def levelOf (topo : SpotTopology) : Component → Option RegenLevel
  | .gateway => some topo.returnRegenLevel
  | .terminal => some topo.forwardRegenLevel
  | _ => none

def topology (spotId : Nat) : Option SpotTopology :=
  net.spotsTopology.find? fun topo => topo.spotId = spotId

/-- The satellite that a spot and a destination are routed to. -/
def route (key : SpotComponentPair) : Option Nat :=
  (net.topology key.spotId).bind fun topo => satId topo key.dest

def regenLevel (key : SpotComponentPair) : Option RegenLevel :=
  (net.topology key.spotId).bind fun topo => levelOf topo key.dest

def spotByEntity : Nat → Option Nat := net.spotsTopology.foldl addEntities fun _ => none

/-- The tables of a satellite are those of the spots. -/
def tables (sat : Nat) : SatDispatcher where
  entityId := sat
  spotByEntity := net.spotByEntity
  defaultSpot := net.defaultSpot
  routes := net.route
  regenLevels := net.regenLevel

theorem addSpots_eq {enabled : Bool} {dispatcher : SatDispatcher} {spots : List SpotTopology}
    (linked : ∀ topo ∈ spots, Linked dispatcher.entityId enabled topo) :
    addSpots enabled dispatcher spots = some (spots.foldl addSpot dispatcher) := by
  induction spots generalizing dispatcher with
  | nil => rfl
  | cons topo spots ih =>
      rw [addSpots, if_pos (linked topo List.mem_cons_self), List.foldl_cons]
      exact ih fun other mem => linked other (List.mem_cons_of_mem _ mem)

/-- A table of a dispatcher after some spots were added, by the fields of the spots. -/
theorem foldl_addSpot {β : Type*} {fields : SpotTopology → Component → Option β}
    {table : SatDispatcher → SpotComponentPair → Option β}
    (adds : ∀ dispatcher topo key, table (addSpot dispatcher topo) key =
      if topo.spotId = key.spotId then (fields topo key.dest).or (table dispatcher key)
      else table dispatcher key)
    {spots : List SpotTopology} (distinct : (spots.map SpotTopology.spotId).Nodup)
    (dispatcher : SatDispatcher) (key : SpotComponentPair) :
    table (spots.foldl addSpot dispatcher) key =
      ((spots.find? fun topo => topo.spotId = key.spotId).bind fun topo => fields topo key.dest).or
        (table dispatcher key) := by
  induction spots generalizing dispatcher with
  | nil => rfl
  | cons topo spots ih =>
      obtain ⟨fresh, distinct⟩ := List.nodup_cons.mp distinct
      rw [List.foldl_cons, ih distinct, adds]
      by_cases same : topo.spotId = key.spotId
      · have none : spots.find? (fun topo => topo.spotId = key.spotId) = none := by
          rw [List.find?_eq_none]
          intro other mem found
          refine fresh (List.mem_map.mpr ⟨other, mem, ?_⟩)
          rw [of_decide_eq_true found, same]
        have found : (topo :: spots).find? (fun topo => topo.spotId = key.spotId) = some topo := by
          simp [same]
        rw [if_pos same, none, found]
        rfl
      · rw [if_neg same, List.find?_cons_of_neg (by simpa using same)]

/-- Two entries of a spot, at its gateway and at its terminals. -/
theorem update_update_apply {β : Type*} (table : SpotComponentPair → β) (spotId : Nat)
    (dest dest' : Component) (value value' : β) (key : SpotComponentPair) :
    Function.update (Function.update table ⟨spotId, dest⟩ value) ⟨spotId, dest'⟩ value' key =
      if spotId = key.spotId ∧ key.dest = dest' then value'
      else if spotId = key.spotId ∧ key.dest = dest then value else table key := by
  obtain ⟨spotId', keyDest⟩ := key
  rw [Function.update_apply, Function.update_apply]
  simp only [SpotComponentPair.mk.injEq, eq_comm]

theorem addSpot_routes (dispatcher : SatDispatcher) (topo : SpotTopology)
    (key : SpotComponentPair) :
    (addSpot dispatcher topo).routes key =
      if topo.spotId = key.spotId then
        (satId topo key.dest).or (dispatcher.routes key)
      else dispatcher.routes key := by
  refine (update_update_apply _ _ _ _ _ _ _).trans ?_
  by_cases same : topo.spotId = key.spotId
  · cases dest : key.dest <;> simp [same, satId]
  · simp [same]

theorem addSpot_regenLevels (dispatcher : SatDispatcher) (topo : SpotTopology)
    (key : SpotComponentPair) :
    (addSpot dispatcher topo).regenLevels key =
      if topo.spotId = key.spotId then
        (levelOf topo key.dest).or (dispatcher.regenLevels key)
      else dispatcher.regenLevels key := by
  refine (update_update_apply _ _ _ _ _ _ _).trans ?_
  by_cases same : topo.spotId = key.spotId
  · cases dest : key.dest <;> simp [same, levelOf]
  · simp [same]

theorem ext_tables {dispatcher dispatcher' : SatDispatcher}
    (entityId : dispatcher.entityId = dispatcher'.entityId)
    (spotByEntity : dispatcher.spotByEntity = dispatcher'.spotByEntity)
    (defaultSpot : dispatcher.defaultSpot = dispatcher'.defaultSpot)
    (routes : ∀ key, dispatcher.routes key = dispatcher'.routes key)
    (regenLevels : ∀ key, dispatcher.regenLevels key = dispatcher'.regenLevels key) :
    dispatcher = dispatcher' := by
  cases dispatcher
  cases dispatcher'
  cases entityId
  cases spotByEntity
  cases defaultSpot
  cases (funext routes : _ = _)
  cases (funext regenLevels : _ = _)
  rfl

theorem foldl_addSpot_constants (dispatcher : SatDispatcher) (spots : List SpotTopology) :
    (spots.foldl addSpot dispatcher).entityId = dispatcher.entityId ∧
      (spots.foldl addSpot dispatcher).defaultSpot = dispatcher.defaultSpot := by
  induction spots generalizing dispatcher with
  | nil => exact ⟨rfl, rfl⟩
  | cons topo spots ih => exact ih (dispatcher.addSpot topo)

/-- The dispatchers keep the tables of the spots. -/
theorem dispatcher_eq (sat : Nat) : net.dispatcher sat = some (net.tables sat) := by
  rw [dispatcher, onInit, addSpots_eq (net.checked sat)]
  congr 1
  apply ext_tables
  · exact (foldl_addSpot_constants _ net.spotsTopology).1
  · exact (List.foldl_hom SatDispatcher.spotByEntity fun _ _ => rfl).symm
  · exact (foldl_addSpot_constants _ net.spotsTopology).2
  · intro key
    exact (foldl_addSpot addSpot_routes net.distinct _ key).trans Option.or_none
  · intro key
    exact (foldl_addSpot addSpot_regenLevels net.distinct _ key).trans Option.or_none

end Constellation

end OpenSand
