import OpenSand.Sat.Constellation
import Mathlib.Tactic.ByContra

/-!
Frames and bursts dispatched to the stacks of their destinations.

`dispatch_iff` says when a frame or a burst gets where its routes say: a frame when the link
it needs is there; a burst when, besides, all its packets come from gateways and terminals,
since one other packet ends the split of the whole burst.
-/

namespace OpenSand.Constellation

open SatDispatcher

/-! ### What is to be delivered -/

def destination (frame : CarrierFrame) : SpotComponentPair := ⟨frame.spot, (frameEnds frame).1⟩

def outputFrame (frame : CarrierFrame) : CarrierFrame :=
  { frame with carrierId := frame.carrierId + 1 }

variable (net : Constellation)

/-- The stack of a frame at its destination. -/
def stackKey (frame : CarrierFrame) : RegenerativeSpotComponent :=
  ⟨destination frame, net.regenLevel (destination frame) = some .transparent ∧
    (isDataCarrier (extractCarrierType frame.carrierId) ∨
      net.regenLevel ⟨frame.spot, (frameEnds frame).2⟩ = some .transparent)⟩

/-- A frame of an input carrier gets to the stack of its destination and nowhere else, through
one link at most and without going up again. -/
def FrameServed (sat : Nat) (frame : CarrierFrame) : Prop :=
  isInputCarrier (extractCarrierType frame.carrierId) = true →
    ∀ dest, net.route (destination frame) = some dest → ∃ trail,
      net.deliver 2 [] sat .upward (.frame frame) =
        some [⟨dest, net.stackKey frame, .frame (outputFrame frame), trail⟩] ∧
      trail.count .hop ≤ 1 ∧ .turnUp ∉ trail

/-- The packets given to the stack of a key, in their order. -/
def carried (deliveries : List StackDelivery) (sat : Nat) (key : SpotComponentPair) :
    List NetPacket :=
  deliveries.flatMap fun delivery =>
    match delivery.message with
    | .burst burst => if delivery.sat = sat ∧ delivery.key = ⟨key, false⟩ then burst else []
    | .frame _ => []

/-- The packets with a route get once to the stack of their destination and nowhere else. -/
def BurstServed (sat : Nat) (channel : DispatchChannel) (burst : List NetPacket) : Prop :=
  ∃ deliveries, net.deliver 3 [] sat channel (.burst burst) = some deliveries ∧
    (∀ delivery ∈ deliveries, delivery.key.isTransparent = false ∧
      net.route delivery.key.toSpotComponentPair = some delivery.sat) ∧
    ∀ key dest, net.route key = some dest → carried deliveries dest key =
      burst.filter fun packet => (net.tables sat).packetKey net.getEntityType packet = some key

/-! ### Links -/

/-- The destination is the satellite itself or behind one of its links. -/
def FrameLinked (sat : Nat) (frame : CarrierFrame) : Prop :=
  isInputCarrier (extractCarrierType frame.carrierId) = true →
    ∀ dest, net.route (destination frame) = some dest →
      dest = sat ∨ net.UpperConnected sat ⟨dest, false⟩

/-- The way of a burst to a destination. -/
def WayTo (sat : Nat) (channel : DispatchChannel) (key : SpotComponentPair) (dest : Nat) : Prop :=
  match channel with
  | .upward => dest = sat ∧ net.regenLevel key ≠ some .ip ∨
      net.UpperConnected sat ⟨dest, net.regenLevel key = some .ip⟩
  | .downward => dest = sat ∨
      net.regenLevel key ≠ some .ip ∧ net.UpperConnected sat ⟨dest, false⟩

instance (sat : Nat) (channel : DispatchChannel) (key : SpotComponentPair) (dest : Nat) :
    Decidable (net.WayTo sat channel key dest) := by
  cases channel
  · exact inferInstanceAs (Decidable (_ ∨ _))
  · exact inferInstanceAs (Decidable (_ ∨ _))

/-- If a packet has a route, no packet of the burst is without key, and the way and the stack
are there. -/
def BurstLinked (sat : Nat) (channel : DispatchChannel) (burst : List NetPacket) : Prop :=
  ∀ packet ∈ burst, ∀ key dest,
    (net.tables sat).packetKey net.getEntityType packet = some key → net.route key = some dest →
      (∀ other ∈ burst, (net.tables sat).packetKey net.getEntityType other ≠ none) ∧
        net.WayTo sat channel key dest ∧ net.LowerConnected dest ⟨key, false⟩

/-! ### Routes and stacks -/

variable {net} {sat dest : Nat} {key : SpotComponentPair} {topo : SpotTopology}

theorem mem_of_topology {spotId : Nat} (found : net.topology spotId = some topo) :
    topo ∈ net.spotsTopology ∧ topo.spotId = spotId :=
  ⟨List.mem_of_find?_eq_some found, of_decide_eq_true (List.find?_some found :)⟩

theorem topology_of_mem (mem : topo ∈ net.spotsTopology) : net.topology topo.spotId = some topo := by
  cases found : net.topology topo.spotId with
  | none => exact absurd (List.find?_eq_none.mp found topo mem) (by simp)
  | some other =>
      obtain ⟨otherMem, same⟩ := mem_of_topology found
      rw [List.inj_on_of_nodup_map net.distinct otherMem mem same]

theorem route_eq_some_iff :
    net.route key = some dest ↔
      ∃ topo, net.topology key.spotId = some topo ∧ satId topo key.dest = some dest :=
  Option.bind_eq_some_iff

/-- A stack is at the satellite of its route. -/
theorem lowerConnected_iff {isTransparent : Bool} :
    net.LowerConnected sat ⟨key, isTransparent⟩ ↔
      ∃ topo, net.topology key.spotId = some topo ∧ satId topo key.dest = some sat ∧
        (isTransparent = true ∨ topo.forwardRegenLevel ≠ .transparent ∨
          topo.returnRegenLevel ≠ .transparent) := by
  have sides : ∀ topo, satId topo key.dest = some sat ↔
      (key.dest = .gateway ∧ topo.satIdGw = sat ∨ key.dest = .terminal ∧ topo.satIdSt = sat) := by
    intro topo
    cases key.dest <;> simp [satId]
  constructor
  · rintro ⟨topo, mem, same, side, stack⟩
    refine ⟨topo, ?_, (sides topo).mpr side, stack⟩
    rw [← show topo.spotId = key.spotId from same]
    exact topology_of_mem mem
  · rintro ⟨topo, found, side, stack⟩
    obtain ⟨mem, same⟩ := mem_of_topology found
    exact ⟨topo, mem, same, (sides topo).mp side, stack⟩

theorem route_of_lowerConnected {isTransparent : Bool}
    (connected : net.LowerConnected sat ⟨key, isTransparent⟩) : net.route key = some sat := by
  obtain ⟨topo, found, side, -⟩ := lowerConnected_iff.mp connected
  exact route_eq_some_iff.mpr ⟨topo, found, side⟩

theorem regenLevel_of_route (routed : net.route key = some dest) :
    ∃ level, net.regenLevel key = some level := by
  obtain ⟨topo, found, side⟩ := route_eq_some_iff.mp routed
  rw [regenLevel, found]
  cases which : key.dest with
  | gateway => exact ⟨topo.returnRegenLevel, rfl⟩
  | terminal => exact ⟨topo.forwardRegenLevel, rfl⟩
  | satellite => simp [which, satId] at side
  | unknown => simp [which, satId] at side

/-! ### Frames -/

variable {frame : CarrierFrame} {trail : List Passage} {fuel : Nat}

theorem handle_frame (channel : DispatchChannel) :
    net.handle sat channel (.frame frame) =
      match channel with
      | .upward => Upward.handleDvbFrame (net.tables sat) frame
      | .downward => Downward.handleDvbFrame (net.tables sat) frame := by
  rw [handle, dispatcher_eq]
  cases channel <;> rfl

/-- What is sent once is followed once. -/
theorem deliver_single {channel : DispatchChannel} {message : DispatchMessage} {send : Send}
    (handled : net.handle sat channel message = some [send]) :
    net.deliver (fuel + 1) trail sat channel message =
      net.follow (net.deliver fuel) trail sat channel send := by
  rw [deliver, handled, Option.bind_some, List.mapM_cons, List.mapM_nil]
  cases net.follow (net.deliver fuel) trail sat channel send with
  | none => rfl
  | some deliveries => simp

theorem frameEnds_cases (frame : CarrierFrame) :
    frameEnds frame = (.terminal, .gateway) ∨ frameEnds frame = (.gateway, .terminal) := by
  rw [frameEnds]
  split
  · exact .inl rfl
  · exact .inr rfl

/-- The stack of a frame is there. -/
theorem lowerConnected_stackKey (routed : net.route (destination frame) = some dest) :
    net.LowerConnected dest (net.stackKey frame) := by
  obtain ⟨topo, found, side⟩ := route_eq_some_iff.mp routed
  refine lowerConnected_iff.mpr ⟨topo, found, side, ?_⟩
  have found : net.topology frame.spot = some topo := found
  -- a stack that is not transparent has a level that is not
  by_contra transparent
  rw [not_or, not_or, not_not, not_not] at transparent
  obtain ⟨notTransparent, forward, backward⟩ := transparent
  refine notTransparent ?_
  rcases frameEnds_cases frame with ends | ends <;>
    simp [destination, regenLevel, ends, found, levelOf, forward, backward]

/-- At its destination, a frame of an input carrier is given to its stack. -/
theorem deliver_frame_arrived
    (input : isInputCarrier (extractCarrierType frame.carrierId) = true)
    (routed : net.route (destination frame) = some dest) :
    net.deliver (fuel + 1) trail dest .downward (.frame frame) =
      some [⟨dest, net.stackKey frame, .frame (outputFrame frame), trail⟩] := by
  obtain ⟨topo, found, side⟩ := route_eq_some_iff.mp routed
  have found : net.topology frame.spot = some topo := found
  have output : isOutputCarrier (extractCarrierType frame.carrierId) = false := by
    rw [isOutputCarrier_eq, input]
    rfl
  have handled : net.handle dest .downward (.frame frame) =
      some [.toLowerBlock (net.stackKey frame) (.frame (outputFrame frame))] := by
    rw [handle_frame]
    have routed : (net.tables dest).routes ⟨frame.spot, (frameEnds frame).1⟩ = some dest := routed
    have known : ∀ component, net.regenLevel ⟨frame.spot, component⟩ = levelOf topo component := by
      intro component
      rw [regenLevel, found]
      rfl
    have level : ∀ component, (net.tables dest).regenLevels ⟨frame.spot, component⟩ =
        levelOf topo component := known
    simp only [Downward.handleDvbFrame, routed, output, level]
    rcases frameEnds_cases frame with ends | ends <;>
      simp [ends, levelOf, stackKey, destination, known, tables, outputFrame]
  rw [deliver_single handled, follow, transport, if_pos (lowerConnected_stackKey routed)]

theorem frameServed_iff : net.FrameServed sat frame ↔ net.FrameLinked sat frame := by
  refine forall_congr' fun input => forall₂_congr fun dest routed => ?_
  have routes : (net.tables sat).routes ⟨frame.spot, (frameEnds frame).1⟩ = some dest := routed
  by_cases here : dest = sat
  · subst here
    have handled : net.handle dest .upward (.frame frame) =
        some [.toOppositeChannel (.frame frame)] := by
      rw [handle_frame]
      simp only [Upward.handleDvbFrame, routes]
      exact if_pos rfl
    refine iff_of_true ⟨[.turnDown], ?_, by decide, by decide⟩ (.inl rfl)
    rw [deliver_single handled, follow, transport]
    exact deliver_frame_arrived input routed
  · have handled : net.handle sat .upward (.frame frame) =
        some [.toUpperBlock ⟨dest, false⟩ (.frame frame)] := by
      rw [handle_frame]
      simp only [Upward.handleDvbFrame, routes]
      exact if_neg here
    rw [deliver_single handled, follow, transport]
    by_cases linked : net.UpperConnected sat ⟨dest, false⟩
    · rw [if_pos linked]
      exact iff_of_true ⟨[.hop], deliver_frame_arrived input routed, by decide, by decide⟩
        (.inr linked)
    · rw [if_neg linked]
      refine iff_of_false ?_ fun h => h.elim here linked
      rintro ⟨trail, lost, -⟩
      simp at lost

/-! ### Bursts -/

variable {channel : DispatchChannel} {burst : List NetPacket}

variable (net sat channel) in
def sendBurst (group : SpotComponentPair × List NetPacket) : Option (List Send) :=
  match channel with
  | .upward => Upward.sendBurst (net.tables sat) group
  | .downward => Downward.sendBurst (net.tables sat) group

theorem handle_burst :
    net.handle sat channel (.burst burst) =
      (net.tables sat).handleNetBurst net.getEntityType (net.sendBurst sat channel) burst := by
  rw [handle, dispatcher_eq]
  cases channel <;> rfl

variable (net sat channel) in
/-- The passages of a burst on its way. -/
def passages (key : SpotComponentPair) (dest : Nat) : List Passage :=
  match channel with
  | .upward => if dest = sat ∧ net.regenLevel key ≠ some .ip then [.turnDown] else [.hop]
  | .downward => if dest = sat then [] else [.turnUp, .hop]

/-- What becomes of the part of a burst for one key. -/
def groupDeliveries (net : Constellation) (trail : List Passage) (sat : Nat)
    (channel : DispatchChannel) (group : SpotComponentPair × List NetPacket) :
    List StackDelivery :=
  match net.route group.1 with
  | none => []
  | some dest =>
      if net.WayTo sat channel group.1 dest ∧ net.LowerConnected dest ⟨group.1, false⟩ then
        [⟨dest, ⟨group.1, false⟩, .burst group.2, trail ++ net.passages sat channel group.1 dest⟩]
      else []

/-- Two passes that may fail, one over what the other gives. -/
theorem mapM_flatten_mapM {α β γ : Type*} {f : α → Option (List β)} {g : β → Option (List γ)}
    {result : α → List γ} {items : List α}
    (each : ∀ a ∈ items, ∃ bs, f a = some bs ∧ (bs.mapM g).map List.flatten = some (result a)) :
    ((items.mapM f).map List.flatten).bind (fun bs => (bs.mapM g).map List.flatten) =
      some (items.flatMap result) := by
  induction items with
  | nil => simp
  | cons a items ih =>
      obtain ⟨bs, first, second⟩ := each a List.mem_cons_self
      obtain ⟨parts, second, eq⟩ := Option.map_eq_some_iff.mp second
      have ih := ih fun other mem => each other (List.mem_cons_of_mem _ mem)
      obtain ⟨rest, firstRest, secondRest⟩ := Option.bind_eq_some_iff.mp ih
      obtain ⟨lists, passRest, rfl⟩ := Option.map_eq_some_iff.mp firstRest
      obtain ⟨parts', secondRest, eq'⟩ := Option.map_eq_some_iff.mp secondRest
      have passes : (a :: items).mapM f = some (bs :: lists) := by
        rw [List.mapM_cons, first, passRest]
        rfl
      have follows : (bs ++ lists.flatten).mapM g = some (parts ++ parts') := by
        rw [List.mapM_append, second, secondRest]
        rfl
      rw [passes, Option.map_some, Option.bind_some, List.flatten_cons, follows, Option.map_some,
        List.flatten_append, eq, eq', List.flatMap_cons]

/-- The parts of a burst are sent and followed one after the other. -/
theorem deliver_split {groups : List (SpotComponentPair × List NetPacket)}
    {deliveries : SpotComponentPair × List NetPacket → List StackDelivery}
    (isSplit : (net.tables sat).splitBurst net.getEntityType [] burst = some groups)
    (each : ∀ group ∈ groups, ∃ sends, net.sendBurst sat channel group = some sends ∧
      (sends.mapM (net.follow (net.deliver fuel) trail sat channel)).map List.flatten =
        some (deliveries group)) :
    net.deliver (fuel + 1) trail sat channel (.burst burst) =
      some (groups.flatMap deliveries) := by
  rw [deliver, handle_burst, handleNetBurst, isSplit]
  exact mapM_flatten_mapM each

theorem follow_single {send : Send} {deliveries : List StackDelivery}
    (followed : net.follow (net.deliver fuel) trail sat channel send = some deliveries) :
    ([send].mapM (net.follow (net.deliver fuel) trail sat channel)).map List.flatten =
      some deliveries := by
  simp [followed]

/-- A burst to one destination. -/
def Uniform (net : Constellation) (key : SpotComponentPair) (burst : List NetPacket) : Prop :=
  burst ≠ [] ∧ ∀ sat, ∀ packet ∈ burst,
    (net.tables sat).packetKey net.getEntityType packet = some key

theorem deliver_uniform {deliveries : List StackDelivery} {sends : List Send}
    (uniform : net.Uniform key burst) (sent : net.sendBurst sat channel (key, burst) = some sends)
    (followed : (sends.mapM (net.follow (net.deliver fuel) trail sat channel)).map List.flatten =
      some deliveries) :
    net.deliver (fuel + 1) trail sat channel (.burst burst) = some deliveries := by
  have each : ∀ group ∈ [(key, burst)], ∃ sends, net.sendBurst sat channel group = some sends ∧
      (sends.mapM (net.follow (net.deliver fuel) trail sat channel)).map List.flatten =
        some ((fun _ => deliveries) group) := by
    intro group mem
    obtain rfl := List.mem_singleton.mp mem
    exact ⟨sends, sent, followed⟩
  rw [deliver_split (splitBurst_uniform (uniform.2 sat) uniform.1) each]
  simp

/-- At its destination, a burst is given to its stack if that is there. -/
theorem follow_toLowerBlock (key : RegenerativeSpotComponent) (message : DispatchMessage) :
    net.follow (net.deliver fuel) trail sat channel (.toLowerBlock key message) =
      some (if net.LowerConnected sat key then [⟨sat, key, message, trail⟩] else []) := by
  rw [follow, transport]
  by_cases connected : net.LowerConnected sat key
  · rw [if_pos connected, if_pos connected]
  · rw [if_neg connected, if_neg connected]

theorem deliver_arrived (uniform : net.Uniform key burst) (routed : net.route key = some dest) :
    net.deliver (fuel + 1) trail dest .downward (.burst burst) =
      some (if net.LowerConnected dest ⟨key, false⟩ then
        [⟨dest, ⟨key, false⟩, .burst burst, trail⟩] else []) := by
  obtain ⟨level, known⟩ := regenLevel_of_route routed
  have sent : net.sendBurst dest .downward (key, burst) =
      some [.toLowerBlock ⟨key, false⟩ (.burst burst)] := by
    simp [sendBurst, Downward.sendBurst, tables, routed, known]
  exact deliver_uniform uniform sent (follow_single (follow_toLowerBlock _ _))

/-- What a channel sends of a part of a burst, followed to its stack. -/
def Followed (net : Constellation) (fuel : Nat) (trail : List Passage) (sat : Nat)
    (channel : DispatchChannel) (group : SpotComponentPair × List NetPacket) : Prop :=
  ∃ sends, net.sendBurst sat channel group = some sends ∧
    (sends.mapM (net.follow (net.deliver fuel) trail sat channel)).map List.flatten =
      some (net.groupDeliveries trail sat channel group)

theorem groupDeliveries_of_route {group : SpotComponentPair × List NetPacket}
    (routed : net.route group.1 = some dest) :
    net.groupDeliveries trail sat channel group =
      if net.WayTo sat channel group.1 dest ∧ net.LowerConnected dest ⟨group.1, false⟩ then
        [⟨dest, ⟨group.1, false⟩, .burst group.2, trail ++ net.passages sat channel group.1 dest⟩]
      else [] := by
  rw [groupDeliveries, routed]

theorem followed_of_no_route {group : SpotComponentPair × List NetPacket}
    (noRoute : net.route group.1 = none) : net.Followed fuel trail sat channel group := by
  refine ⟨[], ?_, ?_⟩
  · cases channel <;> simp [sendBurst, Upward.sendBurst, Downward.sendBurst, tables, noRoute]
  · rw [groupDeliveries, noRoute]
    rfl

theorem followed_upward (uniform : net.Uniform key burst) :
    net.Followed (fuel + 1) trail sat .upward (key, burst) := by
  cases routed : net.route key with
  | none => exact followed_of_no_route routed
  | some dest =>
      obtain ⟨level, known⟩ := regenLevel_of_route routed
      rw [Followed, groupDeliveries_of_route routed]
      by_cases turns : dest = sat ∧ level ≠ .ip
      · refine ⟨[.toOppositeChannel (.burst burst)], ?_, follow_single ?_⟩
        · simp [sendBurst, Upward.sendBurst, tables, routed, known, turns]
        · obtain ⟨rfl, regen⟩ := turns
          have way : net.WayTo dest .upward key dest := .inl ⟨rfl, by simp [known, regen]⟩
          rw [follow, transport, passages, known]
          simp only [way, true_and, ne_eq, Option.some.injEq, regen, not_false_eq_true, if_true]
          exact deliver_arrived uniform routed
      · refine ⟨[.toUpperBlock ⟨dest, level = .ip⟩ (.burst burst)], ?_, follow_single ?_⟩
        · simp [sendBurst, Upward.sendBurst, tables, routed, known, turns]
        · have way : net.WayTo sat .upward key dest ↔
              net.UpperConnected sat ⟨dest, level = .ip⟩ := by
            rw [WayTo, known]
            simp only [ne_eq, Option.some.injEq]
            exact or_iff_right turns
          rw [follow, transport, passages, known]
          simp only [way, ne_eq, Option.some.injEq, if_neg turns]
          by_cases linked : net.UpperConnected sat ⟨dest, level = .ip⟩
          · simp only [linked, if_true, true_and]
            exact deliver_arrived uniform routed
          · simp only [linked, if_false, false_and]

theorem followed_downward (uniform : net.Uniform key burst) :
    net.Followed (fuel + 2) trail sat .downward (key, burst) := by
  cases routed : net.route key with
  | none => exact followed_of_no_route routed
  | some dest =>
      obtain ⟨level, known⟩ := regenLevel_of_route routed
      rw [Followed, groupDeliveries_of_route routed]
      by_cases lowers : dest = sat ∨ level = .ip
      · refine ⟨[.toLowerBlock ⟨key, false⟩ (.burst burst)], ?_, follow_single ?_⟩
        · simp [sendBurst, Downward.sendBurst, tables, routed, known, lowers]
        · rw [follow_toLowerBlock]
          by_cases here : dest = sat
          · subst here
            have way : net.WayTo dest .downward key dest := .inl rfl
            rw [passages]
            simp only [way, true_and, if_true, List.append_nil]
          · -- an IP burst for another satellite has no stack here
            have regen : level = .ip := lowers.resolve_left here
            have away : ¬ net.LowerConnected sat ⟨key, false⟩ := by
              intro connected
              exact here (Option.some.inj (routed.symm.trans (route_of_lowerConnected connected)))
            have noWay : ¬ net.WayTo sat .downward key dest := by
              simp [WayTo, here, known, regen]
            simp only [away, noWay, false_and, if_false]
      · refine ⟨[.toOppositeChannel (.burst burst)], ?_, follow_single ?_⟩
        · simp [sendBurst, Downward.sendBurst, tables, routed, known, lowers]
        · obtain ⟨away, regen⟩ := not_or.mp lowers
          obtain ⟨sends, sent, followed⟩ : net.Followed (fuel + 1) (trail ++ [.turnUp]) sat .upward
              (key, burst) := followed_upward uniform
          rw [follow, transport]
          dsimp only
          rw [deliver_uniform uniform sent followed, groupDeliveries_of_route routed]
          simp [WayTo, passages, away, known, regen]

theorem followed {group : SpotComponentPair × List NetPacket}
    (uniform : net.Uniform group.1 group.2) : net.Followed (fuel + 2) trail sat channel group := by
  cases channel with
  | upward => exact followed_upward uniform
  | downward => exact followed_downward uniform

variable {groups : List (SpotComponentPair × List NetPacket)}

/-- A burst that cannot be split is dropped. -/
theorem deliver_dropped
    (dropped : (net.tables sat).splitBurst net.getEntityType [] burst = none) :
    net.deliver (fuel + 1) trail sat channel (.burst burst) = some [] := by
  rw [deliver, handle_burst, handleNetBurst, dropped]
  rfl

theorem deliver_groups
    (grouped : Grouping.Grouped ((net.tables sat).packetKey net.getEntityType) groups burst)
    (isSplit : (net.tables sat).splitBurst net.getEntityType [] burst = some groups) :
    net.deliver (fuel + 3) trail sat channel (.burst burst) =
      some (groups.flatMap (net.groupDeliveries trail sat channel)) := by
  refine deliver_split isSplit fun group mem => followed ⟨grouped.nonempty group mem, ?_⟩
  intro _ packet own
  rw [grouped.content group mem, List.mem_filter] at own
  exact of_decide_eq_true own.2

theorem mem_groupDeliveries {group : SpotComponentPair × List NetPacket}
    {delivery : StackDelivery} (mem : delivery ∈ net.groupDeliveries trail sat channel group) :
    delivery.key = ⟨group.1, false⟩ ∧ net.route group.1 = some delivery.sat := by
  cases routed : net.route group.1 with
  | none => simp [groupDeliveries, routed] at mem
  | some dest =>
      rw [groupDeliveries_of_route routed] at mem
      split at mem
      · obtain rfl := List.mem_singleton.mp mem
        exact ⟨rfl, rfl⟩
      · exact absurd mem List.not_mem_nil

/-- The packets of a key that get to its stack: all of them if the way and the stack are there. -/
theorem carried_groups
    (grouped : Grouping.Grouped ((net.tables sat).packetKey net.getEntityType) groups burst)
    (routed : net.route key = some dest) :
    carried (groups.flatMap (net.groupDeliveries trail sat channel)) dest key =
      if net.WayTo sat channel key dest ∧ net.LowerConnected dest ⟨key, false⟩ then
        burst.filter fun packet => (net.tables sat).packetKey net.getEntityType packet = some key
      else [] := by
  have others : ∀ group ∈ groups, group.1 ≠ key →
      carried (net.groupDeliveries trail sat channel group) dest key = [] := by
    intro group _ other
    rw [carried, List.flatMap_eq_nil_iff]
    intro delivery mem
    have apart : delivery.key ≠ ⟨key, false⟩ := by
      rw [(mem_groupDeliveries mem).1]
      simp [other]
    cases delivery.message <;> simp [apart]
  rw [carried, List.flatMap_assoc]
  refine (Grouping.flatMap_of_key grouped.distinct others).trans ?_
  cases found : groups.find? fun group => group.1 = key with
  | none =>
      have absent : key ∉ groups.map Prod.fst := by
        intro mem
        obtain ⟨group, mem, same⟩ := List.mem_map.mp mem
        exact absurd (List.find?_eq_none.mp found group mem) (by simp [same])
      rw [grouped.filter_eq_nil absent, ite_self]
      rfl
  | some group =>
      obtain rfl : group.1 = key := of_decide_eq_true (List.find?_some found :)
      rw [Option.map_some, Option.getD_some, groupDeliveries_of_route routed,
        ← grouped.content group (List.mem_of_find?_eq_some found)]
      split
      · simp [carried]
      · rfl

theorem burstServed_iff : net.BurstServed sat channel burst ↔ net.BurstLinked sat channel burst := by
  have isSplit_iff : ((net.tables sat).splitBurst net.getEntityType [] burst).isSome ↔
      ∀ packet ∈ burst, (net.tables sat).packetKey net.getEntityType packet ≠ none :=
    splitBurst_isSome_iff
  cases isSplit : (net.tables sat).splitBurst net.getEntityType [] burst with
  | none =>
      have unkeyed : ¬ ∀ packet ∈ burst,
          (net.tables sat).packetKey net.getEntityType packet ≠ none := by
        rw [← isSplit_iff, isSplit]
        exact Bool.false_ne_true
      constructor
      · rintro ⟨deliveries, delivered, -, served⟩ packet mem key dest keyed routed
        rw [deliver_dropped isSplit] at delivered
        cases delivered
        have kept := served key dest routed
        exact absurd (List.filter_eq_nil_iff.mp kept.symm packet mem) (by simp [keyed])
      · intro linked
        refine ⟨[], deliver_dropped isSplit, fun _ mem => absurd mem List.not_mem_nil, ?_⟩
        intro key dest routed
        refine (List.filter_eq_nil_iff.mpr fun packet mem keyed => unkeyed ?_).symm
        exact (linked packet mem key dest (of_decide_eq_true keyed) routed).1
  | some groups =>
      have keyed : ∀ packet ∈ burst,
          (net.tables sat).packetKey net.getEntityType packet ≠ none := by
        rw [← isSplit_iff, isSplit]
        rfl
      have grouped := grouped_splitBurst (Grouping.Grouped.nil _) isSplit
      rw [List.nil_append] at grouped
      constructor
      · rintro ⟨deliveries, delivered, -, served⟩ packet mem key dest own routed
        rw [deliver_groups grouped isSplit] at delivered
        cases delivered
        have kept := served key dest routed
        rw [carried_groups grouped routed] at kept
        refine ⟨keyed, ?_⟩
        by_contra unlinked
        rw [if_neg unlinked] at kept
        exact absurd (List.filter_eq_nil_iff.mp kept.symm packet mem) (by simp [own])
      · intro linked
        refine ⟨_, deliver_groups grouped isSplit, ?_, ?_⟩
        · intro delivery mem
          obtain ⟨group, -, mem⟩ := List.mem_flatMap.mp mem
          obtain ⟨eq, routed⟩ := mem_groupDeliveries mem
          rw [eq]
          exact ⟨rfl, routed⟩
        · intro key dest routed
          rw [carried_groups grouped routed]
          split
          case isTrue => rfl
          case isFalse unlinked =>
            refine (List.filter_eq_nil_iff.mpr fun packet mem own => unlinked ?_).symm
            exact (linked packet mem key dest (of_decide_eq_true own) routed).2

/-! ### Main result -/

theorem dispatch_iff (net : Constellation) (sat : Nat) (frame : CarrierFrame)
    (channel : DispatchChannel) (burst : List NetPacket) :
    (net.FrameServed sat frame ↔ net.FrameLinked sat frame) ∧
      (net.BurstServed sat channel burst ↔ net.BurstLinked sat channel burst) :=
  ⟨frameServed_iff, burstServed_iff⟩

/-- Spot 1 has gateway 0 and terminal 1, both on satellite 2. -/
def oneSpot : Constellation where
  spotsTopology := [⟨1, 0, [1], 2, 2, .bbFrame, .bbFrame⟩]
  distinct := by decide
  defaultSpot := 1
  getEntityType entity := if entity = 0 then .gateway else if entity = 1 then .terminal else .unknown
  islConfig _ := []
  checked _ topo mem := by
    obtain rfl := List.mem_singleton.mp mem
    exact fun apart => absurd rfl apart

/-- A packet of an unknown entity takes the packet of the terminal with it. -/
theorem unknownSource_not_served :
    ¬ ∀ (net : Constellation) (sat : Nat) (frame : CarrierFrame) (channel : DispatchChannel)
      (burst : List NetPacket), net.FrameServed sat frame ∧ net.BurstServed sat channel burst := by
  intro served
  have linked := burstServed_iff.mp (served oneSpot 2 ⟨1, 2, []⟩ .upward
    [⟨[7], 0, 1, 0⟩, ⟨[8], 0, 9, 0⟩]).2
  have keyed := (linked ⟨[7], 0, 1, 0⟩ (by decide) ⟨1, .gateway⟩ 2 (by decide) (by decide)).1
  exact keyed ⟨[8], 0, 9, 0⟩ (by decide) (by decide)

end OpenSand.Constellation
