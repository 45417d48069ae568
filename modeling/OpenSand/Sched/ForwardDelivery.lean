import OpenSand.Dvb.AirFrames
import OpenSand.Sched.ForwardModcod

/-!
The forward link from the FIFOs of a gateway to a terminal.

The frames that a superframe completes are sent in this order, and a terminal hears each of
them or not. Data are lost in two ways only: no MODCOD is selected for their terminal, or the
terminal does not decode their frame; `allStates_delivered` accounts for the rest in every
state of every run.
-/

namespace OpenSand

open OpenSand.Run

/-! ### Frames that can be sent -/

/-- The packets of a frame fit in it and are told by their own bytes. -/
structure BBFrame.Airworthy (handler : EncapPlugin.EncapPacketHandler) (frame : BBFrame) :
    Prop where
  fits : frame.getTotalLength ≤ frame.maxSize
  small : frame.maxSize ≤ 8100
  own : ∀ packet ∈ frame.packets, handler.Own packet

def BBFrames.Airworthy (handler : EncapPlugin.EncapPacketHandler) (bbframes : BBFrames) : Prop :=
  ∀ f < bbframes.allocated, (bbframes.frame f).Airworthy handler

/-- The encapsulation of the gateway makes packets that their own bytes tell. -/
def EncapPacketHandler.MakesOwn (encap : EncapPacketHandler)
    (handler : EncapPlugin.EncapPacketHandler) : Prop :=
  ∀ before packet freeSpace isNew data remaining,
    encap.encapNextPacket before packet freeSpace isNew = some (some data, remaining) →
      handler.Own data

/-- The frames that are complete are never changed. -/
structure BBFrames.Settles (bbframes bbframes' : BBFrames) : Prop where
  grows : bbframes.Grows bbframes'
  frame : ∀ entry ∈ bbframes.complete, bbframes'.frame entry.frame = bbframes.frame entry.frame

theorem getPayloadSize_bounds (coding : String) :
    bbframeHeaderLength ≤ getPayloadSize coding ∧ getPayloadSize coding ≤ 8100 := by
  unfold getPayloadSize
  split <;> decide

theorem getBBFrameSizeBytes_bounds (table : FmtDefinitionTable) (modcodId : UInt8) :
    bbframeHeaderLength ≤ getBBFrameSizeBytes table modcodId ∧
      getBBFrameSizeBytes table modcodId ≤ 8100 := by
  unfold getBBFrameSizeBytes
  split <;> exact getPayloadSize_bounds _

namespace BBFrames.Settles

variable {table : FmtDefinitionTable} {bbframes bbframes' bbframes'' : BBFrames}

theorem refl (bbframes : BBFrames) : bbframes.Settles bbframes := ⟨.refl _, fun _ _ => rfl⟩

theorem trans (h : bbframes.Settles bbframes') (h' : bbframes'.Settles bbframes'') :
    bbframes.Settles bbframes'' where
  grows := h.grows.trans h'.grows
  frame entry mem := by
    obtain ⟨later, complete⟩ := h.grows.complete
    have mem' : entry ∈ bbframes'.complete := by
      rw [complete]
      exact List.mem_append_left _ mem
    exact (h'.frame entry mem').trans (h.frame entry mem)

end BBFrames.Settles

section Moves

variable {link : S2Link} {position : Nat × Nat} {licence : Licence} {s s' : Serving}
  {handler : EncapPlugin.EncapPacketHandler}

/-- A frame that is complete is not incomplete. -/
theorem BBFrames.Filed.ne_of_incomplete {table : FmtDefinitionTable} {bbframes : BBFrames}
    (filed : bbframes.Filed table) {entry : CompleteFrame} (mem : entry ∈ bbframes.complete)
    {f : Nat} (incomplete : f ∈ bbframes.incompleteOrdered) : entry.frame ≠ f := by
  have nodup := filed.placed.nodup_iff.mpr List.nodup_range
  exact (List.nodup_append.mp nodup).2.2 _
    (List.mem_append_left _ (List.mem_map_of_mem mem)) _ incomplete

theorem Move.settles (filed : s.bbframes.Filed link.modcodDef)
    (move : Move link position licence s s') : s.bbframes.Settles s'.bbframes := by
  refine ⟨move.grows, fun entry mem => ?_⟩
  cases move with
  | create => exact Function.update_of_ne (Nat.ne_of_lt (filed.complete_lt mem)) _ _
  | encap _ _ _ _ _ _ found _ added =>
      rw [BBFrames.addData_eq added]
      have incomplete := ((filed.mirrored _ _).mp found).1
      exact Function.update_of_ne (filed.ne_of_incomplete mem incomplete) _ _
  | complete => rfl
  | resume => rfl
  | pend => rfl
  | forget => rfl
  | skip => rfl
  | lose => rfl
  | capacity => rfl
  | carriers => rfl

theorem BBFrame.Airworthy.new (handler : EncapPlugin.EncapPacketHandler)
    (table : FmtDefinitionTable) (modcodId : UInt8) :
    BBFrame.Airworthy handler ⟨modcodId, getBBFrameSizeBytes table modcodId, []⟩ where
  fits := (getBBFrameSizeBytes_bounds table modcodId).1
  small := (getBBFrameSizeBytes_bounds table modcodId).2
  own := nofun

theorem BBFrame.Airworthy.addPacket {frame frame' : BBFrame} {packet : NetPacket}
    (h : frame.Airworthy handler) (own : handler.Own packet)
    (added : frame.addPacket packet = some frame') : frame'.Airworthy handler := by
  rw [BBFrame.addPacket] at added
  split at added
  · cases added
  next enough =>
    cases added
    refine ⟨?_, h.small, ?_⟩
    · have fits := h.fits
      rw [BBFrame.getFreeSpace] at enough
      rw [getTotalLength_append, List.map_cons, List.map_nil, List.sum_cons, List.sum_nil]
      exact Nat.add_le_of_le_sub' fits (not_lt.mp enough)
    · intro packet' mem
      rcases List.mem_append.mp mem with old | new
      · exact h.own packet' old
      · rw [List.mem_singleton.mp new]
        exact own

theorem BBFrames.Airworthy.create {bbframes : BBFrames} (h : bbframes.Airworthy handler)
    (table : FmtDefinitionTable) (modcodId : UInt8) :
    (bbframes.createIncompleteBBFrame table modcodId).Airworthy handler := by
  intro f lt
  unfold createIncompleteBBFrame
  dsimp only
  rcases Nat.lt_succ_iff_lt_or_eq.mp lt with before | rfl
  · rw [Function.update_of_ne (Nat.ne_of_lt before)]
    exact h f before
  · rw [Function.update_self]
    exact .new handler table modcodId

theorem BBFrames.Airworthy.addData {bbframes bbframes' : BBFrames} {f : Nat}
    {data : Option NetPacket} (h : bbframes.Airworthy handler)
    (own : ∀ packet, data = some packet → handler.Own packet)
    (added : bbframes.addData f data = some bbframes') : bbframes'.Airworthy handler := by
  cases data with
  | none =>
      cases added
      exact h
  | some packet =>
      obtain ⟨frame, put, rfl⟩ := Option.map_eq_some_iff.mp added
      intro g lt
      dsimp only
      by_cases same : g = f
      · subst same
        rw [Function.update_self]
        exact (h g lt).addPacket (own packet rfl) put
      · rw [Function.update_of_ne same]
        exact h g lt

theorem Move.airworthy (makes : link.handler.MakesOwn handler)
    (h : s.bbframes.Airworthy handler) (move : Move link position licence s s') :
    s'.bbframes.Airworthy handler := by
  cases move with
  | create => exact h.create _ _
  | encap _ _ _ _ _ _ _ encap added =>
      refine h.addData (fun packet eq => ?_) added
      subst eq
      exact makes _ _ _ _ _ _ encap
  | complete => exact h
  | resume => exact h
  | pend => exact h
  | forget => exact h
  | skip => exact h
  | lose => exact h
  | capacity => exact h
  | carriers => exact h

/-- What holds of the frames after some moves from consistent containers. -/
structure BBFrames.Emits (handler : EncapPlugin.EncapPacketHandler) (table : FmtDefinitionTable)
    (bbframes bbframes' : BBFrames) : Prop where
  filed : bbframes'.Filed table
  airworthy : bbframes'.Airworthy handler
  settles : bbframes.Settles bbframes'

theorem Evolves.emits (makes : link.handler.MakesOwn handler) (keeps : ¬ licence.forget)
    (filed : s.bbframes.Filed link.modcodDef) (airworthy : s.bbframes.Airworthy handler)
    (evolves : Evolves link position licence s s') :
    s.bbframes.Emits handler link.modcodDef s'.bbframes := by
  refine evolves.keeps (P := fun s' => s.bbframes.Emits handler link.modcodDef s'.bbframes) ?_
    ⟨filed, airworthy, .refl _⟩
  intro mid mid' before move
  exact ⟨move.filed keeps before.filed, move.airworthy makes before.airworthy,
    before.settles.trans (move.settles before.filed)⟩

end Moves

namespace ForwardSchedulingS2

variable {encap : EncapPacketHandler} {handler : EncapPlugin.EncapPacketHandler}
  {table : FmtDefinitionTable} {call : SchedCall} {sched sched' : ForwardSchedulingS2}
  {fuel : Nat} {ok : Bool}

theorem serve_emits (makes : encap.MakesOwn handler) {position : Nat × Nat}
    (filed : sched.bbframes.Filed table) (airworthy : sched.bbframes.Airworthy handler)
    (h : serve encap table fuel call sched position = some (ok, sched')) :
    sched.bbframes.Emits handler table sched'.bbframes := by
  obtain ⟨_, carriers, s, -, rfl, -, evolves⟩ := serve_evolves filed.linked h
  have moved := evolves (.any (ok = false)) id (fun _ _ => trivial) (fun _ _ _ _ => trivial)
  exact moved.emits makes id filed airworthy

/-- Whatever a call reports, the frames that it completes can be sent. -/
theorem schedule_emits (makes : encap.MakesOwn handler) (filed : sched.bbframes.Filed table)
    (airworthy : sched.bbframes.Airworthy handler)
    (h : sched.schedule encap table fuel call = some (ok, sched')) :
    sched.bbframes.Emits handler table sched'.bbframes := by
  obtain ⟨⟨done, mid⟩, looped, eq⟩ := Option.map_eq_some_iff.mp h
  have emits : sched.bbframes.Emits handler table mid.bbframes := by
    refine forEach_keeps (P := fun mid => sched.bbframes.Emits handler table mid.bbframes) ?_
      ⟨filed, airworthy, .refl _⟩ looped
    intro s position out _ before served
    have after := serve_emits makes before.filed before.airworthy served
    exact ⟨after.filed, after.airworthy, before.settles.trans after.settles⟩
  cases done with
  | true =>
      cases eq
      exact emits
  | false =>
      cases eq
      exact emits

end ForwardSchedulingS2

/-- A packet that starts with its length on two bytes. -/
def lengthFirst (payload : Bytes.Data) : NetPacket :=
  ⟨UInt8.ofNat (payload.length / 256) :: UInt8.ofNat (payload.length % 256) :: payload, 0, 0, 0⟩

/-- A handler that fills the space left with such packets. -/
def EncapPacketHandler.lengthFirst : EncapPacketHandler where
  encapNextPacket _ packet freeSpace _ :=
    let length := min packet.data.length (min (freeSpace - 2) 4095)
    if length = 0 then some (none, some packet)
    else some (some (OpenSand.lengthFirst (packet.data.take length)),
      if length < packet.data.length then some { packet with data := packet.data.drop length }
      else none)

theorem lengthFirst_own {payload : Bytes.Data} (le : payload.length ≤ 4095) :
    EncapPlugin.EncapPacketHandler.twoBytes.Own (lengthFirst payload) where
  nonempty := List.cons_ne_nil _ _
  lengthBytes := Nat.le_add_left 2 _
  length := by
    have high : (UInt8.ofNat (payload.length / 256)).toNat = payload.length / 256 := by
      rw [UInt8.toNat_ofNat']
      omega
    have low : (UInt8.ofNat (payload.length % 256)).toNat = payload.length % 256 := by
      rw [UInt8.toNat_ofNat']
      omega
    change (UInt8.ofNat (payload.length / 256)).toNat % 16 * 256 +
      (UInt8.ofNat (payload.length % 256)).toNat + 2 = payload.length + 2
    rw [high, low]
    omega
  headerBytes := Nat.le_add_left 2 _
  built rest := by
    change some (NetPacket.mk ((_ ++ rest).take _) 0 0 0) = _
    rw [List.take_left]
    rfl

theorem EncapPacketHandler.lengthFirst_makesOwn :
    EncapPacketHandler.lengthFirst.MakesOwn .twoBytes := by
  intro before packet freeSpace isNew data remaining made
  simp only [lengthFirst] at made
  split at made
  · cases made
  · obtain ⟨eq, -⟩ := Prod.mk.inj (Option.some.inj made)
    obtain rfl := Option.some.inj eq
    refine lengthFirst_own ?_
    rw [List.length_take]
    omega

/-! ### The link -/

/-- A frame that was sent: whether the terminal was logged on, and how it was heard. -/
structure Transmission where
  frame : Nat
  running : Bool
  air : Air

/-- The gateway and the terminal, with the frames that were sent. -/
structure ForwardLink where
  world : ForwardWorld
  sent : List Transmission
  tal : Except Fault BBReception

/-- The terminal is logged on, or there is a superframe whose frames are each heard in a way. -/
inductive LinkEvent where
  | logon
  | superframe (superframe : Superframe) (air : Nat → Air)

namespace ForwardLink

variable (encap : EncapPacketHandler) (radio : TalRadio)

def start (fifos : List (DvbFifo NetPacket)) (carriersGroups : List (List CarriersGroupDama)) :
    ForwardLink where
  world := .start fifos carriersGroups
  sent := []
  tal := .ok (.start radio)

variable (link : ForwardLink)

abbrev bbframes : BBFrames := link.world.sched.bbframes

def running : Bool :=
  match link.tal with
  | .ok tal => tal.running
  | .error _ => false

def bursts : List (List NetPacket) :=
  match link.tal with
  | .ok tal => tal.bursts
  | .error _ => []

/-- The terminal hears the bytes of a frame of the scheduler. -/
def transmit (bbframes : BBFrames) (air : Nat → Air) (tal : BBReception) (f : Nat) :
    Except Fault BBReception := do
  let dvb ← (bbframes.frame f).built
  tal.hears radio dvb (air f)

/-- The complete frames that were not sent yet. -/
def sendBursts (air : Nat → Air) : ForwardLink :=
  let frames := (link.bbframes.complete.drop link.sent.length).map (·.frame)
  { link with
    sent := link.sent ++ frames.map fun f => ⟨f, link.running, air f⟩
    tal := link.tal >>= fun tal => frames.foldlM (transmit radio link.bbframes air) tal }

/-- Nothing is sent when the scheduling reports an error; the frames wait. -/
def step : LinkEvent → Option ForwardLink
  | .logon => some { link with tal := link.tal.map (·.onRcvLogonResp radio) }
  | .superframe superframe air =>
      (superframe.arrivals.foldlM Arrivals.push
          ⟨link.world.sched.fifos, link.world.arrived⟩).bind fun state =>
        ((link.world.receive state.fifos).schedule encap (radio.tables .s2) superframe.fuel
            superframe.call).map fun (ok, sched) =>
          let link := { link with world := ⟨sched, state.arrived, link.world.failed || !ok⟩ }
          if ok then link.sendBursts radio air else link

/-- Whether the terminal decodes a frame that was sent. -/
def decoded (sent : Transmission) : Bool :=
  sent.running && radio.decodes (link.bbframes.modcod sent.frame) sent.air

/-- The packets that the terminal gets from the frame. -/
def burstOf (sent : Transmission) : Option (List NetPacket) :=
  (link.bbframes.frame sent.frame).burst (link.decoded radio sent)

/-! ### What a superframe does -/

variable {encap radio link} {link' : ForwardLink} {handler : EncapPlugin.EncapPacketHandler}

theorem step_superframe {superframe : Superframe} {air : Nat → Air}
    (h : link.step encap radio (.superframe superframe air) = some link') :
    ∃ world ok, link.world.step encap (radio.tables .s2) superframe = some world ∧
      world.failed = (link.world.failed || !ok) ∧
      (encap.MakesOwn radio.handler → link.bbframes.Filed (radio.tables .s2) →
        link.bbframes.Airworthy radio.handler →
        link.bbframes.Emits radio.handler (radio.tables .s2) world.sched.bbframes) ∧
      link' = if ok then { link with world := world }.sendBursts radio air
        else { link with world := world } := by
  obtain ⟨state, pushed, h⟩ := Option.bind_eq_some_iff.mp h
  obtain ⟨⟨ok, sched⟩, called, rfl⟩ := Option.map_eq_some_iff.mp h
  refine ⟨_, ok, Option.bind_eq_some_iff.mpr ⟨state, pushed, Option.map_eq_some_iff.mpr
    ⟨_, called, rfl⟩⟩, rfl, fun makes filed airworthy => ?_, rfl⟩
  have received : (link.world.receive state.fifos).bbframes.Filed (radio.tables .s2) := filed
  have ready : (link.world.receive state.fifos).bbframes.Airworthy radio.handler := airworthy
  have emits := ForwardSchedulingS2.schedule_emits makes received ready called
  exact emits

/-- The terminal hears some frames of the scheduler. -/
theorem transmit_frames {bbframes : BBFrames} {air : Nat → Air} {tal : BBReception}
    (terminal : radio.isGw radio.talId = false) (airworthy : bbframes.Airworthy radio.handler)
    {frames : List Nat} (bound : ∀ f ∈ frames, f < bbframes.allocated) (ready : tal.Ready radio) :
    ∃ tal', frames.foldlM (transmit radio bbframes air) tal = .ok tal' ∧ tal'.Ready radio ∧
      tal'.running = tal.running ∧ tal'.bursts = tal.bursts ++ frames.filterMap fun f =>
        (bbframes.frame f).burst (tal.running && radio.decodes (bbframes.modcod f) (air f)) := by
  induction frames generalizing tal with
  | nil => exact ⟨tal, rfl, ready, rfl, (List.append_nil _).symm⟩
  | cons f frames ih =>
      obtain ⟨lt, later⟩ := List.forall_mem_cons.mp bound
      have frame := airworthy f lt
      have small : (bbframes.frame f).maxSize < 2 ^ 16 := frame.small.trans_lt (by decide)
      obtain ⟨mid, heard, ready', running, bursts⟩ :=
        BBReception.hears_spec ready terminal (frame.fits.trans_lt small) frame.own (air f)
      obtain ⟨tal', rest, ready'', running', bursts'⟩ := ih later ready'
      have sent : transmit radio bbframes air tal f = .ok mid :=
        Bytes.bind_eq_ok.mpr ⟨_, built_eq frame.fits small, heard⟩
      refine ⟨tal', ?_, ready'', running'.trans running, ?_⟩
      · rw [List.foldlM_cons]
        exact Bytes.bind_eq_ok.mpr ⟨mid, sent, rest⟩
      · have modcod : (bbframes.frame f).modcodId = bbframes.modcod f := rfl
        rw [bursts', bursts, running, List.append_assoc, List.filterMap_cons, modcod]
        refine congrArg _ ?_
        cases (bbframes.frame f).burst
          (tal.running && radio.decodes (bbframes.modcod f) (air f)) <;> rfl

/-! ### Runs -/

/-- What holds at any time. -/
structure Carried (encap : EncapPacketHandler) (radio : TalRadio) (link : ForwardLink) : Prop where
  world : link.world.Sound encap (radio.tables .s2)
  airworthy : link.bbframes.Airworthy radio.handler
  sent : link.sent.map (·.frame) = (link.bbframes.complete.map (·.frame)).take link.sent.length
  heard : ∃ tal, link.tal = .ok tal ∧ tal.Ready radio ∧
    tal.bursts = link.sent.filterMap (link.burstOf radio)

/-- Between two events, no frame waits unless an error was reported. -/
structure Sound (encap : EncapPacketHandler) (radio : TalRadio) (link : ForwardLink) : Prop
    extends Carried encap radio link where
  all : link.world.failed = false → link.sent.length = link.bbframes.complete.length

theorem start_sound (encap : EncapPacketHandler) (radio : TalRadio)
    (fifos : List (DvbFifo NetPacket)) (carriersGroups : List (List CarriersGroupDama)) :
    (start radio fifos carriersGroups).Sound encap radio where
  world := ForwardWorld.start_sound fifos carriersGroups
  airworthy _ lt := absurd lt (Nat.not_lt_zero _)
  sent := rfl
  heard := ⟨_, rfl, BBReception.start_ready radio, rfl⟩
  all _ := rfl

namespace Carried

theorem length_le (carried : link.Carried encap radio) :
    link.sent.length ≤ link.bbframes.complete.length := by
  have length := congrArg List.length carried.sent
  rw [List.length_map, List.length_take, List.length_map] at length
  omega

theorem mem_complete (carried : link.Carried encap radio) {sent : Transmission}
    (mem : sent ∈ link.sent) : ∃ entry ∈ link.bbframes.complete, entry.frame = sent.frame := by
  have among : sent.frame ∈ link.sent.map (·.frame) := List.mem_map_of_mem mem
  rw [carried.sent] at among
  exact List.mem_map.mp (List.mem_of_mem_take among)

/-- A call of the scheduling does not change what the terminal got. -/
theorem schedule (carried : link.Carried encap radio) {world : ForwardWorld}
    (after : world.Sound encap (radio.tables .s2))
    (emits : link.bbframes.Emits radio.handler (radio.tables .s2) world.sched.bbframes) :
    Carried encap radio { link with world := world } := by
  refine ⟨after, emits.airworthy, ?_, ?_⟩
  · obtain ⟨later, complete⟩ := emits.settles.grows.complete
    rw [complete, List.map_append, List.take_append_of_le_length, carried.sent]
    rw [List.length_map]
    exact carried.length_le
  · obtain ⟨tal, ok, ready, bursts⟩ := carried.heard
    refine ⟨tal, ok, ready, bursts.trans (List.filterMap_congr fun sent mem => ?_)⟩
    obtain ⟨entry, complete, same⟩ := carried.mem_complete mem
    have frame := emits.settles.frame entry complete
    rw [same] at frame
    rw [burstOf, burstOf, decoded, decoded, BBFrames.modcod, BBFrames.modcod]
    rw [frame]

/-- All the frames that are complete are heard. -/
theorem sendBursts (carried : link.Carried encap radio) (terminal : radio.isGw radio.talId = false)
    (air : Nat → Air) : (link.sendBursts radio air).Sound encap radio := by
  obtain ⟨tal, ok, ready, bursts⟩ := carried.heard
  have running : link.running = tal.running := by rw [ForwardLink.running, ok]
  have order : (link.sendBursts radio air).sent.map (·.frame) =
      link.bbframes.complete.map (·.frame) := by
    rw [ForwardLink.sendBursts, List.map_append, List.map_map, carried.sent]
    exact (congrArg _ (List.map_id _)).trans
      ((congrArg _ List.map_drop).trans (List.take_append_drop _ _))
  have all : (link.sendBursts radio air).sent.length = link.bbframes.complete.length := by
    have length := congrArg List.length order
    rwa [List.length_map, List.length_map] at length
  have bound : ∀ f ∈ (link.bbframes.complete.drop link.sent.length).map (·.frame),
      f < link.bbframes.allocated := by
    intro f mem
    obtain ⟨entry, among, rfl⟩ := List.mem_map.mp mem
    exact carried.world.filed.complete_lt (List.mem_of_mem_drop among)
  obtain ⟨tal', heard, ready', -, bursts'⟩ :=
    @transmit_frames radio link.bbframes air tal terminal carried.airworthy _ bound ready
  refine ⟨⟨carried.world, carried.airworthy, ?_, tal', ?_, ready', ?_⟩, fun _ => all⟩
  · rw [all, order]
    exact (List.take_of_length_le (List.length_map _).le).symm
  · rw [ForwardLink.sendBursts, ok]
    exact heard
  · rw [bursts', bursts, ForwardLink.sendBursts, List.filterMap_append, running]
    simp only [List.filterMap_map]
    rfl

end Carried

theorem step_sound (makes : encap.MakesOwn radio.handler)
    (terminal : radio.isGw radio.talId = false) {event : LinkEvent} (sound : link.Sound encap radio)
    (h : link.step encap radio event = some link') : link'.Sound encap radio := by
  cases event with
  | logon =>
      cases h
      obtain ⟨tal, ok, ready, bursts⟩ := sound.heard
      refine ⟨⟨sound.world, sound.airworthy, sound.sent, tal.onRcvLogonResp radio, ?_,
        BBReception.onRcvLogonResp_ready ready, bursts⟩, sound.all⟩
      dsimp only
      rw [ok]
      rfl
  | superframe superframe air =>
      obtain ⟨world, ok, taken, failed, emits, rfl⟩ := step_superframe h
      have carried := sound.toCarried.schedule (ForwardWorld.step_sound sound.world taken)
        (emits makes sound.world.filed sound.airworthy)
      cases ok with
      | true => exact carried.sendBursts terminal air
      | false =>
          refine ⟨carried, fun safe => ?_⟩
          rw [if_neg Bool.false_ne_true] at safe
          rw [failed, Bool.not_false, Bool.or_true] at safe
          cases safe

theorem allStates_sound (makes : encap.MakesOwn radio.handler)
    (terminal : radio.isGw radio.talId = false) (fifos : List (DvbFifo NetPacket))
    (carriersGroups : List (List CarriersGroupDama)) (events : List LinkEvent) :
    AllStates (step encap radio) (Sound encap radio) (start radio fifos carriersGroups) events :=
  allStates_of_step (start_sound encap radio fifos carriersGroups)
    fun _ _ _ => step_sound makes terminal

/-! ### What is delivered -/

end ForwardLink

/-- The Es/N0 of the FMTs of a group are the ones of a table. -/
structure FmtGroup.Describes (group : FmtGroup) (table : FmtDefinitionTable) : Prop where
  modcodDef : group.modcodDef = table
  esN0 : ∀ fmtId ∈ group.fmtIds, fmtId.esN0 = table.getRequiredEsN0 fmtId.id

/-- The nearest FMT requires no more than the one that it is for. -/
theorem FmtGroup.Describes.getNearest_le {group : FmtGroup} {table : FmtDefinitionTable}
    (h : group.Describes table) {id : UInt8} (found : group.getNearest id ≠ 0) :
    table.getRequiredEsN0 (group.getNearest id) ≤ table.getRequiredEsN0 id := by
  unfold getNearest at found ⊢
  rw [h.modcodDef] at found ⊢
  dsimp only at found ⊢
  split at found
  · exact absurd rfl found
  next known =>
    rw [if_neg known]
    cases nearest : group.fmtIds.reverse.find? (·.esN0 ≤ table.getRequiredEsN0 id) with
    | none =>
        rw [nearest] at found
        exact absurd rfl found
    | some fmtId =>
        have mem := List.mem_reverse.mp (List.mem_of_find?_eq_some nearest)
        have le : fmtId.esN0 ≤ table.getRequiredEsN0 id := by
          simpa using List.find?_some nearest
        rw [h.esN0 fmtId mem] at le
        exact le

/-- The MODCOD of the frame for a packet requires no more than the one that the gateway has for
its terminal. -/
theorem ForwardSchedulingS2.select_le {sts : StFmtSimuList} {fmtGroup : FmtGroup}
    {table : FmtDefinitionTable} {packet : NetPacket} {modcodId : UInt8}
    (describes : fmtGroup.Describes table) (unicast : packet.dstTalId ≠ BROADCAST_TAL_ID)
    (h : select sts fmtGroup packet = .modcod modcodId) :
    table.getRequiredEsN0 modcodId ≤
      table.getRequiredEsN0 (sts.getCurrentModcodId packet.dstTalId) := by
  unfold select at h
  rw [if_neg unicast] at h
  dsimp only at h
  split at h
  · cases h
  · split at h
    · cases h
    · split at h
      · cases h
      · split at h
        · cases h
        next found =>
          cases h
          exact describes.getNearest_le found

/-- The packet of a record is for a terminal for which the gateway had, at that time, a MODCOD
that requires no more than the one that a receiver takes for a C/N. -/
structure Popped.UpToDate (radio : TalRadio) (cn : ℚ) (popped : Popped) : Prop where
  describes : popped.fmtGroup.Describes (radio.tables .s2)
  reported : ∀ packet, popped.elem.elem = some packet → packet.dstTalId ≠ BROADCAST_TAL_ID ∧
    radio.supports (radio.realModcod cn) (popped.sts.getCurrentModcodId packet.dstTalId) = true

namespace ForwardLink

variable {encap : EncapPacketHandler} {radio : TalRadio} {link : ForwardLink}

/-- The amount of data in some frames. -/
def inFrames {M : Type*} [AddCommMonoid M] (payload : NetPacket → M) (link : ForwardLink)
    (frames : List Nat) : M :=
  (frames.map fun f => ((link.bbframes.frame f).packets.map payload).sum).sum

/-- The terminal hears every frame that is sent and got the packets of those that it decoded, in
order; the frames are sent once, in the order in which they were completed. Unless an error was
reported, all of them were sent with the data that were put in them; a packet reaches the terminal
if its frame is heard over the threshold with a C/N that is worth the MODCOD of the terminal at
the gateway; and what arrived is in the FIFOs, skipped for want of a MODCOD, in the frames that
wait, in frames that were not decoded, or at the terminal. -/
structure Delivered {M : Type*} [AddCommMonoid M] (encap : EncapPacketHandler) (radio : TalRadio)
    (payload : NetPacket → M) (link : ForwardLink) : Prop where
  hears : ∃ tal, link.tal = .ok tal
  bursts : link.bursts = link.sent.filterMap (link.burstOf radio)
  once : (link.sent.map (·.frame)).Nodup
  inOrder : link.sent.map (·.frame) <+: link.bbframes.complete.map (·.frame)
  all : link.world.failed = false →
    link.sent.map (·.frame) = link.bbframes.complete.map (·.frame)
  content : link.world.failed = false → ∀ sent ∈ link.sent,
    (link.bbframes.frame sent.frame).packets =
      link.world.sched.popped.filterMap (Popped.dataIn sent.frame)
  reached : link.world.failed = false → ∀ sent ∈ link.sent, ∀ popped ∈ link.world.sched.popped,
    ∀ data up down, popped.dataIn sent.frame = some data → sent.running = true →
      sent.air = .heard up down → popped.UpToDate radio (totalCn radio.computeTotalCn up down) →
      (radio.minimal.updateThreshold radio.tables (link.bbframes.modcod sent.frame)
        bbFrameMessageType).minimalCn ≤ totalCn radio.computeTotalCn up down →
      data ∈ link.bursts.flatten
  conserved : encap.Conserves payload → link.world.failed = false →
    ∑ k ∈ Finset.range link.world.sched.fifos.length, queuePayload payload (link.world.arrived k) =
      ∑ k ∈ Finset.range link.world.sched.fifos.length,
        queuePayload payload (queueAt link.world.sched.fifos k) +
        ((link.world.sched.popped.map (Popped.skippedPayload payload)).sum +
          (inFrames payload link (link.bbframes.pending ++ link.bbframes.incompleteOrdered) +
            (inFrames payload link ((link.sent.filter (! link.decoded radio ·)).map (·.frame)) +
              (link.bursts.flatten.map payload).sum)))

namespace Sound

theorem bursts_eq (sound : link.Sound encap radio) :
    link.bursts = link.sent.filterMap (link.burstOf radio) := by
  obtain ⟨tal, ok, -, bursts⟩ := sound.heard
  rw [ForwardLink.bursts, ok]
  exact bursts

theorem order (sound : link.Sound encap radio) (safe : link.world.failed = false) :
    link.sent.map (·.frame) = link.bbframes.complete.map (·.frame) := by
  rw [sound.sent, sound.all safe]
  exact List.take_of_length_le (List.length_map _).le

theorem content (sound : link.Sound encap radio) (safe : link.world.failed = false)
    {sent : Transmission} (mem : sent ∈ link.sent) :
    (link.bbframes.frame sent.frame).packets =
      link.world.sched.popped.filterMap (Popped.dataIn sent.frame) := by
  obtain ⟨entry, complete, same⟩ := sound.mem_complete mem
  rw [← same]
  exact (sound.world.packed safe).framed _ (sound.world.filed.complete_lt complete)

/-- A frame whose packet is for a terminal of which the gateway knows the MODCOD is decoded. -/
theorem reached (sound : link.Sound encap radio) (safe : link.world.failed = false)
    {sent : Transmission} (mem : sent ∈ link.sent) {popped : Popped}
    (among : popped ∈ link.world.sched.popped) {data : NetPacket} {up down : ℚ}
    (put : popped.dataIn sent.frame = some data) (running : sent.running = true)
    (air : sent.air = .heard up down)
    (upToDate : popped.UpToDate radio (totalCn radio.computeTotalCn up down))
    (clear : (radio.minimal.updateThreshold radio.tables (link.bbframes.modcod sent.frame)
      bbFrameMessageType).minimalCn ≤ totalCn radio.computeTotalCn up down) :
    data ∈ link.bursts.flatten := by
  have inFrame : data ∈ (link.bbframes.frame sent.frame).packets := by
    rw [sound.content safe mem]
    exact List.mem_filterMap.mpr ⟨popped, among, put⟩
  have supported : radio.supports
      (radio.realModcod (totalCn radio.computeTotalCn up down))
      (link.bbframes.modcod sent.frame) = true := by
    obtain ⟨-, packet, elem, why⟩ := (sound.world.packed safe).explained popped among
    obtain ⟨unicast, reported⟩ := upToDate.reported packet elem
    rw [Popped.dataIn] at put
    split at put
    · cases put
    next g data' remaining outcome =>
      rw [outcome] at why
      split at put
      next same =>
        subst same
        have le := ForwardSchedulingS2.select_le upToDate.describes unicast why.2.1
        exact decide_eq_true (le.trans (of_decide_eq_true reported))
      next => cases put
  have decoded : link.decoded radio sent = true := by
    have kept : isToBeModifiedPacket (totalCn radio.computeTotalCn up down)
        (radio.minimal.updateThreshold radio.tables (link.bbframes.modcod sent.frame)
          bbFrameMessageType).minimalCn = false := decide_eq_false clear.not_gt
    rw [ForwardLink.decoded, running, air, TalRadio.decodes, kept, supported]
    rfl
  rw [sound.bursts_eq]
  refine List.mem_flatten.mpr ⟨_, List.mem_filterMap.mpr ⟨sent, mem, ?_⟩, inFrame⟩
  rw [burstOf, decoded, BBFrame.burst, if_pos ⟨rfl, List.ne_nil_of_mem inFrame⟩]

/-- The packets of a burst are the ones of the frame. -/
theorem burst_flatten (frame : BBFrame) (decoded : Bool) :
    (frame.burst decoded).toList.flatten = if decoded = true then frame.packets else [] := by
  rw [BBFrame.burst]
  cases decoded with
  | false => rfl
  | true =>
      by_cases empty : frame.packets = []
      · rw [if_neg fun given => given.2 empty, if_pos rfl, empty]
        rfl
      · rw [if_pos ⟨rfl, empty⟩, if_pos rfl]
        exact List.append_nil _

/-- What the frames that were sent hold is in the ones that were not decoded or at the
terminal. -/
theorem inFrames_sent {M : Type*} [AddCommMonoid M] (payload : NetPacket → M)
    (sent : List Transmission) : inFrames payload link (sent.map (·.frame)) =
      inFrames payload link ((sent.filter (! link.decoded radio ·)).map (·.frame)) +
        ((sent.filterMap (link.burstOf radio)).flatten.map payload).sum := by
  induction sent with
  | nil => simp [inFrames]
  | cons sent later ih =>
      have cons : ∀ f frames, inFrames payload link (f :: frames) =
          ((link.bbframes.frame f).packets.map payload).sum + inFrames payload link frames :=
        fun _ _ => List.sum_cons
      have bursts : ((sent :: later).filterMap (link.burstOf radio)).flatten =
          (link.burstOf radio sent).toList.flatten ++
            (later.filterMap (link.burstOf radio)).flatten := by
        rw [List.filterMap_cons]
        cases link.burstOf radio sent <;> simp
      rw [List.map_cons, cons, ih, bursts, burstOf, burst_flatten, List.map_append, List.sum_append]
      cases decoded : link.decoded radio sent with
      | true =>
          rw [List.filter_cons_of_neg (by simp [decoded]), if_pos rfl]
          exact add_left_comm _ _ _
      | false =>
          rw [List.filter_cons_of_pos (by simp [decoded]), if_neg Bool.false_ne_true, List.map_cons,
            cons, List.map_nil, List.sum_nil, zero_add, add_assoc]

theorem conserved {M : Type*} [AddCommMonoid M] {payload : NetPacket → M}
    (sound : link.Sound encap radio) (conserves : encap.Conserves payload)
    (safe : link.world.failed = false) :
    ∑ k ∈ Finset.range link.world.sched.fifos.length, queuePayload payload (link.world.arrived k) =
      ∑ k ∈ Finset.range link.world.sched.fifos.length,
        queuePayload payload (queueAt link.world.sched.fifos k) +
        ((link.world.sched.popped.map (Popped.skippedPayload payload)).sum +
          (inFrames payload link (link.bbframes.pending ++ link.bbframes.incompleteOrdered) +
            (inFrames payload link ((link.sent.filter (! link.decoded radio ·)).map (·.frame)) +
              (link.bursts.flatten.map payload).sum))) := by
  have frames : ∑ f ∈ Finset.range link.bbframes.allocated,
        ((link.bbframes.frame f).packets.map payload).sum =
      inFrames payload link (link.bbframes.pending ++ link.bbframes.incompleteOrdered) +
        inFrames payload link (link.sent.map (·.frame)) := by
    have listed : ∑ f ∈ Finset.range link.bbframes.allocated,
        ((link.bbframes.frame f).packets.map payload).sum =
          inFrames payload link (List.range link.bbframes.allocated) := rfl
    rw [listed, inFrames, ← (sound.world.filed.placed.map _).sum_eq, List.append_assoc,
      List.map_append, List.sum_append, sound.order safe, add_comm]
    rfl
  rw [(sound.world.packed safe).payload_eq conserves, frames, inFrames_sent, sound.bursts_eq]

end Sound

/-- **The forward link delivers**, in every state of every run, to a terminal that knows the
packets of the gateway. -/
theorem allStates_delivered {M : Type*} [AddCommMonoid M] (payload : NetPacket → M)
    (makes : encap.MakesOwn radio.handler) (terminal : radio.isGw radio.talId = false)
    (fifos : List (DvbFifo NetPacket)) (carriersGroups : List (List CarriersGroupDama))
    (events : List LinkEvent) :
    AllStates (step encap radio) (Delivered encap radio payload)
      (start radio fifos carriersGroups) events := by
  refine (allStates_sound makes terminal fifos carriersGroups events).mono fun link sound => ?_
  have prefixed : link.sent.map (·.frame) <+: link.bbframes.complete.map (·.frame) := by
    rw [sound.sent]
    exact List.take_prefix _ _
  have nodup := sound.world.filed.placed.nodup_iff.mpr List.nodup_range
  rw [List.append_assoc] at nodup
  obtain ⟨tal, ok, -⟩ := sound.heard
  exact {
    hears := ⟨tal, ok⟩
    bursts := sound.bursts_eq
    once := prefixed.sublist.nodup (List.nodup_append.mp nodup).1
    inOrder := prefixed
    all := sound.order
    content := fun safe _ => sound.content safe
    reached := fun safe _ mem _ among _ _ _ => sound.reached safe mem among
    conserved := sound.conserved }

/-- A terminal with the MODCODs of the examples. -/
def sampleRadio : TalRadio where
  talId := 1
  isGw := (· = 0)
  tables := fun _ => sampleFmts
  acmLoopMarginDb := 0
  minimal := ⟨true, 0⟩
  computeTotalCn := min
  handler := .twoBytes

def sampleEvents : List LinkEvent :=
  [.logon, .superframe ⟨[(0, sampleElement 1 10)], ⟨0, 0, [(1, 1)]⟩, 10⟩ fun _ => .heard 5 4]

/-- A packet of ten bytes gets to the terminal. -/
theorem sampleEvents_delivered :
    AllStates (step .lengthFirst sampleRadio)
      (Delivered .lengthFirst sampleRadio fun packet => packet.data.length)
      (start sampleRadio [.new (.forward .acm) 0 100] [[sampleCarriers [1] 100000]])
      sampleEvents ∧
    (run (step .lengthFirst sampleRadio)
      (start sampleRadio [.new (.forward .acm) 0 100] [[sampleCarriers [1] 100000]])
      sampleEvents).any (fun link => link.bursts.map (·.map (·.data.length)) = [[12]]) = true :=
  ⟨allStates_delivered _ EncapPacketHandler.lengthFirst_makesOwn rfl _ _ _, by decide +kernel⟩

end ForwardLink

end OpenSand
