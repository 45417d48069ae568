import OpenSand.Lan.BlockLanAdaptation

/-!
What the SARP table of an entity learns from the frames of both channels.

Behind its configured entries, the table should hold the addresses of the frames seen, each
with the identifier of the entity when the first frame from it was read on the local
interface, with the source terminal of this frame when it was received; then a gateway takes
the frames for a local host as its own. `sound_iff` says when it is so. What is read on the
local interface is learned with the default identifier of a packet, 0, and not with the one
of the entity.
-/

namespace OpenSand

open Bytes (Data)
open OpenSand.Run

/-! ### Frames seen -/

/-- Where a frame comes from. -/
inductive Origin where
  | readLocally
  | received (srcTalId : Nat)
deriving DecidableEq

/-- The source addresses of the frames seen, the first frame first. -/
abbrev Seen := List (MacAddress × Origin)

/-- Where the first frame from an address comes from. -/
def Seen.first (seen : Seen) (mac : MacAddress) : Option Origin :=
  (seen.find? (·.1 = mac)).map Prod.snd

/-- The next frame is the first one from its address, or changes nothing. -/
theorem Seen.first_append {seen : Seen} {mac mac' : MacAddress} {origin : Origin} :
    Seen.first (seen ++ [(mac, origin)]) mac' =
      if mac = mac' then some ((seen.first mac').getD origin) else seen.first mac' := by
  unfold Seen.first
  rw [List.find?_append]
  cases seen.find? (·.1 = mac') with
  | none =>
      by_cases same : mac = mac'
      · simp [same]
      · simp [same]
  | some frame => simp

theorem Seen.first_of_first {seen : Seen} {mac : MacAddress} {origin : Origin}
    {frame : MacAddress × Origin} (first : seen.first mac = some origin) :
    Seen.first (seen ++ [frame]) mac = some origin := by
  rw [Seen.first_append, first]
  split
  · rfl
  · rfl

/-! ### The machine -/

/-- An entity and the frames it has seen. -/
structure LanEntity where
  upward : Upward
  seen : Seen

inductive LanEvent where
  | fromUp (readData : Data) (enqueueMessage : Bool)
  | fromDown (received : Received) (currentTime : Nat)

namespace LanEvent

/-- The source address of a frame. -/
def srcMac : LanEvent → MacAddress
  | .fromUp readData _ => Ethernet.getSrcMac (readData.drop TUNTAP_FLAGS_LEN)
  | .fromDown received _ => Ethernet.getSrcMac received.packet.data

def origin : LanEvent → Origin
  | .fromUp _ _ => .readLocally
  | .fromDown received _ => .received received.packet.srcTalId

/-- The identifier that a frame is learned with; the frames of the entity itself are not. -/
def learnsAs (own : Nat) : LanEvent → Option Nat
  | .fromUp _ _ => some 0
  | .fromDown received _ =>
      if received.packet.srcTalId = own then none else some received.packet.srcTalId

theorem srcMac_eq_ofBytes (event : LanEvent) : ∃ mac, event.srcMac = .ofBytes mac := by
  cases event with
  | fromUp => exact Ethernet.getSrcMac_eq_ofBytes _
  | fromDown => exact Ethernet.getSrcMac_eq_ofBytes _

/-- Only the frames of the entity itself are not learned. -/
theorem origin_of_learnsAs {event : LanEvent} {ownId : Nat}
    (nothing : event.learnsAs ownId = none) :
    event.origin = .received ownId := by
  cases event with
  | fromUp => cases nothing
  | fromDown received =>
      unfold learnsAs at nothing
      dsimp only at nothing
      split at nothing
      next same => exact congrArg Origin.received same
      next => cases nothing

end LanEvent

namespace LanEntity

/-- An entity whose both parts have the same identifier; no frame is seen yet. -/
def start (upward : Upward) : LanEntity :=
  ⟨{ upward with talId := upward.packetSwitch.talId }, []⟩

/-- A frame is read on the local interface, or received from the satellite. -/
def step (lan : LanContexts) (isPacketForMe : IsPacketForMe) (entity : LanEntity) :
    LanEvent → Option LanEntity
  | .fromUp readData enqueueMessage => some {
      upward := { entity.upward with packetSwitch :=
        (Downward.onMsgFromUp lan entity.upward.packetSwitch readData enqueueMessage).2 }
      seen := entity.seen ++
        [(Ethernet.getSrcMac (readData.drop TUNTAP_FLAGS_LEN), .readLocally)] }
  | .fromDown received currentTime => some {
      upward := entity.upward.treat lan isPacketForMe currentTime received
      seen := entity.seen ++
        [(Ethernet.getSrcMac received.packet.data, .received received.packet.srcTalId)] }

abbrev own (entity : LanEntity) : Nat := entity.upward.packetSwitch.talId

abbrev table (entity : LanEntity) : SarpTable := entity.upward.packetSwitch.sarpTable

/-! ### What the table should hold -/

/-- The entries behind the configured ones are those of the first frames, and the frames for a
local host that is not configured are taken by a gateway. -/
structure Sound (configured : List SarpEthEntry) (entity : LanEntity) : Prop where
  learned : ∀ entry ∈ entity.table.ethSarp.drop configured.length,
    ∃ origin ∈ entity.seen.first entry.mac,
      (origin = .readLocally ∧ entry.talId = entity.own) ∨ origin = .received entry.talId
  recognised : ∀ data forward,
    entity.seen.first (Ethernet.getDstMac data) = some .readLocally →
    (∀ entry ∈ configured, ¬ entry.mac.Matches (Ethernet.getDstMac data)) →
    (GatewayPacketSwitch.isPacketForMe entity.upward.packetSwitch data forward).1 = true

/-- A frame read on the local interface has a known address, or the entity has the identifier
0 while there is room, or there is no room and the address was seen. A frame of another entity
with an unknown address was not seen while there is room. -/
def Sane (entity : LanEntity) (event : LanEvent) : Prop :=
  entity.table.Knows event.srcMac ∨
    if entity.table.ethSarp.length < entity.table.maxEntries then
      match event with
      | .fromUp _ _ => entity.own = 0
      | .fromDown received _ =>
          received.packet.srcTalId = entity.own ∨ entity.seen.first event.srcMac = none
    else
      match event with
      | .fromUp _ _ => entity.seen.first event.srcMac ≠ none
      | .fromDown _ _ => True

instance (entity : LanEntity) (event : LanEvent) : Decidable (entity.Sane event) := by
  unfold Sane
  cases event <;> infer_instance

/-- What ties the table to the frames seen, whether or not it is sound: the entries learned have
no generic byte, and an address seen is in the table, unless it is full or the frame was
rejected as the entity's own. -/
structure Tracks (configured : List SarpEthEntry) (entity : LanEntity) : Prop where
  sameId : entity.upward.talId = entity.own
  entries : ∃ learned, entity.table.ethSarp = configured ++ learned ∧
    ∀ entry ∈ learned, ∃ mac, entry.mac = .ofBytes mac
  kept : ∀ mac origin, entity.seen.first mac = some origin →
    origin = .received entity.own ∨ entity.table.Knows mac ∨
      entity.table.maxEntries ≤ entity.table.ethSarp.length

/-! ### One frame -/

variable {lan : LanContexts} {isPacketForMe : IsPacketForMe} {configured : List SarpEthEntry}
  {entity entity' : LanEntity} {event : LanEvent}

/-- The table after a frame. -/
def tableAfter (entity : LanEntity) (event : LanEvent) : SarpTable :=
  match LanEvent.learnsAs entity.own event with
  | none => entity.table
  | some tal => (entity.table.add (LanEvent.srcMac event) tal).2

/-- All that a step does to what the law speaks of. -/
theorem step_cases (sameId : entity.upward.talId = entity.own)
    (taken : step lan isPacketForMe entity event = some entity') :
    entity'.upward.talId = entity'.own ∧ entity'.own = entity.own ∧
      entity'.table = entity.tableAfter event ∧
      entity'.seen = entity.seen ++ [(LanEvent.srcMac event, LanEvent.origin event)] := by
  cases event with
  | fromUp readData enqueueMessage =>
      cases taken
      refine ⟨?_, ?_, ?_, rfl⟩
      · simp only [own, Downward.onMsgFromUp_snd]
        exact sameId
      · simp only [own, Downward.onMsgFromUp_snd]
      · simp only [table, Downward.onMsgFromUp_snd]
        rfl
  | fromDown received currentTime =>
      cases taken
      by_cases same : received.packet.srcTalId = entity.upward.talId
      · rw [Upward.treat_own same]
        rw [sameId] at same
        refine ⟨sameId, rfl, ?_, rfl⟩
        simp only [tableAfter, LanEvent.learnsAs, if_pos same]
      · obtain ⟨fifo, success, treated⟩ := Upward.treat_other lan isPacketForMe currentTime same
        rw [treated]
        rw [sameId] at same
        simp only [own, table, Upward.learned, PacketSwitch.learn_snd]
        refine ⟨sameId, trivial, ?_, rfl⟩
        simp only [tableAfter, LanEvent.learnsAs, if_neg same]
        rfl

/-- The table finds the entity or everyone for an address. -/
def FindsLocal (table : SarpTable) (own : Nat) (mac : MacAddress) : Prop :=
  table.Knows mac ∧
    ((table.getTalByMac mac).2 = BROADCAST_TAL_ID ∨ (table.getTalByMac mac).2 = own)

theorem isPacketForMe_iff {switch : PacketSwitch} {data : Data} {forward : Bool} :
    (GatewayPacketSwitch.isPacketForMe switch data forward).1 = true ↔
      FindsLocal switch.sarpTable switch.talId (Ethernet.getDstMac data) := by
  unfold GatewayPacketSwitch.isPacketForMe FindsLocal
  rw [← SarpTable.getTalByMac_iff]
  by_cases found : (switch.sarpTable.getTalByMac (Ethernet.getDstMac data)).1 = true
  · simp [found]
  · simp [found]

/-- Any address without generic bytes is the destination of some frame. -/
theorem exists_getDstMac (mac : Fin 6 → UInt8) : ∃ data, Ethernet.getDstMac data = .ofBytes mac := by
  refine ⟨List.ofFn mac, ?_⟩
  rw [Ethernet.getDstMac, if_neg (by simp)]
  congr 1
  funext i
  rw [List.getD_eq_getElem?_getD, List.getElem?_ofFn, dif_pos i.isLt]
  rfl

/-- An address that the table knows is configured or was seen. -/
theorem Tracks.seen_of_knows (tracks : Tracks configured entity) (sound : Sound configured entity)
    {mac : Fin 6 → UInt8} (known : entity.table.Knows (.ofBytes mac)) :
    (∃ entry ∈ configured, entry.mac.Matches (.ofBytes mac)) ∨
      entity.seen.first (.ofBytes mac) ≠ none := by
  obtain ⟨learned, entries, plain⟩ := tracks.entries
  obtain ⟨entry, mem, matching⟩ := known
  rw [entries] at mem
  rcases List.mem_append.mp mem with old | new
  · exact .inl ⟨entry, old, matching⟩
  · right
    obtain ⟨mac', plain⟩ := plain entry new
    have learned : entry ∈ entity.table.ethSarp.drop configured.length := by
      rw [entries, List.drop_left]
      exact new
    obtain ⟨origin, first, -⟩ := sound.learned entry learned
    rw [plain, MacAddress.ofBytes_matches] at matching
    have same : mac' = mac := matching
    rw [plain, same] at first
    rw [first]
    exact Option.some_ne_none _

/-- A later frame does not change what an entry should be. -/
theorem Sound.learned_before (sound : Sound configured entity) (sameOwn : entity'.own = entity.own)
    {frame : MacAddress × Origin} (seen : entity'.seen = entity.seen ++ [frame])
    {entry : SarpEthEntry} (mem : entry ∈ entity.table.ethSarp.drop configured.length) :
    ∃ origin ∈ entity'.seen.first entry.mac,
      (origin = .readLocally ∧ entry.talId = entity'.own) ∨ origin = .received entry.talId := by
  obtain ⟨origin, first, from'⟩ := sound.learned entry mem
  refine ⟨origin, ?_, by rw [sameOwn]; exact from'⟩
  rw [seen]
  exact Seen.first_of_first first

/-- The table knows an address that is read on the local interface first. -/
theorem Sound.knows_of_unseen (tracks : Tracks configured entity) (sound' : Sound configured entity')
    {mac : Fin 6 → UInt8} (sameTable : entity'.table = entity.table)
    (seen : entity'.seen = entity.seen ++ [(.ofBytes mac, .readLocally)])
    (unseen : entity.seen.first (.ofBytes mac) = none) : entity.table.Knows (.ofBytes mac) := by
  by_contra unknown
  obtain ⟨data, dst⟩ := exists_getDstMac mac
  have first : entity'.seen.first (Ethernet.getDstMac data) = some .readLocally := by
    rw [dst, seen, Seen.first_append, if_pos rfl, unseen]
    rfl
  have forMe := sound'.recognised data false first (by
    obtain ⟨learned, entries, -⟩ := tracks.entries
    rintro entry mem matching
    rw [dst] at matching
    exact unknown ⟨entry, by rw [entries]; exact List.mem_append_left _ mem, matching⟩)
  rw [isPacketForMe_iff, dst] at forMe
  have known : entity'.table.Knows (.ofBytes mac) := forMe.1
  rw [sameTable] at known
  exact unknown known

/-- Nothing becomes a local host that was not one, unless its address is configured. -/
theorem Tracks.first_of_same (tracks : Tracks configured entity) (sound : Sound configured entity)
    {mac : Fin 6 → UInt8} {mac' : MacAddress} {origin : Origin}
    (seen : entity'.seen = entity.seen ++ [(.ofBytes mac, origin)])
    (fine : origin = .readLocally → entity.table.Knows (.ofBytes mac) ∨
      entity.seen.first (.ofBytes mac) ≠ none)
    (first : entity'.seen.first mac' = some .readLocally)
    (notConfigured : ∀ entry ∈ configured, ¬ entry.mac.Matches mac') :
    entity.seen.first mac' = some .readLocally := by
  rw [seen, Seen.first_append] at first
  split at first
  next same =>
    subst same
    cases unseen : entity.seen.first (.ofBytes mac) with
    | none =>
        rw [unseen] at first
        obtain rfl := Option.some.inj first
        rcases fine rfl with known | wasSeen
        · rcases tracks.seen_of_knows sound known with ⟨entry, mem, matching⟩ | wasSeen
          · exact absurd matching (notConfigured entry mem)
          · exact absurd unseen wasSeen
        · exact absurd unseen wasSeen
    | some firstOrigin =>
        rw [unseen] at first
        exact first
  next => exact first

/-- A frame that is not learned leaves a sound table sound, unless it is the first one from an
unknown address and is read on the local interface. -/
theorem sound_same_iff (tracks : Tracks configured entity) (sound : Sound configured entity)
    {mac : Fin 6 → UInt8} {origin : Origin} (sameOwn : entity'.own = entity.own)
    (sameTable : entity'.table = entity.table)
    (seen : entity'.seen = entity.seen ++ [(.ofBytes mac, origin)]) :
    Sound configured entity' ↔
      (origin = .readLocally → entity.table.Knows (.ofBytes mac) ∨
        entity.seen.first (.ofBytes mac) ≠ none) := by
  constructor
  · rintro sound' rfl
    by_cases unseen : entity.seen.first (.ofBytes mac) = none
    · exact .inl (sound'.knows_of_unseen tracks sameTable seen unseen)
    · exact .inr unseen
  · intro fine
    constructor
    · intro entry mem
      rw [sameTable] at mem
      exact sound.learned_before sameOwn seen mem
    · intro data forward first notConfigured
      have before := tracks.first_of_same sound seen fine first notConfigured
      have forMe := sound.recognised data forward before notConfigured
      rw [isPacketForMe_iff] at forMe ⊢
      have own' : entity'.upward.packetSwitch.talId = entity.upward.packetSwitch.talId := sameOwn
      have table' : entity'.upward.packetSwitch.sarpTable = entity.upward.packetSwitch.sarpTable :=
        sameTable
      rw [own', table']
      exact forMe

theorem findsLocal_append_self {table : SarpTable} {own tal : Nat} {mac : Fin 6 → UInt8}
    (unknown : ¬ table.Knows (.ofBytes mac)) (local' : tal = own) :
    FindsLocal { table with ethSarp := table.ethSarp ++ [⟨.ofBytes mac, tal⟩] } own
      (.ofBytes mac) := by
  have matching : (MacAddress.ofBytes mac).Matches (.ofBytes mac) :=
    MacAddress.ofBytes_matches.mpr rfl
  refine ⟨SarpTable.knows_append.mpr (.inr matching), ?_⟩
  rw [SarpTable.getTalByMac_append_of_unknown unknown matching]
  exact .inr local'

theorem FindsLocal.append {table : SarpTable} {own : Nat} {mac : MacAddress} {entry : SarpEthEntry}
    (finds : FindsLocal table own mac) :
    FindsLocal { table with ethSarp := table.ethSarp ++ [entry] } own mac := by
  refine ⟨SarpTable.knows_append.mpr (.inl finds.1), ?_⟩
  rw [SarpTable.getTalByMac_append_of_knows finds.1]
  exact finds.2

/-- A frame that is learned leaves a sound table sound exactly when the first frame from its
address has its identifier. -/
theorem sound_append_iff (tracks : Tracks configured entity) (sound : Sound configured entity)
    {mac : Fin 6 → UInt8} {origin : Origin} {tal : Nat} (sameOwn : entity'.own = entity.own)
    (unknown : ¬ entity.table.Knows (.ofBytes mac))
    (added : entity'.table = { entity.table with
      ethSarp := entity.table.ethSarp ++ [⟨.ofBytes mac, tal⟩] })
    (seen : entity'.seen = entity.seen ++ [(.ofBytes mac, origin)]) :
    Sound configured entity' ↔
      ((entity.seen.first (.ofBytes mac)).getD origin = .readLocally ∧ tal = entity.own) ∨
        (entity.seen.first (.ofBytes mac)).getD origin = .received tal := by
  have first : entity'.seen.first (.ofBytes mac) =
      some ((entity.seen.first (.ofBytes mac)).getD origin) := by
    rw [seen, Seen.first_append, if_pos rfl]
  obtain ⟨learned, entries, -⟩ := tracks.entries
  have behind : entity'.table.ethSarp.drop configured.length =
      entity.table.ethSarp.drop configured.length ++ [⟨.ofBytes mac, tal⟩] := by
    rw [added]
    dsimp only
    rw [entries, List.append_assoc, List.drop_left, List.drop_left]
  constructor
  · intro sound'
    obtain ⟨origin', first', from'⟩ := sound'.learned ⟨.ofBytes mac, tal⟩
      (by rw [behind]; exact List.mem_append_right _ (List.mem_singleton_self _))
    rw [first] at first'
    rw [Option.some.inj first']
    rw [sameOwn] at from'
    exact from'
  · intro from'
    constructor
    · intro entry mem
      rw [behind] at mem
      rcases List.mem_append.mp mem with old | new
      · exact sound.learned_before sameOwn seen old
      · rw [List.mem_singleton.mp new, sameOwn]
        exact ⟨_, first, from'⟩
    · intro data forward local' notConfigured
      rw [isPacketForMe_iff]
      have own' : entity'.upward.packetSwitch.talId = entity.upward.packetSwitch.talId := sameOwn
      have table' : entity'.upward.packetSwitch.sarpTable = _ := added
      rw [own', table']
      by_cases same : MacAddress.ofBytes mac = Ethernet.getDstMac data
      · rw [← same, first] at local'
        rw [← same]
        rcases from' with ⟨-, own⟩ | received
        · exact findsLocal_append_self unknown own
        · rw [received] at local'
          cases local'
      · rw [seen, Seen.first_append, if_neg same] at local'
        have forMe := isPacketForMe_iff.mp (sound.recognised data forward local' notConfigured)
        exact forMe.append

/-! ### The law of runs -/

/-- A frame changes the table when it is learned, there is room and its address is unknown. -/
theorem tableAfter_eq : entity.tableAfter event = entity.table ∧
      (event.learnsAs entity.own = none ∨ entity.table.Knows event.srcMac ∨
        entity.table.maxEntries ≤ entity.table.ethSarp.length) ∨
    ∃ tal, event.learnsAs entity.own = some tal ∧ ¬ entity.table.Knows event.srcMac ∧
      entity.table.ethSarp.length < entity.table.maxEntries ∧
      entity.tableAfter event = { entity.table with
        ethSarp := entity.table.ethSarp ++ [⟨event.srcMac, tal⟩] } := by
  unfold tableAfter
  cases learns : event.learnsAs entity.own with
  | none => exact .inl ⟨rfl, .inl rfl⟩
  | some tal =>
      dsimp only
      rw [SarpTable.add_snd]
      split
      next fresh => exact .inr ⟨tal, rfl, fresh.2, fresh.1, rfl⟩
      next stale =>
        refine .inl ⟨rfl, .inr ?_⟩
        by_cases known : entity.table.Knows event.srcMac
        · exact .inl known
        · exact .inr (not_lt.mp fun room => stale ⟨room, known⟩)

/-- The table keeps track of the frames seen. -/
theorem Tracks.step (tracks : Tracks configured entity)
    (taken : step lan isPacketForMe entity event = some entity') :
    Tracks configured entity' := by
  obtain ⟨sameId, sameOwn, table, seen⟩ := step_cases tracks.sameId taken
  obtain ⟨learned, entries, plainEntries⟩ := tracks.entries
  rcases @tableAfter_eq entity event with ⟨same, reason⟩ | ⟨tal, learns, unknown, room, added⟩
  · rw [same] at table
    refine ⟨sameId, ⟨learned, by rw [table]; exact entries, plainEntries⟩, ?_⟩
    intro mac origin first
    rw [sameOwn, table]
    rw [seen, Seen.first_append] at first
    split at first
    next sameMac =>
      cases old : entity.seen.first mac with
      | none =>
          rw [old] at first
          obtain rfl := Option.some.inj first
          rcases reason with nothing | known | full
          · exact .inl (LanEvent.origin_of_learnsAs nothing)
          · exact .inr (.inl (by rw [← sameMac]; exact known))
          · exact .inr (.inr full)
      | some origin' =>
          rw [old] at first
          exact tracks.kept mac origin (old.trans first)
    next => exact tracks.kept mac origin first
  · rw [added] at table
    obtain ⟨plainMac, plain⟩ := event.srcMac_eq_ofBytes
    refine ⟨sameId, ⟨learned ++ [⟨event.srcMac, tal⟩], ?_, ?_⟩, ?_⟩
    · rw [table]
      dsimp only
      rw [entries, List.append_assoc]
    · intro entry mem
      rcases List.mem_append.mp mem with old | new
      · exact plainEntries entry old
      · rw [List.mem_singleton.mp new]
        exact ⟨plainMac, plain⟩
    · intro mac origin first
      rw [sameOwn, table, SarpTable.knows_append]
      rw [seen, Seen.first_append] at first
      split at first
      next sameMac =>
        have matching : event.srcMac.Matches mac := by
          rw [← sameMac, plain, MacAddress.ofBytes_matches]
          rfl
        exact .inr (.inl (.inr matching))
      next =>
        rcases tracks.kept mac origin first with own | known | full
        · exact .inl own
        · exact .inr (.inl (.inl known))
        · exact absurd full (not_le.mpr room)

/-- A frame leaves a sound table sound exactly when it is sane. -/
theorem sound_step_iff (tracks : Tracks configured entity) (sound : Sound configured entity)
    (taken : step lan isPacketForMe entity event = some entity') :
    Sound configured entity' ↔ entity.Sane event := by
  obtain ⟨-, sameOwn, table, seen⟩ := step_cases tracks.sameId taken
  obtain ⟨mac, plain⟩ := event.srcMac_eq_ofBytes
  rcases @tableAfter_eq entity event with ⟨same, reason⟩ | ⟨tal, learns, unknown, room, added⟩
  · rw [plain] at seen reason
    rw [sound_same_iff tracks sound sameOwn (table.trans same) seen]
    unfold Sane
    rw [plain]
    by_cases known : entity.table.Knows (.ofBytes mac)
    · exact iff_of_true (fun _ => .inl known) (.inl known)
    · rw [or_iff_right known, or_iff_right known]
      cases event with
      | fromUp =>
          have full := (reason.resolve_left nofun).resolve_left known
          rw [if_neg (not_lt.mpr full)]
          exact ⟨fun fine => fine rfl, fun wasSeen _ => wasSeen⟩
      | fromDown received =>
          refine iff_of_true nofun ?_
          rcases reason with nothing | known' | full
          · have own := Origin.received.inj (LanEvent.origin_of_learnsAs nothing)
            split
            · exact .inl own
            · trivial
          · exact absurd known' known
          · rw [if_neg (not_lt.mpr full)]
            trivial
  · rw [plain] at seen unknown added
    rw [sound_append_iff tracks sound sameOwn unknown (table.trans added) seen]
    unfold Sane
    rw [plain, or_iff_right unknown, if_pos room]
    have old : ∀ origin, entity.seen.first (.ofBytes mac) = some origin →
        origin = .received entity.own := by
      intro origin first
      rcases tracks.kept _ origin first with own | known | full
      · exact own
      · exact absurd known unknown
      · exact absurd full (not_le.mpr room)
    cases event with
    | fromUp =>
        cases learns
        cases first : entity.seen.first (.ofBytes mac) with
        | none => simp [LanEvent.origin, eq_comm]
        | some origin =>
            rw [old origin first]
            simp [eq_comm]
    | fromDown received =>
        unfold LanEvent.learnsAs at learns
        dsimp only at learns
        split at learns
        next => cases learns
        next other =>
          cases learns
          cases first : entity.seen.first (.ofBytes mac) with
          | none => simp [LanEvent.origin]
          | some origin =>
              rw [old origin first]
              simp [other, Ne.symm other]

theorem tracks_start (upward : Upward) :
    Tracks upward.packetSwitch.sarpTable.ethSarp (start upward) :=
  ⟨rfl, ⟨[], (List.append_nil _).symm, nofun⟩, nofun⟩

theorem sound_start (upward : Upward) :
    Sound upward.packetSwitch.sarpTable.ethSarp (start upward) := by
  refine ⟨fun entry mem => ?_, nofun⟩
  have mem' : entry ∈ upward.packetSwitch.sarpTable.ethSarp.drop
    upward.packetSwitch.sarpTable.ethSarp.length := mem
  rw [List.drop_length] at mem'
  cases mem'

/-- **Learning.** Along any interleaving of frames read on the local interface and frames
received, the table is sound exactly when every frame is sane. -/
theorem sound_iff (lan : LanContexts) (isPacketForMe : IsPacketForMe) (upward : Upward)
    (events : List LanEvent) :
    AllStates (step lan isPacketForMe) (Sound upward.packetSwitch.sarpTable.ethSarp)
        (start upward) events ↔
      AllSteps (step lan isPacketForMe) Sane (start upward) events := by
  have exact_step : ∀ entity event entity',
      (Tracks upward.packetSwitch.sarpTable.ethSarp entity ∧
        Sound upward.packetSwitch.sarpTable.ethSarp entity) →
      step lan isPacketForMe entity event = some entity' →
      ((Tracks upward.packetSwitch.sarpTable.ethSarp entity' ∧
        Sound upward.packetSwitch.sarpTable.ethSarp entity') ↔ entity.Sane event) := by
    rintro entity event entity' ⟨tracks, sound⟩ taken
    rw [← sound_step_iff tracks sound taken, and_iff_right (tracks.step taken)]
  rw [← allStates_iff_allSteps ⟨tracks_start upward, sound_start upward⟩ exact_step]
  constructor
  · intro states
    have tracked : AllStates (step lan isPacketForMe)
        (Tracks upward.packetSwitch.sarpTable.ethSarp) (start upward) events :=
      allStates_of_step (tracks_start upward) fun _ _ _ kept taken => kept.step taken
    exact tracked.and states
  · exact fun states => states.mono fun _ both => both.2

/-- A gateway of identifier 1 that knows no address. -/
def freshGateway : Upward := ⟨1, ⟨1, ⟨50, [], 255⟩⟩, 0, [], 10, true, [], []⟩

/-- A frame of host 7 for host 9, behind its TAP header. -/
def localFrame : Data :=
  List.replicate 4 0 ++ List.replicate 6 9 ++ List.replicate 6 7 ++ [8, 0]

/-- Contexts that leave the frames as they are. -/
def plainLan : LanContexts := ⟨some, some, fun _ _ => 0⟩

/-- The host is learned with the identifier 0. -/
theorem local_host_not_sound :
    ¬ AllStates (step plainLan GatewayPacketSwitch.isPacketForMe)
      (Sound freshGateway.packetSwitch.sarpTable.ethSarp) (start freshGateway)
      [.fromUp localFrame true] := by
  intro states
  have taken : step plainLan GatewayPacketSwitch.isPacketForMe (start freshGateway)
      (.fromUp localFrame true) = some _ := rfl
  have sane := (sound_step_iff (tracks_start freshGateway) (sound_start freshGateway) taken).mp
    (states.2 _ taken).head
  exact absurd sane (by decide +kernel)

end LanEntity

end OpenSand
