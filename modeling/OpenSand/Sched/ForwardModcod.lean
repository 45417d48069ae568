import OpenSand.Sched.ForwardConservation

/-!
The MODCODs of the frames emitted on the forward carriers.

The MODCOD of a frame given to the caller should be one of the carriers that the frame
was scheduled on. The packet loop and the pending frames see to it. The incomplete
frames that fill the capacity left are not checked, so the property holds exactly as
long as none of those that are emitted there has the MODCOD of other carriers.
-/

namespace OpenSand

open OpenSand.Run

/-! ### Moves -/

/-- The MODCODs of the complete frames suit the carriers they were scheduled on. -/
def BBFrames.Suits (suits : Nat × Nat → UInt8 → Prop) (bbframes : BBFrames) : Prop :=
  ∀ entry ∈ bbframes.complete, suits entry.carriers (bbframes.modcod entry.frame)

/-- Complete frames are never taken back and a frame keeps its MODCOD. -/
structure BBFrames.Grows (bbframes bbframes' : BBFrames) : Prop where
  complete : ∃ later, bbframes'.complete = bbframes.complete ++ later
  allocated : bbframes.allocated ≤ bbframes'.allocated
  modcod : ∀ f < bbframes.allocated, bbframes'.modcod f = bbframes.modcod f

theorem BBFrames.Filed.complete_lt {table : FmtDefinitionTable} {bbframes : BBFrames}
    {entry : CompleteFrame} (h : bbframes.Filed table) (mem : entry ∈ bbframes.complete) :
    entry.frame < bbframes.allocated :=
  h.lt_of_mem (List.mem_append_left _ (List.mem_append_left _ (List.mem_map_of_mem mem)))

namespace BBFrames.Grows

variable {table : FmtDefinitionTable} {bbframes bbframes' bbframes'' : BBFrames}

theorem refl (bbframes : BBFrames) : bbframes.Grows bbframes :=
  ⟨⟨[], (List.append_nil _).symm⟩, le_rfl, fun _ _ => rfl⟩

theorem trans (h : bbframes.Grows bbframes') (h' : bbframes'.Grows bbframes'') :
    bbframes.Grows bbframes'' where
  complete := by
    obtain ⟨later, first⟩ := h.complete
    obtain ⟨last, second⟩ := h'.complete
    refine ⟨later ++ last, ?_⟩
    rw [second, first, List.append_assoc]
  allocated := h.allocated.trans h'.allocated
  modcod f lt := (h'.modcod f (lt.trans_le h.allocated)).trans (h.modcod f lt)

/-- Frames that suit their carriers in the end suited them before. -/
theorem suits_back {suits : Nat × Nat → UInt8 → Prop} (h : bbframes.Grows bbframes')
    (filed : bbframes.Filed table) (after : bbframes'.Suits suits) : bbframes.Suits suits := by
  intro entry mem
  obtain ⟨later, complete⟩ := h.complete
  have mem' : entry ∈ bbframes'.complete := by
    rw [complete]
    exact List.mem_append_left _ mem
  rw [← h.modcod entry.frame (filed.complete_lt mem)]
  exact after entry mem'

end BBFrames.Grows

section Moves

variable {link : S2Link} {position : Nat × Nat} {licence : Licence} {s s' : Serving}

theorem Move.grows (move : Move link position licence s s') : s.bbframes.Grows s'.bbframes := by
  cases move with
  | create =>
      refine ⟨⟨[], (List.append_nil _).symm⟩, Nat.le_succ _, fun f lt => ?_⟩
      rw [BBFrames.createIncompleteBBFrame_modcod, if_neg (Nat.ne_of_lt lt)]
  | encap _ _ _ _ _ _ _ _ added =>
      refine ⟨⟨[], ?_⟩, ?_, fun f _ => BBFrames.addData_modcod added f⟩
      · rw [BBFrames.addData_eq added, List.append_nil]
      · rw [BBFrames.addData_eq added]
  | complete => exact ⟨⟨_, rfl⟩, le_rfl, fun _ _ => rfl⟩
  | resume => exact ⟨⟨_, rfl⟩, le_rfl, fun _ _ => rfl⟩
  | pend => exact ⟨⟨[], (List.append_nil _).symm⟩, le_rfl, fun _ _ => rfl⟩
  | forget => exact ⟨⟨[], (List.append_nil _).symm⟩, le_rfl, fun _ _ => rfl⟩
  | skip => exact .refl _
  | lose => exact .refl _
  | capacity => exact .refl _
  | carriers => exact .refl _

theorem Evolves.grows (evolves : Evolves link position licence s s') :
    s.bbframes.Grows s'.bbframes := by
  refine evolves.keeps (P := fun s' => s.bbframes.Grows s'.bbframes) ?_ (.refl _)
  intro mid mid' before move
  exact before.trans move.grows

/-- A frame that is added suits its carriers. -/
theorem BBFrames.Suits.add {suits : Nat × Nat → UInt8 → Prop} {bbframes bbframes' : BBFrames}
    {f sizeSym : Nat} (h : bbframes.Suits suits)
    (complete : bbframes'.complete = bbframes.complete ++ [⟨f, position, sizeSym⟩])
    (frame : bbframes'.frame = bbframes.frame) (own : suits position (bbframes.modcod f)) :
    bbframes'.Suits suits := by
  intro entry mem
  rw [BBFrames.modcod, frame]
  rw [complete] at mem
  rcases List.mem_append.mp mem with old | new
  · exact h entry old
  · rw [List.mem_singleton.mp new]
    exact own

theorem Move.suits {suits : Nat × Nat → UInt8 → Prop}
    (own : ∀ modcodId, licence.serves modcodId → suits position modcodId)
    (filed : s.bbframes.Filed link.modcodDef) (h : s.bbframes.Suits suits)
    (move : Move link position licence s s') : s'.bbframes.Suits suits := by
  cases move with
  | create =>
      intro entry mem
      rw [BBFrames.createIncompleteBBFrame_modcod, if_neg (Nat.ne_of_lt (filed.complete_lt mem))]
      exact h entry mem
  | encap _ _ _ _ _ _ _ _ added =>
      intro entry mem
      rw [BBFrames.addData_modcod added]
      rw [BBFrames.addData_eq added] at mem
      exact h entry mem
  | complete _ _ _ suitable => exact h.add rfl rfl (own _ suitable)
  | resume _ _ _ suitable => exact h.add rfl rfl (own _ suitable)
  | pend => exact h
  | forget => exact h
  | skip => exact h
  | lose => exact h
  | capacity => exact h
  | carriers => exact h

theorem Evolves.suits {suits : Nat × Nat → UInt8 → Prop}
    (evolves : Evolves link position licence s s')
    (own : ∀ modcodId, licence.serves modcodId → suits position modcodId)
    (keeps : ¬ licence.forget) (filed : s.bbframes.Filed link.modcodDef)
    (h : s.bbframes.Suits suits) : s'.bbframes.Suits suits := by
  refine (evolves.keeps (P := fun s => s.bbframes.Filed link.modcodDef ∧
    s.bbframes.Suits suits) ?_ ⟨filed, h⟩).2
  rintro s s' ⟨filed, suitable⟩ move
  exact ⟨move.filed keeps filed, move.suits own filed suitable⟩

end Moves

/-! ### Some carriers -/

namespace ForwardSchedulingS2

/-- The FMTs of the carriers at a position. -/
def fmtIdsAt (sched : ForwardSchedulingS2) (position : Nat × Nat) : List UInt8 :=
  (sched.vcm position).elim [] fun (_, carriers) => carriers.getFmtIds

/-- Every frame emitted has a MODCOD of the carriers it was scheduled on. -/
def Admissible (sched : ForwardSchedulingS2) : Prop :=
  sched.bbframes.Suits fun position modcodId => modcodId ∈ sched.fmtIdsAt position

/-- The incomplete frames that the capacity left by the FIFOs on some carriers is enough
for have MODCODs of these carriers. -/
def FlushesOwn (handler : EncapPacketHandler) (table : FmtDefinitionTable) (fuel : Nat)
    (call : SchedCall) (sched : ForwardSchedulingS2) (position : Nat × Nat) : Prop :=
  ∀ vcmCarriers carriers s, sched.vcm position = some (vcmCarriers, carriers) →
    fifosOn handler table fuel call sched position vcmCarriers carriers = some (true, s) →
      ∀ f ∈ flushable (s.bbframes.sizeSym table) s.bbframes.incompleteOrdered s.capacitySym,
        s.bbframes.modcod f ∈ carriers.getFmtIds

variable {handler : EncapPacketHandler} {table : FmtDefinitionTable} {call : SchedCall}
  {sched sched' : ForwardSchedulingS2} {fuel vcmCarriers : Nat} {position : Nat × Nat}
  {carriers : CarriersGroupDama} {ok : Bool}

theorem fmtIdsAt_store {s : Serving}
    (found : sched.vcm position = some (vcmCarriers, carriers))
    (same : carriers.SameGroup s.carriers) : (sched.store position s).fmtIdsAt = sched.fmtIdsAt := by
  funext p
  rw [fmtIdsAt, fmtIdsAt]
  by_cases own : p = position
  · rw [own, store_vcm_self found, found]
    exact same.getFmtIds
  · rw [store_vcm_of_ne own]

theorem fmtIdsAt_resetRemaining : (sched.resetRemaining call).fmtIdsAt = sched.fmtIdsAt := by
  funext p
  rw [fmtIdsAt, fmtIdsAt]
  rw [resetRemaining_vcm]
  cases sched.vcm p with
  | none => rfl
  | some found => rfl

/-- What a call on some carriers keeps, whatever the frames it emits. -/
theorem serve_grows (filed : sched.bbframes.Filed table)
    (h : serve handler table fuel call sched position = some (ok, sched')) :
    sched.bbframes.Grows sched'.bbframes ∧ sched'.fmtIdsAt = sched.fmtIdsAt := by
  obtain ⟨_, carriers, s, found, rfl, -, evolves⟩ := serve_evolves filed.linked h
  have moved := evolves (.any (ok = false)) id (fun _ _ => trivial) (fun _ _ _ _ => trivial)
  have same : carriers.SameGroup (sched.serving call carriers).carriers :=
    .setRemainingCapacity _ _
  exact ⟨moved.grows, fmtIdsAt_store found (same.trans moved.sameGroup)⟩

theorem serve_back (filed : sched.bbframes.Filed table)
    (h : serve handler table fuel call sched position = some (ok, sched'))
    (after : sched'.Admissible) : sched.Admissible := by
  obtain ⟨grows, fmtIds⟩ := serve_grows filed h
  rw [Admissible, fmtIds] at after
  exact grows.suits_back filed after

/-- The frames that the flush emits suit the carriers when all frames do. -/
theorem flushesOwn_of_admissible (filed : sched.bbframes.Filed table)
    (h : serve handler table fuel call sched position = some (ok, sched'))
    (after : sched'.Admissible) : FlushesOwn handler table fuel call sched position := by
  intro vcmCarriers carriers s found called f mem
  have fmtIds := (serve_grows filed h).2
  rw [Admissible, fmtIds] at after
  rw [serve_flushed found called h] at after
  have fine : true = false → (Licence.any False).lose := nofun
  have first : Evolves (link handler table) position (.any False)
      (sched.serving call carriers) s :=
    forwardFifos_evolves filed.linked (fun _ _ => trivial) fine called
  have linked := first.linked filed.linked
  have flushed : Evolves (link handler table) position (.any False) s
      (s.forwardFlush (link handler table) call position (initialCapacities call carriers).1).2 :=
    forwardFlush_evolves linked fun _ _ => trivial
  obtain ⟨completed, complete, frames, own⟩ := @forwardFlush_complete handler table call position s
    (initialCapacities call carriers).1
  rw [← frames] at mem
  obtain ⟨entry, added, rfl⟩ := List.mem_map.mp mem
  have suits := after entry (by
    dsimp only [store]
    rw [complete]
    exact List.mem_append_right _ added)
  have held := mem_of_mem_flushable (frames ▸ mem)
  have modcod := flushed.grows.modcod entry.frame (linked.incomplete_lt held)
  rw [own entry added, fmtIdsAt, found] at suits
  rw [← modcod]
  exact suits

/-- A call on some carriers keeps the frames admissible exactly when the flush does. -/
theorem serve_admissible_iff (filed : sched.bbframes.Filed table) (admissible : sched.Admissible)
    (h : serve handler table fuel call sched position = some (ok, sched')) :
    sched'.Admissible ↔ FlushesOwn handler table fuel call sched position := by
  refine ⟨flushesOwn_of_admissible filed h, fun flushes => ?_⟩
  have fmtIds := (serve_grows filed h).2
  obtain ⟨vcmCarriers, carriers, s, found, rfl, -, evolves⟩ := serve_evolves filed.linked h
  have own : ∀ modcodId ∈ carriers.getFmtIds, modcodId ∈ sched.fmtIdsAt position := by
    intro modcodId mem
    rw [fmtIdsAt, found]
    exact mem
  have moved := evolves ⟨(· ∈ carriers.getFmtIds), True, False, False⟩ (fun _ => trivial)
    (fun _ mem => mem) (fun s called => flushes vcmCarriers carriers s found called)
  rw [Admissible, fmtIds]
  exact moved.suits own id filed admissible

/-- A call of the scheduling keeps the frames admissible exactly when every flush does. -/
theorem schedule_admissible_iff (filed : sched.bbframes.Filed table)
    (admissible : sched.Admissible)
    (h : sched.schedule handler table fuel call = some (ok, sched')) :
    sched'.Admissible ↔ EachCall (serve handler table fuel call)
      (FlushesOwn handler table fuel call) sched sched.positions := by
  obtain ⟨⟨done, mid⟩, looped, eq⟩ := Option.map_eq_some_iff.mp h
  have exact_loop : mid.Admissible ↔ EachCall (serve handler table fuel call)
      (FlushesOwn handler table fuel call) sched sched.positions := by
    refine forEach_iff_eachCall (P := Admissible)
      (Q := fun sched => sched.bbframes.Filed table) ?_ ?_ ?_ filed admissible looped
    · intro s position out filed served
      exact serve_filed filed served
    · intro s position out filed served
      exact serve_back filed served
    · intro s position out filed admissible served
      exact serve_admissible_iff filed admissible served
  rw [← exact_loop]
  cases done with
  | true =>
      cases eq
      rw [Admissible, Admissible, fmtIdsAt_resetRemaining]
      rfl
  | false =>
      cases eq
      rfl

end ForwardSchedulingS2

/-! ### Runs -/

namespace ForwardWorld

open ForwardSchedulingS2

variable {handler : EncapPacketHandler} {table : FmtDefinitionTable}
  {world world' : ForwardWorld} {superframe : Superframe}

/-- In a superframe, the frames that fill the capacity left on some carriers have MODCODs
of these carriers. -/
def StepFlushesOwn (handler : EncapPacketHandler) (table : FmtDefinitionTable)
    (world : ForwardWorld) (superframe : Superframe) : Prop :=
  ∀ state,
    superframe.arrivals.foldlM Arrivals.push ⟨world.sched.fifos, world.arrived⟩ = some state →
      EachCall (serve handler table superframe.fuel superframe.call)
        (FlushesOwn handler table superframe.fuel superframe.call) (world.receive state.fifos)
        (world.receive state.fifos).positions

theorem step_admissible_iff (filed : world.sched.bbframes.Filed table)
    (admissible : world.sched.Admissible)
    (h : world.step handler table superframe = some world') :
    world'.sched.Admissible ↔ StepFlushesOwn handler table world superframe := by
  obtain ⟨state, pushed, h⟩ := Option.bind_eq_some_iff.mp h
  obtain ⟨⟨ok, sched⟩, called, rfl⟩ := Option.map_eq_some_iff.mp h
  have filed' : (world.receive state.fifos).bbframes.Filed table := filed
  have admissible' : (world.receive state.fifos).Admissible := admissible
  refine (schedule_admissible_iff filed' admissible' called).trans ⟨?_, fun flushes => ?_⟩
  · intro calls state' pushed'
    rw [pushed] at pushed'
    cases pushed'
    exact calls
  · exact flushes state pushed

/-- **MODCODs of the emitted frames.** They are those of their carriers in every state of
a run exactly when no superframe fills the capacity left on some carriers with incomplete
frames that have the MODCODs of other ones. -/
theorem allStates_admissible_iff (fifos : List (DvbFifo NetPacket))
    (carriersGroups : List (List CarriersGroupDama)) (superframes : List Superframe) :
    AllStates (step handler table) (fun world => world.sched.Admissible)
        (start fifos carriersGroups) superframes ↔
      AllSteps (step handler table) (StepFlushesOwn handler table)
        (start fifos carriersGroups) superframes := by
  have filed : AllStates (step handler table) (fun world => world.sched.bbframes.Filed table)
      (start fifos carriersGroups) superframes :=
    (allStates_sound fifos carriersGroups superframes).mono fun _ sound => sound.filed
  have init : (start fifos carriersGroups).sched.Admissible := nofun
  refine Iff.trans ⟨fun states => filed.and states, fun states => states.mono fun _ => And.right⟩
    (allStates_iff_allSteps ⟨filed.head, init⟩ ?_)
  rintro world superframe world' ⟨filed, admissible⟩ h
  rw [← step_admissible_iff filed admissible h]
  exact ⟨And.right, fun admissible => ⟨step_filed filed h, admissible⟩⟩

/-- A frame of MODCOD 1, too long for the carriers of MODCOD 1, is emitted on those of
MODCOD 2. -/
theorem incompleteFrame_not_admissible :
    ¬ AllStates (step .fragmenting sampleFmts) (fun world => world.sched.Admissible)
      (start [.new (.forward .acm) 0 100] [[sampleCarriers [1] 100], [sampleCarriers [2] 100000]])
      [⟨[(0, sampleElement 1 10)], ⟨0, 0, [(1, 1)]⟩, 10⟩] := by
  intro states
  have survived : (run (step .fragmenting sampleFmts)
      (start [.new (.forward .acm) 0 100] [[sampleCarriers [1] 100], [sampleCarriers [2] 100000]])
      [⟨[(0, sampleElement 1 10)], ⟨0, 0, [(1, 1)]⟩, 10⟩]).any (fun world =>
        world.sched.bbframes.complete.any fun entry =>
          world.sched.bbframes.modcod entry.frame ∉ world.sched.fmtIdsAt entry.carriers) = true := by
    decide +kernel
  obtain ⟨world, ends, emitted⟩ := (Option.any_eq_true _ _).mp survived
  obtain ⟨entry, mem, other⟩ := List.any_eq_true.mp emitted
  exact of_decide_eq_true other (states.last ends entry mem)

end ForwardWorld

end OpenSand
