import OpenSand.Sched.Capacity
import OpenSand.Sched.ForwardConservation

/-!
The capacity of the forward carriers.

A superframe adds the total capacity of the carriers, and what it leaves is carried to
the next one, so the symbols emitted over a run are bounded by an amortised argument.
-/

namespace OpenSand

open OpenSand.Run OpenSand.Word

/-! ### A call of the scheduling -/

namespace ForwardSchedulingS2

variable {handler : EncapPacketHandler} {table : FmtDefinitionTable} {call : SchedCall}
  {sched sched' : ForwardSchedulingS2} {fuel vcmCarriers : Nat} {position : Nat × Nat}
  {carriers : CarriersGroupDama}

/-- The capacity that carriers start a superframe with, unless it exceeds 32 bits. -/
def carryOver (call : SchedCall) (carriers : CarriersGroupDama) : Nat :=
  carriers.remainingCapacity + carriers.getPreviousCapacity call.superframe

theorem initialCapacities_le (call : SchedCall) (carriers : CarriersGroupDama) :
    (initialCapacities call carriers).1 ≤
        carriers.getTotalCapacity + carriers.remainingCapacity ∧
      (initialCapacities call carriers).2 ≤
        carriers.getTotalCapacity + carryOver call carriers := by
  have first : (initialCapacities call carriers).1 ≤
      carriers.getTotalCapacity + carriers.remainingCapacity := Nat.mod_le _ _
  have second : (initialCapacities call carriers).2 ≤
      (initialCapacities call carriers).1 + carriers.getPreviousCapacity call.superframe :=
    Nat.mod_le _ _
  refine ⟨first, second.trans ?_⟩
  rw [carryOver]
  omega

/-- The state of some carriers in a call of the scheduling, before and after. -/
structure Spent (call : SchedCall) (position : Nat × Nat) (sched sched' : ForwardSchedulingS2)
    (carriers carriers' : CarriersGroupDama) : Prop where
  total : carriers'.getTotalCapacity = carriers.getTotalCapacity
  own : sched'.bbframes.emitted position + carriers'.remainingCapacity ≤
    sched.bbframes.emitted position + carriers.getTotalCapacity + carryOver call carriers
  left : carriers'.remainingCapacity ≤ carriers.getTotalCapacity + carriers.remainingCapacity

theorem serve_spent (filed : sched.bbframes.Filed table)
    (found : sched.vcm position = some (vcmCarriers, carriers))
    (h : serve handler table fuel call sched position = some (true, sched')) :
    ∃ carriers', sched'.vcm position = some (vcmCarriers, carriers') ∧
      Spent call position sched sched' carriers carriers' := by
  obtain ⟨_, _, s, found', rfl, remaining, evolves⟩ := serve_evolves filed.linked h
  rw [found] at found'
  cases found'
  have moved := evolves (.any False) nofun (fun _ _ => trivial) (fun _ _ _ _ => trivial)
  have spends := (moved.spends id).own
  have same := moved.sameGroup
  have left := remaining rfl
  obtain ⟨init, start⟩ := initialCapacities_le call carriers
  refine ⟨s.carriers, store_vcm_self found s, ?_, ?_, ?_⟩
  · rw [CarriersGroupDama.getTotalCapacity, same.capacitySym, same.carriersNumber]
    rfl
  · rw [left]
    dsimp only [serving, store] at spends ⊢
    omega
  · rw [left]
    exact (min_le_right _ _).trans init

/-- Carriers are not concerned when other ones are served. -/
theorem serve_others {p : Nat × Nat} (other : p ≠ position) (filed : sched.bbframes.Filed table)
    (h : serve handler table fuel call sched position = some (true, sched')) :
    sched'.vcm p = sched.vcm p ∧ sched'.bbframes.emitted p = sched.bbframes.emitted p := by
  obtain ⟨_, carriers, s, -, rfl, -, evolves⟩ := serve_evolves filed.linked h
  have moved := evolves (.any False) nofun (fun _ _ => trivial) (fun _ _ _ _ => trivial)
  exact ⟨store_vcm_of_ne other s, (moved.spends id).others p other⟩

theorem serve_others_loop {p : Nat × Nat} {positions : List (Nat × Nat)} (other : p ∉ positions)
    (filed : sched.bbframes.Filed table)
    (h : forEach (serve handler table fuel call) sched positions = some (true, sched')) :
    sched'.bbframes.Filed table ∧ sched'.vcm p = sched.vcm p ∧
      sched'.bbframes.emitted p = sched.bbframes.emitted p := by
  refine forEach_keeps_of_true (P := fun s => s.bbframes.Filed table ∧
    s.vcm p = sched.vcm p ∧ s.bbframes.emitted p = sched.bbframes.emitted p)
      ?_ ⟨filed, rfl, rfl⟩ h
  rintro s q s' mem ⟨filed, vcm, emitted⟩ served
  have ne : p ≠ q := by
    rintro rfl
    exact other mem
  obtain ⟨vcm', emitted'⟩ := serve_others ne filed served
  exact ⟨serve_filed filed served, vcm'.trans vcm, emitted'.trans emitted⟩

/-- A superframe emits at most the total capacity and what was carried to it, and what
it does not use is carried to the next one. -/
theorem schedule_spent (filed : sched.bbframes.Filed table)
    (found : sched.vcm position = some (vcmCarriers, carriers))
    (h : sched.schedule handler table fuel call = some (true, sched')) :
    ∃ carriers', sched'.vcm position = some (vcmCarriers, carriers') ∧
      carriers'.getTotalCapacity = carriers.getTotalCapacity ∧
      carriers'.remainingCapacity = 0 ∧
      carriers'.previousCapacity ≤ carriers.getTotalCapacity + carriers.remainingCapacity ∧
      sched'.bbframes.emitted position + carriers'.previousCapacity ≤
        sched.bbframes.emitted position + carriers.getTotalCapacity + carryOver call carriers := by
  obtain ⟨⟨done, mid⟩, looped, eq⟩ := Option.map_eq_some_iff.mp h
  cases done with
  | false => cases eq
  | true =>
      cases eq
      obtain ⟨before, after, split, notBefore, notAfter⟩ :=
        Grid.positions_split (mem_positions found)
      rw [positions, split] at looped
      -- The carriers are served once, between other ones.
      obtain ⟨first, begun, rest⟩ := forEach_append.mp looped
      obtain ⟨filed₁, vcm₁, emitted₁⟩ := serve_others_loop notBefore filed begun
      obtain ⟨⟨ok, second⟩, served, ⟨rfl, rest⟩ | ⟨rfl, stop⟩⟩ := forEach_cons.mp rest
      · rw [found] at vcm₁
        obtain ⟨carriers', found', spent⟩ := serve_spent filed₁ vcm₁ served
        obtain ⟨-, vcm₂, emitted₂⟩ := serve_others_loop notAfter (serve_filed filed₁ served) rest
        dsimp only at vcm₂ emitted₂ found' rest
        rw [found'] at vcm₂
        refine ⟨(carriers'.setPreviousCapacity carriers'.remainingCapacity
          (call.superframe + 1)).setRemainingCapacity 0, ?_, spent.total, rfl, spent.left, ?_⟩
        · rw [resetRemaining_vcm, vcm₂]
          rfl
        · have own := spent.own
          rw [emitted₁] at own
          dsimp only [resetRemaining, CarriersGroupDama.setPreviousCapacity,
            CarriersGroupDama.setRemainingCapacity]
          rw [emitted₂]
          exact own
      · cases stop

end ForwardSchedulingS2

/-! ### Runs -/

namespace ForwardWorld

open ForwardSchedulingS2

variable {handler : EncapPacketHandler} {table : FmtDefinitionTable}
  {world world' : ForwardWorld} {superframe : Superframe} {position : Nat × Nat}
  {vcmCarriers : Nat} {carriers : CarriersGroupDama}

/-- An error that was reported is remembered. -/
theorem safe_of_step (h : world.step handler table superframe = some world')
    (safe : world'.failed = false) : world.failed = false := by
  obtain ⟨state, -, h⟩ := Option.bind_eq_some_iff.mp h
  obtain ⟨⟨ok, sched⟩, -, rfl⟩ := Option.map_eq_some_iff.mp h
  exact (Bool.or_eq_false_iff.mp safe).1

/-- What carriers carry from a superframe to the next one. -/
def carried (position : Nat × Nat) (world : ForwardWorld) : Nat :=
  (world.sched.vcm position).elim 0 fun (_, carriers) => carriers.previousCapacity

/-- A superframe in which no error is reported, for some carriers. -/
theorem step_spent (filed : world.sched.bbframes.Filed table)
    (found : world.sched.vcm position = some (vcmCarriers, carriers))
    (h : world.step handler table superframe = some world') (safe : world'.failed = false) :
    world.failed = false ∧ ∃ carriers', world'.sched.vcm position = some (vcmCarriers, carriers') ∧
      carriers'.getTotalCapacity = carriers.getTotalCapacity ∧
      carriers'.remainingCapacity = 0 ∧
      carriers'.previousCapacity ≤ carriers.getTotalCapacity + carriers.remainingCapacity ∧
      world'.sched.bbframes.emitted position + carriers'.previousCapacity ≤
        world.sched.bbframes.emitted position + carriers.getTotalCapacity +
          carryOver superframe.call carriers := by
  obtain ⟨state, -, h⟩ := Option.bind_eq_some_iff.mp h
  obtain ⟨⟨ok, sched⟩, called, rfl⟩ := Option.map_eq_some_iff.mp h
  rw [Bool.or_eq_false_iff, Bool.not_eq_false'] at safe
  obtain ⟨before, rfl⟩ := safe
  have received : (world.receive state.fifos).bbframes.Filed table := filed
  have foundThere : (world.receive state.fifos).vcm position = some (vcmCarriers, carriers) := found
  have spent := schedule_spent received foundThere called
  exact ⟨before, spent⟩

/-- Between two superframes without error, carriers have no remaining capacity and carry
at most the capacity of one superframe, which may be larger for the first one. -/
structure Settled (table : FmtDefinitionTable) (position : Nat × Nat)
    (vcmCarriers total extra : Nat) (world : ForwardWorld) : Prop where
  filed : world.sched.bbframes.Filed table
  settled : world.failed = false → ∃ carriers,
    world.sched.vcm position = some (vcmCarriers, carriers) ∧
      carriers.getTotalCapacity = total ∧ carriers.remainingCapacity = 0 ∧
      carriers.previousCapacity ≤ total + extra

theorem step_settled {total extra : Nat}
    (settled : world.Settled table position vcmCarriers total extra)
    (h : world.step handler table superframe = some world') :
    world'.Settled table position vcmCarriers total extra where
  filed := step_filed settled.filed h
  settled := by
    intro safe
    obtain ⟨carriers, found, rfl, remaining, -⟩ := settled.settled (safe_of_step h safe)
    obtain ⟨-, carriers', found', total, remaining', previous, -⟩ :=
      step_spent settled.filed found h safe
    rw [remaining] at previous
    exact ⟨carriers', found', total, remaining', previous.trans (Nat.le_add_right _ extra)⟩

/-- What carriers emit in several superframes without error. -/
theorem run_emitted_le {total extra : Nat} {superframes : List Superframe}
    (settled : world.Settled table position vcmCarriers total extra)
    (ends : run (step handler table) world superframes = some world')
    (safe : world'.failed = false) :
    world.failed = false ∧ world'.Settled table position vcmCarriers total extra ∧
      world'.sched.bbframes.emitted position + world'.carried position ≤
        world.sched.bbframes.emitted position + superframes.length * total +
          world.carried position := by
  refine run_amortised (P := Settled table position vcmCarriers total extra)
    (Q := fun world => world.failed = false) (fun world => world.sched.bbframes.emitted position)
    (carried position) total settled (fun _ _ _ => step_settled) ?_ ends safe
  intro world superframe world' settled h safe
  obtain ⟨carriers, found, rfl, remaining, -⟩ := settled.settled (safe_of_step h safe)
  obtain ⟨before, carriers', found', -, -, -, paid⟩ := step_spent settled.filed found h safe
  refine ⟨before, ?_⟩
  rw [carryOver, remaining] at paid
  have saved := carriers.getPreviousCapacity_le superframe.call.superframe
  simp only [carried, found, found', Option.elim_some]
  omega

/-- **Capacity of the forward carriers.** In consecutive superframes without error, from
any state that is reached, the symbols emitted on some carriers are at most their total
capacity for each superframe and what was carried to the first one. What is carried to
the next superframe is what is left of that, and at most the capacity of one superframe;
a frame is emitted only when the capacity left is enough for it. -/
theorem emitted_le {fifos : List (DvbFifo NetPacket)} {first : Superframe}
    {carriersGroups : List (List CarriersGroupDama)} {before rest : List Superframe}
    (reached : run (step handler table) (start fifos carriersGroups) before = some world)
    (found : world.sched.vcm position = some (vcmCarriers, carriers))
    (ends : run (step handler table) { world with failed := false } (first :: rest) =
      some world')
    (safe : world'.failed = false) :
    (∃ carriers', world'.sched.vcm position = some (vcmCarriers, carriers') ∧
      carriers'.remainingCapacity = 0 ∧
      carriers'.previousCapacity ≤ carriers.getTotalCapacity + carriers.remainingCapacity ∧
      world'.sched.bbframes.emitted position + carriers'.previousCapacity ≤
        world.sched.bbframes.emitted position +
          (rest.length + 1) * carriers.getTotalCapacity + carryOver first.call carriers) ∧
    ∀ (bbframes : BBFrames) (f capacitySym : Nat),
      (bbframes.addCompleteBBFrame table position f capacitySym).1 = .ok →
        ∃ sizeSym, bbframes.sizeSym table f = some sizeSym ∧ sizeSym ≤ capacitySym := by
  constructor
  · have filed := ((allStates_sound fifos carriersGroups before).last reached).filed
    obtain ⟨mid, taken, later⟩ := Option.bind_eq_some_iff.mp ends
    have filed' : BBFrames.Filed table { world with failed := false }.sched.bbframes := filed
    have found' : { world with failed := false }.sched.vcm position =
      some (vcmCarriers, carriers) := found
    have settled : mid.Settled table position vcmCarriers carriers.getTotalCapacity
        carriers.remainingCapacity := by
      refine ⟨step_filed filed' taken, fun safe => ?_⟩
      obtain ⟨-, carriers', foundMid, total, remaining, previous, -⟩ :=
        step_spent filed' found' taken safe
      exact ⟨carriers', foundMid, total, remaining, previous⟩
    obtain ⟨between, last, total⟩ := run_emitted_le settled later safe
    obtain ⟨-, carriers₁, found₁, -, -, -, paid⟩ := step_spent filed' found' taken between
    obtain ⟨carriers', foundLast, -, remaining, previous⟩ := last.settled safe
    refine ⟨carriers', foundLast, remaining, previous, ?_⟩
    simp only [carried, found₁, foundLast, Option.elim_some] at total
    rw [Nat.succ_mul]
    dsimp only at paid
    omega
  · intro bbframes f capacitySym added
    exact bbframes.addCompleteBBFrame_enough added

/-- A packet that fills two frames, the second one after the superframe number wraps. -/
theorem emitted_le_twoSuperframes :
    ∃ world carriers, run (step .fragmenting sampleFmts)
        (start [.new (.forward .acm) 0 100] [[sampleCarriers [1, 2] 20000]])
        [⟨[(0, sampleElement 2 3990)], ⟨65535, 0, [(2, 2)]⟩, 10⟩, ⟨[], ⟨0, 0, [(2, 2)]⟩, 10⟩] =
          some world ∧
      world.sched.vcm (0, 0) = some (1, carriers) ∧
      world.sched.bbframes.emitted (0, 0) + carriers.previousCapacity ≤ 2 * 20000 := by
  have survived : ((run (step .fragmenting sampleFmts)
      (start [.new (.forward .acm) 0 100] [[sampleCarriers [1, 2] 20000]])
      [⟨[(0, sampleElement 2 3990)], ⟨65535, 0, [(2, 2)]⟩, 10⟩,
        ⟨[], ⟨0, 0, [(2, 2)]⟩, 10⟩]).any (!·.failed)) = true := by decide +kernel
  obtain ⟨world, ends, safe⟩ := (Option.any_eq_true _ _).mp survived
  have reached : run (step .fragmenting sampleFmts)
      (start [.new (.forward .acm) 0 100] [[sampleCarriers [1, 2] 20000]]) [] = some _ := rfl
  have found : (start [.new (.forward .acm) 0 100] [[sampleCarriers [1, 2] 20000]]).sched.vcm
      (0, 0) = some (1, sampleCarriers [1, 2] 20000) := rfl
  obtain ⟨⟨carriers, stored, -, -, paid⟩, -⟩ :=
    emitted_le reached found ends ((Bool.not_eq_true' _).mp safe)
  exact ⟨world, carriers, ends, stored, paid⟩

/-- What is carried is not more than a frame of some MODCOD. -/
def CarriesOneFrame (table : FmtDefinitionTable) (world : ForwardWorld) : Prop :=
  ∀ position vcmCarriers carriers, world.sched.vcm position = some (vcmCarriers, carriers) →
    ∃ modcodId sizeSym,
      getBBFrameSizeSym table (getBBFrameSizeBytes table modcodId) modcodId = some sizeSym ∧
        carriers.previousCapacity ≤ sizeSym

/-- A run whose second and third superframes report an error, for a broadcast packet
without any terminal, after some carriers were served. -/
def failingSuperframes : List Superframe :=
  [⟨[(1, sampleElement 1 10)], ⟨0, 0, [(1, 1), (2, 2)]⟩, 10⟩,
    ⟨[(2, sampleElement BROADCAST_TAL_ID 10)], ⟨1, 0, []⟩, 10⟩,
    ⟨[(2, sampleElement BROADCAST_TAL_ID 10)], ⟨2, 0, []⟩, 10⟩,
    ⟨[(0, sampleElement 2 9975)], ⟨3, 0, [(1, 1), (2, 2)]⟩, 10⟩]

/-- Two VCM carriers and ACM ones, with a FIFO for each of them. -/
def failingStart : ForwardWorld :=
  start [.new (.forward .vcm) 0 100, .new (.forward .vcm) 1 100, .new (.forward .acm) 0 100]
    [[sampleCarriers [1, 2] 16008, sampleCarriers [1, 2] 1], [sampleCarriers [1, 2] 1]]

theorem sampleFmts_sizeSym_le {modcodId : UInt8} {sizeSym : Nat}
    (h : getBBFrameSizeSym sampleFmts (getBBFrameSizeBytes sampleFmts modcodId) modcodId =
      some sizeSym) : sizeSym ≤ 64800 := by
  have known : sampleFmts.getDefinition modcodId = some (sampleFmt 1 "") ∨
      sampleFmts.getDefinition modcodId = some (sampleFmt 2 "1/4") ∨
      sampleFmts.getDefinition modcodId = none := by
    simp only [FmtDefinitionTable.getDefinition, sampleFmts, Std.TreeMap.getElem?_insert]
    split
    · exact .inr (.inl rfl)
    · split
      · exact .inl rfl
      · exact .inr (.inr rfl)
  unfold getBBFrameSizeSym getBBFrameSizeBytes at h
  rcases known with eq | eq | eq
  · rw [eq] at h
    cases h
    decide +kernel
  · rw [eq] at h
    cases h
    decide +kernel
  · rw [eq] at h
    cases h

/-- Idle carriers carry all their capacity, however long the frames are; and carriers
served before an error was reported may emit more than they are given. -/
theorem carryOver_not_bounded :
    ¬ AllStates (step .fragmenting sampleFmts) (CarriesOneFrame sampleFmts)
        (start [] [[sampleCarriers [1, 2] 100000]]) [⟨[], ⟨0, 0, []⟩, 1⟩] ∧
    ¬ ∀ world, run (step .fragmenting sampleFmts) failingStart failingSuperframes = some world →
        world.sched.bbframes.emitted (0, 0) ≤
          failingSuperframes.length * (sampleCarriers [1, 2] 16008).getTotalCapacity +
            carryOver ⟨0, 0, [(1, 1), (2, 2)]⟩ (sampleCarriers [1, 2] 16008) := by
  constructor
  · intro states
    obtain ⟨modcodId, sizeSym, size, less⟩ := (states.2 _ rfl) (0, 0) 1 _ rfl
    have most := sampleFmts_sizeSym_le size
    have carried : 100000 ≤ sizeSym := less
    omega
  · intro bounded
    have emitted : (run (step .fragmenting sampleFmts) failingStart failingSuperframes).map
        (·.sched.bbframes.emitted (0, 0)) = some 80040 := by decide +kernel
    obtain ⟨world, ends, eq⟩ := Option.map_eq_some_iff.mp emitted
    have most := bounded world ends
    rw [eq] at most
    revert most
    decide

end ForwardWorld

end OpenSand
