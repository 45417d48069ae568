import OpenSand.Sched.Capacity
import OpenSand.Sched.LoopErrors
import OpenSand.Sched.ScpcConservation

/-!
The capacity of an SCPC terminal.

A call for a FIFO reads the capacity that the carriers have left and what they saved in
the previous superframe, and saves what is left when a frame does not fit. These two and
what is emitted make a budget that no call exceeds. The budget of a superframe is reset
at its end, which an error would prevent; none is reported when the MODCODs of the
carriers are defined.
-/

namespace OpenSand

open OpenSand.Run OpenSand.Word

/-! ### The budget of some carriers -/

/-- What was emitted on carriers, what they have left and what they saved. -/
def Serving.budget (position : Nat × Nat) (s : Serving) : Nat :=
  s.bbframes.emitted position + s.capacitySym + s.carriers.previousCapacity

section Budget

variable {link : S2Link} {call : SchedCall} {position : Nat × Nat} {s s' : Serving} {k : Nat}

/-- A frame that does not fit saves the capacity, which is then exhausted. -/
theorem closeFrame_budget_le {f : Nat} (exhausts : ∀ capacitySym, link.capacityWhenFull
    capacitySym = 0) :
    (s.closeFrame link call position f).2.budget position ≤ s.budget position := by
  unfold Serving.closeFrame
  rcases s.bbframes.addCompleteBBFrame_cases link.modcodDef position f s.capacitySym with
    ⟨_, eq⟩ | ⟨sizeSym, _, ⟨_, eq⟩ | ⟨enough, eq⟩⟩
  · rw [eq]
  · rw [eq]
    dsimp only [Serving.budget, CarriersGroupDama.setPreviousCapacity]
    rw [exhausts, Nat.add_zero]
    exact Nat.le_add_right _ _
  · rw [eq]
    have spends : Spends position s { s with
        bbframes := BBFrames.removeIncomplete { s.bbframes with
          complete := s.bbframes.complete ++ [⟨f, position, sizeSym⟩] } f
        capacitySym := s.capacitySym - sizeSym } := .emit enough rfl rfl
    exact Nat.add_le_add_right spends.own _

theorem encapsulate_budget_le {fifo : DvbFifo NetPacket} {elem : FifoElement NetPacket}
    {packet : NetPacket} {modcodId : UInt8} {status : LoopStatus}
    (exhausts : ∀ capacitySym, link.capacityWhenFull capacitySym = 0)
    (h : s.encapsulate link call position k fifo elem packet modcodId = some (status, s')) :
    s'.budget position ≤ s.budget position := by
  unfold Serving.encapsulate at h
  have created : (s.bbframes.getIncompleteBBFrame link.modcodDef modcodId).2.emitted position =
      s.bbframes.emitted position := by
    unfold BBFrames.getIncompleteBBFrame
    split
    · rfl
    · rfl
  revert h created
  generalize s.bbframes.getIncompleteBBFrame link.modcodDef modcodId = opened
  obtain ⟨f, bbframes⟩ := opened
  intro h created
  dsimp only at h created
  obtain ⟨⟨data, remaining⟩, -, h⟩ := Option.bind_eq_some_iff.mp h
  dsimp only at h
  split at h
  · cases h
  · split at h
    · cases h
      dsimp only [Serving.budget, Serving.setFifo]
      rw [created]
    next bbframes' added =>
      obtain ⟨fifo', -, h⟩ := Option.map_eq_some_iff.mp h
      have emitted : bbframes'.emitted position = s.bbframes.emitted position := by
        rw [← created, BBFrames.addData_eq added]
        rfl
      split at h
      · have closed := (congrArg Prod.snd h).symm
        dsimp only at closed
        rw [closed]
        refine (closeFrame_budget_le exhausts).trans ?_
        dsimp only [Serving.budget, Serving.record, Serving.setFifo]
        rw [emitted]
      · cases h
        dsimp only [Serving.budget, Serving.record, Serving.setFifo]
        rw [emitted]

theorem packetStep_budget_le {fifo : DvbFifo NetPacket} {status : LoopStatus}
    (exhausts : ∀ capacitySym, link.capacityWhenFull capacitySym = 0)
    (h : s.packetStep link call position k fifo = some (status, s')) :
    s'.budget position ≤ s.budget position := by
  obtain ⟨⟨popped, fifo'⟩, -, h⟩ := Option.bind_eq_some_iff.mp h
  obtain ⟨elem, rfl, h⟩ := Option.bind_eq_some_iff.mp h
  dsimp only [Option.bind_some] at h
  split at h
  · cases h
    exact le_rfl
  · split at h
    · cases h
      exact le_rfl
    · cases h
      exact le_rfl
    · exact encapsulate_budget_le exhausts h

/-- The loop over the packets of a FIFO keeps to the budget. -/
theorem packetLoop_budget_le {fuel : Nat} {ok : Bool}
    (exhausts : ∀ capacitySym, link.capacityWhenFull capacitySym = 0)
    (h : s.packetLoop link call position k fuel = some (ok, s')) :
    s'.budget position ≤ s.budget position := by
  induction fuel generalizing s with
  | zero => cases h
  | succ fuel ih =>
      obtain ⟨fifo, -, h⟩ := Option.bind_eq_some_iff.mp h
      split at h
      · cases h
        exact le_rfl
      · obtain ⟨⟨status, mid⟩, hstep, h⟩ := Option.bind_eq_some_iff.mp h
        have first := packetStep_budget_le exhausts hstep
        cases status with
        | again => exact (ih h).trans first
        | finished =>
            cases h
            exact first
        | failed =>
            cases h
            exact first

end Budget

/-! ### A call for a FIFO -/

/-- A licence for the frames of the MODCODs that have a definition. -/
def ScpcScheduling.knownLicence (table : FmtDefinitionTable) : Licence where
  serves := table.Knows
  lose := True
  refill := True
  forget := True

section Serving

variable {handler : EncapPacketHandler} {table : FmtDefinitionTable} {gwId : Nat}
  {call : SchedCall} {position : Nat × Nat} {s s' : Serving} {fuel initCapa : Nat} {ok : Bool}

theorem scpcCapacities_le (call : SchedCall) (s : Serving) :
    (s.scpcCapacities call).2 ≤
      s.carriers.remainingCapacity + s.carriers.getPreviousCapacity call.superframe :=
  Nat.mod_le _ _

/-- What the pending frames emit is taken from the capacity. -/
theorem schedulePendingFrom_emitted (linked : s.bbframes.Linked table) (capacitySym : Nat) :
    (schedulePendingFrom false table position s.carriers.getFmtIds [] s.bbframes.pending s.bbframes
        capacitySym).1.emitted position +
      (schedulePendingFrom false table position s.carriers.getFmtIds [] s.bbframes.pending
        s.bbframes capacitySym).2 ≤ s.bbframes.emitted position + capacitySym := by
  have pending := @schedulePendingFrom_evolves (ScpcScheduling.link .fragmenting table 0) position
    ⟨fun _ => True, True, False, True⟩ s false s.carriers.getFmtIds (fun _ _ => trivial) []
    s.bbframes.pending s.bbframes capacitySym linked.known (fun _ => .inl trivial)
  exact (pending.spends id).own

/-- A call for a FIFO emits, leaves and saves at most what was left and saved before. -/
theorem scpcEncapPackets_budget_le {k : Nat} (linked : s.bbframes.Linked table)
    (h : s.scpcEncapPackets (ScpcScheduling.link handler table gwId) call position fuel k =
      some (true, s')) :
    s'.bbframes.emitted position + s'.carriers.remainingCapacity + s'.carriers.previousCapacity ≤
      s.bbframes.emitted position + s.carriers.remainingCapacity +
        s.carriers.getPreviousCapacity call.superframe := by
  have initial := scpcCapacities_le call s
  obtain ⟨fifo, -, h⟩ := Option.bind_eq_some_iff.mp h
  dsimp only at h
  split at h
  · cases h
    dsimp only [CarriersGroupDama.setPreviousCapacity, CarriersGroupDama.setRemainingCapacity]
    omega
  · have pending := @schedulePendingFrom_emitted table position s linked (s.scpcCapacities call).2
    revert h pending
    have table_eq : (ScpcScheduling.link handler table gwId).modcodDef = table := rfl
    rw [table_eq]
    generalize schedulePendingFrom false table position s.carriers.getFmtIds [] s.bbframes.pending
      s.bbframes (s.scpcCapacities call).2 = left
    obtain ⟨bbframes, capacitySym⟩ := left
    intro h pending
    dsimp only at h pending
    have limited : (if bbframes.incomplete.isEmpty then min (s.scpcCapacities call).1 capacitySym
        else capacitySym) ≤ capacitySym := by
      split
      · exact min_le_right _ _
      · exact le_rfl
    split at h
    · cases h
      dsimp only [CarriersGroupDama.setPreviousCapacity, CarriersGroupDama.setRemainingCapacity]
      omega
    · obtain ⟨⟨done, last⟩, looped, h⟩ := Option.map_eq_some_iff.mp h
      have served := packetLoop_budget_le (fun _ => rfl) looped
      cases done with
      | false => cases h
      | true =>
          cases h
          dsimp only [Serving.budget, CarriersGroupDama.setPreviousCapacity,
            CarriersGroupDama.setRemainingCapacity] at served ⊢
          omega

/-- The MODCOD selected for a packet is the lowest one or one of the carriers. -/
theorem scpcSelect_knows {sts : StFmtSimuList} {fmtGroup : FmtGroup} (lowest : table.Knows
    table.getMinId) (known : ∀ id ∈ fmtGroup.getFmtIds, table.Knows id) (packet : NetPacket) :
    ∃ modcodId, (ScpcScheduling.link handler table gwId).select sts fmtGroup packet =
      .modcod modcodId ∧ table.Knows modcodId := by
  refine ⟨_, rfl, ?_⟩
  by_cases none : fmtGroup.getNearest (sts.getCurrentModcodId gwId) = 0
  · rw [if_pos none]
    exact lowest
  · rw [if_neg none]
    exact known _ (FmtGroup.getNearest_mem none)

/-- A call for a FIFO only opens and completes frames of MODCODs that have a definition. -/
theorem scpcEncapPackets_known {k : Nat} (lowest : table.Knows table.getMinId)
    (known : ∀ id ∈ s.carriers.getFmtIds, table.Knows id) (linked : s.bbframes.Linked table)
    (h : s.scpcEncapPackets (ScpcScheduling.link handler table gwId) call position fuel k =
      some (ok, s')) :
    Evolves (ScpcScheduling.link handler table gwId) position
      (ScpcScheduling.knownLicence table) s s' := by
  have started : Evolves (ScpcScheduling.link handler table gwId) position
    (ScpcScheduling.knownLicence table) s { s with capacitySym := (s.scpcCapacities call).2 } :=
      Move.evolves (.capacity (.inl trivial))
  refine started.trans (scpcEncapPackets_evolves known ?_ (fun _ => trivial) linked (.inl trivial)
    h)
  intro packet modcodId selected
  obtain ⟨modcodId', selected', knows⟩ :=
    @scpcSelect_knows handler table gwId call.sts _ lowest known packet
  rw [show (ScpcScheduling.link handler table gwId).select = ScpcScheduling.select gwId table
    from rfl, selected] at selected'
  cases selected'
  exact knows

theorem scpcEncapPackets_ok {k : Nat} (fits : handler.Fits) (lowest : table.Knows table.getMinId)
    (known : ∀ id ∈ s.carriers.getFmtIds, table.Knows id) (linked : s.bbframes.Linked table)
    (h : s.scpcEncapPackets (ScpcScheduling.link handler table gwId) call position fuel k =
      some (ok, s')) : ok = true := by
  obtain ⟨fifo, -, h⟩ := Option.bind_eq_some_iff.mp h
  dsimp only at h
  split at h
  · cases h
    rfl
  · have pending := @schedulePendingFrom_evolves (ScpcScheduling.link handler table gwId) position
      (ScpcScheduling.knownLicence table) s false _ known [] s.bbframes.pending
      s.bbframes (s.scpcCapacities call).2 linked.known (fun _ => .inl trivial)
    split at h
    · cases h
      rfl
    · obtain ⟨⟨done, last⟩, looped, h⟩ := Option.map_eq_some_iff.mp h
      have linked' := pending.linked linked
      have fine := packetLoop_ok (s := { s with
        bbframes := (schedulePendingFrom false (ScpcScheduling.link handler table gwId).modcodDef
          position s.carriers.getFmtIds [] s.bbframes.pending s.bbframes
            (s.scpcCapacities call).2).1
        capacitySym := _
        carriers := s.carriers.setPreviousCapacity 0 0 }) fits linked'
          (scpcSelect_knows lowest known) looped
      subst fine
      cases h
      rfl

/-! ### The incomplete frames -/

/-- What the flush emits and saves is taken from the capacity left, or was saved before. -/
theorem scpcFlush_budget_le (linked : s.bbframes.Linked table) :
    (s.scpcFlush (ScpcScheduling.link handler table gwId) call position
        initCapa).2.bbframes.emitted position ≤
      s.bbframes.emitted position + s.carriers.remainingCapacity ∧
    (s.scpcFlush (ScpcScheduling.link handler table gwId) call position
        initCapa).2.bbframes.emitted position +
      (s.scpcFlush (ScpcScheduling.link handler table gwId) call position
        initCapa).2.carriers.previousCapacity ≤
      s.bbframes.emitted position + s.carriers.remainingCapacity +
        s.carriers.previousCapacity := by
  have flushed := @flushIncomplete_evolves (ScpcScheduling.link handler table gwId) position
    ⟨fun _ => True, True, False, True⟩ { s with capacitySym := s.carriers.remainingCapacity }
    s.bbframes.incompleteOrdered linked rfl (fun _ _ => trivial)
  have spends := (flushed.spends id).own
  revert spends
  unfold Serving.scpcFlush
  have table_eq : (ScpcScheduling.link handler table gwId).modcodDef = table := rfl
  rw [table_eq]
  dsimp only
  generalize flushIncomplete table position s.bbframes.incompleteOrdered s.bbframes
    s.carriers.remainingCapacity = left
  obtain ⟨status, bbframes, capacitySym⟩ := left
  intro spends
  dsimp only at spends
  cases status with
  | error =>
      dsimp only
      omega
  | ok =>
      dsimp only [CarriersGroupDama.setRemainingCapacity]
      omega
  | full =>
      dsimp only [CarriersGroupDama.setRemainingCapacity, CarriersGroupDama.setPreviousCapacity]
      omega

theorem scpcFlush_ok (opened : s.bbframes.Opened table) :
    (s.scpcFlush (ScpcScheduling.link handler table gwId) call position initCapa).1 = true := by
  have fine := @flushIncomplete_ok position table s.bbframes.incompleteOrdered s.bbframes
    s.carriers.remainingCapacity opened
  revert fine
  unfold Serving.scpcFlush
  have table_eq : (ScpcScheduling.link handler table gwId).modcodDef = table := rfl
  rw [table_eq]
  generalize flushIncomplete table position s.bbframes.incompleteOrdered s.bbframes
    s.carriers.remainingCapacity = left
  obtain ⟨status, bbframes, capacitySym⟩ := left
  intro fine
  cases status with
  | error => exact absurd rfl fine
  | ok => rfl
  | full => rfl

end Serving

/-- Nothing is emitted on other carriers, even when the capacity is read again. -/
theorem Evolves.emitted_other {link : S2Link} {position p : Nat × Nat} {licence : Licence}
    {s s' : Serving} (other : p ≠ position) (h : Evolves link position licence s s') :
    s'.bbframes.emitted p = s.bbframes.emitted p := by
  refine h.keeps (P := fun s' => s'.bbframes.emitted p = s.bbframes.emitted p) ?_ rfl
  intro mid mid' same move
  cases move with
  | complete _ _ enough => exact ((Spends.emit enough rfl rfl).others p other).trans same
  | resume _ _ enough => exact ((Spends.emit enough rfl rfl).others p other).trans same
  | encap _ _ _ _ _ _ _ _ added =>
      rw [BBFrames.addData_eq added]
      exact same
  | _ => exact same

/-- The moves do not change the number of FIFOs. -/
theorem Evolves.fifos_length {link : S2Link} {position : Nat × Nat} {licence : Licence}
    {s s' : Serving} (h : Evolves link position licence s s') :
    s'.fifos.length = s.fifos.length := by
  refine h.keeps (P := fun s' => s'.fifos.length = s.fifos.length) ?_ rfl
  intro mid mid' same move
  cases move with
  | skip => exact List.length_set.trans same
  | encap => exact List.length_set.trans same
  | lose => exact List.length_set.trans same
  | _ => exact same

/-! ### A call of the scheduling -/

namespace ScpcScheduling

variable {handler : EncapPacketHandler} {table : FmtDefinitionTable} {gwId fuel g : Nat}
  {call : SchedCall} {sched sched' : ScpcScheduling} {carriers : CarriersGroupDama} {ok : Bool}

/-- The MODCODs of the incomplete frames and of the carriers have definitions. -/
structure Ready (table : FmtDefinitionTable) (sched : ScpcScheduling) : Prop where
  linked : sched.bbframes.Linked table
  opened : sched.bbframes.Opened table
  known : ∀ carriers ∈ sched.carriersGroups, ∀ id ∈ carriers.getFmtIds, table.Knows id

/-- What is saved is only read by the calls for FIFOs. -/
def counted (fifos saved : Nat) : Nat := if fifos = 0 then 0 else saved

theorem counted_le (fifos saved : Nat) : counted fifos saved ≤ saved := by
  unfold counted
  split
  · exact Nat.zero_le _
  · exact le_rfl

theorem counted_mono (fifos : Nat) {saved saved' : Nat} (le : saved ≤ saved') :
    counted fifos saved ≤ counted fifos saved' := by
  unfold counted
  split
  · exact le_rfl
  · exact le

/-- The state of a carriers group between the calls for its FIFOs. -/
structure Serves (handler : EncapPacketHandler) (table : FmtDefinitionTable) (gwId : Nat)
    (call : SchedCall) (sched : ScpcScheduling) (g : Nat) (carriers : CarriersGroupDama)
    (s : Serving) : Prop where
  evolves : Evolves (link handler table gwId) (g, 0) (knownLicence table)
    (sched.serving carriers) s
  budget : s.bbframes.emitted (g, 0) + s.carriers.remainingCapacity +
      s.carriers.getPreviousCapacity call.superframe ≤
    sched.bbframes.emitted (g, 0) + initCapacity carriers +
      carriers.getPreviousCapacity call.superframe

/-- A call for a FIFO reports no error, and what it saves is in the budget too. -/
theorem Serves.next (fits : handler.Fits) (lowest : table.Knows table.getMinId)
    (ready : sched.Ready table) (found : sched.carriersGroups[g]? = some carriers)
    {s s' : Serving} {k : Nat} (serves : Serves handler table gwId call sched g carriers s)
    (h : s.scpcEncapPackets (link handler table gwId) call (g, 0) fuel k = some (ok, s')) :
    ok = true ∧ Serves handler table gwId call sched g carriers s' ∧
      s'.bbframes.emitted (g, 0) + s'.carriers.remainingCapacity + s'.carriers.previousCapacity ≤
        sched.bbframes.emitted (g, 0) + initCapacity carriers +
          carriers.getPreviousCapacity call.superframe := by
  have linked : s.bbframes.Linked table := serves.evolves.linked ready.linked
  have known : ∀ id ∈ s.carriers.getFmtIds, table.Knows id := by
    rw [serves.evolves.sameGroup.getFmtIds]
    exact ready.known carriers (List.mem_of_getElem? found)
  have fine := scpcEncapPackets_ok fits lowest known linked h
  subst fine
  have spent := (scpcEncapPackets_budget_le linked h).trans serves.budget
  have read := s'.carriers.getPreviousCapacity_le call.superframe
  refine ⟨rfl, ⟨serves.evolves.trans (scpcEncapPackets_known lowest known linked h), ?_⟩, spent⟩
  exact (Nat.add_le_add_left read _).trans spent

theorem Serves.loop (fits : handler.Fits) (lowest : table.Knows table.getMinId)
    (ready : sched.Ready table) (found : sched.carriersGroups[g]? = some carriers)
    {s s' : Serving} {ks : List Nat} (serves : Serves handler table gwId call sched g carriers s)
    (h : forEach (Serving.scpcEncapPackets (link handler table gwId) call (g, 0) fuel) s ks =
      some (ok, s')) :
    ok = true ∧ Serves handler table gwId call sched g carriers s' := by
  refine forEach_succeeds (P := Serves handler table gwId call sched g carriers) ?_ serves h
  intro mid k out _ serves called
  obtain ⟨fine, serves', -⟩ := serves.next fits lowest ready found called
  exact ⟨fine, serves'⟩

/-- The calls for the FIFOs report no error and keep to what the carriers start with. -/
theorem fifosOn_spent (fits : handler.Fits) (lowest : table.Knows table.getMinId)
    (ready : sched.Ready table) (found : sched.carriersGroups[g]? = some carriers) {s : Serving}
    (h : sched.fifosOn handler table gwId fuel call g carriers = some (ok, s)) :
    ok = true ∧
      Evolves (link handler table gwId) (g, 0) (knownLicence table)
        (sched.serving carriers) s ∧
      s.bbframes.emitted (g, 0) + s.carriers.remainingCapacity +
          counted sched.fifos.length s.carriers.previousCapacity ≤
        sched.bbframes.emitted (g, 0) + initCapacity carriers +
          counted sched.fifos.length (carriers.getPreviousCapacity call.superframe) := by
  have initial : Serves handler table gwId call sched g carriers (sched.serving carriers) :=
    ⟨.refl _, le_rfl⟩
  have looped : forEach (Serving.scpcEncapPackets (link handler table gwId) call (g, 0) fuel)
    (sched.serving carriers) (List.range sched.fifos.length) = some (ok, s) := h
  obtain ⟨rfl, serves⟩ := initial.loop fits lowest ready found looped
  refine ⟨rfl, serves.evolves, ?_⟩
  cases length : sched.fifos.length with
  | zero =>
      rw [length] at looped
      cases looped
      exact le_rfl
  | succ n =>
    rw [counted, if_neg n.succ_ne_zero, counted, if_neg n.succ_ne_zero]
    -- The last call saves what is counted.
    rw [length, List.range_succ] at looped
    obtain ⟨mid, before, last⟩ := forEach_append.mp looped
    obtain ⟨-, serves'⟩ := initial.loop fits lowest ready found before
    obtain ⟨⟨ok, mid'⟩, called, ⟨rfl, rest⟩ | ⟨rfl, stop⟩⟩ := forEach_cons.mp last
    · cases rest
      exact (serves'.next fits lowest ready found called).2.2
    · cases stop

/-- The state of a carriers group in a call of the scheduling, before and after. -/
structure Spent (call : SchedCall) (g : Nat) (sched sched' : ScpcScheduling)
    (carriers carriers' : CarriersGroupDama) : Prop where
  total : carriers'.getTotalCapacity = carriers.getTotalCapacity
  budget : sched'.bbframes.emitted (g, 0) +
      counted sched.fifos.length carriers'.previousCapacity ≤
    sched.bbframes.emitted (g, 0) + initCapacity carriers +
      counted sched.fifos.length (carriers.getPreviousCapacity call.superframe)

/-- A carriers group is served without error, and other ones are left as they are. -/
theorem serve_ready (fits : handler.Fits) (lowest : table.Knows table.getMinId)
    (ready : sched.Ready table) (h : serve handler table gwId fuel call sched g = some (ok, sched')) :
    ok = true ∧ sched'.Ready table ∧ sched'.fifos.length = sched.fifos.length ∧
      (∀ g' ≠ g, sched'.carriersGroups[g']? = sched.carriersGroups[g']? ∧
        sched'.bbframes.emitted (g', 0) = sched.bbframes.emitted (g', 0)) ∧
      ∃ carriers carriers', sched.carriersGroups[g]? = some carriers ∧
        sched'.carriersGroups[g]? = some carriers' ∧ Spent call g sched sched' carriers carriers' := by
  obtain ⟨carriers, found, h⟩ := Option.bind_eq_some_iff.mp h
  obtain ⟨⟨done, s⟩, called, h⟩ := Option.map_eq_some_iff.mp h
  obtain ⟨rfl, evolves, spent⟩ := fifosOn_spent fits lowest ready found called
  have suitable : ∀ modcodId, (knownLicence table).serves modcodId → table.Knows modcodId :=
    fun _ => id
  have linked : s.bbframes.Linked table := evolves.linked ready.linked
  have opened : s.bbframes.Opened table := evolves.opened suitable ready.linked ready.opened
  have fine := @scpcFlush_ok handler table gwId call (g, 0) s (initCapacity carriers) opened
  obtain ⟨emitted, saved⟩ :=
    @scpcFlush_budget_le handler table gwId call (g, 0) s (initCapacity carriers) linked
  have started : Evolves (link handler table gwId) (g, 0) (knownLicence table) s
    { s with capacitySym := s.carriers.remainingCapacity } := Move.evolves (.capacity (.inl trivial))
  have flushed := started.trans (@scpcFlush_evolves handler table gwId call (g, 0)
    (knownLicence table) s (initCapacity carriers) linked opened)
  revert h fine emitted saved flushed
  dsimp only
  generalize s.scpcFlush (link handler table gwId) call (g, 0) (initCapacity carriers) = out
  obtain ⟨status, s'⟩ := out
  intro h fine emitted saved flushed
  dsimp only at fine emitted saved flushed
  subst fine
  cases h
  have moved := evolves.trans flushed
  have own : (sched.store g s').carriersGroups[g]? = some s'.carriers :=
    List.getElem?_set_self (List.getElem?_eq_some_iff.mp found).1
  refine ⟨rfl, ⟨moved.linked ready.linked, moved.opened suitable ready.linked ready.opened, ?_⟩,
    moved.fifos_length, ?_, carriers, s'.carriers, found, own, ?_, ?_⟩
  · intro carriers' mem
    rcases List.mem_or_eq_of_mem_set mem with other | rfl
    · exact ready.known carriers' other
    · rw [moved.sameGroup.getFmtIds]
      exact ready.known carriers (List.mem_of_getElem? found)
  · intro g' other
    refine ⟨List.getElem?_set_ne (Ne.symm other), ?_⟩
    refine moved.emitted_other (p := (g', 0)) ?_
    rintro ⟨⟩
    exact other rfl
  · rw [CarriersGroupDama.getTotalCapacity, moved.sameGroup.capacitySym,
      moved.sameGroup.carriersNumber]
    rfl
  · refine le_trans ?_ spent
    by_cases none : sched.fifos.length = 0
    · rw [counted, if_pos none, counted, if_pos none]
      exact emitted
    · rw [counted, if_neg none, counted, if_neg none]
      exact saved

theorem serve_others_loop {groups : List Nat} (fits : handler.Fits)
    (lowest : table.Knows table.getMinId) (ready : sched.Ready table) (other : g ∉ groups)
    (h : forEach (serve handler table gwId fuel call) sched groups = some (ok, sched')) :
    ok = true ∧ sched'.Ready table ∧ sched'.fifos.length = sched.fifos.length ∧
      sched'.carriersGroups[g]? = sched.carriersGroups[g]? ∧
      sched'.bbframes.emitted (g, 0) = sched.bbframes.emitted (g, 0) := by
  refine forEach_succeeds (P := fun s => s.Ready table ∧ s.fifos.length = sched.fifos.length ∧
    s.carriersGroups[g]? = sched.carriersGroups[g]? ∧
    s.bbframes.emitted (g, 0) = sched.bbframes.emitted (g, 0)) ?_ ⟨ready, rfl, rfl, rfl⟩ h
  rintro s g' ⟨status, s'⟩ mem ⟨ready, length, group, emitted⟩ served
  have ne : g ≠ g' := by
    rintro rfl
    exact other mem
  obtain ⟨fine, ready', length', others, -⟩ := serve_ready fits lowest ready served
  obtain ⟨group', emitted'⟩ := others g ne
  exact ⟨fine, ready', length'.trans length, group'.trans group, emitted'.trans emitted⟩

theorem initCapacity_le (carriers : CarriersGroupDama) :
    initCapacity carriers ≤ carriers.getTotalCapacity + carriers.remainingCapacity :=
  Nat.mod_le _ _

theorem resetRemaining_ready (ready : sched.Ready table) : sched.resetRemaining.Ready table where
  linked := ready.linked
  opened := ready.opened
  known := by
    intro carriers mem
    obtain ⟨before, among, rfl⟩ := List.mem_map.mp mem
    exact ready.known before among

/-- A superframe reports no error, and the symbols that it emits and saves on a carriers
group are those of the group and those that were saved. -/
theorem schedule_ready (fits : handler.Fits) (lowest : table.Knows table.getMinId)
    (ready : sched.Ready table)
    (h : sched.schedule handler table gwId fuel call = some (ok, sched')) :
    ok = true ∧ sched'.Ready table ∧
      (∀ carriers ∈ sched'.carriersGroups, carriers.remainingCapacity = 0) ∧
      sched'.fifos.length = sched.fifos.length ∧
      ∀ carriers, sched.carriersGroups[g]? = some carriers →
        ∃ carriers', sched'.carriersGroups[g]? = some carriers' ∧
          Spent call g sched sched' carriers carriers' := by
  obtain ⟨⟨done, mid⟩, looped, eq⟩ := Option.map_eq_some_iff.mp h
  obtain ⟨rfl, ready', length⟩ : done = true ∧ mid.Ready table ∧
      mid.fifos.length = sched.fifos.length := by
    refine forEach_succeeds (P := fun s => s.Ready table ∧ s.fifos.length = sched.fifos.length)
      ?_ ⟨ready, rfl⟩ looped
    rintro s g ⟨status, s'⟩ - ⟨ready, length⟩ served
    obtain ⟨fine, ready', length', -⟩ := serve_ready fits lowest ready served
    exact ⟨fine, ready', length'.trans length⟩
  cases eq
  refine ⟨rfl, resetRemaining_ready ready', ?_, length, ?_⟩
  · intro carriers mem
    obtain ⟨before, -, rfl⟩ := List.mem_map.mp mem
    rfl
  intro carriers found
  have lt : g ∈ List.range sched.carriersGroups.length :=
    List.mem_range.mpr (List.getElem?_eq_some_iff.mp found).1
  obtain ⟨before, after, split⟩ := List.append_of_mem lt
  have once := @List.nodup_range sched.carriersGroups.length
  rw [split, List.nodup_middle, List.nodup_cons, List.mem_append, not_or] at once
  rw [split] at looped
  -- The group is served once, between other ones.
  obtain ⟨first, begun, rest⟩ := forEach_append.mp looped
  obtain ⟨-, ready₁, length₁, group₁, emitted₁⟩ :=
    serve_others_loop fits lowest ready once.1.1 begun
  obtain ⟨⟨ok, second⟩, served, ⟨rfl, rest⟩ | ⟨rfl, stop⟩⟩ := forEach_cons.mp rest
  · obtain ⟨-, ready₂, -, -, carriers₁, carriers₂, found₁, found₂, spent⟩ :=
      serve_ready fits lowest ready₁ served
    rw [group₁, found] at found₁
    cases found₁
    obtain ⟨-, -, -, group₃, emitted₃⟩ := serve_others_loop fits lowest ready₂ once.1.2 rest
    refine ⟨carriers₂.setRemainingCapacity 0, ?_, spent.total, ?_⟩
    · rw [resetRemaining, List.getElem?_map, group₃, found₂]
      rfl
    · have budget := spent.budget
      rw [emitted₁, ← emitted₃, length₁] at budget
      exact budget
  · cases stop

end ScpcScheduling

/-! ### Runs -/

/-- The arrivals do not change the number of FIFOs. -/
theorem Arrivals.push_length {state state' : Arrivals} {arrivals : List (Nat × FifoElement NetPacket)}
    (h : arrivals.foldlM Arrivals.push state = some state') :
    state'.fifos.length = state.fifos.length := by
  induction arrivals generalizing state with
  | nil =>
      cases h
      rfl
  | cons arrival rest ih =>
      rw [List.foldlM_cons] at h
      obtain ⟨mid, pushed, h⟩ := Option.bind_eq_some_iff.mp h
      refine (ih h).trans ?_
      unfold Arrivals.push at pushed
      split at pushed
      · cases pushed
        rfl
      · obtain ⟨_, -, rfl⟩ := Option.map_eq_some_iff.mp pushed
        exact List.length_set

/-- The identifiers of a group are those that the table gives an Es/N0, which is what
`FmtGroup::parse` keeps. -/
structure FmtGroup.Parsed (table : FmtDefinitionTable) (group : FmtGroup) : Prop where
  modcodDef : group.modcodDef = table
  esN0 : ∀ fmtId ∈ group.fmtIds, fmtId.esN0 = table.getRequiredEsN0 fmtId.id ∧ fmtId.esN0 ≠ 0

theorem FmtGroup.Parsed.knows {table : FmtDefinitionTable} {group : FmtGroup}
    (parsed : group.Parsed table) : ∀ id ∈ group.getFmtIds, table.Knows id := by
  intro id mem
  obtain ⟨fmtId, among, rfl⟩ := List.mem_map.mp mem
  obtain ⟨same, positive⟩ := parsed.esN0 fmtId among
  rw [FmtDefinitionTable.Knows]
  cases found : table.getDefinition fmtId.id with
  | some fmt => rfl
  | none =>
      rw [same, FmtDefinitionTable.getRequiredEsN0, found] at positive
      exact absurd rfl positive

/-- The lowest MODCOD of a table that is not empty has a definition. -/
theorem FmtDefinitionTable.knows_getMinId {table : FmtDefinitionTable}
    (nonempty : table.keys ≠ []) :
    table.Knows table.getMinId := by
  have least : ∀ (ids : List UInt8) (id : UInt8),
      ids.foldl (fun least id => if id < least then id else least) id ∈ id :: ids := by
    intro ids
    induction ids with
    | nil => exact fun id => List.mem_cons_self
    | cons next rest ih =>
        intro id
        rw [List.foldl_cons]
        split
        · exact List.mem_cons_of_mem _ (ih next)
        · rcases List.mem_cons.mp (ih id) with same | later
          · rw [same]
            exact List.mem_cons_self
          · exact List.mem_cons_of_mem _ (List.mem_cons_of_mem _ later)
  have mem : table.getMinId ∈ table.keys := by
    unfold FmtDefinitionTable.getMinId
    cases keys : table.keys with
    | nil => exact absurd keys nonempty
    | cons id rest => exact least rest id
  rw [FmtDefinitionTable.Knows, FmtDefinitionTable.getDefinition, Std.TreeMap.isSome_getElem?_iff_mem]
  exact Std.TreeMap.mem_keys.mp mem

namespace ScpcWorld

open ScpcScheduling

variable {handler : EncapPacketHandler} {table : FmtDefinitionTable} {gwId g count : Nat}
  {world world' : ScpcWorld} {superframe : Superframe} {carriers : CarriersGroupDama}

/-- What holds between two superframes. -/
structure Settled (table : FmtDefinitionTable) (count : Nat) (world : ScpcWorld) : Prop where
  ready : world.sched.Ready table
  unused : ∀ carriers ∈ world.sched.carriersGroups, carriers.remainingCapacity = 0
  length : world.sched.fifos.length = count

theorem start_settled {fifos : List (DvbFifo NetPacket)} {carriersGroups : List CarriersGroupDama}
    (parsed : ∀ carriers ∈ carriersGroups, carriers.fmtGroup.Parsed table)
    (unused : ∀ carriers ∈ carriersGroups, carriers.remainingCapacity = 0) :
    (start fifos carriersGroups).Settled table fifos.length where
  ready :=
    { linked := (BBFrames.empty_filed table).linked
      opened := nofun
      known := fun carriers mem => (parsed carriers mem).knows }
  unused := unused
  length := rfl

/-- What a carriers group saves for the calls for the FIFOs. -/
def saved (g : Nat) (world : ScpcWorld) : Nat :=
  counted world.sched.fifos.length
    ((world.sched.carriersGroups[g]?).elim 0 (·.previousCapacity))

/-- A superframe emits and saves at most the total capacity and what was saved. -/
theorem step_settled (fits : handler.Fits) (lowest : table.Knows table.getMinId)
    (settled : world.Settled table count)
    (h : world.step handler table gwId superframe = some world') :
    world'.Settled table count ∧
      ∀ carriers, world.sched.carriersGroups[g]? = some carriers →
        ∃ carriers', world'.sched.carriersGroups[g]? = some carriers' ∧
          carriers'.getTotalCapacity = carriers.getTotalCapacity ∧
          world'.sched.bbframes.emitted (g, 0) + world'.saved g ≤
            world.sched.bbframes.emitted (g, 0) + carriers.getTotalCapacity +
              counted count (carriers.getPreviousCapacity superframe.call.superframe) := by
  obtain ⟨state, pushed, h⟩ := Option.bind_eq_some_iff.mp h
  obtain ⟨⟨ok, sched⟩, called, rfl⟩ := Option.map_eq_some_iff.mp h
  have ready : (world.receive state.fifos).Ready table :=
    ⟨settled.ready.linked, settled.ready.opened, settled.ready.known⟩
  obtain ⟨rfl, ready', unused, length, superframed⟩ :=
    @schedule_ready _ _ _ _ g _ _ _ _ fits lowest ready called
  have length' := length.trans ((Arrivals.push_length pushed).trans settled.length)
  refine ⟨⟨ready', unused, length'⟩, ?_⟩
  intro carriers found
  obtain ⟨carriers', found', spent⟩ := superframed carriers found
  refine ⟨carriers', found', spent.total, ?_⟩
  have capacity := initCapacity_le carriers
  rw [settled.unused carriers (List.mem_of_getElem? found)] at capacity
  have budget := spent.budget
  rw [← length, length'] at budget
  rw [saved]
  dsimp only [receive] at budget ⊢
  rw [length', found', Option.elim_some]
  omega

/-- The total capacity of a carriers group. -/
def HasTotal (g total : Nat) (world : ScpcWorld) : Prop :=
  ∃ carriers, world.sched.carriersGroups[g]? = some carriers ∧ carriers.getTotalCapacity = total

/-- What a carriers group emits in several superframes. -/
theorem run_emitted_le {superframes : List Superframe} (fits : handler.Fits)
    (lowest : table.Knows table.getMinId) (settled : world.Settled table count)
    (found : world.sched.carriersGroups[g]? = some carriers)
    (ends : run (step handler table gwId) world superframes = some world') :
    world'.Settled table count ∧
      world'.HasTotal g carriers.getTotalCapacity ∧
      world'.sched.bbframes.emitted (g, 0) + world'.saved g ≤
        world.sched.bbframes.emitted (g, 0) + superframes.length * carriers.getTotalCapacity +
          world.saved g := by
  have kept : ∀ (world : ScpcWorld) (superframe : Superframe) (world' : ScpcWorld),
      world.Settled table count ∧ world.HasTotal g carriers.getTotalCapacity →
        world.step handler table gwId superframe = some world' →
          world'.Settled table count ∧ world'.HasTotal g carriers.getTotalCapacity := by
    rintro world superframe world' ⟨settled, before, found, total⟩ h
    obtain ⟨settled', group⟩ := @step_settled _ _ _ g _ _ _ _ fits lowest settled h
    obtain ⟨after, found', total', -⟩ := group before found
    exact ⟨settled', after, found', total'.trans total⟩
  have pays : ∀ (world : ScpcWorld) (superframe : Superframe) (world' : ScpcWorld),
      world.Settled table count ∧ world.HasTotal g carriers.getTotalCapacity →
        world.step handler table gwId superframe = some world' → True →
          True ∧ world'.sched.bbframes.emitted (g, 0) + world'.saved g ≤
            world.sched.bbframes.emitted (g, 0) + carriers.getTotalCapacity + world.saved g := by
    rintro world superframe world' ⟨settled, before, found, total⟩ h -
    obtain ⟨-, group⟩ := @step_settled _ _ _ g _ _ _ _ fits lowest settled h
    obtain ⟨after, found', -, paid⟩ := group before found
    have read := counted_mono count (before.getPreviousCapacity_le superframe.call.superframe)
    have savedBefore : world.saved g = counted count before.previousCapacity := by
      rw [saved, settled.length, found, Option.elim_some]
    rw [total] at paid
    refine ⟨trivial, ?_⟩
    omega
  obtain ⟨-, ⟨settled', total⟩, bound⟩ := run_amortised
    (P := fun world => world.Settled table count ∧ world.HasTotal g carriers.getTotalCapacity)
    (Q := fun _ => True) (fun world => world.sched.bbframes.emitted (g, 0)) (saved g)
    carriers.getTotalCapacity ⟨settled, carriers, found, rfl⟩ kept pays ends trivial
  exact ⟨settled', total, bound⟩

/-- **Capacity of an SCPC terminal.** In consecutive superframes from any state that is
reached, the symbols emitted on a carriers group are at most its total capacity for each
superframe and what was saved for the first one. What is saved for the next superframe is
what is left of that; a frame is emitted only when the capacity left is enough for it. -/
theorem scpc_emitted_le {queues : List (DvbFifo NetPacket)} {carriersGroups : List CarriersGroupDama}
    {before rest : List Superframe} {first : Superframe} (fits : handler.Fits)
    (nonempty : table.keys ≠ [])
    (parsed : ∀ carriers ∈ carriersGroups, carriers.fmtGroup.Parsed table)
    (unused : ∀ carriers ∈ carriersGroups, carriers.remainingCapacity = 0)
    (reached : run (step handler table gwId) (start queues carriersGroups) before = some world)
    (found : world.sched.carriersGroups[g]? = some carriers)
    (ends : run (step handler table gwId) world (first :: rest) = some world') :
    (∃ carriers', world'.sched.carriersGroups[g]? = some carriers' ∧
      carriers'.getTotalCapacity = carriers.getTotalCapacity ∧
      world'.sched.bbframes.emitted (g, 0) ≤ world.sched.bbframes.emitted (g, 0) +
        (rest.length + 1) * carriers.getTotalCapacity +
          carriers.getPreviousCapacity first.call.superframe ∧
      (queues ≠ [] → world'.sched.bbframes.emitted (g, 0) + carriers'.previousCapacity ≤
        world.sched.bbframes.emitted (g, 0) + (rest.length + 1) * carriers.getTotalCapacity +
          carriers.getPreviousCapacity first.call.superframe)) ∧
    ∀ (bbframes : BBFrames) (f capacitySym : Nat),
      (bbframes.addCompleteBBFrame table (g, 0) f capacitySym).1 = .ok →
        ∃ sizeSym, bbframes.sizeSym table f = some sizeSym ∧ sizeSym ≤ capacitySym := by
  constructor
  · have lowest := FmtDefinitionTable.knows_getMinId nonempty
    have settled : world.Settled table queues.length :=
      (allStates_of_step (P := fun world => world.Settled table queues.length)
        (start_settled parsed unused) (fun _ _ _ settled taken =>
          (@step_settled _ _ _ g _ _ _ _ fits lowest settled taken).1)).last reached
    obtain ⟨mid, taken, later⟩ := Option.bind_eq_some_iff.mp ends
    obtain ⟨settled₁, group⟩ := @step_settled _ _ _ g _ _ _ _ fits lowest settled taken
    obtain ⟨carriers₁, found₁, total₁, paid⟩ := group carriers found
    obtain ⟨settled', ⟨carriers', found', total'⟩, bound⟩ :=
      run_emitted_le fits lowest settled₁ found₁ later
    rw [total₁] at total' bound
    have read := counted_le queues.length (carriers.getPreviousCapacity first.call.superframe)
    have savedLast : world'.saved g = counted queues.length carriers'.previousCapacity := by
      rw [saved, settled'.length, found', Option.elim_some]
    have sum : (rest.length + 1) * carriers.getTotalCapacity =
      rest.length * carriers.getTotalCapacity + carriers.getTotalCapacity := Nat.succ_mul _ _
    refine ⟨carriers', found', total', ?_, ?_⟩
    · omega
    · intro exist
      rw [counted, if_neg (mt List.length_eq_zero_iff.mp exist)] at savedLast
      omega
  · intro bbframes f capacitySym added
    exact bbframes.addCompleteBBFrame_enough added

/-- A packet of two frames, of which the second one waits for the next superframe. -/
theorem scpc_emitted_le_oneFifo :
    ∃ world carriers, run (step .fragmenting sampleFmts 0)
        (start [.new (.forward .acm) 0 100] [sampleCarriers [2] 16108])
        [⟨[(0, sampleElement 0 3990)], ⟨0, 0, [(0, 2)]⟩, 10⟩, ⟨[], ⟨1, 0, [(0, 2)]⟩, 10⟩] =
          some world ∧
      world.sched.carriersGroups[0]? = some carriers ∧
      world.sched.bbframes.emitted (0, 0) + carriers.previousCapacity ≤ 2 * 16108 := by
  have survived : (run (step .fragmenting sampleFmts 0)
      (start [.new (.forward .acm) 0 100] [sampleCarriers [2] 16108])
      [⟨[(0, sampleElement 0 3990)], ⟨0, 0, [(0, 2)]⟩, 10⟩,
        ⟨[], ⟨1, 0, [(0, 2)]⟩, 10⟩]).isSome = true := by decide +kernel
  obtain ⟨world, ends⟩ := Option.isSome_iff_exists.mp survived
  have reached : run (step .fragmenting sampleFmts 0)
    (start [.new (.forward .acm) 0 100] [sampleCarriers [2] 16108]) [] = some _ := rfl
  have found : (start [.new (.forward .acm) 0 100]
    [sampleCarriers [2] 16108]).sched.carriersGroups[0]? = some (sampleCarriers [2] 16108) := rfl
  have nonempty : sampleFmts.keys ≠ [] := by decide +kernel
  have parsed : ∀ carriers ∈ [sampleCarriers [2] 16108], carriers.fmtGroup.Parsed sampleFmts := by
    intro carriers mem
    rw [List.mem_singleton.mp mem]
    exact ⟨rfl, by decide +kernel⟩
  have unused : ∀ carriers ∈ [sampleCarriers [2] 16108], carriers.remainingCapacity = 0 := by
    intro carriers mem
    rw [List.mem_singleton.mp mem]
    rfl
  obtain ⟨⟨carriers, stored, -, -, paid⟩, -⟩ := scpc_emitted_le EncapPacketHandler.fragmenting_fits
    nonempty parsed unused reached found ends
  exact ⟨world, carriers, ends, stored, paid (by simp)⟩

end ScpcWorld

end OpenSand
