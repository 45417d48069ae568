import OpenSand.Saloha.Ncc

/-!
What a schedule of Slotted Aloha forwards.

A category is scheduled from its own slots and terminals only, which no other category
touches, so all that a tick accepts and completes is read in the state before it. The
burst forwarded is that of the last active category and the acknowledgements are those of
all of them; when the schedule was triggered by data nothing is forwarded.
-/

namespace OpenSand

/-- A PDU handed out holds at least the fragment that completed it, and is in the order of
its fragments. -/
theorem TerminalContextSaloha.addPacket_pdu {open_ : Unspecified} {context context' : TerminalContextSaloha}
    {packet : SlottedAlohaPacketData} {pdu : List SlottedAlohaPacketData}
    (added : context.addPacket open_ packet = some (.propagation, pdu, context')) :
    pdu ≠ [] ∧ pdu.Pairwise fun a b => a.seq ≤ b.seq := by
  simp only [addPacket] at added
  split at added
  · obtain ⟨_, _, out⟩ := Option.map_eq_some_iff.mp added
    cases out
    constructor
    · intro none
      have length := congrArg List.length none
      simp at length
    · have sorted := @List.pairwise_mergeSort _
        (fun a b : SlottedAlohaPacketData => decide (a.seq ≤ b.seq))
        (fun a b c hab hbc => by simp only [decide_eq_true_eq] at *; exact UInt16.le_trans hab hbc)
        (fun a b => by simpa using UInt16.le_total a.seq b.seq)
        (context.waiting packet.qos.toNat packet.id.toNat ++ [packet])
      exact sorted.imp fun h => by simpa using h
  · split at added
    · cases added
    · cases added

namespace SlottedAlohaNcc

variable {config : SlottedAlohaNccConfig} {oracle : ScheduleOracle}

/-! ### Acknowledgements -/

theorem AckFrames.all_flatten (frames : AckFrames) :
    frames.all.flatten = frames.complete.flatten ++ frames.frame := by
  rw [AckFrames.all]
  split
  next empty => rw [empty, List.append_nil]
  next => simp

/-- No acknowledgement is lost between the frames. -/
theorem AckFrames.add_flatten (frames : AckFrames) (ack : SalohaPacketCtrl) :
    (frames.add ack).all.flatten = frames.all.flatten ++ [ack] := by
  rw [all_flatten, all_flatten, add]
  split <;> simp

/-! ### One packet -/

/-- A packet of another terminal is skipped, one of a terminal of the category is
acknowledged and given to its context. -/
theorem propagatePacket_cases {label : Nat} {state state' : Propagation}
    {packet : SlottedAlohaPacketData}
    (done : propagatePacket oracle label state packet = some state') :
    (known state.terminals label packet = false ∧ state' = state) ∨
    ∃ terminal propagate pdu context, known state.terminals label packet = true ∧
      state.terminals.lookup packet.srcTalId = some terminal ∧
      terminal.currentCategory = label ∧
      terminal.context.addPacket (oracle.unspecified packet) packet =
        some (propagate, pdu, context) ∧
      state' =
        { terminals := state.terminals.modify packet.srcTalId fun terminal =>
            { terminal with context := context }
          acks := state.acks.add (ackOf packet)
          completed := match propagate with
            | .noPropagation => state.completed
            | .propagation => state.completed ++ [pdu] } := by
  simp only [propagatePacket] at done
  split at done
  next simulated =>
    cases done
    exact .inl ⟨by simp [known, Nat.not_le.mpr simulated], rfl⟩
  next real =>
    split at done
    next absent =>
      cases done
      exact .inl ⟨by simp [known, absent], rfl⟩
    next terminal found =>
      split at done
      next wrong =>
        cases done
        exact .inl ⟨by simp [known, found, wrong], rfl⟩
      next right =>
        obtain ⟨⟨propagate, pdu, context⟩, added, rfl⟩ := Option.map_eq_some_iff.mp done
        refine .inr ⟨terminal, propagate, pdu, context, ?_, found, not_not.mp right, added, rfl⟩
        simpa [known, found] using ⟨Nat.not_lt.mp real, not_not.mp right⟩

/-! ### The terminals of the other categories -/

/-- The same terminals in a category. -/
def SameIn (label : Nat) (terminals terminals' : SortedMap Nat SalohaTerminal) : Prop :=
  ∀ talId terminal, terminal.currentCategory = label →
    (terminals.lookup talId = some terminal ↔ terminals'.lookup talId = some terminal)

theorem SameIn.refl (label : Nat) (terminals : SortedMap Nat SalohaTerminal) :
    SameIn label terminals terminals :=
  fun _ _ _ => Iff.rfl

theorem SameIn.symm {label : Nat} {terminals terminals' : SortedMap Nat SalohaTerminal}
    (same : SameIn label terminals terminals') : SameIn label terminals' terminals :=
  fun talId terminal here => (same talId terminal here).symm

theorem SameIn.trans {label : Nat} {first second third : SortedMap Nat SalohaTerminal}
    (same : SameIn label first second) (same' : SameIn label second third) :
    SameIn label first third :=
  fun talId terminal here => (same talId terminal here).trans (same' talId terminal here)

theorem known_iff {terminals : SortedMap Nat SalohaTerminal} {label : Nat}
    {packet : SlottedAlohaPacketData} :
    known terminals label packet = true ↔ packet.srcTalId ≤ BROADCAST_TAL_ID ∧
      ∃ terminal, terminals.lookup packet.srcTalId = some terminal ∧
        terminal.currentCategory = label := by
  simp [known, Option.any_eq_true]

theorem SameIn.known_eq {label : Nat} {terminals terminals' : SortedMap Nat SalohaTerminal}
    (same : SameIn label terminals terminals') :
    known terminals label = known terminals' label := by
  funext packet
  rw [Bool.eq_iff_iff, known_iff, known_iff]
  refine and_congr_right fun _ => exists_congr fun terminal => ?_
  constructor
  · rintro ⟨found, here⟩
    exact ⟨(same _ terminal here).mp found, here⟩
  · rintro ⟨found, here⟩
    exact ⟨(same _ terminal here).mpr found, here⟩

/-- A terminal whose context changes stays in its category. -/
theorem known_modify (terminals : SortedMap Nat SalohaTerminal) (talId : Nat)
    (context : TerminalContextSaloha) (label : Nat) :
    known (terminals.modify talId fun terminal => { terminal with context := context }) label =
      known terminals label := by
  funext packet
  simp only [known, SortedMap.lookup_modify]
  cases terminals.lookup packet.srcTalId with
  | none => rfl
  | some terminal =>
      by_cases here : packet.srcTalId = talId <;> simp [here]

/-- A context of another category is of no matter in this one. -/
theorem SameIn.modify_other {terminals : SortedMap Nat SalohaTerminal} {talId label : Nat}
    {terminal : SalohaTerminal} (found : terminals.lookup talId = some terminal)
    (elsewhere : terminal.currentCategory ≠ label) (context : TerminalContextSaloha) :
    SameIn label terminals
      (terminals.modify talId fun terminal => { terminal with context := context }) := by
  intro other held here
  rw [SortedMap.lookup_modify]
  by_cases same : other = talId
  · subst same
    rw [found]
    simp only [if_true, Option.map_some, Option.some.injEq]
    constructor
    · rintro rfl
      exact absurd here elsewhere
    · rintro rfl
      exact absurd here elsewhere
  · simp [same]

/-- The same change in two registers keeps them the same. -/
theorem SameIn.modify {label : Nat} {terminals terminals' : SortedMap Nat SalohaTerminal}
    (same : SameIn label terminals terminals') (talId : Nat) (context : TerminalContextSaloha) :
    SameIn label (terminals.modify talId fun terminal => { terminal with context := context })
      (terminals'.modify talId fun terminal => { terminal with context := context }) := by
  have one : ∀ {first second : SortedMap Nat SalohaTerminal}, SameIn label first second →
      ∀ other held, held.currentCategory = label →
        (first.modify talId fun terminal => { terminal with context := context }).lookup other =
          some held →
        (second.modify talId fun terminal => { terminal with context := context }).lookup other =
          some held := by
    intro first second same other held here there
    rw [SortedMap.lookup_modify] at there ⊢
    obtain ⟨former, found, changed⟩ := Option.map_eq_some_iff.mp there
    have category : former.currentCategory = label := by
      rw [← here, ← changed]
      split <;> rfl
    rw [(same other former category).mp found, Option.map_some, changed]
  exact fun other held here => ⟨one same other held here, one same.symm other held here⟩

/-! ### The packets of a category -/

/-- What handling the accepted packets of a category comes to: its terminals are
acknowledged in order, no terminal leaves its category, those of the other categories are
not touched, and the PDUs are in order. -/
structure PropagatesTo (label : Nat) (state : Propagation) (packets : List SlottedAlohaPacketData)
    (state' : Propagation) : Prop where
  acks : state'.acks.all.flatten =
    state.acks.all.flatten ++ (packets.filter (known state.terminals label)).map ackOf
  known : ∀ other, known state'.terminals other = known state.terminals other
  others : ∀ other, other ≠ label → SameIn other state.terminals state'.terminals
  pdus : ∀ pdu ∈ state'.completed, pdu ∈ state.completed ∨
    (pdu ≠ [] ∧ pdu.Pairwise fun a b => a.seq ≤ b.seq)

theorem PropagatesTo.refl (label : Nat) (state : Propagation) :
    PropagatesTo label state [] state where
  acks := (List.append_nil _).symm
  known _ := rfl
  others other _ := .refl other _
  pdus _ mem := .inl mem

theorem PropagatesTo.trans {label : Nat} {first second third : Propagation}
    {packets packets' : List SlottedAlohaPacketData} (step : PropagatesTo label first packets second)
    (rest : PropagatesTo label second packets' third) :
    PropagatesTo label first (packets ++ packets') third where
  acks := by
    rw [rest.acks, step.acks, step.known, List.filter_append, List.map_append, List.append_assoc]
  known other := (rest.known other).trans (step.known other)
  others other ne := (step.others other ne).trans (rest.others other ne)
  pdus pdu mem := by
    rcases rest.pdus pdu mem with former | new
    · exact step.pdus pdu former
    · exact .inr new

theorem propagatePacket_to {label : Nat} {state state' : Propagation}
    {packet : SlottedAlohaPacketData}
    (done : propagatePacket oracle label state packet = some state') :
    PropagatesTo label state [packet] state' := by
  rcases propagatePacket_cases done with ⟨skipped, rfl⟩ |
    ⟨terminal, propagate, pdu, context, taken, found, here, added, rfl⟩
  · exact { PropagatesTo.refl label _ with
      acks := by rw [List.filter_singleton, skipped]; simp }
  · constructor
    · simp [AckFrames.add_flatten, taken]
    · exact known_modify _ _ _
    · intro other ne
      exact .modify_other found (fun same => ne (same.symm.trans here)) context
    · intro pdu' mem
      cases propagate with
      | noPropagation => exact .inl mem
      | propagation =>
          rcases List.mem_append.mp mem with former | new
          · exact .inl former
          · rw [List.mem_singleton.mp new]
            exact .inr (TerminalContextSaloha.addPacket_pdu added)

theorem propagate_to {label : Nat} {state state' : Propagation}
    {packets : List SlottedAlohaPacketData}
    (done : propagate oracle label state packets = some state') :
    PropagatesTo label state packets state' := by
  induction packets generalizing state with
  | nil =>
      cases done
      exact .refl label _
  | cons packet packets ih =>
      obtain ⟨next, one, rest⟩ := Option.bind_eq_some_iff.mp done
      exact (propagatePacket_to one).trans (ih rest)

/-- Two states that a category cannot tell apart. -/
structure Agree (label : Nat) (state other : Propagation) : Prop where
  terminals : SameIn label state.terminals other.terminals
  acks : state.acks = other.acks
  completed : state.completed = other.completed

theorem propagatePacket_skip {label : Nat} {state : Propagation} {packet : SlottedAlohaPacketData}
    (unknown : known state.terminals label packet = false) :
    propagatePacket oracle label state packet = some state := by
  have away := mt known_iff.mpr (Bool.eq_false_iff.mp unknown)
  simp only [propagatePacket]
  split
  next => rfl
  next real =>
    split
    next => rfl
    next terminal found =>
      split
      next => rfl
      next here => exact absurd ⟨Nat.not_lt.mp real, terminal, found, not_not.mp here⟩ away

theorem propagatePacket_take {label : Nat} {state : Propagation} {packet : SlottedAlohaPacketData}
    {terminal : SalohaTerminal} {propagate : PropagateState} {pdu : List SlottedAlohaPacketData}
    {context : TerminalContextSaloha} (real : packet.srcTalId ≤ BROADCAST_TAL_ID)
    (found : state.terminals.lookup packet.srcTalId = some terminal)
    (here : terminal.currentCategory = label)
    (added : terminal.context.addPacket (oracle.unspecified packet) packet =
      some (propagate, pdu, context)) :
    propagatePacket oracle label state packet = some
      { terminals := state.terminals.modify packet.srcTalId fun terminal =>
          { terminal with context := context }
        acks := state.acks.add (ackOf packet)
        completed := match propagate with
          | .noPropagation => state.completed
          | .propagation => state.completed ++ [pdu] } := by
  simp only [propagatePacket, if_neg (Nat.not_lt.mpr real), found, here, ne_eq, not_true_eq_false,
    if_false, added, Option.map_some]
  cases propagate <;> rfl

theorem propagatePacket_agree {label : Nat} {state state' other : Propagation}
    {packet : SlottedAlohaPacketData} (agree : Agree label state other)
    (done : propagatePacket oracle label state packet = some state') :
    ∃ other', propagatePacket oracle label other packet = some other' ∧
      Agree label state' other' := by
  rcases propagatePacket_cases done with ⟨skipped, rfl⟩ |
    ⟨terminal, propagate, pdu, context, taken, found, here, added, rfl⟩
  · rw [agree.terminals.known_eq] at skipped
    exact ⟨other, propagatePacket_skip skipped, agree⟩
  · have found' := (agree.terminals packet.srcTalId terminal here).mp found
    refine ⟨_, propagatePacket_take (known_iff.mp taken).1 found' here added, ?_⟩
    constructor
    · exact agree.terminals.modify packet.srcTalId context
    · simp only [agree.acks]
    · cases propagate <;> simp only [agree.completed]

theorem propagate_agree {label : Nat} {state state' other : Propagation}
    {packets : List SlottedAlohaPacketData} (agree : Agree label state other)
    (done : propagate oracle label state packets = some state') :
    ∃ other', propagate oracle label other packets = some other' ∧
      Agree label state' other' := by
  induction packets generalizing state other with
  | nil =>
      cases done
      exact ⟨other, rfl, agree⟩
  | cons packet packets ih =>
      obtain ⟨next, one, rest⟩ := Option.bind_eq_some_iff.mp done
      obtain ⟨next', one', agree'⟩ := propagatePacket_agree agree one
      obtain ⟨other', rest', agree''⟩ := ih agree' rest
      exact ⟨other', Option.bind_eq_some_iff.mpr ⟨next', one', rest'⟩, agree''⟩

/-! ### What a schedule takes from the state before it -/

def active (ncc : SlottedAlohaNcc) (label : Nat) : Bool :=
  (ncc.categories.lookup label).any fun category => category.receivedPacketsNbr ≠ 0

/-- The packets accepted in a category. -/
def acceptedIn (config : SlottedAlohaNccConfig) (oracle : ScheduleOracle) (ncc : SlottedAlohaNcc)
    (label : Nat) : List SlottedAlohaPacketData :=
  match ncc.categories.lookup label with
  | none => []
  | some category =>
      if category.receivedPacketsNbr = 0 then []
      else (config.removeCollisions label (oracle.simulated label category.slots)).getD []

/-- The PDUs completed in a category. -/
def completedIn (config : SlottedAlohaNccConfig) (oracle : ScheduleOracle) (ncc : SlottedAlohaNcc)
    (label : Nat) : List (List SlottedAlohaPacketData) :=
  ((propagate oracle label ⟨ncc.terminals, ⟨[], []⟩, []⟩
    (ncc.acceptedIn config oracle label)).map Propagation.completed).getD []

/-- The packets accepted, with their categories. -/
def acceptedOf (config : SlottedAlohaNccConfig) (oracle : ScheduleOracle) (ncc : SlottedAlohaNcc)
    (labels : List Nat) : List (Nat × SlottedAlohaPacketData) :=
  labels.flatMap fun label => (ncc.acceptedIn config oracle label).map (label, ·)

/-- A category sees no difference between two states. -/
structure SameCategory (label : Nat) (ncc ncc' : SlottedAlohaNcc) : Prop where
  category : ncc'.categories.lookup label = ncc.categories.lookup label
  terminals : SameIn label ncc.terminals ncc'.terminals

section SameCategory

variable {label : Nat} {ncc ncc' : SlottedAlohaNcc} (same : SameCategory label ncc ncc')
include same

theorem SameCategory.active_eq : ncc'.active label = ncc.active label := by
  simp only [active, same.category]

theorem SameCategory.acceptedIn_eq :
    ncc'.acceptedIn config oracle label = ncc.acceptedIn config oracle label := by
  simp only [acceptedIn, same.category]

theorem SameCategory.known_eq : known ncc'.terminals label = known ncc.terminals label :=
  same.terminals.known_eq.symm

theorem SameCategory.completedIn_eq :
    ncc'.completedIn config oracle label = ncc.completedIn config oracle label := by
  have agree : Agree label ⟨ncc.terminals, ⟨[], []⟩, []⟩ ⟨ncc'.terminals, ⟨[], []⟩, []⟩ :=
    ⟨same.terminals, rfl, rfl⟩
  have agree' : Agree label ⟨ncc'.terminals, ⟨[], []⟩, []⟩ ⟨ncc.terminals, ⟨[], []⟩, []⟩ :=
    ⟨same.terminals.symm, rfl, rfl⟩
  rw [completedIn, completedIn, same.acceptedIn_eq]
  cases done : propagate oracle label ⟨ncc.terminals, ⟨[], []⟩, []⟩
      (ncc.acceptedIn config oracle label) with
  | some state =>
      obtain ⟨state', done', last⟩ := propagate_agree agree done
      rw [done', Option.map_some, Option.map_some, last.completed]
  | none =>
      cases done' : propagate oracle label ⟨ncc'.terminals, ⟨[], []⟩, []⟩
          (ncc.acceptedIn config oracle label) with
      | none => rfl
      | some state' =>
          obtain ⟨state, again, _⟩ := propagate_agree agree' done'
          rw [done] at again
          cases again

end SameCategory

theorem SameCategory.refl (label : Nat) (ncc : SlottedAlohaNcc) : SameCategory label ncc ncc :=
  ⟨rfl, .refl _ _⟩

/-! ### Schedules -/

/-- What the schedule of a category comes to. -/
structure CategoryScheduled (config : SlottedAlohaNccConfig) (oracle : ScheduleOracle)
    (label : Nat) (ncc : SlottedAlohaNcc) (output : Output) (ncc' : SlottedAlohaNcc)
    (output' : Output) : Prop where
  record : ncc'.record = { ncc.record with
    accepted := ncc.record.accepted ++ (ncc.acceptedIn config oracle label).map (label, ·)
    completed := ncc.record.completed ++ ncc.completedIn config oracle label }
  burst : output'.burst =
    if ncc.active label then
      some ((ncc.completedIn config oracle label).flatten.map (removeSalohaHeader config))
    else output.burst
  acks : output'.ackFrames.flatten = output.ackFrames.flatten ++
    ((ncc.acceptedIn config oracle label).filter (known ncc.terminals label)).map ackOf
  others : ∀ other, other ≠ label → SameCategory other ncc ncc'
  pdus : ∀ pdu ∈ ncc.completedIn config oracle label,
    pdu ≠ [] ∧ pdu.Pairwise fun a b => a.seq ≤ b.seq

theorem scheduleCategory_scheduled {label : Nat} {ncc ncc' : SlottedAlohaNcc}
    {output output' : Output}
    (done : scheduleCategory config oracle label ncc output = some (ncc', output')) :
    CategoryScheduled config oracle label ncc output ncc' output' := by
  simp only [scheduleCategory] at done
  split at done
  next => cases done
  next category found =>
    split at done
    next idle =>
      cases done
      have none : ncc.acceptedIn config oracle label = [] := by simp [acceptedIn, found, idle]
      have nothing : ncc.completedIn config oracle label = [] := by
        simp [completedIn, none, propagate]
      constructor
      · simp [none, nothing]
      · simp [active, found, idle]
      · simp [none]
      · exact fun other _ => .refl other _
      · simp [nothing]
    next busy =>
      obtain ⟨accepted, resolved, rest⟩ := Option.bind_eq_some_iff.mp done
      obtain ⟨state, propagated, out⟩ := Option.map_eq_some_iff.mp rest
      cases out
      have taken : ncc.acceptedIn config oracle label = accepted := by
        simp [acceptedIn, found, busy, resolved]
      have completed : ncc.completedIn config oracle label = state.completed := by
        simp [completedIn, taken, propagated]
      have reached := propagate_to propagated
      constructor
      · simp only [taken, completed]
      · simp [active, found, busy, completed]
      · rw [List.flatten_append, reached.acks, taken]
        simp [AckFrames.all]
      · intro other ne
        exact ⟨SortedMap.lookup_modify_of_ne _ ne _, reached.others other ne⟩
      · rw [completed]
        intro pdu mem
        rcases reached.pdus pdu mem with former | new
        · cases former
        · exact new

/-- The packets of the PDUs completed in a category, without their headers. -/
def burstOf (config : SlottedAlohaNccConfig) (oracle : ScheduleOracle) (ncc : SlottedAlohaNcc)
    (label : Nat) : List NetPacket :=
  (ncc.completedIn config oracle label).flatten.map (removeSalohaHeader config)

/-- What the schedule of categories comes to. -/
structure Scheduled (config : SlottedAlohaNccConfig) (oracle : ScheduleOracle)
    (labels : List Nat) (ncc : SlottedAlohaNcc) (output : Output) (ncc' : SlottedAlohaNcc)
    (output' : Output) : Prop where
  record : ncc'.record = { ncc.record with
    accepted := ncc.record.accepted ++ ncc.acceptedOf config oracle labels
    completed := ncc.record.completed ++ labels.flatMap (ncc.completedIn config oracle) }
  burst : output'.burst = ((labels.filter ncc.active).getLast?.map
    (ncc.burstOf config oracle)).or output.burst
  acks : output'.ackFrames.flatten = output.ackFrames.flatten ++
    ((ncc.acceptedOf config oracle labels).filter fun entry =>
      known ncc.terminals entry.1 entry.2).map fun entry => ackOf entry.2
  pdus : ∀ pdu ∈ labels.flatMap (ncc.completedIn config oracle),
    pdu ≠ [] ∧ pdu.Pairwise fun a b => a.seq ≤ b.seq

theorem acceptedOf_congr {labels : List Nat} {ncc ncc' : SlottedAlohaNcc}
    (same : ∀ label ∈ labels, SameCategory label ncc ncc') :
    ncc'.acceptedOf config oracle labels = ncc.acceptedOf config oracle labels :=
  List.flatMap_congr fun label mem => by rw [(same label mem).acceptedIn_eq]

theorem mem_acceptedOf {labels : List Nat} {ncc : SlottedAlohaNcc}
    {entry : Nat × SlottedAlohaPacketData} (mem : entry ∈ ncc.acceptedOf config oracle labels) :
    entry.1 ∈ labels ∧ entry.2 ∈ ncc.acceptedIn config oracle entry.1 := by
  obtain ⟨label, here, there⟩ := List.mem_flatMap.mp mem
  obtain ⟨packet, accepted, rfl⟩ := List.mem_map.mp there
  exact ⟨here, accepted⟩

theorem scheduleCategories_scheduled {labels : List Nat} (nodup : labels.Nodup)
    {ncc ncc' : SlottedAlohaNcc} {output output' : Output}
    (done : scheduleCategories config oracle labels ncc output = some (ncc', output')) :
    Scheduled config oracle labels ncc output ncc' output' := by
  induction labels generalizing ncc output with
  | nil =>
      cases done
      constructor <;> simp [acceptedOf]
  | cons label labels ih =>
      obtain ⟨⟨next, nextOutput⟩, one, rest⟩ := Option.bind_eq_some_iff.mp done
      obtain ⟨away, nodup'⟩ := List.nodup_cons.mp nodup
      have first := scheduleCategory_scheduled one
      have last := ih nodup' rest
      -- the remaining categories see what they saw before the first one
      have same : ∀ other ∈ labels, SameCategory other ncc next :=
        fun other mem => first.others other fun eq => away (eq ▸ mem)
      have accepted : next.acceptedOf config oracle labels = ncc.acceptedOf config oracle labels :=
        acceptedOf_congr same
      have completed : labels.flatMap (next.completedIn config oracle) =
          labels.flatMap (ncc.completedIn config oracle) :=
        List.flatMap_congr fun other mem => (same other mem).completedIn_eq
      have actives : labels.filter next.active = labels.filter ncc.active :=
        List.filter_congr fun other mem => (same other mem).active_eq
      constructor
      · rw [last.record, first.record, accepted, completed]
        simp [acceptedOf]
      · rw [last.burst, first.burst, actives, List.filter_cons]
        cases ended : (labels.filter ncc.active).getLast? with
        | none =>
            rw [List.getLast?_eq_none_iff.mp ended]
            by_cases here : ncc.active label = true <;> simp [here, burstOf]
        | some final =>
            have mem := List.mem_of_mem_filter (List.mem_of_getLast? ended)
            have burst : next.burstOf config oracle final = ncc.burstOf config oracle final := by
              rw [burstOf, burstOf, (same final mem).completedIn_eq]
            by_cases here : ncc.active label = true <;> simp [here, burst, ended, List.getLast?_cons]
      · have acked : (ncc.acceptedOf config oracle labels).filter
              (fun entry => known next.terminals entry.1 entry.2) =
            (ncc.acceptedOf config oracle labels).filter
              fun entry => known ncc.terminals entry.1 entry.2 := by
          refine List.filter_congr fun entry mem => ?_
          rw [(same entry.1 (mem_acceptedOf mem).1).known_eq]
        rw [last.acks, first.acks, accepted, acked]
        simp [acceptedOf, List.filter_map, Function.comp_def]
      · intro pdu mem
        rw [List.flatMap_cons] at mem
        rcases List.mem_append.mp mem with here | later
        · exact first.pdus pdu here
        · exact last.pdus pdu (completed ▸ later)

/-! ### Messages -/

theorem receivePackets_record {ncc ncc' : SlottedAlohaNcc} {packets : List SlottedAlohaPacketData}
    (stored : ncc.receivePackets packets = some ncc') : ncc'.record = ncc.record := by
  induction packets generalizing ncc with
  | nil =>
      cases stored
      rfl
  | cons packet packets ih =>
      obtain ⟨next, one, rest⟩ := Option.bind_eq_some_iff.mp stored
      rw [ih rest]
      simp only [receivePacket] at one
      split at one
      · cases one
        rfl
      · obtain ⟨category, _, rfl⟩ := Option.map_eq_some_iff.mp one
        split <;> rfl

theorem beforeSchedule_record {ncc ncc' : SlottedAlohaNcc} {message : NccMessage}
    (before : ncc.beforeSchedule config message = some ncc') : ncc'.record = ncc.record := by
  cases message with
  | sof sfNumber oracle =>
      cases before
      rfl
  | salohaData content oracle =>
      obtain ⟨packets, _, stored⟩ := Option.bind_eq_some_iff.mp before
      exact receivePackets_record stored

/-- What a schedule must find for all it accepts and completes to be forwarded: at a start
of frame PDUs complete in the last active category only and the packets accepted are of
terminals known in their category, and at a frame of data nothing is accepted. -/
def ForwardsAll (config : SlottedAlohaNccConfig) (ncc : SlottedAlohaNcc) : NccMessage → Prop
  | .sof _ oracle =>
      (∀ label ∈ (ncc.labels.filter ncc.active).dropLast, ncc.completedIn config oracle label = []) ∧
      ∀ entry ∈ ncc.acceptedOf config oracle ncc.labels,
        known ncc.terminals entry.1 entry.2 = true
  | .salohaData _ oracle => ncc.acceptedOf config oracle ncc.labels = []

/-- The condition on a message, at the tick of a Slotted Aloha frame. -/
def Forwards (config : SlottedAlohaNccConfig) (ncc : SlottedAlohaNcc) (message : NccMessage) : Prop :=
  ∀ ncc', ncc.beforeSchedule config message = some ncc' → ncc'.isSalohaFrameTick config = true →
    ncc'.ForwardsAll config message

theorem labels_nodup (ncc : SlottedAlohaNcc) : ncc.labels.Nodup :=
  List.pairwise_map.mpr (ncc.categories.sorted.imp ne_of_lt)

theorem completedIn_idle {ncc : SlottedAlohaNcc} {label : Nat} (idle : ncc.active label = false) :
    ncc.completedIn config oracle label = [] := by
  have nothing : ncc.acceptedIn config oracle label = [] := by
    simp only [active, Option.any_eq_false] at idle
    simp only [acceptedIn]
    split
    next => rfl
    next category found => rw [if_pos (by simpa using idle category found)]
  simp [completedIn, nothing, propagate]

/-- The PDUs completed are those of the active categories. -/
theorem completedIn_active (ncc : SlottedAlohaNcc) (labels : List Nat) :
    labels.flatMap (ncc.completedIn config oracle) =
      (labels.filter ncc.active).flatMap (ncc.completedIn config oracle) := by
  induction labels with
  | nil => rfl
  | cons label labels ih =>
      rw [List.flatMap_cons, ih, List.filter_cons]
      split
      next => rw [List.flatMap_cons]
      next idle => rw [completedIn_idle (Bool.eq_false_iff.mpr idle), List.nil_append]

/-- A record that grows by what is accepted, completed, handed and acknowledged stays good
exactly when all that is new is forwarded. -/
theorem Propagated.grow_iff {ncc ncc' : SlottedAlohaNcc} (good : Propagated config ncc)
    {accepted : List (Nat × SlottedAlohaPacketData)} {completed : List (List SlottedAlohaPacketData)}
    {handed : List NetPacket} {acks : List SalohaPacketCtrl}
    (grown : ncc'.record = ⟨ncc.record.accepted ++ accepted, ncc.record.completed ++ completed,
      ncc.record.handed ++ handed, ncc.record.acks ++ acks⟩)
    (pdus : ∀ pdu ∈ completed, pdu ≠ [] ∧ pdu.Pairwise fun a b => a.seq ≤ b.seq) :
    Propagated config ncc' ↔ handed = completed.flatten.map (removeSalohaHeader config) ∧
      acks = accepted.map fun entry => ackOf entry.2 := by
  constructor
  · intro good'
    have all := good'.handed
    have all' := good'.acks
    rw [grown] at all all'
    simp only [List.flatten_append, List.map_append, good.handed, good.acks] at all all'
    exact ⟨List.append_cancel_left all, List.append_cancel_left all'⟩
  · rintro ⟨rfl, rfl⟩
    constructor
    · rw [grown]
      simp only [List.flatten_append, List.map_append, good.handed]
    · intro pdu mem
      rw [grown] at mem
      rcases List.mem_append.mp mem with former | new
      · exact good.ordered pdu former
      · exact (pdus pdu new).2
    · rw [grown]
      simp only [List.map_append, good.acks]

/-- The burst holds all the PDUs completed exactly when none completes before the last
active category. -/
theorem burst_eq_iff {ncc : SlottedAlohaNcc} {labels : List Nat}
    (pdus : ∀ pdu ∈ labels.flatMap (ncc.completedIn config oracle),
      pdu ≠ [] ∧ pdu.Pairwise fun a b => a.seq ≤ b.seq) :
    ((labels.filter ncc.active).getLast?.map (ncc.burstOf config oracle)).getD [] =
        (labels.flatMap (ncc.completedIn config oracle)).flatten.map (removeSalohaHeader config) ↔
      ∀ label ∈ (labels.filter ncc.active).dropLast, ncc.completedIn config oracle label = [] := by
  rw [completedIn_active] at pdus ⊢
  rcases List.eq_nil_or_concat' (labels.filter ncc.active) with none | ⟨first, last, split⟩
  · simp [none]
  · rw [split, List.flatMap_append] at pdus
    simp only [split, List.getLast?_append, List.getLast?_singleton, Option.some_or,
      Option.map_some, Option.getD_some, List.flatMap_append, List.flatMap_singleton,
      List.flatten_append, List.map_append, List.dropLast_concat, burstOf,
      List.self_eq_append_left, List.map_eq_nil_iff, List.flatten_eq_nil_iff]
    constructor
    · intro empty label mem
      rw [List.eq_nil_iff_forall_not_mem]
      intro pdu held
      have there := List.mem_flatMap.mpr ⟨label, mem, held⟩
      exact (pdus pdu (List.mem_append_left _ there)).1 (empty pdu there)
    · intro none pdu mem
      obtain ⟨label, here, held⟩ := List.mem_flatMap.mp mem
      rw [none label here] at held
      cases held

theorem acks_eq_iff {ncc : SlottedAlohaNcc} {accepted : List (Nat × SlottedAlohaPacketData)} :
    ((accepted.filter fun entry => known ncc.terminals entry.1 entry.2).map
        fun entry => ackOf entry.2) = accepted.map (fun entry => ackOf entry.2) ↔
      ∀ entry ∈ accepted, known ncc.terminals entry.1 entry.2 = true := by
  constructor
  · intro same
    have length := congrArg List.length same
    rw [List.length_map, List.length_map] at length
    exact List.length_filter_eq_length_iff.mp length
  · intro all
    rw [List.filter_eq_self.mpr all]

theorem completed_nil {ncc : SlottedAlohaNcc} {labels : List Nat}
    (none : ncc.acceptedOf config oracle labels = []) :
    labels.flatMap (ncc.completedIn config oracle) = [] := by
  refine List.flatMap_eq_nil_iff.mpr fun label mem => ?_
  have nothing : ncc.acceptedIn config oracle label = [] :=
    List.map_eq_nil_iff.mp (List.flatMap_eq_nil_iff.mp none label mem)
  simp [completedIn, nothing, propagate]

/-- The exact law of one message. -/
theorem step_propagated_iff {ncc ncc' : SlottedAlohaNcc} {message : NccMessage}
    (good : Propagated config ncc) (taken : step config ncc message = some ncc') :
    Propagated config ncc' ↔ Forwards config ncc message := by
  obtain ⟨mid, before, rest⟩ := Option.bind_eq_some_iff.mp taken
  obtain ⟨⟨last, output⟩, done, out⟩ := Option.map_eq_some_iff.mp rest
  have kept := beforeSchedule_record before
  have here : Forwards config ncc message ↔
      (mid.isSalohaFrameTick config = true → mid.ForwardsAll config message) := by
    constructor
    · intro forwards
      exact forwards mid before
    · intro forwards other before' tick
      cases before.symm.trans before'
      exact forwards tick
  rw [here]
  by_cases tick : mid.isSalohaFrameTick config = true
  · rw [schedule, if_pos tick] at done
    simp only [tick, forall_const]
    cases message with
    | sof sfNumber oracle =>
        have scheduled : Scheduled config oracle mid.labels mid ⟨none, []⟩ last output :=
          scheduleCategories_scheduled mid.labels_nodup done
        have record := scheduled.record
        rw [kept] at record
        have grown : ncc'.record = ⟨ncc.record.accepted ++ mid.acceptedOf config oracle mid.labels,
            ncc.record.completed ++ mid.labels.flatMap (mid.completedIn config oracle),
            ncc.record.handed ++ output.burst.getD [],
            ncc.record.acks ++ output.ackFrames.flatten⟩ := by
          rw [← out]
          simp only [record]
        rw [good.grow_iff grown scheduled.pdus, scheduled.burst, scheduled.acks]
        simp only [Option.or_none, List.flatten_nil, List.nil_append]
        rw [burst_eq_iff scheduled.pdus, acks_eq_iff, ForwardsAll]
    | salohaData content oracle =>
        have scheduled : Scheduled config oracle mid.labels mid ⟨none, []⟩ last output :=
          scheduleCategories_scheduled mid.labels_nodup done
        have record := scheduled.record
        rw [kept] at record
        have grown : ncc'.record = ⟨ncc.record.accepted ++ mid.acceptedOf config oracle mid.labels,
            ncc.record.completed ++ mid.labels.flatMap (mid.completedIn config oracle),
            ncc.record.handed ++ [], ncc.record.acks ++ []⟩ := by
          rw [← out]
          simp only [record, List.append_nil]
        rw [good.grow_iff grown scheduled.pdus, ForwardsAll]
        constructor
        · rintro ⟨_, none⟩
          exact List.map_eq_nil_iff.mp none.symm
        · intro none
          rw [completed_nil none, none]
          exact ⟨rfl, rfl⟩
  · rw [schedule, if_neg tick] at done
    cases done
    have grown : ncc'.record = ⟨ncc.record.accepted ++ [], ncc.record.completed ++ [],
        ncc.record.handed ++ [], ncc.record.acks ++ []⟩ := by
      rw [← out]
      cases message <;> simp [kept]
    rw [good.grow_iff grown (by simp)]
    simp [tick]

theorem propagated_new (superFrameCounter : Nat) (categories : SortedMap Nat TerminalCategorySaloha)
    (terminals : SortedMap Nat SalohaTerminal) :
    Propagated config (new superFrameCounter categories terminals) where
  handed := rfl
  ordered _ mem := absurd mem List.not_mem_nil
  acks := rfl

/-- A gateway forwards all it completes and accepts along a run exactly when every message
of it forwards what its schedule completes and accepts. -/
theorem propagated_iff (config : SlottedAlohaNccConfig) (superFrameCounter : Nat)
    (categories : SortedMap Nat TerminalCategorySaloha) (terminals : SortedMap Nat SalohaTerminal)
    (messages : List NccMessage) :
    Run.AllStates (step config) (Propagated config)
        (new superFrameCounter categories terminals) messages ↔
      Run.AllSteps (step config) (Forwards config)
        (new superFrameCounter categories terminals) messages :=
  Run.allStates_iff_allSteps (propagated_new superFrameCounter categories terminals)
    fun _ _ _ good taken => step_propagated_iff good taken

/-- A gateway with one category of one slot and one terminal, at the tick of a frame. -/
def oneSlotNcc : SlottedAlohaNcc :=
  new 0 ⟨[(0, ⟨0, [(4, [])]⟩)], List.pairwise_singleton _ _⟩
    ⟨[(1, ⟨0, TerminalContextSaloha.new⟩)], List.pairwise_singleton _ _⟩

def dsaConfig : SlottedAlohaNccConfig where
  sfPerSaframe := 3
  handler := ⟨fun _ => 1, fun _ => 0⟩
  build payload := ⟨payload, 0, 0, 0⟩
  removeCollisions _ slots := some (dsaRemoveCollisions [] slots)

/-- A frame of one packet, without simulated traffic. -/
def onePacketData : NccMessage :=
  .salohaData [0, 23, 14, 0, 1, 0, 0, 0, 7, 0, 4, 0, 0, 0, 2, 0, 0, 0, 0, 18, 1, 2, 3]
    ⟨fun _ slots => slots, fun _ => leftover⟩

/-- A packet of data received in the superframe of the tick is accepted by the schedule it
triggers and never acknowledged. -/
theorem data_at_tick_not_propagated :
    ¬ ∀ config superFrameCounter categories terminals messages,
      Run.AllStates (step config) (Propagated config)
        (new superFrameCounter categories terminals) messages := by
  intro propagated
  have counts : (Run.run (step dsaConfig) oneSlotNcc [onePacketData]).map
      (fun ncc => (ncc.record.accepted.length, ncc.record.acks.length)) = some (1, 0) := by
    decide +kernel
  obtain ⟨ncc, ends, lengths⟩ := Option.map_eq_some_iff.mp counts
  have good := ((propagated dsaConfig _ _ _ [onePacketData]).last ends).acks
  have same := congrArg List.length good
  rw [List.length_map] at same
  simp only [Prod.mk.injEq] at lengths
  omega

end SlottedAlohaNcc

end OpenSand
