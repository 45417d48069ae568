import OpenSand.Spot.CniGatewayCall
import OpenSand.Spot.CniTerminalCall

/-!
The reports of the C/N of a gateway and of its terminals.

Each side has its own tables and its own list of terminals. The C/N of a terminal is updated, the
packets enter and leave the FIFOs, and `addCniExt` is called, in any order. A report that the
plugin or a full FIFO refuses is lost: the change is considered reported when its value is read.
-/

namespace OpenSand

open Run

/-! ### Updates and packets -/

/-- What the rest of a channel does to a FIFO. -/
inductive FifoEvent where
  | push (elem : FifoElement NetPacket)
  | pushFront (elem : FifoElement NetPacket)
  | pop

def DvbFifo.serve (fifo : DvbFifo NetPacket) : FifoEvent → Option (DvbFifo NetPacket)
  | .push elem => (fifo.push elem).map (·.2)
  | .pushFront elem => (fifo.pushFront elem).map (·.2)
  | .pop => fifo.pop.map (·.2)

variable {tables gwTables talTables : ModcodDef → FmtDefinitionTable}

theorem DvbFifo.serve_whole {fifo fifo' : DvbFifo NetPacket} {event : FifoEvent}
    (whole : Whole fifo.queue) (served : fifo.serve event = some fifo') : Whole fifo'.queue := by
  have holds {elem : FifoElement NetPacket} {total : Nat}
      (length : elem.getTotalLength = some total) : elem.elem.isSome = true := by
    obtain ⟨packet, held, -⟩ := Option.map_eq_some_iff.mp length
    rw [held]
    rfl
  cases event with
  | push elem =>
      obtain ⟨⟨pushed, last⟩, push, rfl⟩ := Option.map_eq_some_iff.mp served
      obtain ⟨total, length, -⟩ := Option.map_eq_some_iff.mp push
      rcases (push_cases push).2.2 with ⟨-, -, queue⟩ | ⟨-, -, queue⟩
      · rw [Whole, queue, List.forall_mem_append]
        exact ⟨whole, List.forall_mem_singleton.mpr (holds length)⟩
      · rwa [Whole, queue]
  | pushFront elem =>
      obtain ⟨⟨pushed, last⟩, push, rfl⟩ := Option.map_eq_some_iff.mp served
      unfold pushFront reinsert at push
      split at push
      · obtain ⟨total, length, eq⟩ := Option.map_eq_some_iff.mp push
        cases eq
        exact List.forall_mem_cons.mpr ⟨holds length, whole⟩
      · cases push
        exact whole
  | pop =>
      obtain ⟨⟨out, last⟩, pop, rfl⟩ := Option.map_eq_some_iff.mp served
      have queue := (pop_cases pop).2.2
      rw [Whole, queue, List.forall_mem_append] at whole
      exact whole.2

namespace CniState

def setRequiredCni (tables : ModcodDef → FmtDefinitionTable) (s : CniState) (id : Nat) (cni : ℚ) :
    CniState :=
  { s with sts := s.sts.setRequiredCni tables id cni }

theorem setRequiredCni_upToDate {s : CniState} (before : s.UpToDate tables) (id : Nat) (cni : ℚ) :
    (s.setRequiredCni tables id cni).UpToDate tables := by
  intro other here differs
  refine StFmtSimuMap.setRequiredCni_flag cni ?_
  by_cases same : (s.sts.setRequiredCni tables id cni).cniValue tables other =
      s.sts.cniValue tables other
  · exact .inr (before other here fun last => differs (last.trans (congrArg some same.symm)))
  · exact .inl same

end CniState

namespace CniGateway

def setRequiredCniInput (tables : ModcodDef → FmtDefinitionTable) (gateway : CniGateway) (id : Nat)
    (cni : ℚ) : CniGateway :=
  { gateway with state := gateway.state.setRequiredCni tables id cni }

def serve (gateway : CniGateway) (label : String) (priority : Nat) (event : FifoEvent) :
    Option CniGateway :=
  (gateway.fifos.lookup label).bind fun fifos =>
    (fifos.lookup priority).bind fun fifo => (fifo.serve event).map fun fifo =>
      { gateway with
        fifos := gateway.fifos.modify label fun _ => fifos.modify priority fun _ => fifo }

theorem serve_whole {gateway gateway' : CniGateway} {label : String} {priority : Nat}
    {event : FifoEvent} (whole : gateway.WholeFifos)
    (served : gateway.serve label priority event = some gateway') :
    gateway'.WholeFifos ∧ gateway'.state = gateway.state := by
  obtain ⟨fifos, found, fifo, held, last, queue, rfl⟩ : ∃ fifos, _ ∧ ∃ fifo, _ ∧ ∃ last, _ ∧ _ := by
    simpa only [serve, Option.bind_eq_some_iff, Option.map_eq_some_iff] using served
  rw [whole_iff] at whole ⊢
  have within := whole _ (SortedMap.mem_of_lookup found)
  have served := DvbFifo.serve_whole
    (SortedMap.whole_elements.mp within _ (SortedMap.mem_of_lookup held)) queue
  refine ⟨SortedMap.forall_modify whole fun _ _ => ?_, rfl⟩
  rw [SortedMap.whole_elements] at within ⊢
  exact SortedMap.forall_modify within fun _ _ => served

end CniGateway

namespace CniTerminal

def setRequiredCniInput (tables : ModcodDef → FmtDefinitionTable) (terminal : CniTerminal)
    (id : Nat) (cni : ℚ) : CniTerminal :=
  { terminal with state := terminal.state.setRequiredCni tables id cni }

def serve (terminal : CniTerminal) (priority : Nat) (event : FifoEvent) : Option CniTerminal :=
  (terminal.fifos.lookup priority).bind fun fifo => (fifo.serve event).map fun fifo =>
    { terminal with fifos := terminal.fifos.modify priority fun _ => fifo }

theorem serve_whole {terminal terminal' : CniTerminal} {priority : Nat} {event : FifoEvent}
    (whole : terminal.WholeFifos) (served : terminal.serve priority event = some terminal') :
    terminal'.WholeFifos ∧ terminal'.state = terminal.state := by
  obtain ⟨fifo, held, last, queue, rfl⟩ : ∃ fifo, _ ∧ ∃ last, _ ∧ _ := by
    simpa only [serve, Option.bind_eq_some_iff, Option.map_eq_some_iff] using served
  rw [WholeFifos, SortedMap.whole_elements] at whole ⊢
  have served := DvbFifo.serve_whole (whole _ (SortedMap.mem_of_lookup held)) queue
  exact ⟨SortedMap.forall_modify whole fun _ _ => served, rfl⟩

end CniTerminal

/-! ### A call -/

/-- What a call of `addCniExt` promises, with its status: the changed terminals have their C/N in a
queued packet, or every element holds its packet. -/
structure CallKeeps (tables : ModcodDef → FmtDefinitionTable) (scpc : Nat → Prop)
    (s s' : CniState) (ok : Bool) (whole : Prop) : Prop where
  attaches : ok = true → CniState.Attaches tables scpc s s'
  holds : ok = false → whole

/-- A call that keeps the reports and its promise is one that the plugin lets through the queued
packets, and whose turns lose no report. -/
theorem callKeeps_iff {s s' : CniState} {scpc : Nat → Prop} {turns : List (Nat × CniTurn)}
    {ok : Bool} {whole' extend : Prop} (before : s.UpToDate tables)
    (spec : (ok = false ∧ ¬ whole' ∧ ¬ extend) ∨ (extend ∧ whole' ∧ ∃ told lost,
      CallTold tables scpc s turns ok s' told lost)) :
    (s'.UpToDate tables ∧ CallKeeps tables scpc s s' ok whole') ↔
      extend ∧ TurnsReport tables s turns := by
  rcases spec with ⟨failed, empty, fails⟩ | ⟨extend, whole', told, lost, call⟩
  · exact iff_of_false (fun keeps => empty (keeps.2.holds failed)) fun both => fails both.1
  · rw [and_iff_right extend, ← call.exact before]
    exact and_congr_right fun _ => ⟨fun keeps => keeps.attaches, fun attaches =>
      ⟨attaches, fun _ => whole'⟩⟩

/-! ### Runs -/

/-- The gateway and the terminals, and the status of the last call. -/
structure CniLink where
  gateway : CniGateway
  terminals : Nat → CniTerminal
  status : Bool

inductive CniEvent where
  | gatewayUpdate (id : Nat) (cni : ℚ)
  | terminalUpdate (tal id : Nat) (cni : ℚ)
  | gatewayFifo (label : String) (priority : Nat) (event : FifoEvent)
  | terminalFifo (tal priority : Nat) (event : FifoEvent)
  | gatewayCall (plugin : CniPlugin)
  | terminalCall (tal : Nat) (plugin : CniPlugin)

namespace CniLink

def setTerminal (link : CniLink) (tal : Nat) (terminal : CniTerminal) : CniLink :=
  { link with terminals := Function.update link.terminals tal terminal }

def step (gwTables talTables : ModcodDef → FmtDefinitionTable) (link : CniLink) :
    CniEvent → Option CniLink
  | .gatewayUpdate id cni =>
      some { link with gateway := link.gateway.setRequiredCniInput gwTables id cni }
  | .terminalUpdate tal id cni =>
      some (link.setTerminal tal ((link.terminals tal).setRequiredCniInput talTables id cni))
  | .gatewayFifo label priority event =>
      (link.gateway.serve label priority event).map fun gateway => { link with gateway := gateway }
  | .terminalFifo tal priority event =>
      ((link.terminals tal).serve priority event).map fun terminal => link.setTerminal tal terminal
  | .gatewayCall plugin =>
      (link.gateway.addCniExt gwTables plugin).map fun (ok, gateway) =>
        { link with gateway := gateway, status := ok }
  | .terminalCall tal plugin =>
      ((link.terminals tal).addCniExt talTables plugin).map fun (ok, terminal) =>
        { link.setTerminal tal terminal with status := ok }

/-- A terminal whose required C/N is not the last one reported is marked as changed. -/
def Reported (gwTables talTables : ModcodDef → FmtDefinitionTable) (link : CniLink) : Prop :=
  link.gateway.state.UpToDate gwTables ∧ ∀ tal, (link.terminals tal).state.UpToDate talTables

def WholeFifos (link : CniLink) : Prop :=
  link.gateway.WholeFifos ∧ ∀ tal, (link.terminals tal).WholeFifos

/-- A call keeps its promise. -/
def CallsKeep (gwTables talTables : ModcodDef → FmtDefinitionTable) (link : CniLink) :
    CniEvent → CniLink → Prop
  | .gatewayCall _, link' =>
      CallKeeps gwTables link.gateway.Scpc link.gateway.state link'.gateway.state link'.status
        link'.gateway.WholeFifos
  | .terminalCall tal _, link' =>
      CallKeeps talTables (link.terminals tal).Scpc (link.terminals tal).state
        (link'.terminals tal).state link'.status (link'.terminals tal).WholeFifos
  | _, _ => True

/-- The plugin and the FIFOs let the reports of a call through. -/
def Passes (gwTables talTables : ModcodDef → FmtDefinitionTable) (link : CniLink) :
    CniEvent → Prop
  | .gatewayCall plugin =>
      link.gateway.side.FirstsExtend gwTables plugin link.gateway.state link.gateway.elements ∧
        TurnsReport gwTables link.gateway.state
          (link.gateway.turns gwTables plugin (fun _ => 0) link.gateway.state.sts.ids.keys)
  | .terminalCall tal plugin =>
      (link.terminals tal).side.FirstsExtend talTables plugin (link.terminals tal).state
          (link.terminals tal).fifos.elements ∧
        TurnsReport talTables (link.terminals tal).state
          ((link.terminals tal).turns talTables plugin)
  | _ => True

/-- All the terminals of the lists are marked as changed, as new ones are. -/
structure Fresh (link : CniLink) : Prop where
  gateway : ∀ id, link.gateway.state.sts.isStPresent id = true →
    link.gateway.state.sts.getCniHasChanged id = true
  terminals : ∀ tal id, (link.terminals tal).state.sts.isStPresent id = true →
    (link.terminals tal).state.sts.getCniHasChanged id = true
  whole : link.WholeFifos

variable {link link' : CniLink} {event : CniEvent}

theorem setTerminal_iff {p : CniTerminal → Prop} (all : ∀ tal, p (link.terminals tal)) (tal : Nat)
    (terminal : CniTerminal) :
    (∀ other, p ((link.setTerminal tal terminal).terminals other)) ↔ p terminal := by
  refine (Function.forall_update_iff link.terminals fun _ terminal => p terminal).trans ?_
  exact and_iff_left fun other _ => all other

theorem step_exact (reported : link.Reported gwTables talTables) (whole : link.WholeFifos)
    (taken : link.step gwTables talTables event = some link') :
    ((link'.Reported gwTables talTables ∧ link.CallsKeep gwTables talTables event link') ↔
        link.Passes gwTables talTables event) ∧
      (link.Passes gwTables talTables event → link'.WholeFifos) := by
  obtain ⟨gateway, terminals⟩ := reported
  obtain ⟨gwWhole, talWhole⟩ := whole
  cases event with
  | gatewayUpdate id cni =>
      cases taken
      have after := CniState.setRequiredCni_upToDate gateway id cni
      exact ⟨iff_of_true ⟨⟨after, terminals⟩, trivial⟩ trivial, fun _ => ⟨gwWhole, talWhole⟩⟩
  | terminalUpdate tal id cni =>
      cases taken
      have after := CniState.setRequiredCni_upToDate (terminals tal) id cni
      refine ⟨iff_of_true ⟨⟨gateway, ?_⟩, trivial⟩ trivial, fun _ => ⟨gwWhole, ?_⟩⟩
      · exact (setTerminal_iff (p := fun terminal => terminal.state.UpToDate talTables)
          terminals tal _).mpr after
      · exact (setTerminal_iff (p := CniTerminal.WholeFifos) talWhole tal _).mpr (talWhole tal)
  | gatewayFifo label priority event =>
      obtain ⟨later, served, rfl⟩ := Option.map_eq_some_iff.mp taken
      obtain ⟨whole', same⟩ := CniGateway.serve_whole gwWhole served
      refine ⟨iff_of_true ⟨⟨?_, terminals⟩, trivial⟩ trivial, fun _ => ⟨whole', talWhole⟩⟩
      rwa [same]
  | terminalFifo tal priority event =>
      obtain ⟨later, served, rfl⟩ := Option.map_eq_some_iff.mp taken
      obtain ⟨whole', same⟩ := CniTerminal.serve_whole (talWhole tal) served
      refine ⟨iff_of_true ⟨⟨gateway, ?_⟩, trivial⟩ trivial, fun _ => ⟨gwWhole, ?_⟩⟩
      · refine (setTerminal_iff (p := fun terminal => terminal.state.UpToDate talTables)
          terminals tal _).mpr ?_
        rw [same]
        exact terminals tal
      · exact (setTerminal_iff (p := CniTerminal.WholeFifos) talWhole tal _).mpr whole'
  | gatewayCall plugin =>
      obtain ⟨⟨ok, later⟩, called, rfl⟩ := Option.map_eq_some_iff.mp taken
      have spec := CniGateway.addCniExt_spec gwWhole called
      refine ⟨?_, fun passes => ⟨?_, talWhole⟩⟩
      · rw [Passes, ← callKeeps_iff gateway spec]
        exact and_congr_left fun _ => and_iff_left terminals
      · rcases spec with ⟨-, -, fails⟩ | ⟨-, whole', -⟩
        · exact absurd passes.1 fails
        · exact whole'
  | terminalCall tal plugin =>
      obtain ⟨⟨ok, later⟩, called, rfl⟩ := Option.map_eq_some_iff.mp taken
      have spec := CniTerminal.addCniExt_spec (talWhole tal) called
      refine ⟨?_, fun passes => ⟨gwWhole, ?_⟩⟩
      · have own : (link.setTerminal tal later).terminals tal = later := by
          simp [setTerminal]
        rw [Passes, ← callKeeps_iff (terminals tal) spec, CallsKeep]
        dsimp only
        rw [own]
        refine and_congr_left fun _ => (and_iff_right gateway).trans ?_
        exact setTerminal_iff (p := fun terminal => terminal.state.UpToDate talTables)
          terminals tal later
      · refine (setTerminal_iff (p := CniTerminal.WholeFifos) talWhole tal later).mpr ?_
        rcases spec with ⟨-, -, fails⟩ | ⟨-, whole', -⟩
        · exact absurd passes.1 fails
        · exact whole'

/-- From new terminals, the reports are up to date in every state and the calls keep their
promises exactly when the plugin and the FIFOs let the reports through. -/
theorem allStates_reported_iff (gwTables talTables : ModcodDef → FmtDefinitionTable)
    (fresh : link.Fresh) (events : List CniEvent) :
    (AllStates (step gwTables talTables) (Reported gwTables talTables) link events ∧
        AllMoves (step gwTables talTables) (CallsKeep gwTables talTables) link events) ↔
      AllSteps (step gwTables talTables) (Passes gwTables talTables) link events := by
  have reported : link.Reported gwTables talTables :=
    ⟨fun id here _ => fresh.gateway id here, fun tal id here _ => fresh.terminals tal id here⟩
  rw [← allMoves_and_iff reported]
  refine allMoves_iff_allSteps
    (P := fun link => link.Reported gwTables talTables ∧ link.WholeFifos)
    ⟨reported, fresh.whole⟩ ?_ ?_
  · intro link event link' sound taken
    exact (step_exact sound.1 sound.2 taken).1
  · intro link event link' sound taken keeps
    obtain ⟨exact_step, whole⟩ := step_exact sound.1 sound.2 taken
    exact ⟨keeps.1, whole (exact_step.mp keeps)⟩

/-- A SCPC terminal with an empty FIFO, and a gateway without any. -/
def quietLink : CniLink where
  gateway := ⟨⟨.new 0, [], []⟩, 0, [], fun _ => none, none, .empty⟩
  terminals _ := {
    state := ⟨(StFmtSimuMap.new 0).addTerminal 1 0 .s2, [], []⟩
    talId := 1
    gwId := 0
    isScpc := true
    fifos := ⟨[(0, .new .unknown 0 10)], List.pairwise_singleton _ _⟩ }
  status := true

theorem quietLink_fresh : quietLink.Fresh where
  gateway id here := nomatch here
  terminals _ id here := by
    have found : id = 1 := List.mem_singleton.mp (SortedMap.mem_keys_iff.mpr here)
    subst found
    rfl
  whole := ⟨fun _ mem => (nomatch mem), fun _ _ mem => (nomatch mem)⟩

/-- A plugin that refuses every packet. -/
def refusing : CniPlugin := ⟨some, fun _ _ _ _ => none⟩

/-- A plugin that puts nothing in the packets. -/
def accepting : CniPlugin :=
  ⟨some, fun packet source dest _ => packet <|> some ⟨[], 0, source, dest⟩⟩

theorem quietLink_reported_iff :
    (AllStates (step (fun _ => ∅) fun _ => ∅) (Reported (fun _ => ∅) fun _ => ∅) quietLink
          [.terminalCall 1 accepting, .terminalUpdate 1 1 3, .terminalCall 1 accepting] ∧
        AllMoves (step (fun _ => ∅) fun _ => ∅) (CallsKeep (fun _ => ∅) fun _ => ∅) quietLink
          [.terminalCall 1 accepting, .terminalUpdate 1 1 3, .terminalCall 1 accepting]) ↔
      AllSteps (step (fun _ => ∅) fun _ => ∅) (Passes (fun _ => ∅) fun _ => ∅) quietLink
        [.terminalCall 1 accepting, .terminalUpdate 1 1 3, .terminalCall 1 accepting] :=
  allStates_reported_iff _ _ quietLink_fresh _

/-- The packet is refused: the change is no longer marked, and the packet is gone. -/
theorem refused_not_reported :
    ¬ AllStates (step (fun _ => ∅) fun _ => ∅) (Reported (fun _ => ∅) fun _ => ∅) quietLink
        [.terminalFifo 1 0 (.push ⟨some ⟨[], 0, 1, 0⟩, 0, 0⟩), .terminalCall 1 refusing] ∧
      ¬ AllMoves (step (fun _ => ∅) fun _ => ∅) (CallsKeep (fun _ => ∅) fun _ => ∅) quietLink
        [.terminalFifo 1 0 (.push ⟨some ⟨[], 0, 1, 0⟩, 0, 0⟩), .terminalCall 1 refusing] := by
  constructor
  · intro states
    have marked := ((states.2 _ rfl).2 _ rfl).2 1 1 rfl nofun
    exact nomatch marked
  · intro moves
    have whole := ((moves _ rfl).2 _ rfl).1.holds rfl
    exact nomatch whole _ List.mem_cons_self

end CniLink

end OpenSand
