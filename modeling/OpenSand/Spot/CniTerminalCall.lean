import OpenSand.Spot.CniReports

/-!
A call of `addCniExt` of a terminal.

The terminal reports its own C/N only: in the first packet to the gateway, or in an empty packet
when there is none.
-/

namespace OpenSand

variable {tables : ModcodDef → FmtDefinitionTable} {plugin : CniPlugin}

namespace CniTerminal

variable {terminal terminal' : CniTerminal}

theorem side_proper (terminal : CniTerminal) : terminal.side.Proper := by
  intro packet id about
  obtain ⟨-, own⟩ := Option.ite_none_right_eq_some.mp about
  exact Option.some.inj own

def WholeFifos (terminal : CniTerminal) : Prop := Whole terminal.fifos.elements

/-- A SCPC terminal reports its own C/N. -/
def Scpc (terminal : CniTerminal) (id : Nat) : Prop := terminal.isScpc = true ∧ id = terminal.talId

/-- The turn of the terminal, when no packet can report it. -/
def turn (tables : ModcodDef → FmtDefinitionTable) (plugin : CniPlugin) (terminal : CniTerminal) :
    CniTurn :=
  terminal.side.emptyTurn tables plugin terminal.state terminal.gwId 0 (terminal.fifos.lookup 0)

/-- The terminal is changed and no queued packet can report it. -/
def Quiet (terminal : CniTerminal) : Prop :=
  terminal.isScpc = true ∧ terminal.state.sts.getCniHasChanged terminal.talId = true ∧
    terminal.side.firstAbout terminal.fifos.elements terminal.talId = none

instance (terminal : CniTerminal) : Decidable terminal.Quiet :=
  inferInstanceAs (Decidable (_ ∧ _ ∧ _))

def turns (tables : ModcodDef → FmtDefinitionTable) (plugin : CniPlugin)
    (terminal : CniTerminal) : List (Nat × CniTurn) :=
  if terminal.Quiet then [(terminal.talId, terminal.turn tables plugin)] else []

/-- A packet can report the terminal only. -/
theorem firstAbout_other {queue : List (FifoElement NetPacket)} {id : Nat}
    (found : terminal.side.firstAbout queue id ≠ none) : terminal.Scpc id := by
  obtain ⟨packet, about⟩ := Option.ne_none_iff_exists'.mp found
  have own := of_decide_eq_true (List.find?_some
    (p := fun packet => decide (terminal.side.about packet = some id)) about)
  obtain ⟨⟨-, scpc⟩, same⟩ := Option.ite_none_right_eq_some.mp own
  exact ⟨scpc, (Option.some.inj same).symm⟩

section

variable {s₁ s' : CniState} {told : Set Nat} {ok : Bool}

/-- The whole call, when an empty packet follows the queued ones. -/
theorem callTold_of_turn (calls : CniState.Calls tables terminal.state s₁ told ∅)
    (mem : ∀ id, id ∈ told ↔ terminal.state.sts.getCniHasChanged id = true ∧
      terminal.side.firstAbout terminal.fifos.elements id ≠ none)
    (quiet : terminal.Quiet) {turn : CniTurn} (own : terminal.turn tables plugin = turn)
    (turned : Turned tables s₁ terminal.talId turn ok s') :
    CallTold tables terminal.Scpc terminal.state (terminal.turns tables plugin) ok s'
      (told ∪ {x | x = terminal.talId ∧ turn = .queued})
      (∅ ∪ {x | x = terminal.talId ∧ turn.Lost}) := by
  have one : terminal.turns tables plugin = [(terminal.talId, turn)] := by
    rw [turns, if_pos quiet, own]
  refine ⟨calls.trans turned.calls, fun id => ?_, fun id gone => ?_, fun other on => ?_, ?_, ?_⟩
  · rw [Set.empty_union]
    simp only [one, List.mem_singleton, Prod.mk.injEq]
    constructor
    · rintro ⟨rfl, lost⟩
      exact ⟨turn, ⟨rfl, rfl⟩, lost⟩
    · rintro ⟨turn', ⟨rfl, rfl⟩, lost⟩
      exact ⟨rfl, lost⟩
  · obtain ⟨rfl, lost⟩ := gone.resolve_left (Set.notMem_empty id)
    rintro (told | ⟨-, rfl⟩)
    · exact ((mem _).mp told).2 quiet.2.2
    · rcases lost with same | same <;> cases same
  · rw [one, List.mem_singleton] at on
    subst on
    exact ⟨StFmtSimuMap.isStPresent_of_changed quiet.2.1, ⟨quiet.1, rfl⟩, quiet.2.1⟩
  · rw [one, turned.status, List.forall_mem_singleton]
  · rintro passed id ⟨-, rfl⟩ -
    rcases turned.status.mp passed with queued | dropped
    · exact .inl (.inr ⟨rfl, queued⟩)
    · exact .inr (.inr ⟨rfl, .inr dropped⟩)

/-- The whole call, when nothing follows the queued packets. -/
theorem callTold_of_not_quiet (calls : CniState.Calls tables terminal.state s₁ told ∅)
    (mem : ∀ id, id ∈ told ↔ terminal.state.sts.getCniHasChanged id = true ∧
      terminal.side.firstAbout terminal.fifos.elements id ≠ none)
    (loud : ¬ terminal.Quiet) :
    CallTold tables terminal.Scpc terminal.state (terminal.turns tables plugin) true s₁ told ∅ := by
  have empty : terminal.turns tables plugin = [] := by rw [turns, if_neg loud]
  refine ⟨calls, fun id => ?_, fun id gone => absurd gone (Set.notMem_empty id), ?_, ?_, ?_⟩
  · simp [empty]
  · simp [empty]
  · simp [empty]
  · rintro - id ⟨scpc, rfl⟩ changed
    exact .inl ((mem _).mpr ⟨changed, fun none => loud ⟨scpc, changed, none⟩⟩)

end

/-- A call leaves an element without packet, or makes what the turns say of the terminals. -/
theorem addCniExt_spec (whole : terminal.WholeFifos) {ok : Bool}
    (called : terminal.addCniExt tables plugin = some (ok, terminal')) :
    (ok = false ∧ ¬ terminal'.WholeFifos ∧
        ¬ terminal.side.FirstsExtend tables plugin terminal.state terminal.fifos.elements) ∨
      (terminal.side.FirstsExtend tables plugin terminal.state terminal.fifos.elements ∧
        terminal'.WholeFifos ∧ ∃ told lost, CallTold tables terminal.Scpc terminal.state
          (terminal.turns tables plugin) ok terminal'.state told lost) := by
  obtain ⟨⟨ok₁, state₁, fifos₁⟩, looped, rest⟩ := Option.bind_eq_some_iff.mp called
  obtain ⟨queued, rooms⟩ := SortedMap.addCniExt_elements looped
  rcases CniSide.queue_spec terminal.side_proper whole queued with
    ⟨stop, empty, fails⟩ | ⟨goes, whole₁, extend, told, calls₀, mem, list⟩
  · dsimp only at stop
    subst stop
    cases rest
    exact .inl ⟨rfl, empty, fails⟩
  right
  dsimp only at goes rest
  subst goes
  have calls : CniState.Calls tables terminal.state state₁ told ∅ :=
    ⟨calls₀.ids, calls₀.value, calls₀.flag, calls₀.reports⟩
  have mem' (id : Nat) : id ∈ told ↔ terminal.state.sts.getCniHasChanged id = true ∧
      terminal.side.firstAbout terminal.fifos.elements id ≠ none := mem id
  have silent : (terminal.isScpc = true ∧ state₁.sts.getCniHasChanged terminal.talId = true ∧
      state₁.listSt = []) ↔ terminal.Quiet := by
    rw [calls.flag, mem', Quiet]
    constructor
    · rintro ⟨scpc, ⟨changed, untold, -⟩, -⟩
      exact ⟨scpc, changed, by_contra fun found => untold ⟨changed, found⟩⟩
    · rintro ⟨scpc, changed, none⟩
      refine ⟨scpc, ⟨changed, fun told => told.2 none, Set.notMem_empty _⟩, ?_⟩
      refine List.eq_nil_iff_forall_not_mem.mpr fun id on => ?_
      obtain ⟨-, found⟩ := (mem' id).mp (((list id).mp on).resolve_left List.not_mem_nil)
      rw [(firstAbout_other found).2] at found
      exact found none
  rw [Bool.not_true, if_neg Bool.false_ne_true] at rest
  by_cases quiet : terminal.Quiet
  · rw [if_pos (silent.mpr quiet)] at rest
    obtain ⟨⟨ok₂, state₂, fifo₂⟩, sent, eq⟩ := Option.map_eq_some_iff.mp rest
    cases eq
    have sent : terminal.side.sendEmpty tables plugin state₁ terminal.gwId (fifos₁.lookup 0) =
      some (ok₂, state₂, fifo₂) := sent
    obtain ⟨turned, -, -, held⟩ := CniSide.sendEmpty_turn calls.value (rooms 0)
      (fun held found => SortedMap.whole_elements.mp whole₁ _ (SortedMap.mem_of_lookup found))
      sent rfl
    exact ⟨extend, SortedMap.whole_modify whole₁ 0 held, _, _,
      callTold_of_turn calls mem' quiet rfl turned⟩
  · rw [if_neg fun now => quiet (silent.mp now)] at rest
    cases rest
    exact ⟨extend, whole₁, told, ∅, callTold_of_not_quiet calls mem' quiet⟩

end CniTerminal

end OpenSand
