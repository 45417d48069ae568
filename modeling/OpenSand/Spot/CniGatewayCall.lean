import OpenSand.Spot.CniReports

/-!
A call of `addCniExt` of a gateway.

The queued packets come first, then the terminals of the list in turn. The turns are read from the
state before the call, since a terminal that no queued packet can report is left alone until its
turn, and an empty packet takes room in the FIFO of its category only.
-/

namespace OpenSand

variable {tables : ModcodDef → FmtDefinitionTable} {plugin : CniPlugin}

namespace CniGateway

variable {gateway gateway' : CniGateway}

theorem side_proper (gateway : CniGateway) : gateway.side.Proper := by
  intro packet id about
  obtain ⟨-, own⟩ := Option.ite_none_right_eq_some.mp about
  exact Option.some.inj own

/-- The elements of the FIFOs of all the categories, in the order of the loop. -/
def elements (gateway : CniGateway) : List (FifoElement NetPacket) :=
  gateway.fifos.entries.flatMap (·.2.elements)

def WholeFifos (gateway : CniGateway) : Prop := Whole gateway.elements

def Scpc (gateway : CniGateway) (id : Nat) : Prop := id ∈ gateway.isTalScpc

/-! ### The turns of the terminals -/

/-- A terminal is changed and no queued packet can report it. -/
def Quiet (gateway : CniGateway) (id : Nat) : Prop :=
  id ∈ gateway.isTalScpc ∧ gateway.state.sts.getCniHasChanged id = true ∧
    gateway.side.firstAbout gateway.elements id = none

instance (gateway : CniGateway) (id : Nat) : Decidable (gateway.Quiet id) :=
  inferInstanceAs (Decidable (_ ∧ _ ∧ _))

/-- The turn of a terminal, with the number of empty packets that were queued for each category. -/
def turn (tables : ModcodDef → FmtDefinitionTable) (plugin : CniPlugin) (gateway : CniGateway)
    (added : String → Nat) (id : Nat) : CniTurn :=
  match gateway.categoryLabel id with
  | none => .unplaced
  | some label =>
      match gateway.fifos.lookup label with
      | none => .unplaced
      | some fifos =>
          gateway.side.emptyTurn tables plugin gateway.state id (added label) (fifos.lookup 0)

/-- The empty packets queued for a category after a turn. -/
def counted (gateway : CniGateway) (id : Nat) (turn : CniTurn) (added : String → Nat)
    (label : String) : Nat :=
  if turn = .queued ∧ gateway.categoryLabel id = some label then added label + 1 else added label

/-- The turns of the quiet terminals of a list, until one ends the call. -/
def turns (tables : ModcodDef → FmtDefinitionTable) (plugin : CniPlugin) (gateway : CniGateway) :
    (String → Nat) → List Nat → List (Nat × CniTurn)
  | _, [] => []
  | added, id :: ids =>
      if gateway.Quiet id then
        let turn := gateway.turn tables plugin added id
        (id, turn) :: if turn.Passes then turns tables plugin gateway
          (gateway.counted id turn added) ids else []
      else turns tables plugin gateway added ids

variable {added : String → Nat} {ids : List Nat} {id : Nat}

theorem turns_loud (loud : ¬ gateway.Quiet id) :
    gateway.turns tables plugin added (id :: ids) = gateway.turns tables plugin added ids :=
  if_neg loud

theorem turns_quiet (quiet : gateway.Quiet id) {turn : CniTurn}
    (own : gateway.turn tables plugin added id = turn) :
    gateway.turns tables plugin added (id :: ids) = (id, turn) :: if turn.Passes then
      gateway.turns tables plugin (gateway.counted id turn added) ids else [] := by
  rw [turns, if_pos quiet, own]

theorem mem_turns {turn : Nat × CniTurn} (on : turn ∈ gateway.turns tables plugin added ids) :
    turn.1 ∈ ids ∧ gateway.Quiet turn.1 := by
  induction ids generalizing added with
  | nil => exact nomatch on
  | cons id ids ih =>
      by_cases quiet : gateway.Quiet id
      · rw [turns_quiet quiet rfl, List.mem_cons] at on
        rcases on with rfl | on
        · exact ⟨List.mem_cons_self, quiet⟩
        · split at on
          · exact (ih on).imp_left (List.mem_cons_of_mem _)
          · exact nomatch on
      · rw [turns_loud quiet] at on
        exact (ih on).imp_left (List.mem_cons_of_mem _)

/-- A terminal has one turn at most. -/
theorem turns_unique (nodup : ids.Nodup) {turn turn' : CniTurn}
    (first : (id, turn) ∈ gateway.turns tables plugin added ids)
    (second : (id, turn') ∈ gateway.turns tables plugin added ids) : turn = turn' := by
  induction ids generalizing added with
  | nil => exact nomatch first
  | cons head ids ih =>
      obtain ⟨fresh, nodup'⟩ := List.nodup_cons.mp nodup
      by_cases quiet : gateway.Quiet head
      · rw [turns_quiet quiet rfl, List.mem_cons] at first second
        have later {turn : CniTurn} (on : (id, turn) ∈ if (gateway.turn tables plugin added
            head).Passes then gateway.turns tables plugin (gateway.counted head (gateway.turn tables
              plugin added head) added) ids else []) : id ≠ head ∧
            (id, turn) ∈ gateway.turns tables plugin (gateway.counted head (gateway.turn tables
              plugin added head) added) ids := by
          split at on
          · refine ⟨?_, on⟩
            rintro rfl
            exact fresh (mem_turns on).1
          · exact nomatch on
        rcases first with first | first <;> rcases second with second | second
        · exact (Prod.mk.inj first).2.trans (Prod.mk.inj second).2.symm
        · exact absurd (Prod.mk.inj first).1 (later second).1
        · exact absurd (Prod.mk.inj second).1 (later first).1
        · exact ih nodup' (later first).2 (later second).2
      · rw [turns_loud quiet] at first second
        exact ih nodup' first second

/-- When no turn ends the call, every quiet terminal has its turn. -/
theorem turns_cover (passes : ∀ turn ∈ gateway.turns tables plugin added ids, turn.2.Passes)
    (mem : id ∈ ids) (own : gateway.Quiet id) :
    ∃ turn, (id, turn) ∈ gateway.turns tables plugin added ids := by
  induction ids generalizing added with
  | nil => exact nomatch mem
  | cons head ids ih =>
      by_cases quiet : gateway.Quiet head
      · rw [turns_quiet quiet rfl] at passes ⊢
        rcases List.mem_cons.mp mem with rfl | mem
        · exact ⟨_, List.mem_cons_self⟩
        · have first := passes _ List.mem_cons_self
          rw [if_pos first] at passes ⊢
          obtain ⟨turn, on⟩ := ih (fun turn on => passes turn (List.mem_cons_of_mem _ on)) mem
          exact ⟨turn, List.mem_cons_of_mem _ on⟩
      · rw [turns_loud quiet] at passes ⊢
        rcases List.mem_cons.mp mem with rfl | mem
        · exact absurd own quiet
        · exact ih passes mem

/-! ### The loop over the terminals -/

/-- The FIFOs of a category and the same ones with more empty packets. -/
def GrownFirst (added : Nat) (former later : SortedMap Nat (DvbFifo NetPacket)) : Prop :=
  Option.Rel (Grown added) (former.lookup 0) (later.lookup 0)

/-- The gateway among its turns. -/
structure Follows (tables : ModcodDef → FmtDefinitionTable) (start : CniGateway) (told : List Nat)
    (added : String → Nat) (current : CniGateway) : Prop where
  side : current.side = start.side
  category : current.categoryLabel = start.categoryLabel
  scpc : current.isTalScpc = start.isTalScpc
  value : ∀ id, current.state.sts.cniValue tables id = start.state.sts.cniValue tables id
  list : current.state.listSt = told
  rooms : ∀ label, Option.Rel (GrownFirst (added label)) (start.fifos.lookup label)
    (current.fifos.lookup label)
  whole : current.WholeFifos

section Loop

/-- An empty packet, or none, is put behind the former ones. -/
theorem GrownFirst.modify {n m : Nat} {former later : SortedMap Nat (DvbFifo NetPacket)}
    {fifo : Option (DvbFifo NetPacket)} (grown : GrownFirst n former later)
    (grown' : Option.Rel (Grown m) (former.lookup 0) fifo) :
    GrownFirst m former (later.modify 0 fun held => fifo.getD held) := by
  have same : (later.modify 0 fun held => fifo.getD held).lookup 0 = fifo := by
    rw [SortedMap.lookup_modify]
    unfold GrownFirst at grown
    generalize former.lookup 0 = start at grown grown'
    generalize later.lookup 0 = held at grown ⊢
    cases grown <;> cases grown' <;> rfl
  rwa [GrownFirst, same]

theorem counted_own {label : String} (placed : gateway.categoryLabel id = some label)
    (turn : CniTurn) : gateway.counted id turn added label =
      if turn = .queued then added label + 1 else added label := by
  simp only [counted, placed, and_true]

theorem counted_other {label other : String} (placed : gateway.categoryLabel id = some label)
    (ne : other ≠ label) (turn : CniTurn) :
    gateway.counted id turn added other = added other := by
  rw [counted, placed, if_neg]
  rintro ⟨-, same⟩
  exact ne (Option.some.inj same).symm

variable {start current next : CniGateway} {told : List Nat} {ok : Bool}

theorem whole_iff :
    gateway.WholeFifos ↔ ∀ entry ∈ gateway.fifos.entries, Whole entry.2.elements := by
  unfold WholeFifos Whole elements
  simp only [List.mem_flatMap]
  exact ⟨fun all entry mem elem on => all elem ⟨entry, mem, on⟩,
    fun all elem ⟨entry, mem, on⟩ => all entry mem elem on⟩

theorem sendSilent_loud (loud : ¬ (id ∉ current.state.listSt ∧ id ∈ current.isTalScpc ∧
      current.state.sts.getCniHasChanged id = true))
    (sent : current.sendSilent tables plugin id = some (ok, next)) :
    ok = true ∧ next = current := by
  rw [sendSilent, if_neg loud] at sent
  cases sent
  exact ⟨rfl, rfl⟩

/-- The turn of a terminal is the one read before the call. -/
theorem sendSilent_turn (follows : Follows tables start told added current)
    (quiet : id ∉ current.state.listSt ∧ id ∈ current.isTalScpc ∧
      current.state.sts.getCniHasChanged id = true)
    (sent : current.sendSilent tables plugin id = some (ok, next)) {turn : CniTurn}
    (own : start.turn tables plugin added id = turn) :
    Turned tables current.state id turn ok next.state ∧
      Follows tables start told (start.counted id turn added) next := by
  have still (turn : CniTurn) (ends : turn = .unplaced) :
      Turned tables current.state id turn false current.state ∧
        Follows tables start told (start.counted id turn added) current := by
    subst ends
    refine ⟨⟨?_, by simp [CniTurn.Passes], rfl⟩, ?_⟩
    · simpa [CniTurn.Lost] using CniState.Calls.refl current.state
    · have same : start.counted id .unplaced added = added := funext fun label => if_neg (by simp)
      rwa [same]
  rw [sendSilent, if_pos quiet] at sent
  rw [CniGateway.turn] at own
  rw [follows.category] at sent
  cases placed : start.categoryLabel id with
  | none =>
      rw [placed] at sent own
      cases sent
      exact still turn own.symm
  | some label =>
  rw [placed] at sent own
  dsimp only at sent own
  have rooms := follows.rooms label
  cases found : current.fifos.lookup label with
  | none =>
      rw [found] at sent rooms
      generalize start.fifos.lookup label = former at rooms own
      cases rooms
      cases sent
      exact still turn own.symm
  | some fifos =>
  rw [found] at sent rooms
  dsimp only at sent
  cases formerly : start.fifos.lookup label with
  | none =>
      rw [formerly] at rooms
      cases rooms
  | some former =>
  rw [formerly] at rooms own
  dsimp only at own
  obtain ⟨⟨ok', state, fifo⟩, packet, eq⟩ := Option.map_eq_some_iff.mp sent
  cases eq
  rw [follows.side] at packet
  cases rooms with
  | some grown =>
  have within := whole_iff.mp follows.whole _ (SortedMap.mem_of_lookup found)
  obtain ⟨turned, -, grown', held⟩ := CniSide.sendEmpty_turn follows.value grown
    (fun held on => SortedMap.whole_elements.mp within _ (SortedMap.mem_of_lookup on)) packet own
  refine ⟨turned, follows.side, follows.category, follows.scpc, ?_, ?_, ?_, ?_⟩
  · exact fun id => (turned.calls.value id).trans (follows.value id)
  · exact turned.list.trans follows.list
  · intro other
    by_cases same : other = label
    · subst same
      rw [SortedMap.lookup_modify_self found, formerly, counted_own placed]
      exact .some (grown.modify grown')
    · rw [SortedMap.lookup_modify_of_ne _ same, counted_other placed same]
      exact follows.rooms other
  · rw [whole_iff]
    refine SortedMap.forall_modify (whole_iff.mp follows.whole) fun fifos whole => ?_
    exact SortedMap.whole_modify whole 0 held

/-- The loop makes the turns, and ends with the status of the last one. -/
theorem forEach_turns (follows : Follows tables start told added current) (nodup : ids.Nodup)
    (left : ∀ id ∈ ids, (id ∉ current.state.listSt ∧ id ∈ current.isTalScpc ∧
      current.state.sts.getCniHasChanged id = true) ↔ start.Quiet id)
    (looped : Run.forEach (sendSilent tables plugin) current ids = some (ok, next)) :
    CniState.Calls tables current.state next.state
        {x | (x, .queued) ∈ start.turns tables plugin added ids}
        {x | ∃ turn, (x, turn) ∈ start.turns tables plugin added ids ∧ turn.Lost} ∧
      (ok = true ↔ ∀ turn ∈ start.turns tables plugin added ids, turn.2.Passes) ∧
      next.WholeFifos := by
  induction ids generalizing current added with
  | nil =>
      cases looped
      refine ⟨?_, by simp [turns], follows.whole⟩
      simpa [turns] using CniState.Calls.refl _
  | cons id ids ih =>
      obtain ⟨fresh, nodup'⟩ := List.nodup_cons.mp nodup
      obtain ⟨⟨ok₁, mid⟩, sent, rest⟩ := Option.bind_eq_some_iff.mp looped
      by_cases quiet : start.Quiet id
      · obtain ⟨turned, follows'⟩ := sendSilent_turn follows
          ((left id List.mem_cons_self).mpr quiet) sent rfl
        rw [turns_quiet quiet rfl]
        generalize start.turn tables plugin added id = turn at turned follows' ⊢
        rw [CniTurn.told_cons, CniTurn.gone_cons]
        cases ok₁ with
        | false =>
            cases rest
            have ends : ¬ turn.Passes := fun passes => absurd (turned.status.mpr passes) (by simp)
            rw [if_neg ends]
            refine ⟨?_, by simp [ends], follows'.whole⟩
            simpa using turned.calls
        | true =>
            have passes : turn.Passes := turned.status.mp rfl
            rw [if_pos passes]
            have left' (other : Nat) (mem : other ∈ ids) : (other ∉ mid.state.listSt ∧
                other ∈ mid.isTalScpc ∧ mid.state.sts.getCniHasChanged other = true) ↔
                  start.Quiet other := by
              have ne : other ≠ id := fun same => fresh (same ▸ mem)
              rw [← left other (List.mem_cons_of_mem _ mem), turned.list, follows'.scpc,
                follows.scpc, turned.calls.flag]
              simp [ne]
            obtain ⟨calls, status, whole⟩ := ih follows' nodup' left' rest
            refine ⟨turned.calls.trans calls, ?_, whole⟩
            rw [status, List.forall_mem_cons]
            simp [passes]
      · obtain ⟨went, same⟩ := sendSilent_loud (fun now => quiet
          ((left id List.mem_cons_self).mp now)) sent
        subst went same
        rw [turns_loud quiet]
        exact ih follows nodup' (fun other mem => left other (List.mem_cons_of_mem _ mem)) rest

/-- A loop over the FIFOs of the categories is one over their elements, and leaves their room. -/
theorem addCniExt_elements {σ : Type} {handler : CniExtension σ NetPacket} {s : σ}
    {fifos : SortedMap String (SortedMap Nat (DvbFifo NetPacket))}
    {out : Bool × σ × SortedMap String (SortedMap Nat (DvbFifo NetPacket))}
    (looped : fifos.forValuesWhile (SortedMap.forValuesWhile (DvbFifo.addCniExt handler)) s =
      some out) :
    addCniExtQueue handler s (fifos.entries.flatMap (·.2.elements)) =
        some (out.1, out.2.1, out.2.2.entries.flatMap (·.2.elements)) ∧
      ∀ label, Option.Rel (GrownFirst 0) (fifos.lookup label) (out.2.2.lookup label) := by
  constructor
  · exact SortedMap.forValuesWhile_flat SortedMap.elements (addCniExtQueue handler) (fun _ => rfl)
      addCniExtQueue_goes addCniExtQueue_stops
      (fun s fifos out called => (SortedMap.addCniExt_elements called).1) looped
  · refine SortedMap.forValuesWhile_lookup (fun fifos => ?_)
      (fun s fifos out called => (SortedMap.addCniExt_elements called).2 0) looped
    unfold GrownFirst
    cases fifos.lookup 0 with
    | none => exact .none
    | some fifo => exact .some ⟨rfl, rfl⟩

end Loop

/-- A call leaves an element without packet, or makes what the turns say of the terminals. -/
theorem addCniExt_spec (whole : gateway.WholeFifos) {ok : Bool}
    (called : gateway.addCniExt tables plugin = some (ok, gateway')) :
    (ok = false ∧ ¬ gateway'.WholeFifos ∧
        ¬ gateway.side.FirstsExtend tables plugin gateway.state gateway.elements) ∨
      (gateway.side.FirstsExtend tables plugin gateway.state gateway.elements ∧
        gateway'.WholeFifos ∧ ∃ told lost, CallTold tables gateway.Scpc gateway.state
          (gateway.turns tables plugin (fun _ => 0) gateway.state.sts.ids.keys) ok gateway'.state
          told lost) := by
  obtain ⟨⟨ok₁, state₁, fifos₁⟩, looped, rest⟩ := Option.bind_eq_some_iff.mp called
  obtain ⟨queued, rooms⟩ := addCniExt_elements looped
  rcases CniSide.queue_spec gateway.side_proper whole queued with
    ⟨stop, empty, fails⟩ | ⟨goes, whole₁, extend, told, calls₀, mem, list⟩
  · dsimp only at stop
    subst stop
    cases rest
    exact .inl ⟨rfl, empty, fails⟩
  right
  dsimp only at goes rest
  subst goes
  rw [Bool.not_true, if_neg Bool.false_ne_true] at rest
  have calls : CniState.Calls tables gateway.state state₁ told ∅ :=
    ⟨calls₀.ids, calls₀.value, calls₀.flag, calls₀.reports⟩
  have mem' (id : Nat) : id ∈ told ↔ gateway.state.sts.getCniHasChanged id = true ∧
      gateway.side.firstAbout gateway.elements id ≠ none := mem id
  have list' (id : Nat) : id ∈ state₁.listSt ↔ id ∈ told := (list id).trans (by simp)
  have follows : Follows tables gateway state₁.listSt (fun _ => 0)
      { gateway with state := state₁, fifos := fifos₁ } :=
    ⟨rfl, rfl, rfl, calls.value, rfl, rooms, whole₁⟩
  have left (id : Nat) : (id ∉ state₁.listSt ∧ id ∈ gateway.isTalScpc ∧
      state₁.sts.getCniHasChanged id = true) ↔ gateway.Quiet id := by
    rw [list', calls.flag, Quiet, mem']
    constructor
    · rintro ⟨untold, scpc, changed, -⟩
      exact ⟨scpc, changed, by_contra fun found => untold ⟨changed, found⟩⟩
    · rintro ⟨scpc, changed, absent⟩
      have untold : ¬ (gateway.state.sts.getCniHasChanged id = true ∧
          gateway.side.firstAbout gateway.elements id ≠ none) := fun told => told.2 absent
      exact ⟨untold, scpc, changed, untold, Set.notMem_empty _⟩
  have nodup := SortedMap.keys_nodup gateway.state.sts.ids
  rw [calls.ids] at rest
  obtain ⟨later, status, whole'⟩ := forEach_turns follows nodup (fun id _ => left id) rest
  refine ⟨extend, whole', _, _, calls.trans later, fun id => ?_, fun id gone both => ?_,
    fun turn on => ?_, status, fun passed id scpc changed => ?_⟩
  · rw [Set.empty_union]
    rfl
  · obtain ⟨turn, on, lost⟩ := gone.resolve_left (Set.notMem_empty id)
    rcases both with told | told
    · exact ((mem' id).mp told).2 (mem_turns on).2.2.2
    · rw [turns_unique nodup on told] at lost
      rcases lost with same | same <;> cases same
  · obtain ⟨-, scpc, changed, -⟩ := mem_turns on
    exact ⟨StFmtSimuMap.isStPresent_of_changed changed, scpc, changed⟩
  · by_cases found : gateway.side.firstAbout gateway.elements id = none
    · have present := SortedMap.mem_keys_iff.mpr (StFmtSimuMap.isStPresent_of_changed changed)
      obtain ⟨turn, on⟩ := turns_cover (status.mp passed) present ⟨scpc, changed, found⟩
      rcases status.mp passed _ on with queued | dropped
      · dsimp only at queued
        subst queued
        exact .inl (.inr on)
      · exact .inr (.inr ⟨turn, on, .inr dropped⟩)
    · exact .inl (.inl ((mem' id).mpr ⟨changed, found⟩))

end CniGateway

end OpenSand
