import OpenSand.Spot.CniExtension

/-!
What a call of `addCniExt` reports.

The terminals whose change is considered reported are the ones told, whose value was queued, and
the ones lost, whose value was read for nothing. A report is lost by an empty packet that the
plugin refuses or that a full FIFO drops; a queued packet that the plugin refuses leaves its
element empty.
-/

namespace OpenSand

variable {tables : ModcodDef → FmtDefinitionTable}

/-! ### The C/N of the terminals -/

namespace StFmtSimuMap

variable {sts : StFmtSimuMap} {id other : Nat}

theorem getCniHasChanged_eq (sts : StFmtSimuMap) (id : Nat) :
    sts.getCniHasChanged id = (sts.sts.lookup id).any (·.cniHasChanged) := by
  unfold getCniHasChanged
  cases sts.sts.lookup id <;> rfl

theorem cniValue_eq (sts : StFmtSimuMap) (id : Nat) :
    sts.cniValue tables id = hcnton ((sts.sts.lookup id).elim 0 (·.requiredCni tables)) := by
  unfold cniValue getRequiredCni
  cases sts.sts.lookup id <;> rfl

theorem getRequiredCni_lookup (sts : StFmtSimuMap) (id other : Nat) :
    (sts.getRequiredCni tables id).2.sts.lookup other =
      (sts.sts.lookup other).map fun st =>
        if other = id then { st with cniHasChanged := false } else st := by
  unfold getRequiredCni
  cases found : sts.sts.lookup id with
  | none =>
      by_cases same : other = id
      · rw [same, found]
        rfl
      · simp [same]
  | some st => exact SortedMap.lookup_modify _ _ _ _

theorem getRequiredCni_ids (sts : StFmtSimuMap) (id : Nat) :
    (sts.getRequiredCni tables id).2.ids = sts.ids := by
  unfold getRequiredCni
  split <;> rfl

theorem getRequiredCni_value (sts : StFmtSimuMap) (id other : Nat) :
    (sts.getRequiredCni tables id).2.cniValue tables other = sts.cniValue tables other := by
  rw [cniValue_eq, cniValue_eq, getRequiredCni_lookup]
  cases sts.sts.lookup other with
  | none => rfl
  | some st =>
      rw [Option.map_some]
      split <;> rfl

theorem getRequiredCni_flag (sts : StFmtSimuMap) (id other : Nat) :
    (sts.getRequiredCni tables id).2.getCniHasChanged other = true ↔
      sts.getCniHasChanged other = true ∧ other ≠ id := by
  rw [getCniHasChanged_eq, getCniHasChanged_eq, getRequiredCni_lookup]
  cases sts.sts.lookup other with
  | none => simp
  | some st =>
      by_cases same : other = id <;> simp [same]

/-- A new C/N that changes what is required sets the flag. -/
theorem setRequiredCni_flag (cni : ℚ)
    (changed :
      (sts.setRequiredCni tables id cni).cniValue tables other ≠ sts.cniValue tables other ∨
        sts.getCniHasChanged other = true) :
    (sts.setRequiredCni tables id cni).getCniHasChanged other = true := by
  rw [getCniHasChanged_eq, setRequiredCni_lookup]
  rw [cniValue_eq, cniValue_eq, getCniHasChanged_eq, setRequiredCni_lookup] at changed
  cases found : sts.sts.lookup other with
  | none =>
      rw [found] at changed
      simp at changed
  | some st =>
      rw [found] at changed
      simp only [Option.map_some, Option.elim_some, Option.any_some] at changed ⊢
      by_cases same : other = id
      · rw [if_pos same] at changed ⊢
        rcases changed with differs | set
        · rw [StFmtSimu.updateCni, StFmtSimu.updateModcodId, Bool.or_eq_true]
          right
          by_contra kept
          have modcod : (tables st.modcodDef).getRequiredModcod (cni - sts.acmLoopMarginDb) =
              st.currentModcodId := by simpa using kept
          apply differs
          rw [StFmtSimu.updateCni, StFmtSimu.updateModcodId, StFmtSimu.requiredCni, modcod]
          rfl
        · simp [StFmtSimu.updateCni, StFmtSimu.updateModcodId, set]
      · rw [if_neg same] at changed ⊢
        exact changed.resolve_left fun differs => differs rfl

end StFmtSimuMap

namespace CniState

variable {s mid s' : CniState}

/-- The last value that was queued for a terminal. -/
def lastReport (s : CniState) (id : Nat) : Option Nat := (s.reports.find? (·.1 = id)).map (·.2)

/-- A terminal whose last report is not its required C/N is marked as changed. -/
def UpToDate (tables : ModcodDef → FmtDefinitionTable) (s : CniState) : Prop :=
  ∀ id, s.sts.isStPresent id = true → s.lastReport id ≠ some (s.sts.cniValue tables id) →
    s.sts.getCniHasChanged id = true

/-- What calls of the plugin made of the terminals told and of the terminals lost. -/
structure Calls (tables : ModcodDef → FmtDefinitionTable) (s s' : CniState) (told lost : Set Nat) :
    Prop where
  ids : s'.sts.ids = s.sts.ids
  value : ∀ id, s'.sts.cniValue tables id = s.sts.cniValue tables id
  flag : ∀ id, s'.sts.getCniHasChanged id = true ↔
    s.sts.getCniHasChanged id = true ∧ id ∉ told ∧ id ∉ lost
  reports : ∃ new, s'.reports = new ++ s.reports ∧
    ∀ id value, (id, value) ∈ new ↔ id ∈ told ∧ value = s.sts.cniValue tables id

theorem Calls.refl (s : CniState) : Calls tables s s ∅ ∅ where
  ids := rfl
  value _ := rfl
  flag _ := by simp
  reports := ⟨[], rfl, by simp⟩

theorem Calls.trans {told lost told' lost' : Set Nat} (first : Calls tables s mid told lost)
    (second : Calls tables mid s' told' lost') :
    Calls tables s s' (told ∪ told') (lost ∪ lost') where
  ids := second.ids.trans first.ids
  value id := (second.value id).trans (first.value id)
  flag id := by
    rw [second.flag, first.flag, Set.mem_union, Set.mem_union]
    tauto
  reports := by
    obtain ⟨new, reports, mem⟩ := first.reports
    obtain ⟨new', reports', mem'⟩ := second.reports
    refine ⟨new' ++ new, by rw [reports', reports, List.append_assoc], fun id value => ?_⟩
    rw [List.mem_append, mem, mem', first.value, Set.mem_union]
    tauto

/-- The value of a terminal was read for nothing. -/
theorem calls_lost (s : CniState) (id : Nat) :
    Calls tables s { s with sts := (s.sts.getRequiredCni tables id).2 } ∅ {id} where
  ids := StFmtSimuMap.getRequiredCni_ids _ _
  value := StFmtSimuMap.getRequiredCni_value _ _
  flag other := by
    rw [StFmtSimuMap.getRequiredCni_flag]
    simp
  reports := ⟨[], rfl, by simp⟩

/-- The value of a terminal was queued. -/
theorem calls_record (side : CniSide) (s : CniState) (dest : Nat) :
    Calls tables s (side.record tables s dest) {side.reported dest} ∅ where
  ids := StFmtSimuMap.getRequiredCni_ids _ _
  value := StFmtSimuMap.getRequiredCni_value _ _
  flag other := by
    rw [CniSide.record, StFmtSimuMap.getRequiredCni_flag]
    simp
  reports := by
    refine ⟨[_], rfl, fun id value => ?_⟩
    rw [List.mem_singleton, Prod.mk.injEq, Set.mem_singleton_iff]
    constructor
    · rintro ⟨rfl, rfl⟩
      exact ⟨rfl, rfl⟩
    · rintro ⟨rfl, rfl⟩
      exact ⟨rfl, rfl⟩

/-- After a call, the reports are up to date exactly when the values that were lost had been
reported before. -/
theorem Calls.upToDate_iff {told lost : Set Nat} (calls : Calls tables s s' told lost)
    (before : s.UpToDate tables) (apart : ∀ id ∈ lost, id ∉ told)
    (present : ∀ id ∈ lost, s.sts.isStPresent id = true) :
    s'.UpToDate tables ↔ ∀ id ∈ lost, s.lastReport id = some (s.sts.cniValue tables id) := by
  obtain ⟨new, reports, mem⟩ := calls.reports
  have same (id : Nat) (untold : id ∉ told) : s'.lastReport id = s.lastReport id := by
    have absent : new.find? (·.1 = id) = none := by
      refine List.find?_eq_none.mpr fun entry held own => untold ?_
      rw [← of_decide_eq_true own]
      exact ((mem entry.1 entry.2).mp held).1
    rw [lastReport, reports, List.find?_append, absent, Option.none_or]
    rfl
  have present' (id : Nat) : s'.sts.isStPresent id = s.sts.isStPresent id := by
    rw [StFmtSimuMap.isStPresent, calls.ids]
    rfl
  constructor
  · intro after id gone
    by_contra differs
    have marked := after id ((present' id).trans (present id gone)) (by
      rwa [same id (apart id gone), calls.value])
    exact ((calls.flag id).mp marked).2.2 gone
  · intro reported id here differs
    rw [present'] at here
    rw [calls.value] at differs
    have untold : id ∉ told := by
      intro told
      have held := (mem id _).mpr ⟨told, rfl⟩
      apply differs
      obtain ⟨entry, found⟩ := Option.isSome_iff_exists.mp
        (List.find?_isSome.mpr ⟨_, held, decide_eq_true rfl⟩ :
          (new.find? (·.1 = id)).isSome = true)
      have own := List.mem_of_find?_eq_some found
      have key : entry.1 = id := by simpa using List.find?_some found
      rw [lastReport, reports, List.find?_append, found, Option.some_or, Option.map_some,
        ((mem entry.1 entry.2).mp own).2, key]
    rw [same id untold] at differs
    refine (calls.flag id).mpr ⟨before id here differs, untold, fun gone => ?_⟩
    exact differs (reported id gone)

end CniState

/-! ### The queued packets -/

/-- Every element holds its packet. -/
def Whole (queue : List (FifoElement NetPacket)) : Prop := ∀ elem ∈ queue, elem.elem.isSome = true

section Queue

variable {σ α : Type} {handler : CniExtension σ α} {s : σ}

/-- The loop over two queues goes on with the second one if it does not stop in the first one. -/
theorem addCniExtQueue_append (s : σ) (queue rest : List (FifoElement α)) :
    addCniExtQueue handler s (queue ++ rest) =
      (addCniExtQueue handler s queue).bind fun (ok, s', queue') =>
        if ok then (addCniExtQueue handler s' rest).map fun (ok, s'', rest') =>
          (ok, s'', queue' ++ rest')
        else some (ok, s', queue' ++ rest) := by
  induction queue generalizing s with
  | nil => simp [addCniExtQueue]
  | cons elem tail ih =>
      rw [List.cons_append, addCniExtQueue, addCniExtQueue]
      cases elem.getElem.1 with
      | none => rfl
      | some packet =>
          rw [Option.bind_some, Option.bind_some]
          have later (s : σ) (first : FifoElement α) :
              (addCniExtQueue handler s (tail ++ rest)).map
                  (fun out => (out.1, out.2.1, first :: out.2.2)) =
                ((addCniExtQueue handler s tail).map fun out =>
                  (out.1, out.2.1, first :: out.2.2)).bind fun out =>
                  if out.1 then (addCniExtQueue handler out.2.1 rest).map fun last =>
                    (last.1, last.2.1, out.2.2 ++ last.2.2)
                  else some (out.1, out.2.1, out.2.2 ++ rest) := by
            rw [ih]
            rcases addCniExtQueue handler s tail with _ | ⟨_ | _, s', tail'⟩
            · rfl
            · rfl
            · simp [Option.map_map, Function.comp_def]
          split
          · split
            · exact later _ _
            · rfl
          · exact later _ _

theorem addCniExtQueue_goes (s : σ) (queue rest : List (FifoElement α)) (s' : σ)
    (queue' : List (FifoElement α)) (out : Bool × σ × List (FifoElement α))
    (first : addCniExtQueue handler s queue = some (true, s', queue'))
    (second : addCniExtQueue handler s' rest = some out) :
    addCniExtQueue handler s (queue ++ rest) = some (out.1, out.2.1, queue' ++ out.2.2) := by
  rw [addCniExtQueue_append, first, Option.bind_some]
  dsimp only
  rw [if_pos rfl, second]
  rfl

theorem addCniExtQueue_stops (s : σ) (queue rest : List (FifoElement α)) (s' : σ)
    (queue' : List (FifoElement α))
    (first : addCniExtQueue handler s queue = some (false, s', queue')) :
    addCniExtQueue handler s (queue ++ rest) = some (false, s', queue' ++ rest) := by
  rw [addCniExtQueue_append, first]
  rfl

theorem DvbFifo.addCniExt_queue {fifo : DvbFifo α} {out : Bool × σ × DvbFifo α}
    (called : fifo.addCniExt handler s = some out) :
    addCniExtQueue handler s fifo.queue = some (out.1, out.2.1, out.2.2.queue) ∧
      out.2.2.maxSizePkt = fifo.maxSizePkt ∧ out.2.2.queue.length = fifo.queue.length := by
  unfold addCniExt at called
  split at called
  next => cases called
  next result queued =>
    cases called
    exact ⟨queued, rfl, addCniExtQueue_length queued⟩

end Queue

namespace CniSide

variable {plugin : CniPlugin} {side : CniSide} {s s' : CniState}
  {queue queue' : List (FifoElement NetPacket)}

/-- The terminal that a packet can report is the one of its destination or of its source. -/
def Proper (side : CniSide) : Prop :=
  ∀ packet id, side.about packet = some id → side.reported packet.dstTalId = id

/-- The first packet of a queue that can report a terminal. -/
def firstAbout (side : CniSide) (queue : List (FifoElement NetPacket)) (id : Nat) :
    Option NetPacket :=
  (queue.filterMap (·.elem)).find? fun packet => side.about packet = some id

/-- What the plugin makes of a packet to a destination. -/
def extended (tables : ModcodDef → FmtDefinitionTable) (plugin : CniPlugin) (side : CniSide)
    (s : CniState) (packet : Option NetPacket) (dest : Nat) : Option NetPacket :=
  (side.setPacketExtension tables plugin s.sts packet dest).2

/-- The plugin extends the first packet of each terminal whose C/N changed. -/
def FirstsExtend (tables : ModcodDef → FmtDefinitionTable) (plugin : CniPlugin) (side : CniSide)
    (s : CniState) (queue : List (FifoElement NetPacket)) : Prop :=
  ∀ id packet, s.sts.getCniHasChanged id = true → side.firstAbout queue id = some packet →
    side.extended tables plugin s (some packet) packet.dstTalId ≠ none

theorem firstAbout_cons {elem : FifoElement NetPacket} {packet : NetPacket}
    (held : elem.elem = some packet) (id : Nat) :
    side.firstAbout (elem :: queue) id =
      if side.about packet = some id then some packet else side.firstAbout queue id := by
  rw [firstAbout, List.filterMap_cons, held]
  dsimp only
  rw [List.find?_cons]
  split
  next own => rw [if_pos (of_decide_eq_true own)]
  next other => rw [if_neg (of_decide_eq_false other), firstAbout]

/-- A packet is wanted for a terminal whose C/N changed. -/
theorem isWanted_iff {packet : NetPacket} :
    (side.extension tables plugin).isWanted s packet = true ↔
      ∃ id, side.about packet = some id ∧ s.sts.getCniHasChanged id = true := by
  change (side.about packet).any s.sts.getCniHasChanged = true ↔ _
  cases side.about packet with
  | none => simp
  | some id => simp

theorem extension_refused {packet : NetPacket}
    (refused : side.extended tables plugin s (some packet) packet.dstTalId = none) :
    ∃ s', (side.extension tables plugin).setPacketExtension s packet = (s', none) := by
  refine ⟨{ s with sts := (side.setPacketExtension tables plugin s.sts (some packet)
    packet.dstTalId).1 }, ?_⟩
  unfold extended at refused
  unfold extension
  dsimp only
  rw [← Prod.eta (side.setPacketExtension tables plugin s.sts (some packet) packet.dstTalId),
    refused]

theorem extension_taken {packet new : NetPacket}
    (taken : side.extended tables plugin s (some packet) packet.dstTalId = some new) :
    (side.extension tables plugin).setPacketExtension s packet =
      ({ side.record tables s packet.dstTalId with
        listSt := s.listSt ++ [side.reported packet.dstTalId] }, some new) := by
  unfold extended at taken
  unfold extension
  dsimp only
  rw [← Prod.eta (side.setPacketExtension tables plugin s.sts (some packet) packet.dstTalId),
    taken]
  rfl

/-- The answer of the plugin depends on the value required only. -/
theorem extended_congr {s s' : CniState}
    (value : ∀ id, s'.sts.cniValue tables id = s.sts.cniValue tables id)
    (packet : Option NetPacket) (dest : Nat) :
    side.extended tables plugin s' packet dest = side.extended tables plugin s packet dest := by
  unfold extended setPacketExtension
  rw [value]

/-- What the loop over the queued packets makes of them: it tells the changed terminals that a
packet can report, or leaves an element without packet. -/
def QueueTold (tables : ModcodDef → FmtDefinitionTable) (plugin : CniPlugin) (side : CniSide)
    (s : CniState) (queue : List (FifoElement NetPacket)) (ok : Bool) (s' : CniState)
    (queue' : List (FifoElement NetPacket)) : Prop :=
  (ok = false ∧ ¬ Whole queue' ∧ ¬ FirstsExtend tables plugin side s queue) ∨
    (ok = true ∧ Whole queue' ∧ FirstsExtend tables plugin side s queue ∧
      ∃ told : Set Nat, CniState.Calls tables s s' told ∅ ∧
        (∀ id, id ∈ told ↔ s.sts.getCniHasChanged id = true ∧ side.firstAbout queue id ≠ none) ∧
        ∀ id, id ∈ s'.listSt ↔ id ∈ s.listSt ∨ id ∈ told)

section

variable {elem : FifoElement NetPacket} {packet : NetPacket} {ok : Bool}

theorem queue_skipped (held : elem.elem = some packet)
    (unwanted : ∀ id, side.about packet = some id → ¬ s.sts.getCniHasChanged id = true)
    (rest : QueueTold tables plugin side s queue ok s' queue') :
    QueueTold tables plugin side s (elem :: queue) ok s'
      ((elem.getElem.2.setElem packet) :: queue') := by
  have first (id : Nat) (changed : s.sts.getCniHasChanged id = true) :
      side.firstAbout (elem :: queue) id = side.firstAbout queue id := by
    rw [firstAbout_cons held, if_neg fun about => unwanted id about changed]
  have extend : FirstsExtend tables plugin side s (elem :: queue) ↔
      FirstsExtend tables plugin side s queue := by
    refine forall_congr' fun id => forall_congr' fun other => forall_congr' fun changed => ?_
    rw [first id changed]
  rcases rest with ⟨rfl, empty, fails⟩ | ⟨rfl, whole, goes, told, calls, mem, list⟩
  · refine .inl ⟨rfl, fun all => empty fun other mem => all other (List.mem_cons_of_mem _ mem), ?_⟩
    rwa [extend]
  · refine .inr ⟨rfl, List.forall_mem_cons.mpr ⟨rfl, whole⟩, extend.mpr goes, told, calls, ?_, list⟩
    intro id
    rw [mem id]
    exact and_congr_right fun changed => by rw [first id changed]

theorem queue_taken {id : Nat} {new : NetPacket} (own : side.reported packet.dstTalId = id)
    (changed : s.sts.getCniHasChanged id = true) (about : side.about packet = some id)
    (held : elem.elem = some packet)
    (answer : side.extended tables plugin s (some packet) packet.dstTalId = some new)
    (rest : QueueTold tables plugin side { side.record tables s packet.dstTalId with
      listSt := s.listSt ++ [side.reported packet.dstTalId] } queue ok s' queue') :
    QueueTold tables plugin side s (elem :: queue) ok s' (elem.getElem.2.setElem new :: queue') := by
  have record : CniState.Calls tables s { side.record tables s packet.dstTalId with
      listSt := s.listSt ++ [side.reported packet.dstTalId] } {id} ∅ := by
    obtain ⟨ids, value, flag, reports⟩ := @CniState.calls_record tables side s packet.dstTalId
    rw [own] at flag reports
    exact ⟨ids, value, flag, reports⟩
  generalize next : ({ side.record tables s packet.dstTalId with
    listSt := s.listSt ++ [side.reported packet.dstTalId] } : CniState) = mid at rest record
  have list (other : Nat) : other ∈ mid.listSt ↔ other ∈ s.listSt ∨ other = id := by
    rw [← next, List.mem_append, List.mem_singleton, own]
  have marked (other : Nat) : mid.sts.getCniHasChanged other = true ↔
      s.sts.getCniHasChanged other = true ∧ other ≠ id := by
    rw [record.flag]
    simp
  have first (other : Nat) (ne : other ≠ id) :
      side.firstAbout (elem :: queue) other = side.firstAbout queue other := by
    rw [firstAbout_cons held, about, if_neg fun same => ne (Option.some.inj same).symm]
  have extend : FirstsExtend tables plugin side s (elem :: queue) ↔
      FirstsExtend tables plugin side mid queue := by
    constructor
    · intro all other packet' set found
      obtain ⟨set', ne⟩ := (marked other).mp set
      rw [extended_congr record.value]
      exact all other packet' set' ((first other ne).trans found)
    · intro all other packet' set found
      by_cases same : other = id
      · rw [same, firstAbout_cons held, if_pos about] at found
        cases found
        rw [answer]
        exact nofun
      · rw [← extended_congr record.value]
        exact all other packet' ((marked other).mpr ⟨set, same⟩)
          ((first other same).symm.trans found)
  rcases rest with ⟨rfl, empty, fails⟩ | ⟨rfl, whole, goes, told, calls, mem, list'⟩
  · refine .inl ⟨rfl, fun all => empty fun other mem => all other (List.mem_cons_of_mem _ mem), ?_⟩
    rwa [extend]
  · refine .inr ⟨rfl, List.forall_mem_cons.mpr ⟨rfl, whole⟩, extend.mpr goes, {id} ∪ told, ?_,
      ?_, ?_⟩
    · have both := record.trans calls
      rwa [Set.union_empty] at both
    · intro other
      rw [Set.mem_union, Set.mem_singleton_iff, mem other, marked other]
      by_cases same : other = id
      · rw [same, firstAbout_cons held, if_pos about]
        simp [changed]
      · rw [first other same]
        simp [same]
    · intro other
      rw [list', list, Set.mem_union, Set.mem_singleton_iff, or_assoc]

end

theorem queue_spec (proper : side.Proper) (whole : Whole queue) {ok : Bool}
    (queued : addCniExtQueue (side.extension tables plugin) s queue = some (ok, s', queue')) :
    QueueTold tables plugin side s queue ok s' queue' := by
  induction queue generalizing s queue' with
  | nil =>
      cases queued
      refine .inr ⟨rfl, whole, ?_, ∅, .refl _, ?_, ?_⟩
      · intro id packet _ found
        cases found
      · intro id
        simp [firstAbout]
      · intro id
        simp
  | cons elem rest ih =>
      have whole' : Whole rest := fun other mem => whole other (List.mem_cons_of_mem _ mem)
      obtain ⟨packet, held⟩ := Option.isSome_iff_exists.mp (whole elem List.mem_cons_self)
      simp only [addCniExtQueue, FifoElement.getElem, held, Option.bind_some] at queued
      have first := @firstAbout_cons side rest elem packet held
      split at queued
      next wanted =>
        obtain ⟨id, about, changed⟩ := isWanted_iff.mp wanted
        have own : side.reported packet.dstTalId = id := proper packet id about
        cases answer : side.extended tables plugin s (some packet) packet.dstTalId with
        | none =>
            obtain ⟨s₁, refused⟩ := extension_refused answer
            rw [refused] at queued
            cases queued
            refine .inl ⟨rfl, fun all => ?_, fun extend => ?_⟩
            · cases all _ List.mem_cons_self
            · exact extend id packet changed (by rw [first, if_pos about]) answer
        | some new =>
            rw [extension_taken answer] at queued
            obtain ⟨⟨ok, s₂, rest'⟩, looped, eq⟩ := Option.map_eq_some_iff.mp queued
            cases eq
            exact queue_taken own changed about held answer (ih whole' looped)
      next unwanted =>
        obtain ⟨⟨ok, s₂, rest'⟩, looped, eq⟩ := Option.map_eq_some_iff.mp queued
        cases eq
        exact queue_skipped held (fun id about changed => unwanted (isWanted_iff.mpr
          ⟨id, about, changed⟩)) (ih whole' looped)

end CniSide

/-- The elements of FIFOs, in the order of the loop. -/
def SortedMap.elements {κ : Type*} [LinearOrder κ] (fifos : SortedMap κ (DvbFifo NetPacket)) :
    List (FifoElement NetPacket) := fifos.entries.flatMap (·.2.queue)

/-- A FIFO and the same one with more packets. -/
def Grown (added : Nat) (former later : DvbFifo NetPacket) : Prop :=
  later.maxSizePkt = former.maxSizePkt ∧ later.queue.length = former.queue.length + added

namespace SortedMap

variable {κ : Type*} [LinearOrder κ] {fifos : SortedMap κ (DvbFifo NetPacket)}

theorem whole_elements :
    Whole fifos.elements ↔ ∀ entry ∈ fifos.entries, Whole entry.2.queue := by
  unfold Whole elements
  simp only [List.mem_flatMap]
  exact ⟨fun all entry mem elem on => all elem ⟨entry, mem, on⟩,
    fun all elem ⟨entry, mem, on⟩ => all entry mem elem on⟩

/-- The loop over FIFOs is one over their elements, and leaves the room in each of them. -/
theorem addCniExt_elements {σ : Type} {handler : CniExtension σ NetPacket} {s : σ}
    {out : Bool × σ × SortedMap κ (DvbFifo NetPacket)}
    (looped : fifos.forValuesWhile (DvbFifo.addCniExt handler) s = some out) :
    addCniExtQueue handler s fifos.elements = some (out.1, out.2.1, out.2.2.elements) ∧
      ∀ key, Option.Rel (Grown 0) (fifos.lookup key) (out.2.2.lookup key) := by
  constructor
  · exact forValuesWhile_flat DvbFifo.queue (addCniExtQueue handler) (fun _ => rfl)
      addCniExtQueue_goes addCniExtQueue_stops
      (fun s fifo out called => (DvbFifo.addCniExt_queue called).1) looped
  · exact forValuesWhile_lookup (fun _ => ⟨rfl, rfl⟩)
      (fun s fifo out called => (DvbFifo.addCniExt_queue called).2) looped

/-- The FIFO that an empty packet may have been added to keeps its elements whole. -/
theorem whole_modify (whole : Whole fifos.elements) (key : κ) {fifo : Option (DvbFifo NetPacket)}
    (new : ∀ later, fifo = some later → Whole later.queue) :
    Whole (fifos.modify key fun former => fifo.getD former).elements := by
  rw [whole_elements] at whole ⊢
  refine forall_modify whole fun former held => ?_
  cases fifo with
  | none => exact held
  | some later => exact new later rfl

end SortedMap

theorem StFmtSimuMap.isStPresent_of_changed {sts : StFmtSimuMap} {id : Nat}
    (changed : sts.getCniHasChanged id = true) : sts.isStPresent id = true := by
  rw [getCniHasChanged_eq] at changed
  rw [isStPresent_eq]
  cases found : sts.sts.lookup id with
  | none =>
      rw [found] at changed
      cases changed
  | some st => rfl

/-! ### The empty packets -/

/-- What becomes of the terminal of an empty packet: it has no FIFO, the plugin refuses the packet,
the FIFO is full, or the packet is queued. -/
inductive CniTurn where
  | unplaced | refused | dropped | queued
deriving DecidableEq, Repr

def CniTurn.Lost (turn : CniTurn) : Prop := turn = .refused ∨ turn = .dropped

def CniTurn.Passes (turn : CniTurn) : Prop := turn = .queued ∨ turn = .dropped

instance (turn : CniTurn) : Decidable turn.Passes := inferInstanceAs (Decidable (_ ∨ _))

namespace CniTurn

variable (id : Nat) (turn : CniTurn) (rest : List (Nat × CniTurn))

theorem told_cons : {x | (x, queued) ∈ (id, turn) :: rest} =
    {x | x = id ∧ turn = queued} ∪ {x | (x, queued) ∈ rest} := by
  ext x
  simp only [List.mem_cons, Prod.mk.injEq, Set.mem_union, Set.mem_ofPred_eq, eq_comm]

theorem gone_cons : {x | ∃ other, (x, other) ∈ (id, turn) :: rest ∧ other.Lost} =
    {x | x = id ∧ turn.Lost} ∪ {x | ∃ other, (x, other) ∈ rest ∧ other.Lost} := by
  ext x
  constructor
  · rintro ⟨other, on, lost⟩
    rcases List.mem_cons.mp on with same | on
    · cases same
      exact .inl ⟨rfl, lost⟩
    · exact .inr ⟨other, on, lost⟩
  · rintro (⟨rfl, lost⟩ | ⟨other, on, lost⟩)
    · exact ⟨turn, List.mem_cons_self, lost⟩
    · exact ⟨other, List.mem_cons_of_mem _ on, lost⟩

end CniTurn

/-- What a turn of a terminal does to the reports. -/
structure Turned (tables : ModcodDef → FmtDefinitionTable) (s : CniState) (id : Nat)
    (turn : CniTurn) (ok : Bool) (s' : CniState) : Prop where
  calls : CniState.Calls tables s s' {x | x = id ∧ turn = .queued} {x | x = id ∧ turn.Lost}
  status : ok = true ↔ turn.Passes
  list : s'.listSt = s.listSt

namespace CniSide

variable {plugin : CniPlugin} {side : CniSide} {s s' : CniState}

/-- The turn of a terminal with a FIFO, where empty packets were queued before. -/
def emptyTurn (tables : ModcodDef → FmtDefinitionTable) (plugin : CniPlugin) (side : CniSide)
    (s : CniState) (dest added : Nat) (fifo : Option (DvbFifo NetPacket)) : CniTurn :=
  if side.extended tables plugin s none dest = none then .refused
  else if fifo.any fun fifo => fifo.queue.length + added < fifo.maxSizePkt then .queued
  else .dropped

theorem sendEmpty_cases {dest : Nat} {fifo fifo' : Option (DvbFifo NetPacket)} {ok : Bool}
    (sent : side.sendEmpty tables plugin s dest fifo = some (ok, s', fifo')) :
    (side.extended tables plugin s none dest = none ∧ ok = false ∧ fifo' = fifo ∧
        CniState.Calls tables s s' ∅ {side.reported dest} ∧ s'.listSt = s.listSt) ∨
      ∃ new former, side.extended tables plugin s none dest = some new ∧ fifo = some former ∧
        ok = true ∧ s'.listSt = s.listSt ∧
        ((former.queue.length < former.maxSizePkt ∧
            CniState.Calls tables s s' {side.reported dest} ∅ ∧
            ∃ later, fifo' = some later ∧ later.queue = former.queue ++ [⟨some new, 0, 0⟩] ∧
              later.maxSizePkt = former.maxSizePkt) ∨
          (¬ former.queue.length < former.maxSizePkt ∧ fifo' = some former ∧
            CniState.Calls tables s s' ∅ {side.reported dest})) := by
  unfold sendEmpty at sent
  split at sent
  next sts answer =>
    have refused : side.extended tables plugin s none dest = none := by rw [extended, answer]
    obtain ⟨rfl, -⟩ := Prod.mk.inj answer
    cases sent
    exact .inl ⟨refused, rfl, rfl, CniState.calls_lost s _, rfl⟩
  next sts new answer =>
    have taken : side.extended tables plugin s none dest = some new := by rw [extended, answer]
    obtain ⟨rfl, -⟩ := Prod.mk.inj answer
    obtain ⟨former, rfl, pushed⟩ := Option.bind_eq_some_iff.mp sent
    obtain ⟨⟨status, later⟩, push, eq⟩ := Option.map_eq_some_iff.mp pushed
    cases eq
    refine .inr ⟨new, former, taken, rfl, rfl, ?_, ?_⟩
    · split <;> rfl
    · unfold DvbFifo.pushBack DvbFifo.reinsert at push
      split at push
      next room =>
        cases push
        exact .inl ⟨room, CniState.calls_record side s dest, _, rfl, rfl, rfl⟩
      next full =>
        cases push
        exact .inr ⟨full, rfl, CniState.calls_lost s _⟩

/-- The empty packet makes the turn that is read from an earlier state. -/
theorem sendEmpty_turn {start : CniState} {dest added : Nat} {ok : Bool}
    {former fifo fifo' : Option (DvbFifo NetPacket)}
    (value : ∀ id, s.sts.cniValue tables id = start.sts.cniValue tables id)
    (room : Option.Rel (Grown added) former fifo) (whole : ∀ held ∈ fifo, Whole held.queue)
    (sent : side.sendEmpty tables plugin s dest fifo = some (ok, s', fifo')) {turn : CniTurn}
    (own : side.emptyTurn tables plugin start dest added former = turn) :
    Turned tables s (side.reported dest) turn ok s' ∧ turn ≠ .unplaced ∧
      Option.Rel (Grown (if turn = .queued then added + 1 else added)) former fifo' ∧
      ∀ held ∈ fifo', Whole held.queue := by
  have same := @extended_congr tables plugin side start s value none dest
  unfold emptyTurn at own
  rcases sendEmpty_cases sent with ⟨refused, rfl, rfl, calls, list⟩ |
    ⟨new, later, taken, rfl, rfl, list, pushed⟩
  · rw [if_pos (same.symm.trans refused)] at own
    subst own
    refine ⟨⟨?_, by simp [CniTurn.Passes], list⟩, nofun, room, whole⟩
    simpa [CniTurn.Lost] using calls
  rw [if_neg (by rw [← same, taken]; exact nofun)] at own
  cases room with
  | @some earlier _ grown =>
  have free : (earlier.queue.length + added < earlier.maxSizePkt) ↔
      later.queue.length < later.maxSizePkt := by rw [grown.1, grown.2]
  have held : Whole later.queue := whole later rfl
  rcases pushed with ⟨room, calls, last, rfl, queue, size⟩ | ⟨full, rfl, calls⟩
  · rw [Option.any_some, if_pos (decide_eq_true (free.mpr room))] at own
    subst own
    refine ⟨⟨?_, by simp [CniTurn.Passes], list⟩, nofun, .some ⟨size.trans grown.1, ?_⟩, ?_⟩
    · simpa [CniTurn.Lost] using calls
    · rw [queue, List.length_append, grown.2]
      rfl
    · rintro _ ⟨⟩
      rw [Whole, queue, List.forall_mem_append]
      exact ⟨held, List.forall_mem_singleton.mpr rfl⟩
  · rw [if_neg (by rw [Option.any_some, decide_eq_true_eq, free]; exact full)] at own
    subst own
    refine ⟨⟨?_, by simp [CniTurn.Passes], list⟩, nofun, .some grown, whole⟩
    simpa [CniTurn.Lost] using calls

end CniSide

/-! ### One call -/

/-- The reports that a call adds give each changed terminal of some its required C/N. -/
def CniState.Attaches (tables : ModcodDef → FmtDefinitionTable) (scpc : Nat → Prop)
    (s s' : CniState) : Prop :=
  ∃ new, s'.reports = new ++ s.reports ∧ ∀ id, scpc id → s.sts.getCniHasChanged id = true →
    (id, s.sts.cniValue tables id) ∈ new

/-- The reports are lost only of the terminals whose last report was the required C/N, and of none
when no turn ends the call. -/
def TurnsReport (tables : ModcodDef → FmtDefinitionTable) (s : CniState)
    (turns : List (Nat × CniTurn)) : Prop :=
  (∀ turn ∈ turns, turn.2.Lost → s.lastReport turn.1 = some (s.sts.cniValue tables turn.1)) ∧
    ((∀ turn ∈ turns, turn.2.Passes) → ∀ turn ∈ turns, turn.2 = .queued)

/-- What a call does that the plugin lets go through the queued packets. -/
structure CallTold (tables : ModcodDef → FmtDefinitionTable) (scpc : Nat → Prop) (s : CniState)
    (turns : List (Nat × CniTurn)) (ok : Bool) (s' : CniState) (told lost : Set Nat) : Prop where
  calls : CniState.Calls tables s s' told lost
  gone : ∀ id, id ∈ lost ↔ ∃ turn, (id, turn) ∈ turns ∧ turn.Lost
  apart : ∀ id ∈ lost, id ∉ told
  changed : ∀ turn ∈ turns, s.sts.isStPresent turn.1 = true ∧ scpc turn.1 ∧
    s.sts.getCniHasChanged turn.1 = true
  status : ok = true ↔ ∀ turn ∈ turns, turn.2.Passes
  covers : ok = true → ∀ id, scpc id → s.sts.getCniHasChanged id = true → id ∈ told ∨ id ∈ lost

/-- A call keeps the reports, and what it promises of its status, exactly when no report is lost. -/
theorem CallTold.exact {scpc : Nat → Prop} {s s' : CniState} {turns : List (Nat × CniTurn)}
    {ok : Bool} {told lost : Set Nat} (call : CallTold tables scpc s turns ok s' told lost)
    (before : s.UpToDate tables) :
    (s'.UpToDate tables ∧ (ok = true → CniState.Attaches tables scpc s s')) ↔
      TurnsReport tables s turns := by
  have upToDate := call.calls.upToDate_iff before call.apart fun id gone => by
    obtain ⟨turn, mem, -⟩ := (call.gone id).mp gone
    exact (call.changed _ mem).1
  obtain ⟨new, reports, mem⟩ := call.calls.reports
  constructor
  · rintro ⟨after, attaches⟩
    refine ⟨fun turn on gone => ?_, fun passes turn on => ?_⟩
    · exact upToDate.mp after turn.1 ((call.gone turn.1).mpr ⟨turn.2, on, gone⟩)
    · obtain ⟨new', reports', all⟩ := attaches (call.status.mpr passes)
      rcases passes turn on with queued | dropped
      · exact queued
      · exfalso
        have gone := (call.gone turn.1).mpr ⟨turn.2, on, .inr dropped⟩
        obtain ⟨-, scpc, set⟩ := call.changed turn on
        have held := all turn.1 scpc set
        rw [reports] at reports'
        rw [← List.append_cancel_right reports', mem] at held
        exact call.apart turn.1 gone held.1
  · rintro ⟨reported, queued⟩
    refine ⟨upToDate.mpr fun id gone => ?_, fun status => ⟨new, reports, fun id scpc set => ?_⟩⟩
    · obtain ⟨turn, on, lost⟩ := (call.gone id).mp gone
      exact reported (id, turn) on lost
    · refine (mem id _).mpr ⟨?_, rfl⟩
      rcases call.covers status id scpc set with told | gone
      · exact told
      · obtain ⟨turn, on, lost⟩ := (call.gone id).mp gone
        have went := queued (call.status.mp status) (id, turn) on
        rcases lost with rfl | rfl <;> cases went

end OpenSand
