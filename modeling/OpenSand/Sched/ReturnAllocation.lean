import OpenSand.Sched.ReturnConservation
import OpenSand.Sched.ReturnTerminal

/-!
What a terminal sends and what it was allocated.

The allocation is compared with the length of the frame once a packet is added to it, so a
superframe exceeds it by less than its last packet. But it is not looked at before the
first packet, which is taken even when the allocation is null.
-/

namespace OpenSand

open OpenSand.Bytes OpenSand.Loop OpenSand.Run OpenSand.Word

namespace MacSchedule

/-- The packets that are sent. -/
def sent (s : MacSchedule) : List NetPacket := s.complete.flatMap (·.packets)

/-- What is sent exceeds the allocation by less than the last packet, nothing is taken from
the FIFOs without allocation, and the allocation left is what is not sent. -/
structure Within (allocationB : Nat) (s : MacSchedule) : Prop where
  overshoot : ∀ packets last, s.sent = packets ++ [last] → bits packets < allocationB
  nothing : allocationB = 0 → s.taken = []
  left : s.remainingAllocationB = allocationB - bits s.sent

variable {handler : ReturnPacketHandler} {maxBurstLengthB allocationB : Nat}
  {first : List (DvbFifo NetPacket)} {s s' : MacSchedule}

/-! ### With an allocation -/

theorem subToZero_eq {a b : Nat} (ha : a < 2 ^ 31) (hb : b < 2 ^ 31) : subToZero a b = a - b := by
  unfold subToZero
  rcases Nat.lt_or_ge a b with less | enough
  · rw [subW_of_gt (by omega) less, if_neg (by omega)]
    omega
  · rw [subW_of_le (by omega) enough, if_pos (by omega)]

/-- The allocation in the loop: a packet is only taken when there is some left. -/
structure Paid (allocationB : Nat) (s : MacSchedule) : Prop where
  left : s.remainingAllocationB = allocationB - bits s.sent
  opened : halted s = false → s.state ≠ .finalizeFrame → bits s.sent + bits s.current < allocationB
  closing : s.state = .finalizeFrame → bits s.sent < allocationB ∧
    ∀ packets last, s.current = packets ++ [last] → bits s.sent + bits packets < allocationB
  overshoot : ∀ packets last, s.sent = packets ++ [last] → bits packets < allocationB
  ended : s.state = .done → s.incomplete.isSome → bits s.sent + bits s.current < allocationB

/-- The last element of an appended list that is not empty. -/
theorem append_eq_snoc {α : Type*} {xs ys zs : List α} {last : α} (exist : ys ≠ [])
    (h : xs ++ ys = zs ++ [last]) : ∃ init, ys = init ++ [last] ∧ zs = xs ++ init := by
  rcases List.eq_nil_or_concat' ys with none | ⟨init, final, rfl⟩
  · exact absurd none exist
  · rw [← List.append_assoc] at h
    obtain ⟨rfl, same⟩ := List.append_inj' h rfl
    cases same
    exact ⟨init, rfl, rfl⟩

/-- A turn that leaves the frames and the allocation alone. -/
theorem Paid.aside (paid : s.Paid allocationB) (running : halted s = false)
    (adding : s.state ≠ .finalizeFrame) (complete : s'.complete = s.complete)
    (remaining : s'.remainingAllocationB = s.remainingAllocationB)
    (incomplete : s'.incomplete = s.incomplete) (next : s'.state ≠ .finalizeFrame) :
    s'.Paid allocationB := by
  have opened := paid.opened running adding
  have sent : s'.sent = s.sent := by rw [MacSchedule.sent, complete, MacSchedule.sent]
  have current : s'.current = s.current := by
    rw [MacSchedule.current, incomplete, MacSchedule.current]
  refine ⟨?_, fun _ _ => ?_, fun state => absurd state next, ?_, fun _ _ => ?_⟩
  · rw [remaining, sent]
    exact paid.left
  · rw [sent, current]
    exact opened
  · rw [sent]
    exact paid.overshoot
  · rw [sent, current]
    exact opened

theorem sent_completed (s : MacSchedule) (frame : DvbRcsFrame) :
    sent { s with complete := s.complete ++ [frame] } = s.sent ++ frame.packets := by
  simp [sent]

/-- A frame that is completed. -/
theorem Paid.completed (small : allocationB < 2 ^ 31) (formed : s.Formed)
    (paid : s.Paid allocationB) {frame : DvbRcsFrame} (state : s.state = .finalizeFrame)
    (incomplete : s.incomplete = some frame) (some : frame.getNumPackets ≠ 0) :
    subToZero s.remainingAllocationB s.frameLengthB =
        allocationB - bits (s.sent ++ frame.packets) ∧
      ∀ packets last, s.sent ++ frame.packets = packets ++ [last] →
        bits packets < allocationB := by
  have counted := formed.frameLength (by simp [incomplete]) (by simp [state])
  have most := formed.bits_le incomplete
  rw [Formed.current_eq incomplete] at counted
  simp only [msgDvbRcsSizeMax, encapBurstLength] at most
  have left := paid.left
  rw [formed.getNumPackets_eq incomplete] at some
  obtain ⟨-, closing⟩ := paid.closing state
  rw [Formed.current_eq incomplete] at closing
  constructor
  · rw [subToZero_eq (by omega) (by omega), bits_append, counted, left]
    omega
  · intro packets last all
    obtain ⟨init, final, rfl⟩ := append_eq_snoc (mt List.length_eq_zero_iff.mpr some) all
    have below := closing init last final
    rw [bits_append]
    exact below

theorem Act.paid (small : allocationB < 2 ^ 31) (chunks : handler.Chunks) (formed : s.Formed)
    (paid : s.Paid allocationB) (act : Act handler maxBurstLengthB s s') : s'.Paid allocationB := by
  have formed' := act.formed chunks formed
  cases act with
  | skip state => exact paid.aside (by simp [halted, state]) (by simp [state]) rfl rfl rfl (by simp)
  | finish state => exact paid.aside (by simp [halted, state]) (by simp [state]) rfl rfl rfl (by simp)
  | ignore state => exact paid.aside (by simp [halted, state]) (by simp [state]) rfl rfl rfl (by simp)
  | enter state => exact paid.aside (by simp [halted, state]) (by simp [state]) rfl rfl rfl (by simp)
  | leave state => exact paid.aside (by simp [halted, state]) (by simp [state]) rfl rfl rfl (by simp)
  | pop state => exact paid.aside (by simp [halted, state]) (by simp [state]) rfl rfl rfl (by simp)
  | refuse state => exact paid.aside (by simp [halted, state]) (by simp [state]) rfl rfl rfl (by simp)
  | @chunk elem packet frame fifo fifo' data remaining state =>
      have opened := paid.opened (by simp [halted, state]) (by simp [state])
      cases data with
      | none =>
          refine ⟨paid.left, fun _ other => absurd rfl other, fun _ => ⟨?_, ?_⟩, paid.overshoot,
            by simp [SchedState.afterChunk]⟩
          · exact (Nat.le_add_right _ _).trans_lt opened
          · intro packets last all
            have all' : s.current = packets ++ [last] := all
            rw [all', bits_append] at opened
            exact (Nat.add_le_add_left (Nat.le_add_right _ _) _).trans_lt opened
      | some data =>
          exact paid.aside (by simp [halted, state]) (by simp [state]) rfl rfl rfl
            (by simp [SchedState.afterChunk])
  | reject state => exact ⟨paid.left, by simp [halted], by simp, paid.overshoot, by simp⟩
  | starve state => exact ⟨paid.left, by simp [halted], by simp, paid.overshoot, by simp⟩
  | @add data frame frame' next state incomplete enough maxSize packets goes =>
      have opened := paid.opened (by simp [halted, state]) (by simp [state])
      rw [Formed.current_eq incomplete] at opened
      rcases goes with rfl | ⟨rfl, enoughLeft⟩
      · refine ⟨paid.left, fun _ other => absurd rfl other, fun _ => ⟨?_, ?_⟩, paid.overshoot,
          by simp⟩
        · exact (Nat.le_add_right _ _).trans_lt opened
        · intro init last all
          rw [Formed.current_eq rfl, packets] at all
          obtain ⟨rfl, -⟩ := List.append_inj' all rfl
          exact opened
      · have counted := formed'.frameLength rfl (by simp)
        dsimp only at counted
        rw [counted, paid.left] at enoughLeft
        refine ⟨paid.left, fun _ _ => ?_, by simp, paid.overshoot, by simp⟩
        exact Nat.add_lt_of_lt_sub' enoughLeft
  | last state incomplete some spent =>
      obtain ⟨left, overshoot⟩ := paid.completed small formed state incomplete some
      rw [← sent_completed] at left overshoot
      exact ⟨left, by simp [halted], by simp, overshoot, by simp⟩
  | @renew frame frame' state incomplete some exist allocated =>
      obtain ⟨left, overshoot⟩ := paid.completed small formed state incomplete some
      rw [← sent_completed] at left overshoot
      refine ⟨left, fun _ _ => ?_, by simp, overshoot, by simp⟩
      rw [Formed.current_eq rfl, (allocateDvbRcsFrame_eq allocated).1]
      rw [left] at exist
      exact Nat.lt_of_sub_ne_zero exist

theorem Paid.close (small : allocationB < 2 ^ 31) (positive : allocationB ≠ 0) (formed : s.Formed)
    (paid : s.Paid allocationB) (halt : halted s = true) : (close s).2.Within allocationB := by
  unfold MacSchedule.close
  split
  next => exact ⟨paid.overshoot, fun none => absurd none positive, paid.left⟩
  next safe =>
    have done : s.state = .done := by
      unfold halted at halt
      split at halt
      next state => exact state
      next state => exact absurd state safe
      next => cases halt
    split
    next => exact ⟨paid.overshoot, fun none => absurd none positive, paid.left⟩
    next frame incomplete =>
      have ended := paid.ended done (by simp [incomplete])
      rw [Formed.current_eq incomplete] at ended
      have counted := formed.frameLength (by simp [incomplete]) (by simp [done])
      have most := formed.bits_le incomplete
      rw [Formed.current_eq incomplete] at counted
      simp only [msgDvbRcsSizeMax, encapBurstLength] at most
      have left := paid.left
      split
      next some =>
        rw [formed.getNumPackets_eq incomplete] at some
        have added := sent_completed s frame
        refine ⟨?_, fun none => absurd none positive, ?_⟩
        · intro packets last all
          have all' : s.sent ++ frame.packets = packets ++ [last] := added.symm.trans all
          obtain ⟨init, final, rfl⟩ := append_eq_snoc (List.length_pos_iff.mp some) all'
          rw [final, bits_append] at ended
          rw [bits_append]
          omega
        · show subToZero s.remainingAllocationB s.frameLengthB =
            allocationB - bits (sent { s with complete := s.complete ++ [frame] })
          rw [added, subToZero_eq (by omega) (by omega), bits_append, counted, left]
          omega
      next => exact ⟨paid.overshoot, fun none => absurd none positive, paid.left⟩

/-! ### Without allocation -/

/-- A FIFO that the return scheduling takes nothing from. -/
def Idle (fifo : DvbFifo NetPacket) : Prop :=
  fifo.accessType.same (.return .saloha) = true ∨ fifo.queue = []

instance (fifo : DvbFifo NetPacket) : Decidable (Idle fifo) :=
  inferInstanceAs (Decidable (_ ∨ fifo.queue = []))

theorem queue_eq_nil {fifo : DvbFifo NetPacket} (empty : fifo.getCurrentSize = 0) :
    fifo.queue = [] := by
  have le := fifo.queue_le
  have lt := fifo.maxSizePkt.isLt
  rw [DvbFifo.getCurrentSize, wrap_of_lt (by omega)] at empty
  exact List.length_eq_zero_iff.mp empty

/-- The FIFOs that were seen before anything was taken. -/
def Seen (first : List (DvbFifo NetPacket)) (s : MacSchedule) : Prop :=
  match s.state with
  | .getFifo => s.taken = [] → s.fifos = first ∧ ∀ fifo ∈ first.take s.fifoIt, Idle fifo
  | .nextEncapPkt => s.taken = [] → s.fifos = first ∧ ∀ fifo ∈ first.take s.fifoIt, Idle fifo
  | .nextFifo => s.taken = [] → s.fifos = first ∧ ∀ fifo ∈ first.take (s.fifoIt + 1), Idle fifo
  | .done => s.taken = [] → ∀ fifo ∈ first, Idle fifo
  | .getChunk _ _ => True
  | _ => s.taken ≠ []

theorem idle_take_succ {k : Nat} {fifo : DvbFifo NetPacket} (fifoAt : first[k]? = some fifo)
    (idle : Idle fifo) (others : ∀ fifo ∈ first.take k, Idle fifo) :
    ∀ fifo ∈ first.take (k + 1), Idle fifo := by
  rw [List.take_add_one, fifoAt]
  intro other mem
  rcases List.mem_append.mp mem with before | own
  · exact others other before
  · rw [List.mem_singleton.mp own]
    exact idle

theorem Act.seen (seen : s.Seen first) (act : Act handler maxBurstLengthB s s') :
    s'.Seen first := by
  unfold Seen at seen
  cases act with
  | skip state =>
      rw [state] at seen
      exact seen
  | finish state fifoAt =>
      rw [state] at seen
      intro none fifo mem
      obtain ⟨same, idle⟩ := seen none
      rw [same, List.getElem?_eq_none_iff] at fifoAt
      rw [List.take_of_length_le fifoAt] at idle
      exact idle fifo mem
  | ignore state fifoAt saloha =>
      rw [state] at seen
      intro none
      obtain ⟨same, idle⟩ := seen none
      rw [same] at fifoAt
      exact ⟨same, idle_take_succ fifoAt (.inl saloha) idle⟩
  | enter state =>
      rw [state] at seen
      exact seen
  | leave state fifoAt empty =>
      rw [state] at seen
      intro none
      obtain ⟨same, idle⟩ := seen none
      rw [same] at fifoAt
      exact ⟨same, idle_take_succ fifoAt (.inr (queue_eq_nil empty)) idle⟩
  | pop => trivial
  | refuse => exact fun none => absurd none (by simp)
  | @chunk elem packet frame fifo fifo' data remaining =>
      cases data with
      | none => exact by simp [Seen, SchedState.afterChunk]
      | some data => exact by simp [Seen, SchedState.afterChunk]
  | reject state =>
      rw [state] at seen
      exact seen
  | starve state =>
      rw [state] at seen
      exact seen
  | @add data frame frame' next state incomplete enough maxSize packets goes =>
      rw [state] at seen
      rcases goes with rfl | ⟨rfl, -⟩
      · exact seen
      · exact fun none => absurd none seen
  | last state =>
      rw [state] at seen
      exact fun none => absurd none seen
  | renew state =>
      rw [state] at seen
      exact fun none => absurd none seen

/-- Nothing was taken, and nothing will be. -/
structure Quiet (first : List (DvbFifo NetPacket)) (allocationB : Nat) (s : MacSchedule) :
    Prop where
  fifos : s.fifos = first
  taken : s.taken = []
  complete : s.complete = []
  current : s.current = []
  left : s.remainingAllocationB = allocationB
  state : s.state = .nextFifo ∨ s.state = .getFifo ∨ s.state = .done ∨
    s.state = .nextEncapPkt ∧ ∃ fifo, first[s.fifoIt]? = some fifo ∧
      fifo.accessType.same (.return .saloha) = false

theorem Act.quiet (idle : ∀ fifo ∈ first, Idle fifo) (quiet : s.Quiet first allocationB)
    (act : Act handler maxBurstLengthB s s') : s'.Quiet first allocationB := by
  have state := quiet.state
  obtain ⟨fifos, taken, complete, current, left, -⟩ := quiet
  cases act with
  | skip => exact ⟨fifos, taken, complete, current, left, .inr (.inl rfl)⟩
  | finish => exact ⟨fifos, taken, complete, current, left, .inr (.inr (.inl rfl))⟩
  | ignore => exact ⟨fifos, taken, complete, current, left, .inl rfl⟩
  | @enter fifo _ fifoAt dama =>
      rw [fifos] at fifoAt
      exact ⟨fifos, taken, complete, current, left, .inr (.inr (.inr ⟨rfl, fifo, fifoAt, dama⟩))⟩
  | leave => exact ⟨fifos, taken, complete, current, left, .inl rfl⟩
  | @pop fifo fifo' elem packet state' fifoAt queue =>
      simp only [state', reduceCtorEq, true_and, false_or] at state
      obtain ⟨other, otherAt, dama⟩ := state
      rw [fifos, otherAt] at fifoAt
      obtain rfl : other = fifo := Option.some.inj fifoAt
      rcases idle other (List.mem_of_getElem? otherAt) with saloha | none
      · rw [saloha] at dama
        cases dama
      · rw [none] at queue
        cases queue
  | refuse state' => simp [state'] at state
  | chunk state' => simp [state'] at state
  | reject state' => simp [state'] at state
  | add state' => simp [state'] at state
  | starve state' => simp [state'] at state
  | last state' => simp [state'] at state
  | renew state' => simp [state'] at state

theorem Quiet.close (quiet : s.Quiet first allocationB) :
    (close s).2.Within allocationB := by
  have within : s.Within allocationB := by
    have sent : s.sent = [] := by rw [MacSchedule.sent, quiet.complete, List.flatMap_nil]
    refine ⟨fun packets last all => ?_, fun _ => quiet.taken, ?_⟩
    · rw [sent] at all
      exact absurd all (by simp)
    · rw [quiet.left, sent]
      rfl
  have current := quiet.current
  unfold MacSchedule.close
  split
  next => exact ⟨within.overshoot, within.nothing, within.left⟩
  next =>
    split
    next => exact within
    next frame incomplete =>
      rw [Formed.current_eq incomplete] at current
      rw [if_neg (by simp [DvbRcsFrame.getNumPackets, current, wrap])]
      exact ⟨within.overshoot, within.nothing, within.left⟩

/-! ### A call -/

theorem start_within (history : List Taken) (frame : Option DvbRcsFrame) :
    (start first history allocationB frame).Within allocationB where
  overshoot packets last all := absurd all (by simp [sent, start])
  nothing _ := rfl
  left := rfl

theorem close_taken (s : MacSchedule) : (close s).2.taken = s.taken := by
  unfold close
  split
  next => rfl
  next =>
    split
    next => rfl
    next =>
      split
      next => rfl
      next => rfl

/-- **A call of the return scheduling keeps to the allocation** exactly when there is one,
or no burst of a byte, or no packet to send. -/
theorem schedule_within_iff (small : allocationB < 2 ^ 31) (chunks : handler.Chunks)
    {fuel : Nat} {history : List Taken} {out : Bool × MacSchedule}
    (h : schedule handler maxBurstLengthB fuel first history allocationB = some out) :
    out.2.Within allocationB ↔
      (allocationB = 0 → maxBurstLengthB < 8 ∨ ∀ fifo ∈ first, Idle fifo) := by
  cases allocated : allocateDvbRcsFrame maxBurstLengthB with
  | none =>
      have short : maxBurstLengthB < 8 := by
        by_contra long
        simp [allocateDvbRcsFrame, show 1 ≤ maxBurstLengthB / 8 by omega] at allocated
      have out_eq : out.2 = start first history allocationB none := by
        unfold schedule macSchedule at h
        rw [allocated] at h
        split at h
        next => rw [← Option.some.inj h]
        next => rw [← Option.some.inj h]
      rw [out_eq]
      exact ⟨fun _ _ => .inl short, fun _ => start_within history none⟩
  | some frame =>
      have burst := one_le_of_allocated allocated
      unfold schedule macSchedule at h
      rw [if_neg (by omega), allocated] at h
      obtain ⟨last, looped, rfl⟩ := Option.map_eq_some_iff.mp h
      obtain ⟨reached, halt⟩ := exec_reaches looped
      have formed : (start first history allocationB (some frame)).Formed :=
        .new allocated rfl rfl (by simp [start])
      have empty := (allocateDvbRcsFrame_eq allocated).1
      constructor
      · rintro within rfl
        right
        have init : (start first history 0 (some frame)).Seen first :=
          fun _ => ⟨rfl, by simp [start]⟩
        have seen : last.Seen first :=
          reached.keeps (P := Seen first)
            (fun s s' seen taken => (act_of_turn burst taken).seen seen) init
        have none := within.nothing rfl
        rw [close_taken] at none
        unfold Seen at seen
        unfold halted at halt
        split at halt
        next state =>
          rw [state] at seen
          exact seen none
        next state =>
          rw [state] at seen
          exact absurd none seen
        next => cases halt
      · intro covered
        by_cases zero : allocationB = 0
        · have idle : ∀ fifo ∈ first, Idle fifo := (covered zero).resolve_left (by omega)
          have init : (start first history allocationB (some frame)).Quiet first allocationB :=
            ⟨rfl, rfl, rfl, (Formed.current_eq rfl).trans empty, rfl, .inr (.inl rfl)⟩
          have quiet : last.Quiet first allocationB :=
            reached.keeps (P := Quiet first allocationB)
              (fun s s' quiet taken => (act_of_turn burst taken).quiet idle quiet) init
          exact quiet.close
        · have opened : bits (start first history allocationB (some frame)).sent +
              bits (start first history allocationB (some frame)).current < allocationB := by
            rw [Formed.current_eq rfl, empty]
            exact Nat.pos_of_ne_zero zero
          have init : (start first history allocationB (some frame)).Paid allocationB :=
            ⟨rfl, fun _ _ => opened, by simp [start],
              fun packets last all => absurd all (by simp [sent, start]), by simp [start]⟩
          obtain ⟨formedLast, paid⟩ := reached.keeps
            (P := fun s => s.Formed ∧ s.Paid allocationB) (fun s s' kept taken =>
              ⟨(act_of_turn burst taken).formed chunks kept.1,
                (act_of_turn burst taken).paid small chunks kept.1 kept.2⟩) ⟨formed, init⟩
          exact paid.close small zero formedLast halt

end MacSchedule

/-! ### Runs -/

namespace ReturnTerminal

open MacSchedule

variable {handler : ReturnPacketHandler} {retModcodDef : FmtDefinitionTable}
  {talId groupId : UInt16} {terminal terminal' : ReturnTerminal}

/-- What the last superframe sent keeps to its allocation. -/
def LastWithin (terminal : ReturnTerminal) : Prop :=
  ∀ superframe, terminal.last = some superframe →
    superframe.scheduled.Within superframe.allocationB

/-- The terminal has an allocation for the superframe, or nothing to send: no MODCOD, no
burst of a byte, or no packet in the FIFOs. A restart of the gateway sends nothing either. -/
def Covered (retModcodDef : FmtDefinitionTable) (terminal : ReturnTerminal) : ReturnEvent → Prop
  | .sof superframe _ =>
      ¬ (superframe < terminal.superFrameCounter ∧
        (superframe ≠ 0 ∨ (terminal.superFrameCounter + 1) % 65536 ≠ 0)) →
      terminal.allocatedKb = 0 →
      ∀ fmt, retModcodDef.getDefinition terminal.modcodId = some fmt →
        ceilW 32 (terminal.converter.getPacketBitLength * fmt.codingRate) < 8 ∨
          ∀ fifo ∈ terminal.fifos, Idle fifo
  | _ => True

/-- The volumes are 16-bit words. -/
def Words (terminal : ReturnTerminal) : Prop := terminal.allocatedKb < 2 ^ 16

theorem hereIsTimePlan_kept (tp : EmuTp) (words : terminal.Words) :
    (hereIsTimePlan retModcodDef terminal tp).Words ∧
      (hereIsTimePlan retModcodDef terminal tp).last = terminal.last := by
  unfold hereIsTimePlan
  split
  next => exact ⟨words, rfl⟩
  next => exact ⟨addW_lt 16 _ _, rfl⟩

theorem hereIsTimePlans_kept {tps : List EmuTp} (words : terminal.Words) :
    (tps.foldl (hereIsTimePlan retModcodDef) terminal).Words ∧
      (tps.foldl (hereIsTimePlan retModcodDef) terminal).last = terminal.last := by
  induction tps generalizing terminal with
  | nil => exact ⟨words, rfl⟩
  | cons tp rest ih =>
      obtain ⟨words', last⟩ : (hereIsTimePlan retModcodDef terminal tp).Words ∧ _ :=
        hereIsTimePlan_kept tp words
      obtain ⟨words'', last'⟩ := ih words'
      exact ⟨words'', last'.trans last⟩

theorem hereIsTTP_kept {data : Data} (h : terminal.hereIsTTP retModcodDef talId groupId data =
    some terminal') : terminal'.Words ∧ terminal'.last = terminal.last := by
  obtain ⟨group, -, read⟩ := Option.bind_eq_some_iff.mp h
  have reset : Words { terminal with allocatedKb := 0 } := by simp [Words]
  dsimp only at read
  split at read
  next =>
    cases read
    exact ⟨reset, rfl⟩
  next =>
    obtain ⟨⟨ok, tps, rest⟩, -, rfl⟩ := Option.map_eq_some_iff.mp read
    cases ok with
    | false => exact ⟨reset, rfl⟩
    | true => exact hereIsTimePlans_kept reset

theorem returnSchedule_within_iff {fuel : Nat} (chunks : handler.Chunks)
    (small : terminal.remainingAllocationB < 2 ^ 31)
    (h : terminal.returnSchedule handler fuel = some terminal') :
    terminal'.LastWithin ↔ (terminal.remainingAllocationB = 0 →
      terminal.burstLengthB < 8 ∨ ∀ fifo ∈ terminal.fifos, Idle fifo) := by
  obtain ⟨⟨ok, scheduled⟩, called, rfl⟩ := Option.map_eq_some_iff.mp h
  rw [← schedule_within_iff small chunks called]
  constructor
  · intro within
    exact within _ rfl
  · intro within superframe last
    cases last
    exact within

/-- The frame tick of a terminal: without definition for its MODCOD, nothing is sent. -/
theorem processOnFrameTick_cases (retModcodDef : FmtDefinitionTable) (terminal : ReturnTerminal) :
    (∃ fmt, retModcodDef.getDefinition terminal.modcodId = some fmt ∧
      processOnFrameTick retModcodDef terminal = (true, { terminal with
        remainingAllocationB := terminal.dynamicAllocationKb * 1000
        burstLengthB := ceilW 32 (terminal.converter.getPacketBitLength * fmt.codingRate) })) ∨
    (retModcodDef.getDefinition terminal.modcodId = none ∧
      processOnFrameTick retModcodDef terminal = (false, { terminal with
        remainingAllocationB := terminal.dynamicAllocationKb * 1000
        burstLengthB := terminal.converter.getPacketBitLength })) := by
  unfold processOnFrameTick
  cases known : retModcodDef.getDefinition terminal.modcodId with
  | none => exact .inr ⟨rfl, by simp only [known]⟩
  | some fmt => exact .inl ⟨fmt, rfl, by simp only [known]⟩

theorem returnSchedule_allocatedKb {fuel : Nat}
    (h : terminal.returnSchedule handler fuel = some terminal') :
    terminal'.allocatedKb = terminal.allocatedKb := by
  obtain ⟨out, -, rfl⟩ := Option.map_eq_some_iff.mp h
  rfl

theorem step_words {event : ReturnEvent} (words : terminal.Words)
    (h : step handler retModcodDef talId groupId terminal event = some terminal') :
    terminal'.Words := by
  cases event with
  | ttp data => exact (hereIsTTP_kept h).1
  | fifos fifos =>
      cases h
      exact words
  | sof superframe fuel =>
      simp only [step, handleStartOfFrame] at h
      split at h
      next =>
        cases h
        exact words
      next =>
        rcases processOnFrameTick_cases retModcodDef
          (hereIsSOF { terminal with superFrameCounter := superframe }) with
          ⟨fmt, known, tick⟩ | ⟨unknown, tick⟩
        · rw [tick, if_pos rfl] at h
          rw [Words, returnSchedule_allocatedKb h]
          simp [hereIsSOF]
        · rw [tick, if_neg (by simp)] at h
          cases h
          simp [Words, hereIsSOF]

/-- One event of a terminal. -/
theorem step_lastWithin_iff (chunks : handler.Chunks) (words : terminal.Words)
    (within : terminal.LastWithin) {event : ReturnEvent}
    (h : step handler retModcodDef talId groupId terminal event = some terminal') :
    terminal'.LastWithin ↔ Covered retModcodDef terminal event := by
  cases event with
  | ttp data =>
      obtain ⟨-, last⟩ := hereIsTTP_kept h
      refine ⟨fun _ => trivial, fun _ => ?_⟩
      rw [LastWithin, last]
      exact within
  | fifos fifos =>
      cases h
      exact ⟨fun _ => trivial, fun _ => within⟩
  | sof superframe fuel =>
      simp only [step, handleStartOfFrame] at h
      split at h
      next restarted =>
        cases h
        exact ⟨fun _ again => absurd restarted again, fun _ => within⟩
      next followed =>
        rcases processOnFrameTick_cases retModcodDef
          (hereIsSOF { terminal with superFrameCounter := superframe }) with
          ⟨fmt, known, tick⟩ | ⟨unknown, tick⟩
        · rw [tick, if_pos rfl] at h
          have small : terminal.allocatedKb * 1000 < 2 ^ 31 := by
            unfold Words at words
            omega
          refine (returnSchedule_within_iff chunks small h).trans ⟨?_, ?_⟩
          · intro covered _ zero fmt' known'
            obtain rfl : fmt = fmt' := Option.some.inj (known.symm.trans known')
            exact covered (by simp [hereIsSOF, zero])
          · intro covered zero
            have zero' : terminal.allocatedKb = 0 := by
              simp only [hereIsSOF] at zero
              omega
            exact covered followed zero' fmt known
        · rw [tick, if_neg (by simp)] at h
          cases h
          refine ⟨fun _ _ _ fmt known => ?_, fun _ => within⟩
          exact absurd (unknown.symm.trans known) (by simp)

theorem start_lastWithin (retModcodDef : FmtDefinitionTable)
    (converter : UnitConverterFixedSymbolLength) :
    (start retModcodDef converter).Words ∧ (start retModcodDef converter).LastWithin :=
  ⟨show 0 < 2 ^ 16 by decide, nofun⟩

/-- **A terminal sends what it was allocated**, but for a part of the last packet, in the
runs where it always has an allocation when it has something to send, and in no others. -/
theorem run_within_iff (chunks : handler.Chunks) (retModcodDef : FmtDefinitionTable)
    (talId groupId : UInt16) (converter : UnitConverterFixedSymbolLength)
    (events : List ReturnEvent) :
    AllStates (step handler retModcodDef talId groupId) LastWithin
        (start retModcodDef converter) events ↔
      AllSteps (step handler retModcodDef talId groupId) (Covered retModcodDef)
        (start retModcodDef converter) events := by
  obtain ⟨words, within⟩ := start_lastWithin retModcodDef converter
  have exact_step : AllStates (step handler retModcodDef talId groupId)
      (fun terminal => terminal.Words ∧ terminal.LastWithin) (start retModcodDef converter) events ↔
      AllSteps (step handler retModcodDef talId groupId) (Covered retModcodDef)
        (start retModcodDef converter) events := allStates_iff_allSteps ⟨words, within⟩
    (fun s event s' (good : s.Words ∧ s.LastWithin)
      (taken : step handler retModcodDef talId groupId s event = some s') =>
        and_iff_right (step_words good.1 taken) |>.trans
          (step_lastWithin_iff chunks good.1 good.2 taken))
  rw [← exact_step]
  constructor
  · intro states
    exact (allStates_of_step words fun s event s' words taken => step_words words taken).and states
  · intro states
    exact states.mono fun s good => good.2

/-- A superframe without allocation, but also without packet. -/
theorem emptyFifo_within_iff :
    AllStates (step wholePackets sampleFmts 1 0) LastWithin
        (start sampleFmts ⟨53, 536, 0⟩) [.fifos [.new (.return .damaRbdc) 0 100], .sof 1 20] ↔
      AllSteps (step wholePackets sampleFmts 1 0) (Covered sampleFmts)
        (start sampleFmts ⟨53, 536, 0⟩) [.fifos [.new (.return .damaRbdc) 0 100], .sof 1 20] :=
  run_within_iff wholePackets_chunks sampleFmts 1 0 ⟨53, 536, 0⟩ _

/-- Packets are sent in the first superframe, for which no TTP has come. -/
theorem firstSuperframe_not_within :
    ¬ AllStates (step wholePackets sampleFmts 1 0) LastWithin (start sampleFmts ⟨53, 536, 0⟩)
      [.fifos [twoPackets], .sof 1 20] := by
  have unallocated : (run (step wholePackets sampleFmts 1 0) (start sampleFmts ⟨53, 536, 0⟩)
      [.fifos [twoPackets], .sof 1 20]).map (fun terminal => terminal.last.map fun superframe =>
        (superframe.allocationB, superframe.scheduled.taken.length)) = some (some (0, 1)) := by
    decide +kernel
  obtain ⟨terminal, ends, last⟩ := Option.map_eq_some_iff.mp unallocated
  obtain ⟨superframe, sent, counts⟩ := Option.map_eq_some_iff.mp last
  obtain ⟨zero, one⟩ := Prod.mk.inj counts
  intro states
  have within := states.last ends superframe sent
  rw [within.nothing zero] at one
  cases one

end ReturnTerminal

end OpenSand
