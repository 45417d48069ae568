import OpenSand.Dvb.FifoAccounting

/-!
The flow of packets through the MAC FIFO between two resets of its statistics.

What was counted in minus what was counted out should be the change of the current
counts since the last reset. A packet that is queued again takes its bytes back from
the output, and not itself; and after a reset these bytes may not have been counted.
-/

namespace OpenSand

open OpenSand.Word OpenSand.Run

variable {α σ : Type} [NetContainer α]

/-- A FIFO with its current counts at the last reset, and whether the subtraction of a
period counter has underflowed. -/
structure FifoFlow (α : Type) where
  fifo : DvbFifo α
  pktNbr : Nat
  lengthBytes : Nat
  underflow : Bool

/-- The operation takes more bytes back from the output than were counted. -/
def FifoOp.underflows (fifo : DvbFifo α) : FifoOp σ α → Bool
  | .pushFront elem | .pushBack elem =>
      fifo.queue.length < fifo.maxSizePkt &&
        elem.getTotalLength.any (fifo.statContext.outLengthBytes < wrap 32 ·)
  | _ => false

/-- The operations that reset the statistics. -/
def FifoOp.resets : FifoOp σ α → Bool
  | .getStatsCxt | .flush => true
  | _ => false

namespace FifoFlow

def step (flow : FifoFlow α) (op : FifoOp σ α) : Option (FifoFlow α) :=
  (op.step flow.fifo).map fun fifo =>
    { fifo := fifo
      pktNbr := if op.resets then fifo.statContext.currentPktNbr else flow.pktNbr
      lengthBytes := if op.resets then fifo.statContext.currentLengthBytes else flow.lengthBytes
      underflow := flow.underflow || op.underflows flow.fifo }

/-- A new FIFO. -/
def new (accessType : ForwardOrReturnAccessType) (vcmId : Nat) (maxSizePkt : Fin (2 ^ 16)) :
    FifoFlow α :=
  ⟨.new accessType vcmId maxSizePkt, 0, 0, false⟩

/-- In minus out is the change of the current counts, and nothing underflowed. -/
structure Balanced (flow : FifoFlow α) : Prop where
  packets : (flow.fifo.statContext.inPktNbr : ℤ) - flow.fifo.statContext.outPktNbr =
    flow.fifo.statContext.currentPktNbr - flow.pktNbr
  bytes : (flow.fifo.statContext.inLengthBytes : ℤ) - flow.fifo.statContext.outLengthBytes =
    flow.fifo.statContext.currentLengthBytes - flow.lengthBytes
  exact : flow.underflow = false

end FifoFlow

/-- The counters are words. -/
structure MacFifoStatContext.Words (stat : MacFifoStatContext) : Prop where
  currentPktNbr : stat.currentPktNbr < 2 ^ 16
  inPktNbr : stat.inPktNbr < 2 ^ 16
  outPktNbr : stat.outPktNbr < 2 ^ 16
  currentLengthBytes : stat.currentLengthBytes < 2 ^ 32
  inLengthBytes : stat.inLengthBytes < 2 ^ 32
  outLengthBytes : stat.outLengthBytes < 2 ^ 32

/-- What an operation has to meet to be counted: the current number of packets is the
length of the queue, no counter of packets overflows, the two counters of bytes overflow
together if they do. A packet is queued again only when the current number already counts
it and its bytes were counted out. -/
def FifoOp.Counted (fifo : DvbFifo α) : FifoOp σ α → Prop
  | .push elem => ∀ n, fifo.queue.length < fifo.maxSizePkt → elem.getTotalLength = some n →
      fifo.statContext.currentPktNbr = fifo.queue.length ∧
        fifo.statContext.inPktNbr + 1 < 2 ^ 16 ∧
        (fifo.statContext.inLengthBytes + wrap 32 n < 2 ^ 32 ↔
          fifo.statContext.currentLengthBytes + wrap 32 n < 2 ^ 32)
  | .pushFront elem | .pushBack elem =>
      ∀ n, fifo.queue.length < fifo.maxSizePkt → elem.getTotalLength = some n →
        fifo.statContext.currentPktNbr = fifo.queue.length + 1 ∧
          wrap 32 n ≤ fifo.statContext.outLengthBytes ∧
          fifo.statContext.currentLengthBytes + wrap 32 n < 2 ^ 32
  | .pop => ∀ elem rest n, fifo.queue = elem :: rest → elem.getTotalLength = some n →
      fifo.statContext.currentPktNbr = fifo.queue.length ∧
        fifo.statContext.outPktNbr + 1 < 2 ^ 16 ∧
        (fifo.statContext.outLengthBytes + wrap 32 n < 2 ^ 32 ↔
          wrap 32 n ≤ fifo.statContext.currentLengthBytes)
  | .flush | .getStatsCxt | .resetNew _ | .addCniExt .. => True

/-! ### One operation -/

/-- The period counters and the current counts change by the same amounts. -/
structure MacFifoStatContext.Follows (stat stat' : MacFifoStatContext) : Prop where
  packets : (stat'.inPktNbr : ℤ) - stat.inPktNbr - (stat'.outPktNbr - stat.outPktNbr) =
    stat'.currentPktNbr - stat.currentPktNbr
  bytes : (stat'.inLengthBytes : ℤ) - stat.inLengthBytes -
      (stat'.outLengthBytes - stat.outLengthBytes) =
    stat'.currentLengthBytes - stat.currentLengthBytes

theorem MacFifoStatContext.Follows.refl (stat : MacFifoStatContext) : stat.Follows stat where
  packets := by omega
  bytes := by omega

section Operations

variable {fifo fifo' : DvbFifo α} {op : FifoOp σ α}

theorem push_follows_iff {elem : FifoElement α} {out : Bool × DvbFifo α}
    (words : fifo.statContext.Words) (pushed : fifo.push elem = some out) :
    fifo.statContext.Follows out.2.statContext ↔
      (FifoOp.push elem : FifoOp σ α).Counted fifo := by
  obtain ⟨n, hn, rfl⟩ := Option.map_eq_some_iff.mp pushed
  have room_lt := fifo.maxSizePkt.isLt
  by_cases room : fifo.queue.length < fifo.maxSizePkt
  · have number : wrap 16 (fifo.queue.length + 1) = fifo.queue.length + 1 :=
      wrap_of_lt (by omega)
    have bytes := addW_change_eq_iff words.inLengthBytes words.currentLengthBytes (wrap_lt 32 n)
    have words_in := words.inPktNbr
    have words_current := words.currentPktNbr
    simp only [room, dif_pos, FifoOp.Counted, hn, Option.some.injEq, forall_eq', true_imp_iff]
    constructor
    · rintro ⟨packets, lengths⟩
      dsimp only at packets lengths
      rw [number] at packets
      refine ⟨?_, ?_, bytes.mp (by omega)⟩
      · unfold addW at packets
        omega
      · unfold addW at packets
        omega
    · rintro ⟨current, small, together⟩
      have lengths := bytes.mpr together
      refine ⟨?_, ?_⟩
      · dsimp only
        rw [number, addW_of_lt small]
        omega
      · dsimp only
        omega
  · simp only [room, dif_neg, not_false_eq_true, FifoOp.Counted, false_imp_iff, imp_true_iff,
      iff_true]
    exact ⟨by dsimp only; omega, by dsimp only; omega⟩

/-- What a packet that is queued again has to meet, at whichever end it is. -/
theorem reinsert_follows_iff {elem : FifoElement α} {queue : List (FifoElement α)}
    {hlen : queue.length = fifo.queue.length + 1} {out : Bool × DvbFifo α}
    (words : fifo.statContext.Words) (inserted : fifo.reinsert elem queue hlen = some out) :
    (fifo.statContext.Follows out.2.statContext ∧
        (FifoOp.pushFront elem : FifoOp σ α).underflows fifo = false) ↔
      (FifoOp.pushFront elem : FifoOp σ α).Counted fifo := by
  have room_lt := fifo.maxSizePkt.isLt
  unfold DvbFifo.reinsert at inserted
  split at inserted
  next room =>
    obtain ⟨n, hn, rfl⟩ := Option.map_eq_some_iff.mp inserted
    have number : wrap 16 queue.length = fifo.queue.length + 1 := by
      rw [hlen]
      exact wrap_of_lt (by omega)
    have bytes := addW_change_eq_subW_iff words.currentLengthBytes words.outLengthBytes
      (wrap_lt 32 n)
    simp only [FifoOp.Counted, FifoOp.underflows, room, hn, decide_true, Bool.true_and,
      Option.any_some, decide_eq_false_iff_not, Nat.not_lt, Option.some.injEq, forall_eq',
      true_imp_iff]
    constructor
    · rintro ⟨⟨packets, lengths⟩, counted⟩
      dsimp only at packets lengths
      rw [number] at packets
      exact ⟨by omega, counted, (bytes.mp (by omega)).mpr counted⟩
    · rintro ⟨current, counted, small⟩
      have lengths := bytes.mpr (iff_of_true small counted)
      refine ⟨⟨?_, ?_⟩, counted⟩
      · dsimp only
        omega
      · dsimp only
        omega
  next full =>
    cases inserted
    simp only [FifoOp.Counted, FifoOp.underflows, full, decide_false, Bool.false_and, and_true,
      false_imp_iff, imp_true_iff, iff_true]
    exact .refl _

theorem pop_follows_iff {out : Option (FifoElement α) × DvbFifo α}
    (words : fifo.statContext.Words) (popped : fifo.pop = some out) :
    fifo.statContext.Follows out.2.statContext ↔ (FifoOp.pop : FifoOp σ α).Counted fifo := by
  unfold DvbFifo.pop at popped
  split at popped
  next queue =>
    cases popped
    simp only [FifoOp.Counted, queue, reduceCtorEq, false_imp_iff, imp_true_iff, iff_true]
    exact .refl _
  next elem rest queue =>
    obtain ⟨n, hn, rfl⟩ := Option.map_eq_some_iff.mp popped
    have size := fifo.queue_le
    have room_lt := fifo.maxSizePkt.isLt
    rw [queue, List.length_cons] at size
    have number : wrap 16 rest.length = rest.length := wrap_of_lt (by omega)
    have bytes := addW_change_eq_subW_iff words.outLengthBytes words.currentLengthBytes
      (wrap_lt 32 n)
    have words_out := words.outPktNbr
    have words_current := words.currentPktNbr
    have counted : (FifoOp.pop : FifoOp σ α).Counted fifo ↔
        fifo.statContext.currentPktNbr = rest.length + 1 ∧
        fifo.statContext.outPktNbr + 1 < 2 ^ 16 ∧
        (fifo.statContext.outLengthBytes + wrap 32 n < 2 ^ 32 ↔
          wrap 32 n ≤ fifo.statContext.currentLengthBytes) := by
      rw [← List.length_cons (a := elem), ← queue]
      constructor
      · intro counted
        exact counted elem rest n queue hn
      · rintro counted elem' rest' m queue' hm
        rw [queue] at queue'
        cases queue'
        cases hm.symm.trans hn
        exact counted
    rw [counted]
    constructor
    · rintro ⟨packets, lengths⟩
      dsimp only at packets lengths
      rw [number] at packets
      refine ⟨?_, ?_, bytes.mp (by omega)⟩
      · unfold addW at packets
        omega
      · unfold addW at packets
        omega
    · rintro ⟨current, small, together⟩
      have lengths := bytes.mpr together
      refine ⟨?_, ?_⟩
      · dsimp only
        rw [number, addW_of_lt small]
        omega
      · dsimp only
        omega

end Operations

namespace FifoFlow

variable {flow flow' : FifoFlow α} {op : FifoOp σ α}

/-- Without a reset, the balance follows the changes. -/
theorem balanced_iff_follows (h : flow.Balanced) (marks : op.resets = false)
    (taken : flow.step op = some flow') :
    flow'.Balanced ↔ flow.fifo.statContext.Follows flow'.fifo.statContext ∧
      op.underflows flow.fifo = false := by
  obtain ⟨fifo, -, rfl⟩ := Option.map_eq_some_iff.mp taken
  obtain ⟨packets, bytes, exact⟩ := h
  constructor
  · rintro ⟨packets', bytes', exact'⟩
    simp only [marks, Bool.false_eq_true, if_false, exact, Bool.false_or] at packets' bytes' exact'
    exact ⟨⟨by dsimp only; omega, by dsimp only; omega⟩, exact'⟩
  · rintro ⟨⟨packets', bytes'⟩, safe⟩
    dsimp only at packets' bytes'
    refine ⟨?_, ?_, ?_⟩
    · simp only [marks, Bool.false_eq_true, if_false]
      omega
    · simp only [marks, Bool.false_eq_true, if_false]
      omega
    · simp only [exact, safe, Bool.or_self]

theorem step_balanced_iff (words : flow.fifo.statContext.Words) (h : flow.Balanced)
    (taken : flow.step op = some flow') : flow'.Balanced ↔ op.Counted flow.fifo := by
  obtain ⟨fifo, called, eq⟩ := Option.map_eq_some_iff.mp taken
  have stored : flow'.fifo = fifo := by rw [← eq]
  cases op with
  | push elem =>
      obtain ⟨out, pushed, rfl⟩ := Option.map_eq_some_iff.mp called
      rw [balanced_iff_follows h rfl taken, stored, push_follows_iff (σ := σ) words pushed]
      exact and_iff_left rfl
  | pushFront elem =>
      obtain ⟨out, pushed, rfl⟩ := Option.map_eq_some_iff.mp called
      rw [balanced_iff_follows h rfl taken, stored]
      exact reinsert_follows_iff words pushed
  | pushBack elem =>
      obtain ⟨out, pushed, rfl⟩ := Option.map_eq_some_iff.mp called
      rw [balanced_iff_follows h rfl taken, stored]
      exact reinsert_follows_iff (σ := σ) words pushed
  | pop =>
      obtain ⟨out, popped, rfl⟩ := Option.map_eq_some_iff.mp called
      rw [balanced_iff_follows h rfl taken, stored, pop_follows_iff (σ := σ) words popped]
      exact and_iff_left rfl
  | flush =>
      cases called
      refine iff_of_true ?_ trivial
      rw [← eq]
      exact ⟨(sub_self _).symm, (sub_self _).symm, by simp only [h.exact]; rfl⟩
  | getStatsCxt =>
      cases called
      refine iff_of_true ?_ trivial
      rw [← eq]
      exact ⟨(sub_self _).symm, (sub_self _).symm, by simp only [h.exact]; rfl⟩
  | resetNew crType =>
      cases called
      refine iff_of_true ((balanced_iff_follows h rfl taken).mpr ⟨?_, rfl⟩) trivial
      rw [stored]
      unfold DvbFifo.resetNew
      split
      · exact .refl _
      · exact .refl _
  | addCniExt handler s =>
      obtain ⟨out, added, rfl⟩ := Option.map_eq_some_iff.mp called
      refine iff_of_true ((balanced_iff_follows h rfl taken).mpr ⟨?_, rfl⟩) trivial
      rw [stored]
      unfold DvbFifo.addCniExt at added
      split at added
      · cases added
      · cases added
        exact .refl _

/-! ### Runs -/

theorem reinsert_words {fifo : DvbFifo α} {elem : FifoElement α} {queue : List (FifoElement α)}
    {hlen : queue.length = fifo.queue.length + 1} {out : Bool × DvbFifo α}
    (words : fifo.statContext.Words) (inserted : fifo.reinsert elem queue hlen = some out) :
    out.2.statContext.Words := by
  unfold DvbFifo.reinsert at inserted
  split at inserted
  · obtain ⟨n, -, rfl⟩ := Option.map_eq_some_iff.mp inserted
    exact ⟨wrap_lt _ _, words.inPktNbr, words.outPktNbr, addW_lt _ _ _, words.inLengthBytes,
      subW_lt _ _ _⟩
  · cases inserted
    exact words

theorem step_words (words : flow.fifo.statContext.Words) (taken : flow.step op = some flow') :
    flow'.fifo.statContext.Words := by
  obtain ⟨fifo, called, rfl⟩ := Option.map_eq_some_iff.mp taken
  cases op with
  | push elem =>
      obtain ⟨out, pushed, rfl⟩ := Option.map_eq_some_iff.mp called
      obtain ⟨n, -, rfl⟩ := Option.map_eq_some_iff.mp pushed
      dsimp only
      split
      · exact ⟨wrap_lt _ _, addW_lt _ _ _, words.outPktNbr, addW_lt _ _ _, addW_lt _ _ _,
          words.outLengthBytes⟩
      · exact ⟨words.1, words.2, words.3, words.4, words.5, words.6⟩
  | pushFront elem =>
      obtain ⟨out, pushed, rfl⟩ := Option.map_eq_some_iff.mp called
      exact reinsert_words words pushed
  | pushBack elem =>
      obtain ⟨out, pushed, rfl⟩ := Option.map_eq_some_iff.mp called
      exact reinsert_words words pushed
  | pop =>
      obtain ⟨out, popped, rfl⟩ := Option.map_eq_some_iff.mp called
      unfold DvbFifo.pop at popped
      split at popped
      · cases popped
        exact words
      · obtain ⟨n, -, rfl⟩ := Option.map_eq_some_iff.mp popped
        exact ⟨wrap_lt _ _, words.inPktNbr, addW_lt _ _ _, subW_lt _ _ _, words.inLengthBytes,
          addW_lt _ _ _⟩
  | flush =>
      cases called
      exact ⟨words.1, Nat.two_pow_pos _, Nat.two_pow_pos _, words.4, Nat.two_pow_pos _,
        Nat.two_pow_pos _⟩
  | getStatsCxt =>
      cases called
      exact ⟨words.1, Nat.two_pow_pos _, Nat.two_pow_pos _, words.4, Nat.two_pow_pos _,
        Nat.two_pow_pos _⟩
  | resetNew crType =>
      cases called
      unfold DvbFifo.resetNew
      split
      · exact words
      · exact words
  | addCniExt handler s =>
      obtain ⟨out, added, rfl⟩ := Option.map_eq_some_iff.mp called
      unfold DvbFifo.addCniExt at added
      split at added
      · cases added
      · cases added
        exact words

/-- **Flow balance of the FIFO.** From a new FIFO, in every state of a run of operations,
what was counted in minus out since the last reset is the change of the current counts
and nothing underflowed, exactly when every operation of the run is counted. -/
theorem allStates_balanced_iff (accessType : ForwardOrReturnAccessType) (vcmId : Nat)
    (maxSizePkt : Fin (2 ^ 16)) (ops : List (FifoOp σ α)) :
    AllStates step Balanced (new accessType vcmId maxSizePkt) ops ↔
      AllSteps step (fun flow op => op.Counted flow.fifo) (new accessType vcmId maxSizePkt)
        ops := by
  have init : (new accessType vcmId maxSizePkt : FifoFlow α).fifo.statContext.Words := by
    constructor <;> exact Nat.two_pow_pos _
  have words : AllStates step (fun flow : FifoFlow α => flow.fifo.statContext.Words)
      (new accessType vcmId maxSizePkt) ops :=
    allStates_of_step init fun _ _ _ => step_words
  have balanced : (new accessType vcmId maxSizePkt : FifoFlow α).Balanced := ⟨rfl, rfl, rfl⟩
  refine Iff.trans ⟨fun states => words.and states, fun states => states.mono fun _ => And.right⟩
    (allStates_iff_allSteps ⟨init, balanced⟩ ?_)
  rintro flow op flow' ⟨words, balanced⟩ taken
  rw [← step_balanced_iff words balanced taken]
  exact ⟨And.right, fun balanced => ⟨step_words words taken, balanced⟩⟩

/-- A packet of which 4 bytes are queued again: it is still queued and counted out. -/
theorem fragment_not_balanced :
    ¬ AllStates (σ := FifoFlow NetPacket) step Balanced (new (.return .damaRbdc) 0 100)
      ([.push ⟨some ⟨List.replicate 10 0, 0, 1, 0⟩, 0, 0⟩, .pop,
        .pushFront ⟨some ⟨List.replicate 4 0, 0, 1, 0⟩, 0, 0⟩] : List (FifoOp Unit NetPacket)) := by
  intro states
  have packets := (((states.2 _ rfl).2 _ rfl).2 _ rfl).packets
  exact absurd packets (by decide)

end FifoFlow

end OpenSand
