import OpenSand.Saloha.Tagging
import Mathlib.Algebra.Order.Group.Multiset

/-!
What becomes of the packets popped from the Slotted Aloha FIFOs of a terminal.

Every packet object has a number. Whatever happens, the objects popped are those
acknowledged, given up or lost by a failed insertion, and those that wait or are to be
sent again (`Balanced`). When the packets put in the FIFOs have room in an empty frame and
the QoS of their FIFO, none is lost and each waits under its QoS (`Sound`).
-/

namespace OpenSand

open OpenSand.Word

namespace SlottedAlohaTal

/-! ### The objects in each place -/

/-- The numbers of the packets in a list of entries. -/
def numbers (entries : List (Option SalohaTalPacket)) : Multiset Nat :=
  (entries.filterMap id).map SalohaTalPacket.number

/-- The number of the packet of a FIFO element, if it is one of Slotted Aloha. -/
def elementNumber (elem : FifoElement MacPacket) : Option Nat :=
  match elem.elem with
  | some (.saloha sent) => some sent.number
  | _ => none

def fifoNumbers (fifo : DvbFifo MacPacket) : Multiset Nat := fifo.queue.filterMap elementNumber

def waiting (packets : SortedMap Nat (List (Option SalohaTalPacket))) : Multiset Nat :=
  packets.total fun _ entries => numbers entries

def queued (fifos : SortedMap Nat (DvbFifo MacPacket)) : Multiset Nat :=
  fifos.total fun _ fifo => fifoNumbers fifo

@[simp] theorem numbers_nil : numbers [] = 0 := rfl

@[simp] theorem numbers_none (entries : List (Option SalohaTalPacket)) :
    numbers (none :: entries) = numbers entries := rfl

@[simp] theorem numbers_some (sent : SalohaTalPacket) (entries : List (Option SalohaTalPacket)) :
    numbers (some sent :: entries) = {sent.number} + numbers entries := rfl

theorem numbers_append (entries entries' : List (Option SalohaTalPacket)) :
    numbers (entries ++ entries') = numbers entries + numbers entries' := by
  simp only [numbers, List.filterMap_append, List.map_append]
  exact (Multiset.coe_add _ _).symm

theorem numbers_insertIdx (entries : List (Option SalohaTalPacket)) {n : Nat}
    (inside : n ≤ entries.length) (sent : SalohaTalPacket) :
    numbers (entries.insertIdx n (some sent)) = {sent.number} + numbers entries := by
  have perm : (entries.insertIdx n (some sent)).Perm (some sent :: entries) :=
    List.perm_insertIdx _ _ inside
  exact Quot.sound ((perm.filterMap id).map _)

/-- The objects popped are those that were acknowledged, given up or lost, those that
wait and those to be sent again. -/
def Accounts (record : SalohaTalRecord) (waiting again : Multiset Nat) : Prop :=
  (record.popped : Multiset Nat) =
    record.acked + record.dropped + record.failed + waiting + again

structure Balanced (tal : SlottedAlohaTal) : Prop where
  accounts : Accounts tal.record (waiting tal.packetsWaitAck) (numbers tal.retransmissionPackets)
  nodup : ((tal.record.popped : Multiset Nat) + queued tal.dvbFifos).Nodup
  below : ∀ n ∈ (tal.record.popped : Multiset Nat) + queued tal.dvbFifos, n < tal.record.built

/-! ### Lists of waiting packets -/

/-- A packet put under a QoS waits. -/
theorem waiting_pushBack (packets : SortedMap Nat (List (Option SalohaTalPacket))) (qos : Nat)
    (sent : SalohaTalPacket) :
    waiting ((packets.insert qos []).modify qos (· ++ [some sent])) =
      waiting packets + {sent.number} := by
  obtain ⟨entries, found⟩ := packets.exists_lookup_insert qos []
  have change := SortedMap.total_modify (fun _ entries => numbers entries) found
    (· ++ [some sent])
  rw [numbers_append, numbers_some, numbers_nil, add_zero,
    SortedMap.total_insert _ numbers_nil, add_comm (numbers entries), ← add_assoc] at change
  exact add_right_cancel change

theorem removeAcked_cases {id : SalohaId} {entries : List (Option SalohaTalPacket)}
    {found : Option (SalohaTalPacket × List (Option SalohaTalPacket))}
    (h : removeAcked id entries = some found) :
    ∀ acked rest, found = some (acked, rest) →
      numbers entries = {acked.number} + numbers rest ∧ rest.Sublist entries := by
  rintro acked rest rfl
  induction entries generalizing rest with
  | nil => cases h
  | cons entry entries ih =>
      cases entry with
      | none => cases h
      | some sent =>
          rw [removeAcked] at h
          split at h
          · cases h
            exact ⟨rfl, List.sublist_cons_self _ _⟩
          · obtain ⟨found, later, eq⟩ := Option.map_eq_some_iff.mp h
            obtain ⟨⟨acked', rest'⟩, rfl, eq⟩ := Option.map_eq_some_iff.mp eq
            cases eq
            obtain ⟨same, sub⟩ := ih rest' later
            refine ⟨?_, sub.cons_cons _⟩
            rw [numbers_some, numbers_some, same]
            ac_rfl

theorem decTimeouts_numbers {entries entries' : List (Option SalohaTalPacket)}
    (h : decTimeouts entries = some entries') : numbers entries' = numbers entries := by
  induction entries generalizing entries' with
  | nil =>
      cases h
      rfl
  | cons entry entries ih =>
      cases entry with
      | none => cases h
      | some sent =>
          obtain ⟨rest, later, rfl⟩ := Option.map_eq_some_iff.mp h
          rw [numbers_some, numbers_some, ih later]
          rfl

/-! ### Time-outs -/

section Expiry

variable {config : SlottedAlohaTalConfig} {hasProbe : Nat → Bool} {expiry expiry' : Expiry}

/-- The packets that left the waiting lists. -/
def Expiry.taken (expiry : Expiry) : Multiset Nat :=
  numbers expiry.retransmissionPackets + expiry.dropped

/-- The next packet is put inside the list. -/
def Expiry.Inside (expiry : Expiry) : Prop :=
  expiry.nbRetransmissions ≤ expiry.retransmissionPackets.length

theorem expirePacket_taken {sent : SalohaTalPacket} (inside : expiry.Inside)
    (h : expirePacket config hasProbe expiry sent = some expiry') :
    expiry'.Inside ∧ expiry'.taken = expiry.taken + {sent.number} := by
  unfold expirePacket at h
  split at h
  · cases h
    constructor
    · have length := List.length_insertIdx_of_le_length inside (some { sent with
        nbRetransmissions := sent.nbRetransmissions + 1
        timeoutSaf := config.timeoutSaf })
      have le := addW_le 16 expiry.nbRetransmissions 1
      simp only [Expiry.Inside, length] at inside ⊢
      omega
    · simp only [Expiry.taken, numbers_insertIdx _ inside]
      ac_rfl
  split at h
  · cases h
    refine ⟨inside, ?_⟩
    simp only [Expiry.taken, ← Multiset.coe_add, Multiset.coe_singleton]
    ac_rfl
  · cases h

theorem expireList_taken {entries entries' : List (Option SalohaTalPacket)}
    (inside : expiry.Inside)
    (h : expireList config hasProbe expiry entries = some (expiry', entries')) :
    expiry'.Inside ∧ expiry'.taken + numbers entries' = expiry.taken + numbers entries := by
  induction entries generalizing expiry expiry' entries' with
  | nil =>
      cases h
      exact ⟨inside, rfl⟩
  | cons entry entries ih =>
      cases entry with
      | none => cases h
      | some sent =>
          rw [expireList] at h
          split at h
          · obtain ⟨mid, expired, rest⟩ := Option.bind_eq_some_iff.mp h
            obtain ⟨inside', taken⟩ := expirePacket_taken inside expired
            obtain ⟨last, sum⟩ := ih inside' rest
            refine ⟨last, ?_⟩
            rw [sum, taken, numbers_some]
            ac_rfl
          · obtain ⟨⟨mid, rest⟩, later, eq⟩ := Option.map_eq_some_iff.mp h
            cases eq
            obtain ⟨last, sum⟩ := ih inside later
            refine ⟨last, ?_⟩
            rw [numbers_some, numbers_some, add_left_comm, sum, add_left_comm]

end Expiry

/-! ### Sending -/

section Sending

variable {config : SlottedAlohaTalConfig} {sending sending' : Sending} {again : Multiset Nat}
  {qos nbSlots : Nat}

def Sending.Accounts (sending : Sending) (again : Multiset Nat) : Prop :=
  SlottedAlohaTal.Accounts sending.record (waiting sending.packetsWaitAck) again

/-- A packet taken from where it was waits or is lost. -/
theorem addPacketInFrames_accounts {sent : SalohaTalPacket} {added : Bool}
    (accounts : sending.Accounts ({sent.number} + again))
    (h : addPacketInFrames sent qos sending = some (added, sending')) :
    sending'.Accounts again ∧ sending'.record.popped = sending.record.popped ∧
      sending'.record.built = sending.record.built := by
  rcases addPacketInFrames_cases h with ⟨-, record, replicas, -, waits⟩ | ⟨-, -, waits, record⟩
  · refine ⟨?_, by rw [record], by rw [record]⟩
    rw [Sending.Accounts, record, waits, waiting_pushBack]
    refine Eq.trans accounts ?_
    ac_rfl
  · refine ⟨?_, by rw [record], by rw [record]⟩
    rw [Sending.Accounts, record, waits]
    refine Eq.trans accounts ?_
    simp only [← Multiset.coe_add, Multiset.coe_singleton]
    ac_rfl

theorem sendAgain_accounts {hasProbe : Nat → Bool}
    {packets packets' : List (Option SalohaTalPacket)}
    (accounts : sending.Accounts (numbers packets))
    (h : sendAgain hasProbe nbSlots packets sending = some (packets', sending')) :
    sending'.Accounts (numbers packets') ∧ sending'.record.popped = sending.record.popped ∧
      sending'.record.built = sending.record.built := by
  induction packets generalizing packets' sending with
  | nil =>
      cases h
      exact ⟨accounts, rfl, rfl⟩
  | cons entry packets ih =>
      cases entry with
      | none => cases h
      | some sent =>
          simp only [sendAgain] at h
          split at h
          · obtain ⟨⟨added, mid⟩, placed, rest⟩ := Option.bind_eq_some_iff.mp h
            have before : sending.Accounts ({sent.number} + numbers packets) := accounts
            obtain ⟨accounts', popped, built⟩ := addPacketInFrames_accounts before placed
            cases added with
            | true =>
                dsimp only at rest
                split at rest
                · obtain ⟨last, popped', built'⟩ := ih (by exact accounts') rest
                  exact ⟨last, popped'.trans popped, built'.trans built⟩
                · cases rest
            | false =>
                obtain ⟨⟨packets', last⟩, sentRest, eq⟩ := Option.map_eq_some_iff.mp rest
                cases eq
                obtain ⟨last, popped', built'⟩ := ih accounts' sentRest
                exact ⟨last, popped'.trans popped, built'.trans built⟩
          · cases h
            exact ⟨accounts, rfl, rfl⟩

theorem sendFifo_accounts {fuel : Nat} {fifo fifo' : DvbFifo MacPacket}
    (accounts : sending.Accounts again)
    (h : sendFifo config nbSlots qos fuel fifo sending = some (fifo', sending')) :
    sending'.Accounts again ∧ sending'.record.built = sending.record.built ∧
      (sending'.record.popped : Multiset Nat) + fifoNumbers fifo' =
        sending.record.popped + fifoNumbers fifo := by
  induction fuel generalizing fifo sending with
  | zero =>
      cases h
      exact ⟨accounts, rfl, rfl⟩
  | succ fuel ih =>
      simp only [sendFifo] at h
      split at h
      · obtain ⟨⟨out, mid⟩, popped, rest⟩ := Option.bind_eq_some_iff.mp h
        split at rest
        next sent tickIn tickOut mid' same =>
          cases same
          obtain ⟨-, -, queue⟩ := DvbFifo.pop_cases popped
          have taken : fifoNumbers fifo = {sent.number} + fifoNumbers mid := by
            rw [fifoNumbers, queue]
            rfl
          obtain ⟨⟨added, next⟩, placed, sentRest⟩ := Option.bind_eq_some_iff.mp rest
          have before : Sending.Accounts { sending with
              record := { sending.record with
                popped := sending.record.popped ++ [sent.number] } } ({sent.number} + again) := by
            rw [Sending.Accounts, SlottedAlohaTal.Accounts]
            simp only [← Multiset.coe_add, Multiset.coe_singleton]
            rw [show (sending.record.popped : Multiset Nat) = _ from accounts]
            ac_rfl
          obtain ⟨accounts', popped', built⟩ := addPacketInFrames_accounts before placed
          have moved : ∀ last : Sending, ∀ lastFifo : DvbFifo MacPacket,
              (last.record.popped : Multiset Nat) + fifoNumbers lastFifo =
                next.record.popped + fifoNumbers mid →
              (last.record.popped : Multiset Nat) + fifoNumbers lastFifo =
                sending.record.popped + fifoNumbers fifo := by
            intro last lastFifo eq
            rw [eq, popped', taken, ← Multiset.coe_add, Multiset.coe_singleton]
            ac_rfl
          cases added with
          | true =>
              obtain ⟨last, built', sum⟩ := ih (by exact accounts') sentRest
              exact ⟨last, built'.trans built, moved _ _ sum⟩
          | false =>
              obtain ⟨last, built', sum⟩ := ih accounts' sentRest
              exact ⟨last, built'.trans built, moved _ _ sum⟩
        · cases rest
      · cases h
        exact ⟨accounts, rfl, rfl⟩

theorem sendFifos_accounts {fifos fifos' : SortedMap Nat (DvbFifo MacPacket)}
    (accounts : sending.Accounts again)
    (h : sendFifos config nbSlots fifos sending = some (sending', fifos')) :
    sending'.Accounts again ∧ sending'.record.built = sending.record.built ∧
      (sending'.record.popped : Multiset Nat) + queued fifos' =
        sending.record.popped + queued fifos := by
  have call : ∀ s qos fifo out, s.Accounts again ∧ s.record.built = sending.record.built →
      (if nbSlots ≤ s.nbrPacketsTotal then some (s, fifo)
        else if fifo.accessType ≠ .return .saloha then some (s, fifo)
        else (sendFifo config nbSlots qos fifo.queue.length fifo s).map Prod.swap) = some out →
      (out.1.Accounts again ∧ out.1.record.built = sending.record.built) ∧
        (out.1.record.popped : Multiset Nat) + fifoNumbers out.2 =
          s.record.popped + fifoNumbers fifo := by
    rintro s qos fifo out ⟨accounts, built⟩ called
    split at called
    · cases called
      exact ⟨⟨accounts, built⟩, rfl⟩
    split at called
    · cases called
      exact ⟨⟨accounts, built⟩, rfl⟩
    obtain ⟨⟨fifo', s'⟩, sent, rfl⟩ := Option.map_eq_some_iff.mp called
    obtain ⟨accounts', built', sum⟩ := sendFifo_accounts accounts sent
    exact ⟨⟨accounts', built'.trans built⟩, sum⟩
  have sum := SortedMap.forValues_total (fun _ fifo => fifoNumbers fifo)
    (fun s : Sending => (s.record.popped : Multiset Nat)) ⟨accounts, rfl⟩ call h
  obtain ⟨accounts', built⟩ := SortedMap.forValues_keeps
    (P := fun s : Sending => s.Accounts again ∧ s.record.built = sending.record.built)
    ⟨accounts, rfl⟩ (fun s qos fifo out _ kept called => (call s qos fifo out kept called).1) h
  exact ⟨accounts', built, sum⟩

end Sending

/-! ### Every step keeps the balance -/

variable {config : SlottedAlohaTalConfig} {tal tal' : SlottedAlohaTal}

theorem schedule_balanced {sfCounter : Nat} {draws : Draws}
    {frames : List (List SlottedAlohaPacketData)} (balanced : tal.Balanced)
    (h : tal.schedule config sfCounter draws = some (frames, tal')) : tal'.Balanced := by
  unfold schedule at h
  split at h
  · obtain ⟨last, refreshed, eq⟩ := Option.map_eq_some_iff.mp h
    cases eq
    rw [refreshProbes_eq refreshed]
    exact balanced
  obtain ⟨⟨⟨⟩, packets⟩, ticked, h⟩ := Option.bind_eq_some_iff.mp h
  have same : waiting packets = waiting tal.packetsWaitAck := by
    have sum := SortedMap.forValues_total (P := fun _ => True) (fun _ entries => numbers entries)
      (fun _ : Unit => 0) trivial (fun s key entries out _ called => by
        obtain ⟨entries', ticked, rfl⟩ := Option.map_eq_some_iff.mp called
        exact ⟨trivial, by rw [decTimeouts_numbers ticked]⟩) ticked
    rwa [zero_add, zero_add] at sum
  dsimp only at h
  split at h
  · obtain ⟨last, refreshed, eq⟩ := Option.map_eq_some_iff.mp h
    cases eq
    rw [refreshProbes_eq refreshed]
    exact { balanced with accounts := by rw [same]; exact balanced.accounts }
  obtain ⟨⟨expiry, packets'⟩, expired, h⟩ := Option.bind_eq_some_iff.mp h
  have taken : expiry.taken + waiting packets' =
      numbers tal.retransmissionPackets + waiting packets := by
    have sum := SortedMap.forValues_total (P := Expiry.Inside) (fun _ entries => numbers entries)
      Expiry.taken (Nat.zero_le _) (fun s key entries out inside called =>
        expireList_taken inside called) expired
    refine sum.trans ?_
    simp [Expiry.taken, waiting]
  obtain ⟨slots, -, h⟩ := Option.bind_eq_some_iff.mp h
  obtain ⟨⟨again, sending⟩, sentAgain, h⟩ := Option.bind_eq_some_iff.mp h
  obtain ⟨⟨last, fifos⟩, sent, h⟩ := Option.bind_eq_some_iff.mp h
  obtain ⟨final, refreshed, eq⟩ := Option.map_eq_some_iff.mp h
  cases eq
  rw [refreshProbes_eq refreshed]
  have before : Sending.Accounts ⟨packets', [], [], slots, 0,
      { tal.record with dropped := tal.record.dropped ++ expiry.dropped }⟩
        (numbers expiry.retransmissionPackets) := by
    have balance : (tal.record.popped : Multiset Nat) = _ := balanced.accounts
    rw [← same] at balance
    rw [Sending.Accounts, Accounts]
    calc (tal.record.popped : Multiset Nat)
        = tal.record.acked + tal.record.dropped + tal.record.failed +
            (numbers tal.retransmissionPackets + waiting packets) := by
          rw [balance]
          ac_rfl
      _ = _ := by
          rw [← taken, Expiry.taken, ← Multiset.coe_add]
          ac_rfl
  obtain ⟨accounts, popped, built⟩ := sendAgain_accounts before sentAgain
  obtain ⟨accounts', built', moved⟩ := sendFifos_accounts accounts sent
  have sum : (last.record.popped : Multiset Nat) + queued fifos =
      tal.record.popped + queued tal.dvbFifos := by
    rw [moved, popped]
  exact {
    accounts := accounts'
    nodup := by
      change ((last.record.popped : Multiset Nat) + queued fifos).Nodup
      rw [sum]
      exact balanced.nodup
    below := by
      change ∀ n ∈ (last.record.popped : Multiset Nat) + queued fifos, n < last.record.built
      rw [sum, built', built]
      exact balanced.below }

theorem onRcvCtrl_balanced {ids : PacketIds} {ctrl : SalohaPacketCtrl} (balanced : tal.Balanced)
    (h : tal.onRcvCtrl config ids ctrl = some tal') : tal'.Balanced := by
  unfold onRcvCtrl at h
  split at h
  · cases h
    exact balanced
  split at h
  · cases h
    exact balanced
  obtain ⟨found, searched, eq⟩ := Option.map_eq_some_iff.mp h
  have same : waiting (tal.packetsWaitAck.insert
      (wrap 8 (SlottedAlohaPacketData.convertPacketId ctrl.id ids).qos) []) =
        waiting tal.packetsWaitAck := SortedMap.total_insert _ numbers_nil
  cases found with
  | none =>
      cases eq
      exact { balanced with accounts := by rw [same]; exact balanced.accounts }
  | some found =>
      obtain ⟨acked, rest⟩ := found
      cases eq
      refine { balanced with accounts := ?_ }
      obtain ⟨entries, lookup⟩ := tal.packetsWaitAck.exists_lookup_insert
        (wrap 8 (SlottedAlohaPacketData.convertPacketId ctrl.id ids).qos) []
      rw [lookup, Option.getD_some] at searched
      obtain ⟨numbers_eq, -⟩ := removeAcked_cases searched acked rest rfl
      have change := SortedMap.total_modify (fun _ entries => numbers entries) lookup fun _ => rest
      rw [numbers_eq, ← add_assoc] at change
      have moved := add_right_cancel change
      have balance : (tal.record.popped : Multiset Nat) = _ := balanced.accounts
      rw [Accounts]
      calc (tal.record.popped : Multiset Nat)
          = tal.record.acked + tal.record.dropped + tal.record.failed +
              waiting tal.packetsWaitAck + numbers tal.retransmissionPackets := balance
        _ = _ := by
          rw [← same, waiting, ← moved, ← Multiset.coe_add, Multiset.coe_singleton]
          unfold waiting
          ac_rfl

theorem onRcvFrame_balanced {ids : PacketIds} {ctrls : List SalohaPacketCtrl}
    (balanced : tal.Balanced) (h : tal.onRcvFrame config ids ctrls = some tal') :
    tal'.Balanced := by
  induction ctrls generalizing tal with
  | nil =>
      cases h
      exact balanced
  | cons ctrl ctrls ih =>
      obtain ⟨mid, first, rest⟩ := Option.bind_eq_some_iff.mp h
      exact ih (onRcvCtrl_balanced balanced first) rest

/-- A push in a FIFO adds the number of its packet, if it has one. -/
theorem onRcvEncapPacket_queued {key : Nat} {fifo : DvbFifo MacPacket} {packet : MacPacket}
    {pushed : Bool} (found : tal.dvbFifos.lookup key = some fifo)
    (h : tal.onRcvEncapPacket key fifo packet = some (pushed, tal')) :
    queued tal'.dvbFifos = queued tal.dvbFifos +
        (if pushed then (elementNumber ⟨some packet, 0, 0⟩).toList else ([] : List Nat)) ∧
      tal' = { tal with dvbFifos := tal'.dvbFifos } := by
  obtain ⟨⟨status, fifo'⟩, push, eq⟩ := Option.map_eq_some_iff.mp h
  cases eq
  refine ⟨?_, rfl⟩
  have change := SortedMap.total_modify (fun _ fifo => fifoNumbers fifo) found fun _ => fifo'
  have numbers' : fifoNumbers fifo' = fifoNumbers fifo +
      (if pushed then (elementNumber ⟨some packet, 0, 0⟩).toList else ([] : List Nat)) := by
    obtain ⟨-, -, ⟨rfl, -, queue⟩ | ⟨rfl, -, queue⟩⟩ := DvbFifo.push_cases push
    · rw [fifoNumbers, queue, List.filterMap_append, ← Multiset.coe_add]
      cases packet <;> rfl
    · rw [fifoNumbers, queue]
      exact (add_zero _).symm
  rw [numbers', add_comm (fifoNumbers fifo), ← add_assoc] at change
  exact add_right_cancel change

/-- A new object, and its number in a FIFO if it is stored. -/
theorem Balanced.grow (balanced : tal.Balanced) (stored : Bool)
    (popped : tal'.record.popped = tal.record.popped) (acked : tal'.record.acked = tal.record.acked)
    (dropped : tal'.record.dropped = tal.record.dropped)
    (failed : tal'.record.failed = tal.record.failed)
    (built : tal'.record.built = tal.record.built + 1)
    (waits : tal'.packetsWaitAck = tal.packetsWaitAck)
    (again : tal'.retransmissionPackets = tal.retransmissionPackets)
    (queue : queued tal'.dvbFifos = queued tal.dvbFifos +
      (if stored then [tal.record.built] else ([] : List Nat))) : tal'.Balanced := by
  have fresh : tal.record.built ∉ (tal.record.popped : Multiset Nat) + queued tal.dvbFifos :=
    fun mem => lt_irrefl _ (balanced.below _ mem)
  constructor
  · rw [Accounts, popped, acked, dropped, failed, waits, again]
    exact balanced.accounts
  · rw [popped, queue, ← add_assoc]
    cases stored with
    | true =>
        rw [if_pos rfl, add_comm, Multiset.coe_singleton, Multiset.singleton_add]
        exact Multiset.nodup_cons.mpr ⟨fresh, balanced.nodup⟩
    | false =>
        rw [if_neg (by simp), Multiset.coe_nil, add_zero]
        exact balanced.nodup
  · rw [popped, queue, ← add_assoc, built]
    intro n mem
    rcases Multiset.mem_add.mp mem with old | new
    · exact Nat.lt_succ_of_lt (balanced.below n old)
    · cases stored with
      | true =>
          rw [List.mem_singleton.mp new]
          exact Nat.lt_succ_self _
      | false => cases new

theorem storePacket_balanced {burstSize offset next : Nat} {packet : NetPacket} {pushed : Bool}
    (balanced : tal.Balanced)
    (h : tal.storePacket config burstSize offset packet = some (pushed, next, tal')) :
    tal'.Balanced := by
  obtain ⟨fifo, found, ⟨-, rfl, mid, pushedIn, rfl⟩ | ⟨-, rfl, pushedIn⟩⟩ := storePacket_cases h
  · let headed := (tal.addSalohaHeader config packet (.ofNat offset) (.ofNat burstSize)).2
    have found' : headed.dvbFifos.lookup (tal.fifoPriority config packet) = some fifo := found
    obtain ⟨queue, kept⟩ := onRcvEncapPacket_queued found' pushedIn
    have grown : mid.Balanced := by
      refine balanced.grow pushed ?_ ?_ ?_ ?_ ?_ ?_ ?_ queue <;> rw [kept] <;> rfl
    cases pushed with
    | true => exact ⟨grown.accounts, grown.nodup, grown.below⟩
    | false => exact grown
  · obtain ⟨queue, kept⟩ := onRcvEncapPacket_queued found pushedIn
    have nothing : queued tal'.dvbFifos = queued tal.dvbFifos := by
      rw [queue]
      cases pushed <;> exact add_zero _
    rw [kept]
    exact {
      accounts := balanced.accounts
      nodup := by rw [nothing]; exact balanced.nodup
      below := by rw [nothing]; exact balanced.below }

theorem storePackets_balanced {burstSize offset : Nat} {packets : List NetPacket} {ok : Bool}
    (balanced : tal.Balanced)
    (h : tal.storePackets config burstSize offset packets = some (ok, tal')) : tal'.Balanced := by
  induction packets generalizing tal offset with
  | nil =>
      cases h
      exact balanced
  | cons packet packets ih =>
      obtain ⟨⟨pushed, next, mid⟩, stored, rest⟩ := Option.bind_eq_some_iff.mp h
      have first := storePacket_balanced balanced stored
      cases pushed with
      | true => exact ih first rest
      | false =>
          cases rest
          exact first

/-- Whatever happens, no object is lost out of sight and none is doubled. -/
theorem step_balanced {event : TalEvent} (balanced : tal.Balanced)
    (h : tal.step config event = some tal') : tal'.Balanced := by
  cases event with
  | burst packets =>
      obtain ⟨⟨ok, last⟩, received, rfl⟩ := Option.map_eq_some_iff.mp h
      obtain ⟨⟨ok', mid⟩, looped, eq⟩ := Option.map_eq_some_iff.mp received
      cases eq
      have kept := storePackets_balanced balanced looped
      exact ⟨kept.accounts, kept.nodup, kept.below⟩
  | ctrl ids ctrls => exact onRcvFrame_balanced balanced h
  | schedule sfCounter draws =>
      obtain ⟨⟨frames, last⟩, scheduled, rfl⟩ := Option.map_eq_some_iff.mp h
      exact schedule_balanced balanced scheduled
  | pop key =>
      obtain ⟨fifo, found, h⟩ := Option.bind_eq_some_iff.mp h
      split at h
      · cases h
      obtain ⟨⟨out, fifo'⟩, popped, rfl⟩ := Option.map_eq_some_iff.mp h
      obtain ⟨-, -, queue⟩ := DvbFifo.pop_cases popped
      have change := SortedMap.total_modify (fun _ fifo => fifoNumbers fifo) found fun _ => fifo'
      have taken : fifoNumbers fifo =
          ((out.toList.filterMap elementNumber : List Nat) : Multiset Nat) + fifoNumbers fifo' := by
        rw [fifoNumbers, queue, List.filterMap_append, ← Multiset.coe_add]
        rfl
      rw [taken, ← add_assoc] at change
      have fewer : queued (tal.setFifo key fifo').dvbFifos ≤ queued tal.dvbFifos :=
        Multiset.le_iff_exists_add.mpr ⟨_, (add_right_cancel change).symm⟩
      have le := add_le_add_right fewer (tal.record.popped : Multiset Nat)
      exact {
        accounts := balanced.accounts
        nodup := Multiset.nodup_of_le le balanced.nodup
        below := fun n mem => balanced.below n (Multiset.mem_of_le le mem) }

/-! ### Packets that are never lost -/

/-- The packet has room in an empty frame, by the length it claims. -/
def HasRoom (packet : SlottedAlohaPacketData) : Prop := wrap 16 packet.length ≤ freeSpace []

instance (packet : SlottedAlohaPacketData) : Decidable (HasRoom packet) :=
  inferInstanceAs (Decidable (_ ≤ _))

/-- Every entry of a list has its packet, with a property. -/
def Filled (P : SlottedAlohaPacketData → Prop) (entries : List (Option SalohaTalPacket)) : Prop :=
  ∀ entry ∈ entries, ∃ sent, entry = some sent ∧ P sent.packet

/-- The packets of a list for a QoS. -/
def OfQos (qos : Nat) (packet : SlottedAlohaPacketData) : Prop :=
  packet.qos.toNat = qos ∧ HasRoom packet

/-- The packets wait under their QoS. -/
def Waits (packets : SortedMap Nat (List (Option SalohaTalPacket))) : Prop :=
  ∀ entry ∈ packets.entries, Filled (OfQos entry.1) entry.2

/-- The Slotted Aloha packets of a FIFO have its QoS. -/
def FifoOf (qos : Nat) (fifo : DvbFifo MacPacket) : Prop :=
  ∀ elem ∈ fifo.queue, ∀ sent, elem.elem = some (.saloha sent) → OfQos qos sent.packet

def Queues (fifos : SortedMap Nat (DvbFifo MacPacket)) : Prop :=
  ∀ entry ∈ fifos.entries, FifoOf entry.1 entry.2

structure Sound (tal : SlottedAlohaTal) : Prop where
  waits : Waits tal.packetsWaitAck
  again : Filled HasRoom tal.retransmissionPackets
  queues : Queues tal.dvbFifos
  failed : tal.record.failed = []

/-- The packets of a burst that go to a FIFO of Slotted Aloha have the QoS of that FIFO,
and room in an empty frame with their header and replicas. -/
def Suits (config : SlottedAlohaTalConfig) (tal : SlottedAlohaTal) : TalEvent → Prop
  | .burst packets => ∀ packet ∈ packets, tal.hasProbe (tal.fifoPriority config packet) →
      (UInt8.ofNat packet.qos).toNat = tal.fifoPriority config packet ∧
        wrap 16 (salohaDataHdrLength + 2 * config.nbReplicas.toNat + packet.data.length) ≤
          freeSpace []
  | _ => True

section Filled

variable {P Q : SlottedAlohaPacketData → Prop} {entries entries' : List (Option SalohaTalPacket)}

theorem Filled.cons_iff {entry : Option SalohaTalPacket} :
    Filled P (entry :: entries) ↔ (∃ sent, entry = some sent ∧ P sent.packet) ∧ Filled P entries :=
  List.forall_mem_cons

theorem Filled.decTimeouts (filled : Filled P entries)
    (h : SlottedAlohaTal.decTimeouts entries = some entries') : Filled P entries' := by
  induction entries generalizing entries' with
  | nil =>
      cases h
      exact filled
  | cons entry entries ih =>
      obtain ⟨⟨sent, rfl, held⟩, rest⟩ := Filled.cons_iff.mp filled
      obtain ⟨entries', later, rfl⟩ := Option.map_eq_some_iff.mp h
      exact Filled.cons_iff.mpr ⟨⟨sent.decTimeout, rfl, held⟩, ih rest later⟩

theorem expireList_filled {hasProbe : Nat → Bool} {expiry expiry' : Expiry}
    (filled : Filled P entries) (weaker : ∀ packet, P packet → Q packet)
    (again : Filled Q expiry.retransmissionPackets)
    (h : expireList config hasProbe expiry entries = some (expiry', entries')) :
    Filled Q expiry'.retransmissionPackets ∧ Filled P entries' := by
  induction entries generalizing expiry expiry' entries' with
  | nil =>
      cases h
      exact ⟨again, filled⟩
  | cons entry entries ih =>
      obtain ⟨⟨sent, rfl, held⟩, rest⟩ := Filled.cons_iff.mp filled
      rw [expireList] at h
      split at h
      · obtain ⟨mid, expired, later⟩ := Option.bind_eq_some_iff.mp h
        refine ih rest ?_ later
        unfold expirePacket at expired
        split at expired
        · cases expired
          intro entry mem
          rcases List.eq_or_mem_of_mem_insertIdx mem with rfl | old
          · exact ⟨_, rfl, weaker _ held⟩
          · exact again entry old
        split at expired
        · cases expired
          exact again
        · cases expired
      · obtain ⟨⟨mid, entries'⟩, later, eq⟩ := Option.map_eq_some_iff.mp h
        cases eq
        obtain ⟨again', rest'⟩ := ih rest again later
        exact ⟨again', Filled.cons_iff.mpr ⟨⟨sent, rfl, held⟩, rest'⟩⟩

end Filled

section SoundSending

variable {sending sending' : Sending} {qos nbSlots : Nat}

/-- A packet with room is added and waits under its QoS. -/
theorem addPacketInFrames_sound {sent : SalohaTalPacket} {added : Bool}
    (of : OfQos qos sent.packet) (waits : Waits sending.packetsWaitAck)
    (h : addPacketInFrames sent qos sending = some (added, sending')) :
    added = true ∧ Waits sending'.packetsWaitAck ∧
      sending'.record.failed = sending.record.failed := by
  rcases addPacketInFrames_cases h with ⟨rfl, record, replicas, count, eq⟩ | ⟨-, short, -, -⟩
  · refine ⟨rfl, ?_, by rw [record]⟩
    rw [eq]
    refine SortedMap.forall_modify (SortedMap.forall_insert waits (List.forall_mem_nil _)) ?_
    intro entries filled entry mem
    rcases List.mem_append.mp mem with old | new
    · exact filled entry old
    · refine ⟨_, List.mem_singleton.mp new, of.1, ?_⟩
      have room := of.2
      simp only [HasRoom, SlottedAlohaPacketData.length, count] at room ⊢
      exact room
  · exact absurd of.2 (Nat.not_le.mpr short)

theorem sendAgain_sound {hasProbe : Nat → Bool} {packets packets' : List (Option SalohaTalPacket)}
    (filled : Filled HasRoom packets) (waits : Waits sending.packetsWaitAck)
    (h : sendAgain hasProbe nbSlots packets sending = some (packets', sending')) :
    Filled HasRoom packets' ∧ Waits sending'.packetsWaitAck ∧
      sending'.record.failed = sending.record.failed := by
  induction packets generalizing packets' sending with
  | nil =>
      cases h
      exact ⟨filled, waits, rfl⟩
  | cons entry packets ih =>
      obtain ⟨⟨sent, rfl, held⟩, rest⟩ := Filled.cons_iff.mp filled
      simp only [sendAgain] at h
      split at h
      · obtain ⟨⟨added, mid⟩, placed, later⟩ := Option.bind_eq_some_iff.mp h
        obtain ⟨rfl, waits', failed⟩ := addPacketInFrames_sound ⟨rfl, held⟩ waits placed
        dsimp only at later
        split at later
        · obtain ⟨filled', waits'', failed'⟩ := ih rest (by exact waits') later
          exact ⟨filled', waits'', failed'.trans failed⟩
        · cases later
      · cases h
        exact ⟨filled, waits, rfl⟩

theorem sendFifo_sound {fuel : Nat} {fifo fifo' : DvbFifo MacPacket}
    (queue : FifoOf qos fifo) (waits : Waits sending.packetsWaitAck)
    (h : sendFifo config nbSlots qos fuel fifo sending = some (fifo', sending')) :
    FifoOf qos fifo' ∧ Waits sending'.packetsWaitAck ∧
      sending'.record.failed = sending.record.failed := by
  induction fuel generalizing fifo sending with
  | zero =>
      cases h
      exact ⟨queue, waits, rfl⟩
  | succ fuel ih =>
      simp only [sendFifo] at h
      split at h
      · obtain ⟨⟨out, mid⟩, popped, rest⟩ := Option.bind_eq_some_iff.mp h
        split at rest
        next sent tickIn tickOut mid' same =>
          cases same
          obtain ⟨-, -, split⟩ := DvbFifo.pop_cases popped
          have of := queue ⟨some (.saloha sent), tickIn, tickOut⟩
            (by rw [split]; exact List.mem_cons_self) sent rfl
          obtain ⟨⟨added, next⟩, placed, sentRest⟩ := Option.bind_eq_some_iff.mp rest
          obtain ⟨rfl, waits', failed⟩ := addPacketInFrames_sound of (by exact waits) placed
          obtain ⟨queue', waits'', failed'⟩ := ih
            (fun elem mem => queue elem (by rw [split]; exact List.mem_append_right _ mem))
            (by exact waits') sentRest
          exact ⟨queue', waits'', failed'.trans failed⟩
        · cases rest
      · cases h
        exact ⟨queue, waits, rfl⟩

theorem sendFifos_sound {fifos fifos' : SortedMap Nat (DvbFifo MacPacket)}
    (queues : Queues fifos) (waits : Waits sending.packetsWaitAck)
    (h : sendFifos config nbSlots fifos sending = some (sending', fifos')) :
    Queues fifos' ∧ Waits sending'.packetsWaitAck ∧
      sending'.record.failed = sending.record.failed := by
  have loop := SortedMap.forValues_forall
    (P := fun s : Sending =>
      Waits s.packetsWaitAck ∧ s.record.failed = sending.record.failed)
    (Q := fun entry => FifoOf entry.1 entry.2) (R := fun entry => FifoOf entry.1 entry.2)
    ⟨waits, rfl⟩ queues ?_ h
  · exact ⟨loop.2, loop.1⟩
  rintro s qos fifo out ⟨waits, failed⟩ queue called
  split at called
  · cases called
    exact ⟨⟨waits, failed⟩, queue⟩
  split at called
  · cases called
    exact ⟨⟨waits, failed⟩, queue⟩
  obtain ⟨⟨fifo', s'⟩, sent, rfl⟩ := Option.map_eq_some_iff.mp called
  obtain ⟨queue', waits', failed'⟩ := sendFifo_sound queue waits sent
  exact ⟨⟨waits', failed'.trans failed⟩, queue'⟩

end SoundSending

theorem schedule_sound {sfCounter : Nat} {draws : Draws}
    {frames : List (List SlottedAlohaPacketData)} (sound : tal.Sound)
    (h : tal.schedule config sfCounter draws = some (frames, tal')) : tal'.Sound := by
  unfold schedule at h
  split at h
  · obtain ⟨last, refreshed, eq⟩ := Option.map_eq_some_iff.mp h
    cases eq
    rw [refreshProbes_eq refreshed]
    exact sound
  obtain ⟨⟨⟨⟩, packets⟩, ticked, h⟩ := Option.bind_eq_some_iff.mp h
  have waits : Waits packets := by
    refine (SortedMap.forValues_forall (P := fun _ => True)
      (Q := fun entry => Filled (OfQos entry.1) entry.2)
      (R := fun entry => Filled (OfQos entry.1) entry.2) trivial sound.waits ?_ ticked).2
    intro s qos entries out _ filled called
    obtain ⟨entries', ticked, rfl⟩ := Option.map_eq_some_iff.mp called
    exact ⟨trivial, filled.decTimeouts ticked⟩
  dsimp only at h
  split at h
  · obtain ⟨last, refreshed, eq⟩ := Option.map_eq_some_iff.mp h
    cases eq
    rw [refreshProbes_eq refreshed]
    exact { sound with waits := waits }
  obtain ⟨⟨expiry, packets'⟩, expired, h⟩ := Option.bind_eq_some_iff.mp h
  obtain ⟨again, waits'⟩ := SortedMap.forValues_forall
    (P := fun expiry : Expiry => Filled HasRoom expiry.retransmissionPackets)
    (Q := fun entry => Filled (OfQos entry.1) entry.2)
    (R := fun entry => Filled (OfQos entry.1) entry.2) sound.again waits
    (fun s qos entries out again filled called =>
      expireList_filled filled (fun packet of => of.2) again called) expired
  obtain ⟨slots, -, h⟩ := Option.bind_eq_some_iff.mp h
  obtain ⟨⟨packets'', sending⟩, sentAgain, h⟩ := Option.bind_eq_some_iff.mp h
  obtain ⟨⟨last, fifos⟩, sent, h⟩ := Option.bind_eq_some_iff.mp h
  obtain ⟨final, refreshed, eq⟩ := Option.map_eq_some_iff.mp h
  cases eq
  rw [refreshProbes_eq refreshed]
  obtain ⟨again', waitsAgain, failed⟩ := sendAgain_sound again (by exact waits') sentAgain
  obtain ⟨queues, waitsEnd, failed'⟩ := sendFifos_sound sound.queues waitsAgain sent
  exact ⟨waitsEnd, again', queues, (failed'.trans failed).trans sound.failed⟩

theorem onRcvCtrl_sound {ids : PacketIds} {ctrl : SalohaPacketCtrl} (sound : tal.Sound)
    (h : tal.onRcvCtrl config ids ctrl = some tal') : tal'.Sound := by
  unfold onRcvCtrl at h
  split at h
  · cases h
    exact sound
  split at h
  · cases h
    exact sound
  obtain ⟨found, searched, eq⟩ := Option.map_eq_some_iff.mp h
  have waits : Waits (tal.packetsWaitAck.insert
      (wrap 8 (SlottedAlohaPacketData.convertPacketId ctrl.id ids).qos) []) :=
    SortedMap.forall_insert sound.waits (List.forall_mem_nil _)
  cases found with
  | none =>
      cases eq
      exact { sound with waits := waits }
  | some found =>
      obtain ⟨acked, rest⟩ := found
      cases eq
      refine { sound with waits := ?_ }
      obtain ⟨entries, lookup⟩ := tal.packetsWaitAck.exists_lookup_insert
        (wrap 8 (SlottedAlohaPacketData.convertPacketId ctrl.id ids).qos) []
      rw [lookup, Option.getD_some] at searched
      obtain ⟨-, sub⟩ := removeAcked_cases searched acked rest rfl
      have filled := waits _ (SortedMap.mem_of_lookup lookup)
      exact SortedMap.forall_modify waits fun _ _ entry mem => filled entry (sub.subset mem)

theorem onRcvFrame_sound {ids : PacketIds} {ctrls : List SalohaPacketCtrl} (sound : tal.Sound)
    (h : tal.onRcvFrame config ids ctrls = some tal') : tal'.Sound := by
  induction ctrls generalizing tal with
  | nil =>
      cases h
      exact sound
  | cons ctrl ctrls ih =>
      obtain ⟨mid, first, rest⟩ := Option.bind_eq_some_iff.mp h
      exact ih (onRcvCtrl_sound sound first) rest

/-- A push of a suitable packet keeps the queues. -/
theorem onRcvEncapPacket_queues {key : Nat} {fifo : DvbFifo MacPacket} {packet : MacPacket}
    {pushed : Bool} (queues : Queues tal.dvbFifos) (found : tal.dvbFifos.lookup key = some fifo)
    (of : ∀ sent, packet = .saloha sent → OfQos key sent.packet)
    (h : tal.onRcvEncapPacket key fifo packet = some (pushed, tal')) : Queues tal'.dvbFifos := by
  obtain ⟨⟨status, fifo'⟩, push, eq⟩ := Option.map_eq_some_iff.mp h
  cases eq
  have before := queues _ (SortedMap.mem_of_lookup found)
  refine SortedMap.forall_modify queues fun _ _ elem mem sent held => ?_
  obtain ⟨-, -, ⟨-, -, queue⟩ | ⟨-, -, queue⟩⟩ := DvbFifo.push_cases push
  · rw [queue] at mem
    rcases List.mem_append.mp mem with old | new
    · exact before elem old sent held
    · rw [List.mem_singleton.mp new] at held
      exact of sent (Option.some.inj held)
  · rw [queue] at mem
    exact before elem mem sent held

theorem storePacket_sound {burstSize offset next : Nat} {packet : NetPacket} {pushed : Bool}
    (sound : tal.Sound)
    (suits : tal.hasProbe (tal.fifoPriority config packet) →
      (UInt8.ofNat packet.qos).toNat = tal.fifoPriority config packet ∧
        wrap 16 (salohaDataHdrLength + 2 * config.nbReplicas.toNat + packet.data.length) ≤
          freeSpace [])
    (h : tal.storePacket config burstSize offset packet = some (pushed, next, tal')) :
    tal'.Sound := by
  obtain ⟨fifo, found, ⟨saloha, rfl, mid, pushedIn, rfl⟩ | ⟨-, rfl, pushedIn⟩⟩ :=
    storePacket_cases h
  · obtain ⟨qos, room⟩ := suits (by rw [hasProbe, found]; simp [saloha])
    let headed := (tal.addSalohaHeader config packet (.ofNat offset) (.ofNat burstSize)).2
    have found' : headed.dvbFifos.lookup (tal.fifoPriority config packet) = some fifo := found
    have queues' : Queues headed.dvbFifos := sound.queues
    have queues := onRcvEncapPacket_queues queues' found' (fun sent eq => by
      cases eq
      refine ⟨qos, ?_⟩
      have replicas : (tal.addSalohaHeader config packet (.ofNat offset)
          (.ofNat burstSize)).1.packet.replicas = List.replicate config.nbReplicas.toNat 0 := rfl
      rw [HasRoom, SlottedAlohaPacketData.length, replicas, List.length_replicate]
      exact room) pushedIn
    obtain ⟨-, kept⟩ := onRcvEncapPacket_queued found' pushedIn
    have sound' : mid.Sound := by
      rw [kept]
      exact ⟨sound.waits, sound.again, queues, sound.failed⟩
    cases pushed with
    | true => exact ⟨sound'.waits, sound'.again, sound'.queues, sound'.failed⟩
    | false => exact sound'
  · have queues := onRcvEncapPacket_queues sound.queues found (fun sent eq => by cases eq) pushedIn
    obtain ⟨-, kept⟩ := onRcvEncapPacket_queued found pushedIn
    rw [kept]
    exact ⟨sound.waits, sound.again, queues, sound.failed⟩

theorem storePackets_sound {burstSize offset : Nat} {packets : List NetPacket} {ok : Bool}
    (sound : tal.Sound) (suits : tal.Suits config (.burst packets))
    (h : tal.storePackets config burstSize offset packets = some (ok, tal')) : tal'.Sound := by
  induction packets generalizing tal offset with
  | nil =>
      cases h
      exact sound
  | cons packet packets ih =>
      obtain ⟨⟨pushed, next, mid⟩, stored, rest⟩ := Option.bind_eq_some_iff.mp h
      have first := storePacket_sound sound (suits packet List.mem_cons_self) stored
      have stores := storePacket_stores stored
      cases pushed with
      | true =>
          refine ih first (fun packet mem => ?_) rest
          rw [stores.route, stores.probes]
          exact suits packet (List.mem_cons_of_mem _ mem)
      | false =>
          cases rest
          exact first

theorem step_sound {event : TalEvent} (sound : tal.Sound) (suits : tal.Suits config event)
    (h : tal.step config event = some tal') : tal'.Sound := by
  cases event with
  | burst packets =>
      obtain ⟨⟨ok, last⟩, received, rfl⟩ := Option.map_eq_some_iff.mp h
      obtain ⟨⟨ok', mid⟩, looped, eq⟩ := Option.map_eq_some_iff.mp received
      cases eq
      have kept := storePackets_sound sound suits looped
      exact ⟨kept.waits, kept.again, kept.queues, kept.failed⟩
  | ctrl ids ctrls => exact onRcvFrame_sound sound h
  | schedule sfCounter draws =>
      obtain ⟨⟨frames, last⟩, scheduled, rfl⟩ := Option.map_eq_some_iff.mp h
      exact schedule_sound sound scheduled
  | pop key =>
      obtain ⟨fifo, found, h⟩ := Option.bind_eq_some_iff.mp h
      split at h
      · cases h
      obtain ⟨⟨out, fifo'⟩, popped, rfl⟩ := Option.map_eq_some_iff.mp h
      obtain ⟨-, -, queue⟩ := DvbFifo.pop_cases popped
      have before := sound.queues _ (SortedMap.mem_of_lookup found)
      refine { sound with queues := ?_ }
      exact SortedMap.forall_modify sound.queues fun _ _ elem mem =>
        before elem (by rw [queue]; exact List.mem_append_right _ mem)

/-! ### The life of a packet -/

/-- Each packet popped and neither acknowledged nor given up is in the lists of packets
once: under its QoS until it is acknowledged, or to be sent again; no entry is empty; and
a packet whose insertion in a frame failed is still in some place. -/
structure Tracked (tal : SlottedAlohaTal) : Prop where
  once : ∀ n ∈ tal.record.popped, n ∉ tal.record.acked → n ∉ tal.record.dropped →
    (waiting tal.packetsWaitAck + numbers tal.retransmissionPackets).count n = 1
  ownQos : ∀ entry ∈ tal.packetsWaitAck.entries, ∀ sent, some sent ∈ entry.2 →
    sent.getQos = entry.1
  held : (∀ entry ∈ tal.packetsWaitAck.entries, none ∉ entry.2) ∧
    none ∉ tal.retransmissionPackets
  later : ∀ n ∈ tal.record.failed,
    n ∈ waiting tal.packetsWaitAck + numbers tal.retransmissionPackets + queued tal.dvbFifos

theorem Sound.tracked (sound : tal.Sound) (balanced : tal.Balanced) : tal.Tracked where
  once := by
    intro n mem notAcked notDropped
    have one : (tal.record.popped : Multiset Nat).count n = 1 :=
      Multiset.count_eq_one_of_mem
        (Multiset.nodup_of_le (Multiset.le_add_right _ _) balanced.nodup) mem
    have sum : (tal.record.popped : Multiset Nat) = _ := balanced.accounts
    rw [sum, sound.failed] at one
    simp only [Multiset.count_add, Multiset.coe_nil, add_zero,
      Multiset.count_eq_zero_of_notMem (show n ∉ (tal.record.acked : Multiset Nat) from notAcked),
      Multiset.count_eq_zero_of_notMem (show n ∉ (tal.record.dropped : Multiset Nat) from notDropped),
      zero_add] at one ⊢
    exact one
  ownQos := by
    intro entry mem sent held
    obtain ⟨sent', eq, of⟩ := sound.waits entry mem _ held
    cases eq
    exact of.1
  held := by
    constructor
    · intro entry mem empty
      obtain ⟨sent, eq, -⟩ := sound.waits entry mem none empty
      cases eq
    · intro empty
      obtain ⟨sent, eq, -⟩ := sound.again none empty
      cases eq
  later := by
    rw [sound.failed]
    exact fun n mem => absurd mem List.not_mem_nil

/-- In every run of a terminal with empty FIFOs, in which the packets put in the FIFOs of
Slotted Aloha have the QoS of their FIFO and room in an empty frame, the packets are
tracked in every state. -/
theorem packets_tracked (config : SlottedAlohaTalConfig)
    (dvbFifos : SortedMap Nat (DvbFifo MacPacket)) (events : List TalEvent)
    (empty : ∀ entry ∈ dvbFifos.entries, entry.2.queue = [])
    (suits : Run.AllSteps (step config) (Suits config) (new dvbFifos) events) :
    Run.AllStates (step config) Tracked (new dvbFifos) events := by
  have nothing : queued dvbFifos = 0 := by
    refine List.sum_eq_zero fun weight mem => ?_
    obtain ⟨entry, held, rfl⟩ := List.mem_map.mp mem
    change ((entry.2.queue.filterMap elementNumber : List Nat) : Multiset Nat) = 0
    rw [empty entry held]
    rfl
  have balanced : (new dvbFifos).Balanced := by
    refine ⟨rfl, ?_, ?_⟩
    · change (0 + queued dvbFifos).Nodup
      rw [nothing]
      exact Multiset.nodup_zero
    · change ∀ n ∈ 0 + queued dvbFifos, _
      rw [nothing]
      exact fun n mem => absurd mem (Multiset.notMem_zero n)
  have sound : (new dvbFifos).Sound := by
    refine ⟨List.forall_mem_nil _, List.forall_mem_nil _, ?_, rfl⟩
    intro entry mem elem held
    rw [empty entry mem] at held
    cases held
  have kept := Run.allStates_of_allSteps (P := fun tal => tal.Balanced ∧ tal.Sound)
    ⟨balanced, sound⟩ (fun s event s' good suits taken =>
      ⟨step_balanced good.1 taken, step_sound good.2 suits taken⟩) suits
  exact kept.mono fun s good => good.2.tracked good.1

instance (config : SlottedAlohaTalConfig) (tal : SlottedAlohaTal) :
    (event : TalEvent) → Decidable (tal.Suits config event)
  | .burst packets => inferInstanceAs (Decidable (∀ packet ∈ packets, _ → _))
  | .ctrl _ _ => isTrue trivial
  | .schedule _ _ => isTrue trivial
  | .pop _ => isTrue trivial

/-- A packet is sent, times out, is sent again and acknowledged. -/
theorem packet_tracked_until_ack :
    Run.AllStates (step smallConfig) Tracked (new mixedFifos)
      [.burst [⟨[1, 2, 3], 0, 1, 0⟩], .schedule 0 ⟨true, [3, 5], fun _ => 0⟩,
        .schedule 1 ⟨false, [], fun _ => 0⟩, .schedule 2 ⟨false, [], fun _ => 0⟩,
        .schedule 3 ⟨true, [1, 4], fun _ => 0⟩,
        .ctrl ⟨0, 0, 0, 0⟩ [⟨1, 1, ['0', ':', '0', ':', '1', ':', '0']⟩]] :=
  packets_tracked _ _ _ (by decide) (by decide +kernel)

/-- A packet of 1200 bytes is stored and then scheduled. -/
def oversizedRun : List TalEvent :=
  [.burst [⟨List.replicate 1200 0, 0, 1, 0⟩], .schedule 0 ⟨true, [3, 5], fun _ => 0⟩]

/-- A packet without room in a frame is popped, not added, and then nowhere. -/
theorem oversized_packet_not_tracked :
    ¬ ∀ (config : SlottedAlohaTalConfig) (dvbFifos : SortedMap Nat (DvbFifo MacPacket))
      (events : List TalEvent), (∀ entry ∈ dvbFifos.entries, entry.2.queue = []) →
        Run.AllStates (step config) Tracked (new dvbFifos) events := by
  intro claim
  have states := claim smallConfig mixedFifos oversizedRun (by decide)
  have lost : (Run.run (step smallConfig) (new mixedFifos) oversizedRun).any (fun tal =>
      0 ∈ tal.record.popped ∧ 0 ∉ tal.record.acked ∧ 0 ∉ tal.record.dropped ∧
        (waiting tal.packetsWaitAck + numbers tal.retransmissionPackets).count 0 = 0) = true := by
    decide +kernel
  obtain ⟨tal, ends, seen⟩ := (Option.any_eq_true _ _).mp lost
  obtain ⟨popped, notAcked, notDropped, nowhere⟩ := of_decide_eq_true seen
  have once := (states.last ends).once 0 popped notAcked notDropped
  exact absurd (nowhere.symm.trans once) Nat.zero_ne_one

end SlottedAlohaTal

end OpenSand
