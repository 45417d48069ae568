import OpenSand.Common.NetPacket

/-!
Accounting of the MAC FIFO over runs of its operations.

`Accounted` says that the three redundant counts agree with the queue. Insertion
and extraction keep it as long as the byte length of the queue stays a 32-bit
word. Two operations touch the queue without touching the counts: `flush`
forgets the current counts of the statistics, and adding a C/N extension
replaces packets in place. `fifo_accounting_iff` says exactly which runs survive
them.
-/

namespace OpenSand

open OpenSand.Word OpenSand.Run

variable {α σ : Type} [NetContainer α]

/-! ### Bytes in a queue -/

/-- The sum of the lengths of the elements, when none of them is empty. -/
def queuedBytes : List (FifoElement α) → Option Nat
  | [] => some 0
  | elem :: rest => elem.getTotalLength.bind fun n => (queuedBytes rest).map (n + ·)

theorem queuedBytes_cons {elem : FifoElement α} {rest : List (FifoElement α)} {total : Nat} :
    queuedBytes (elem :: rest) = some total ↔
      ∃ n m, elem.getTotalLength = some n ∧ queuedBytes rest = some m ∧ total = n + m := by
  simp only [queuedBytes, Option.bind_eq_some_iff, Option.map_eq_some_iff]
  constructor
  · rintro ⟨n, hn, m, hm, rfl⟩
    exact ⟨n, m, hn, hm, rfl⟩
  · rintro ⟨n, m, hn, hm, rfl⟩
    exact ⟨n, hn, m, hm, rfl⟩

theorem queuedBytes_snoc {elem : FifoElement α} {queue : List (FifoElement α)} {n m : Nat}
    (hn : elem.getTotalLength = some n) (hm : queuedBytes queue = some m) :
    queuedBytes (queue ++ [elem]) = some (m + n) := by
  induction queue generalizing m with
  | nil =>
      cases hm
      simp [queuedBytes, hn]
  | cons head rest ih =>
      obtain ⟨k, l, hk, hl, rfl⟩ := queuedBytes_cons.mp hm
      exact queuedBytes_cons.mpr ⟨k, l + n, hk, ih hl, by omega⟩

/-- The bytes of the packets an extension handler is given in a queue, and the
bytes of the packets it returns for them; none when it fails on one of them. -/
def extensionBytes (handler : CniExtension σ α) : σ → List (FifoElement α) → Option (Nat × Nat)
  | _, [] => some (0, 0)
  | s, elem :: rest =>
      elem.elem.bind fun packet =>
        if handler.isWanted s packet then
          match handler.setPacketExtension s packet with
          | (s', some extensionPkt) =>
              (extensionBytes handler s' rest).map fun bytes =>
                (NetContainer.getTotalLength packet + bytes.1,
                  NetContainer.getTotalLength extensionPkt + bytes.2)
          | (_, none) => none
        else extensionBytes handler s rest

/-- Adding extensions moves the byte total of a queue by the growth of the
packets it replaces, and leaves an empty element when the handler fails. -/
theorem queuedBytes_addCniExtQueue {handler : CniExtension σ α} {s : σ}
    {queue : List (FifoElement α)} {out : Bool × σ × List (FifoElement α)} {total : Nat}
    (full : queuedBytes queue = some total) (added : addCniExtQueue handler s queue = some out) :
    (∀ a b, extensionBytes handler s queue = some (a, b) →
      ∃ total', queuedBytes out.2.2 = some total' ∧ total' + a = total + b) ∧
    (extensionBytes handler s queue = none → queuedBytes out.2.2 = none) := by
  induction queue generalizing s out total with
  | nil =>
      cases added
      cases full
      simp [extensionBytes, queuedBytes]
  | cons elem rest ih =>
      obtain ⟨n, m, hn, hm, rfl⟩ := queuedBytes_cons.mp full
      obtain ⟨packet, hpacket, rfl⟩ := Option.map_eq_some_iff.mp hn
      simp only [addCniExtQueue, FifoElement.getElem, hpacket, Option.bind_some] at added
      simp only [extensionBytes, hpacket, Option.bind_some]
      split at added
      next wanted =>
        split at added
        next s' extensionPkt handled =>
          obtain ⟨mid, hmid, rfl⟩ := Option.map_eq_some_iff.mp added
          obtain ⟨grown, failed⟩ := ih hm hmid
          simp only [wanted, if_true, handled, Option.map_eq_some_iff, Option.map_eq_none_iff]
          refine ⟨?_, fun h => ?_⟩
          · rintro a b ⟨bytes, hbytes, hab⟩
            cases hab
            obtain ⟨total', htotal', sum⟩ := grown bytes.1 bytes.2 hbytes
            exact ⟨NetContainer.getTotalLength extensionPkt + total',
              queuedBytes_cons.mpr ⟨_, total', rfl, htotal', rfl⟩, by omega⟩
          · simp [queuedBytes, failed h]
        next s' handled =>
          cases added
          simp [wanted, handled, queuedBytes, FifoElement.getTotalLength]
      next unwanted =>
        obtain ⟨mid, hmid, rfl⟩ := Option.map_eq_some_iff.mp added
        obtain ⟨grown, failed⟩ := ih hm hmid
        simp only [unwanted, Bool.false_eq_true, if_false]
        refine ⟨fun a b hab => ?_, fun h => ?_⟩
        · obtain ⟨total', htotal', sum⟩ := grown a b hab
          exact ⟨NetContainer.getTotalLength packet + total',
            queuedBytes_cons.mpr ⟨_, total', rfl, htotal', rfl⟩, by omega⟩
        · simp [queuedBytes, failed h]

/-! ### The invariant -/

namespace DvbFifo

/-- The byte length and the current statistics are those of the queue. -/
structure Accounted (fifo : DvbFifo α) : Prop where
  bytes : queuedBytes fifo.queue = some fifo.curLengthBytes
  pktNbr : fifo.statContext.currentPktNbr = fifo.queue.length
  lengthBytes : fifo.statContext.currentLengthBytes = fifo.curLengthBytes
  word : fifo.curLengthBytes < 2 ^ 32

/-- Popping the head element makes no counter underflow. -/
def PopSafe (fifo : DvbFifo α) : Prop :=
  ∀ elem rest n, fifo.queue = elem :: rest → elem.getTotalLength = some n →
    wrap 32 n ≤ fifo.curLengthBytes ∧ wrap 32 n ≤ fifo.statContext.currentLengthBytes

theorem Accounted.popSafe {fifo : DvbFifo α} (h : fifo.Accounted) : fifo.PopSafe := by
  intro elem rest n hqueue hlen
  have full := h.bytes
  rw [hqueue] at full
  obtain ⟨n', m, hn', _, total⟩ := queuedBytes_cons.mp full
  have hnn : n' = n := Option.some.inj (hn'.symm.trans hlen)
  have le := wrap_le 32 n
  have stat := h.lengthBytes
  omega

theorem new_accounted (accessType : ForwardOrReturnAccessType) (vcmId : Nat)
    (maxSizePkt : Fin (2 ^ 16)) :
    (DvbFifo.new accessType vcmId maxSizePkt : DvbFifo α).Accounted :=
  ⟨rfl, rfl, rfl, by simp [DvbFifo.new]⟩

omit [NetContainer α] in
/-- The length of a queue is a 16-bit word. -/
theorem wrap_length (fifo : DvbFifo α) : wrap 16 fifo.queue.length = fifo.queue.length :=
  wrap_of_lt (lt_of_le_of_lt fifo.queue_le fifo.maxSizePkt.isLt)

/-- What an accepted insertion has to meet: the byte total stays a word. -/
def Fits (fifo : DvbFifo α) (elem : FifoElement α) : Prop :=
  fifo.queue.length < fifo.maxSizePkt →
    ∀ n, elem.getTotalLength = some n → fifo.curLengthBytes + n < 2 ^ 32

/-- The counters after an accepted insertion are those of the queue exactly when
the byte total is still a word. -/
theorem accounted_insert_iff {fifo fifo' : DvbFifo α} {n : Nat} (h : fifo.Accounted)
    (bytes : queuedBytes fifo'.queue = some (fifo.curLengthBytes + n))
    (cur : fifo'.curLengthBytes = addW 32 fifo.curLengthBytes (wrap 32 n))
    (pktNbr : fifo'.statContext.currentPktNbr = wrap 16 fifo'.queue.length)
    (lengthBytes : fifo'.statContext.currentLengthBytes =
      addW 32 fifo.statContext.currentLengthBytes (wrap 32 n)) :
    fifo'.Accounted ↔ fifo.curLengthBytes + n < 2 ^ 32 := by
  constructor
  · intro h'
    have total := h'.bytes
    rw [bytes, Option.some.injEq] at total
    exact total ▸ h'.word
  · intro fits
    have hwrap : wrap 32 n = n := wrap_of_lt (by omega)
    have hcur : fifo'.curLengthBytes = fifo.curLengthBytes + n := by
      rw [cur, hwrap, addW_of_lt fits]
    refine ⟨by rw [bytes, hcur], by rw [pktNbr, wrap_length], ?_, by omega⟩
    rw [lengthBytes, h.lengthBytes, hwrap, addW_of_lt fits, hcur]

theorem push_accounted_iff {fifo : DvbFifo α} {elem : FifoElement α} {out : Bool × DvbFifo α}
    (h : fifo.Accounted) (pushed : fifo.push elem = some out) :
    out.2.Accounted ↔ fifo.Fits elem := by
  obtain ⟨n, hn, rfl⟩ := Option.map_eq_some_iff.mp pushed
  by_cases room : fifo.queue.length < fifo.maxSizePkt
  · simp only [room, dif_pos]
    rw [accounted_insert_iff h (queuedBytes_snoc hn h.bytes) rfl (by simp) rfl]
    exact ⟨fun fits _ m hm => by cases hm.symm.trans hn; exact fits, fun fits => fits room n hn⟩
  · simp only [room, dif_neg, not_false_eq_true]
    exact ⟨fun _ full => absurd full room, fun _ => ⟨h.bytes, h.pktNbr, h.lengthBytes, h.word⟩⟩

theorem reinsert_accounted_iff {fifo : DvbFifo α} {elem : FifoElement α}
    {queue : List (FifoElement α)} {hlen : queue.length = fifo.queue.length + 1}
    {out : Bool × DvbFifo α} (h : fifo.Accounted)
    (bytes : ∀ n, elem.getTotalLength = some n →
      queuedBytes queue = some (fifo.curLengthBytes + n))
    (inserted : fifo.reinsert elem queue hlen = some out) :
    out.2.Accounted ↔ fifo.Fits elem := by
  unfold reinsert at inserted
  split at inserted
  next room =>
    obtain ⟨n, hn, rfl⟩ := Option.map_eq_some_iff.mp inserted
    rw [accounted_insert_iff h (bytes n hn) rfl rfl rfl]
    exact ⟨fun fits _ m hm => by cases hm.symm.trans hn; exact fits, fun fits => fits room n hn⟩
  next full =>
    cases inserted
    exact ⟨fun _ room => absurd room full, fun _ => h⟩

theorem pushFront_accounted_iff {fifo : DvbFifo α} {elem : FifoElement α}
    {out : Bool × DvbFifo α} (h : fifo.Accounted) (pushed : fifo.pushFront elem = some out) :
    out.2.Accounted ↔ fifo.Fits elem :=
  reinsert_accounted_iff h
    (fun n hn => queuedBytes_cons.mpr ⟨n, _, hn, h.bytes, Nat.add_comm _ _⟩) pushed

theorem pushBack_accounted_iff {fifo : DvbFifo α} {elem : FifoElement α}
    {out : Bool × DvbFifo α} (h : fifo.Accounted) (pushed : fifo.pushBack elem = some out) :
    out.2.Accounted ↔ fifo.Fits elem :=
  reinsert_accounted_iff h (fun _ hn => queuedBytes_snoc hn h.bytes) pushed

theorem pop_accounted {fifo : DvbFifo α} {out : Option (FifoElement α) × DvbFifo α}
    (h : fifo.Accounted) (popped : fifo.pop = some out) : out.2.Accounted := by
  unfold pop at popped
  split at popped
  next => cases popped; exact h
  next elem rest hqueue =>
    obtain ⟨n, hn, rfl⟩ := Option.map_eq_some_iff.mp popped
    have full := h.bytes
    rw [hqueue] at full
    obtain ⟨n', m, hn', hm, total⟩ := queuedBytes_cons.mp full
    obtain rfl : n' = n := Option.some.inj (hn'.symm.trans hn)
    have word := h.word
    have hwrap : wrap 32 n' = n' := wrap_of_lt (by omega)
    have hcur : subW 32 fifo.curLengthBytes (wrap 32 n') = m := by
      rw [hwrap, subW_of_le word (by omega)]
      omega
    have hlen : rest.length < 2 ^ 16 := by
      have size := fifo.queue_le
      have bound := fifo.maxSizePkt.isLt
      simp only [hqueue, List.length_cons] at size
      omega
    refine ⟨by simp only [hcur, hm], wrap_of_lt hlen, ?_, subW_lt _ _ _⟩
    show subW 32 fifo.statContext.currentLengthBytes _ = subW 32 fifo.curLengthBytes _
    rw [h.lengthBytes]

theorem flush_accounted_iff {fifo : DvbFifo α} (h : fifo.Accounted) :
    fifo.flush.Accounted ↔ fifo.queue = [] := by
  constructor
  · intro h'
    have stale : fifo.statContext.currentPktNbr = 0 := h'.pktNbr
    rw [h.pktNbr] at stale
    exact List.length_eq_zero_iff.mp stale
  · intro empty
    have none : fifo.curLengthBytes = 0 := by
      have full := h.bytes
      rw [empty] at full
      exact (Option.some.inj full).symm
    refine ⟨rfl, ?_, ?_, Nat.two_pow_pos 32⟩
    · show fifo.statContext.currentPktNbr = 0
      rw [h.pktNbr, empty]
      rfl
    · show fifo.statContext.currentLengthBytes = 0
      rw [h.lengthBytes, none]

/-- The extension step keeps the accounting exactly when the handler serves every
packet it is given and returns as many bytes as it was given. -/
theorem addCniExt_accounted_iff {fifo : DvbFifo α} {handler : CniExtension σ α} {s : σ}
    {out : Bool × σ × DvbFifo α} (h : fifo.Accounted) (added : fifo.addCniExt handler s = some out) :
    out.2.2.Accounted ↔ ∃ n, extensionBytes handler s fifo.queue = some (n, n) := by
  unfold addCniExt at added
  split at added
  next => cases added
  next mid hmid =>
    cases added
    obtain ⟨grown, failed⟩ := queuedBytes_addCniExtQueue h.bytes hmid
    have hlen : fifo.statContext.currentPktNbr = mid.2.2.length := by
      rw [h.pktNbr, addCniExtQueue_length hmid]
    constructor
    · intro h'
      cases hext : extensionBytes handler s fifo.queue with
      | none =>
          have full := h'.bytes
          rw [show queuedBytes mid.2.2 = none from failed hext] at full
          cases full
      | some bytes =>
          obtain ⟨total', htotal', sum⟩ := grown bytes.1 bytes.2 hext
          have total : total' = fifo.curLengthBytes :=
            Option.some.inj (htotal'.symm.trans h'.bytes)
          have same : bytes.1 = bytes.2 := by omega
          exact ⟨bytes.2, congrArg some (Prod.ext same rfl)⟩
    · rintro ⟨n, hext⟩
      obtain ⟨total', htotal', sum⟩ := grown n n hext
      have total : total' = fifo.curLengthBytes := by omega
      exact ⟨by rw [htotal', total], hlen, h.lengthBytes, h.word⟩

end DvbFifo

/-! ### Runs -/

/-- The operations on a FIFO. -/
inductive FifoOp (σ α : Type) where
  | push (elem : FifoElement α)
  | pushFront (elem : FifoElement α)
  | pushBack (elem : FifoElement α)
  | pop
  | flush
  | getStatsCxt
  | resetNew (crType : ForwardOrReturnAccessType)
  | addCniExt (handler : CniExtension σ α) (s : σ)

def FifoOp.step (fifo : DvbFifo α) : FifoOp σ α → Option (DvbFifo α)
  | .push elem => (fifo.push elem).map Prod.snd
  | .pushFront elem => (fifo.pushFront elem).map Prod.snd
  | .pushBack elem => (fifo.pushBack elem).map Prod.snd
  | .pop => fifo.pop.map Prod.snd
  | .flush => some fifo.flush
  | .getStatsCxt => some fifo.getStatsCxt.2
  | .resetNew crType => some (fifo.resetNew crType)
  | .addCniExt handler s => (fifo.addCniExt handler s).map fun out => out.2.2

/-- What an operation has to meet for the accounting to survive it: insertions
keep the byte total a 32-bit word, only an empty FIFO is flushed, and extensions
leave the number of bytes of the packets they replace as it was. -/
def FifoOp.Neutral (fifo : DvbFifo α) : FifoOp σ α → Prop
  | .push elem | .pushFront elem | .pushBack elem => fifo.Fits elem
  | .flush => fifo.queue = []
  | .addCniExt handler s => ∃ n, extensionBytes handler s fifo.queue = some (n, n)
  | .pop | .getStatsCxt | .resetNew _ => True

theorem FifoOp.step_accounted_iff {fifo fifo' : DvbFifo α} {op : FifoOp σ α}
    (h : fifo.Accounted) (taken : op.step fifo = some fifo') :
    fifo'.Accounted ↔ op.Neutral fifo := by
  cases op with
  | push elem =>
      obtain ⟨out, pushed, rfl⟩ := Option.map_eq_some_iff.mp taken
      exact DvbFifo.push_accounted_iff h pushed
  | pushFront elem =>
      obtain ⟨out, pushed, rfl⟩ := Option.map_eq_some_iff.mp taken
      exact DvbFifo.pushFront_accounted_iff h pushed
  | pushBack elem =>
      obtain ⟨out, pushed, rfl⟩ := Option.map_eq_some_iff.mp taken
      exact DvbFifo.pushBack_accounted_iff h pushed
  | pop =>
      obtain ⟨out, popped, rfl⟩ := Option.map_eq_some_iff.mp taken
      exact iff_of_true (DvbFifo.pop_accounted h popped) trivial
  | flush =>
      cases taken
      exact DvbFifo.flush_accounted_iff h
  | getStatsCxt =>
      cases taken
      exact iff_of_true ⟨h.bytes, h.pktNbr, h.lengthBytes, h.word⟩ trivial
  | resetNew crType =>
      cases taken
      refine iff_of_true ?_ trivial
      unfold DvbFifo.resetNew
      split
      · exact ⟨h.bytes, h.pktNbr, h.lengthBytes, h.word⟩
      · exact h
  | addCniExt handler s =>
      obtain ⟨out, added, rfl⟩ := Option.map_eq_some_iff.mp taken
      exact DvbFifo.addCniExt_accounted_iff h added

/-- **FIFO accounting over runs.** From a new FIFO, every state of a run of
operations is accounted and safe to pop exactly when every operation of the run
is neutral. -/
theorem fifo_accounting_iff (accessType : ForwardOrReturnAccessType) (vcmId : Nat)
    (maxSizePkt : Fin (2 ^ 16)) (ops : List (FifoOp σ α)) :
    AllStates FifoOp.step (fun fifo => fifo.Accounted ∧ fifo.PopSafe)
        (DvbFifo.new accessType vcmId maxSizePkt) ops ↔
      AllSteps FifoOp.step (fun fifo op => op.Neutral fifo)
        (DvbFifo.new accessType vcmId maxSizePkt) ops := by
  have init : (DvbFifo.new accessType vcmId maxSizePkt : DvbFifo α).Accounted :=
    DvbFifo.new_accounted accessType vcmId maxSizePkt
  apply allStates_iff_allSteps ⟨init, init.popSafe⟩
  intro fifo op fifo' h taken
  rw [← FifoOp.step_accounted_iff h.1 taken]
  exact ⟨fun h' => h'.1, fun h' => ⟨h', h'.popSafe⟩⟩

/-- A handler that adds a six-byte extension after the two-byte header. -/
def sixByteExtension : CniExtension Unit NetPacket where
  isWanted _ packet := packet.dstTalId = 0
  setPacketExtension _ packet :=
    ((), some { packet with data := packet.data.take 2 ++ List.replicate 6 0 ++ packet.data.drop 2 })

/-- A ten-byte packet is queued and then gets the extension: the FIFO still
counts ten bytes for an element of sixteen. -/
theorem extension_breaks_accounting :
    ¬ AllStates FifoOp.step (fun fifo => fifo.Accounted ∧ fifo.PopSafe)
        (DvbFifo.new (.return .damaCra) 0 100)
        [.push ⟨some ⟨List.replicate 10 0, 0, 1, 0⟩, 0, 0⟩, .addCniExt sixByteExtension ()] := by
  intro states
  have accounted := ((states.2 _ rfl).2 _ rfl).1
  exact absurd accounted.bytes (by decide)

end OpenSand
