import OpenSand.Interconnect.InterconnectChannel

/-!
The delay line of an interconnect sender.

Messages wait in a FIFO until their time. Whatever the delay, the clock and the failures of
the socket, they leave in the order they were given (`inOrder_run`).
-/

namespace OpenSand

open Bytes InterconnectChannel

/-- A message buffer that waits. -/
structure DelayedBuffer where
  buffer : Data
  tickOut : UInt32

/-- A sender, with the messages it was given, how many of them the FIFO refused, and the buffers
taken out of it with the status of their sending. -/
structure InterconnectSender where
  delay : UInt32
  maxSizePkt : Nat
  delayFifo : List DelayedBuffer
  given : List InterconnectMessage
  refused : Nat
  popped : List (Data × Bool)

namespace InterconnectSender

def new (delay : UInt32) (maxSizePkt : Nat) : InterconnectSender := ⟨delay, maxSizePkt, [], [], 0, []⟩

/-- Take out what is due until a sending fails: what was taken out, and what still waits. The
list says which sendings succeed. -/
def sendDue (currentTime : UInt32) :
    List Bool → List DelayedBuffer → List (Data × Bool) × List DelayedBuffer
  | _, [] => ([], [])
  | sent, elem :: queue =>
      if elem.tickOut ≤ currentTime then
        if sent.headD true then
          let (popped, queue) := sendDue currentTime sent.tail queue
          ((elem.buffer, true) :: popped, queue)
        else ([(elem.buffer, false)], queue)
      else ([], elem :: queue)

def onTimerEvent (sender : InterconnectSender) (currentTime : UInt32) (sent : List Bool) :
    InterconnectSender :=
  let (popped, queue) := sendDue currentTime sent sender.delayFifo
  { sender with delayFifo := queue, popped := sender.popped ++ popped }

/-- Send a message; without delay what is due is sent at once. -/
def send (sender : InterconnectSender) (message : InterconnectMessage)
    (currentTime timerTime : UInt32) (sent : List Bool) : InterconnectSender :=
  let sender := { sender with given := sender.given ++ [message] }
  if sender.delayFifo.length < sender.maxSizePkt then
    let elem : DelayedBuffer := ⟨msgBuffer message, currentTime + sender.delay⟩
    let sender := { sender with delayFifo := sender.delayFifo ++ [elem] }
    if sender.delay = 0 then sender.onTimerEvent timerTime sent else sender
  else { sender with refused := sender.refused + 1 }

inductive Event where
  | send (message : InterconnectMessage) (currentTime timerTime : UInt32) (sent : List Bool)
  | timer (currentTime : UInt32) (sent : List Bool)

def handle (sender : InterconnectSender) : Event → InterconnectSender
  | .send message currentTime timerTime sent => sender.send message currentTime timerTime sent
  | .timer currentTime sent => sender.onTimerEvent currentTime sent

def run (delay : UInt32) (maxSizePkt : Nat) (events : List Event) : InterconnectSender :=
  events.foldl handle (new delay maxSizePkt)

/-- The buffers that left, in their order. -/
def left (sender : InterconnectSender) : List Data :=
  (sender.popped.filter Prod.snd).map Prod.fst

/-! ### Order -/

/-- What was taken out, then what waits. -/
def accepted (sender : InterconnectSender) : List Data :=
  sender.popped.map Prod.fst ++ sender.delayFifo.map DelayedBuffer.buffer

/-- The accepted messages are given ones in the same order, and the others were refused. -/
structure Ordered (sender : InterconnectSender) : Prop where
  order : sender.accepted.Sublist (sender.given.map msgBuffer)
  counted : sender.accepted.length + sender.refused = sender.given.length

variable {sender : InterconnectSender}

theorem sendDue_append (currentTime : UInt32) (sent : List Bool) (queue : List DelayedBuffer) :
    (sendDue currentTime sent queue).1.map Prod.fst ++
        (sendDue currentTime sent queue).2.map DelayedBuffer.buffer =
      queue.map DelayedBuffer.buffer := by
  induction queue generalizing sent with
  | nil => rfl
  | cons elem queue ih =>
      rw [sendDue]
      by_cases due : elem.tickOut ≤ currentTime
      · rw [if_pos due]
        by_cases ok : sent.headD true = true
        · rw [if_pos ok]
          exact congrArg (elem.buffer :: ·) (ih sent.tail)
        · rw [if_neg ok]
          rfl
      · rw [if_neg due]
        rfl

theorem accepted_onTimerEvent (currentTime : UInt32) (sent : List Bool) :
    (sender.onTimerEvent currentTime sent).accepted = sender.accepted := by
  simp only [accepted, onTimerEvent, List.map_append, List.append_assoc, sendDue_append]

theorem Ordered.onTimerEvent (ordered : sender.Ordered) (currentTime : UInt32)
    (sent : List Bool) : (sender.onTimerEvent currentTime sent).Ordered where
  order := by
    rw [accepted_onTimerEvent]
    exact ordered.order
  counted := by
    rw [accepted_onTimerEvent]
    exact ordered.counted

theorem Ordered.push (ordered : sender.Ordered) (message : InterconnectMessage)
    (tickOut : UInt32) :
    Ordered { sender with
      given := sender.given ++ [message]
      delayFifo := sender.delayFifo ++ [⟨msgBuffer message, tickOut⟩] } := by
  have accepted_eq : accepted { sender with
      given := sender.given ++ [message]
      delayFifo := sender.delayFifo ++ [⟨msgBuffer message, tickOut⟩] } =
      sender.accepted ++ [msgBuffer message] := by
    simp [accepted]
  constructor
  · rw [accepted_eq, List.map_append]
    exact ordered.order.append (List.Sublist.refl _)
  · have := ordered.counted
    rw [accepted_eq]
    simp only [List.length_append, List.length_singleton]
    omega

theorem Ordered.send (ordered : sender.Ordered) (message : InterconnectMessage)
    (currentTime timerTime : UInt32) (sent : List Bool) :
    (sender.send message currentTime timerTime sent).Ordered := by
  have pushed := ordered.push message (currentTime + sender.delay)
  rw [InterconnectSender.send]
  dsimp only
  split
  · split
    · exact pushed.onTimerEvent timerTime sent
    · exact pushed
  · constructor
    · rw [List.map_append]
      exact ordered.order.trans (List.sublist_append_left _ _)
    · have := ordered.counted
      simp only [List.length_append, List.length_singleton]
      simp only [accepted] at this ⊢
      omega

theorem Ordered.handle (ordered : sender.Ordered) (event : Event) :
    (sender.handle event).Ordered := by
  cases event with
  | send message currentTime timerTime sent =>
      exact ordered.send message currentTime timerTime sent
  | timer currentTime sent => exact ordered.onTimerEvent currentTime sent

theorem ordered_run (delay : UInt32) (maxSizePkt : Nat) (events : List Event) :
    (run delay maxSizePkt events).Ordered :=
  List.foldlRecOn events handle ⟨List.Sublist.refl _, rfl⟩ fun _ ordered event _ =>
    ordered.handle event

/-- The messages leave in the order they were given; what was neither refused nor taken out
still waits, in the same order. -/
def InOrder (sender : InterconnectSender) : Prop :=
  sender.left.Sublist (sender.given.map msgBuffer) ∧
    (sender.refused = 0 → sender.accepted = sender.given.map msgBuffer)

theorem inOrder_run (delay : UInt32) (maxSizePkt : Nat) (events : List Event) :
    (run delay maxSizePkt events).InOrder := by
  have ordered := ordered_run delay maxSizePkt events
  constructor
  · refine List.Sublist.trans ?_ ordered.order
    refine List.Sublist.trans ?_ (List.sublist_append_left _ _)
    exact List.filter_sublist.map Prod.fst
  · intro none
    refine ordered.order.eq_of_length ?_
    rw [List.length_map, ← ordered.counted, none, Nat.add_zero]

/-- What leaves is received as it was given, in the same order. -/
theorem received_left {delay : UInt32} {maxSizePkt : Nat} {events : List Event} (beyond : Data)
    (carriable : ∀ message ∈ (run delay maxSizePkt events).given,
      (serialize message).length ≤ MAX_SOCK_SIZE ∧ Carriable message) :
    ∃ messages : List InterconnectMessage, messages.Sublist (run delay maxSizePkt events).given ∧
      (run delay maxSizePkt events).left.map (fun buffer => receive buffer beyond) =
        messages.map some := by
  obtain ⟨messages, sub, eq⟩ := List.sublist_map_iff.mp (inOrder_run delay maxSizePkt events).1
  refine ⟨messages, sub, ?_⟩
  rw [eq, List.map_map]
  refine List.map_congr_left fun message mem => ?_
  obtain ⟨fits, able⟩ := carriable message (sub.subset mem)
  exact (receive_eq_iff fits beyond).mpr able

/-! ### Main result -/

theorem interconnect_iff (message : InterconnectMessage) (delay : UInt32) (maxSizePkt : Nat)
    (events : List Event) :
    (InterconnectChannel.RoundTrips message ∧ (run delay maxSizePkt events).InOrder) ↔
      ((serialize message).length ≤ MAX_SOCK_SIZE → Carriable message) := by
  rw [and_iff_left (inOrder_run delay maxSizePkt events)]
  exact message_roundTrips_iff message

/-- An empty burst is not received as one. -/
theorem emptyBurst_not_received :
    ¬ ∀ (message : InterconnectMessage) (delay : UInt32) (maxSizePkt : Nat) (events : List Event),
      InterconnectChannel.RoundTrips message ∧ (run delay maxSizePkt events).InOrder := by
  intro claim
  exact ((message_roundTrips_iff (.decapData [])).mp (claim (.decapData []) 0 1 []).1 (by decide)).1 rfl

end InterconnectSender

end OpenSand
