import Mathlib.Data.List.Basic
import Mathlib.Data.UInt
import Mathlib.Logic.Function.Basic

/-!
The datagrams of a UDP channel put back in the order of their counters (`UdpChannel`).

Each sender has a counter, the last one delivered, and a stack of the datagrams that came
too early. While datagrams follow in the stack, `receive` asks to be called again and the
counter is the next one to deliver.

Two updates of the counter go wrong: at the first datagram of a sender it is written
through the iterator found before the entry was made, and a datagram delivered in order
whose successor is stacked does not move it. `resequences_iff` and `filled_gap_stalls` say
what follows.
-/

namespace OpenSand

/-- A UDP datagram: its sender, its counter and the bytes behind it. -/
structure Datagram where
  srcAddr : String
  counter : UInt8
  payload : List UInt8

/-- The 256 places of a stack, a null pointer in the empty ones, and a count of the others.
A buffer of no bytes is not a null pointer. -/
structure UdpStack where
  slots : UInt8 → Option (List UInt8)
  counter : UInt8

namespace UdpStack

def new : UdpStack := ⟨fun _ => none, 0⟩

def add (stack : UdpStack) (udpCounter : UInt8) (data : List UInt8) : UdpStack :=
  -- the data at the same place are erased
  let counter := if (stack.slots udpCounter).isSome then stack.counter - 1 else stack.counter
  ⟨Function.update stack.slots udpCounter (some data), counter + 1⟩

def remove (stack : UdpStack) (udpCounter : UInt8) : Option (List UInt8) × UdpStack :=
  let data := stack.slots udpCounter
  (data, ⟨Function.update stack.slots udpCounter none,
    if data.isSome then stack.counter - 1 else stack.counter⟩)

def hasNext (stack : UdpStack) (udpCounter : UInt8) : Bool :=
  (stack.slots udpCounter).any fun data => data ≠ []

/-- The first counter from a given one on with a packet; without any the search is endless. -/
def firstNext (stack : UdpStack) (udpCounter : UInt8) : Option UInt8 :=
  ((List.range 256).map fun missing => udpCounter + .ofNat missing).find? stack.hasNext

end UdpStack

/-- What `receive` returns: 0, 1 or -1. -/
inductive ReceiveStatus where
  | done | again | error
deriving DecidableEq, Repr

/-- A channel; `ready` when its socket is open and it accepts input. -/
structure UdpChannel where
  ready : Bool
  udpCounters : String → Option UInt8
  udpStacks : String → Option UdpStack
  stackedIp : Option String
  maxStack : Nat

namespace UdpChannel

abbrev Received := ReceiveStatus × Option (List UInt8) × UdpChannel

/-- Take the packet at a counter from a stack, and forget the stack when the next one is not
in it. -/
def handleStackAt (channel : UdpChannel) (ip : String) (counter : UInt8) (stack : UdpStack) :
    Option (List UInt8) × UdpChannel :=
  let (buf, stack) := stack.remove counter
  (buf, { channel with
    udpStacks := Function.update channel.udpStacks ip (some stack)
    stackedIp := if stack.hasNext (counter + 1) then channel.stackedIp else none })

/-- The next stacked packet of a sender. -/
def handleStack (channel : UdpChannel) (ip : String) : Received :=
  match channel.udpCounters ip, channel.udpStacks ip with
  | some counter, some stack =>
      let (buf, channel) := channel.handleStackAt ip counter stack
      if channel.stackedIp.isSome then
        (.again, buf, { channel with
          udpCounters := Function.update channel.udpCounters ip (some (counter + 1)) })
      else (.done, buf, channel)
  | _, _ => (.error, none, channel)

/-- The end of `receive`: with too many stacked packets the missing ones are taken for lost.
The entry of the counter is the one found before the datagram was stored. -/
def checkStack (channel : UdpChannel) (ip : String) (entry : Bool) (current : UInt8)
    (buf : Option (List UInt8)) : Option Received :=
  (channel.udpStacks ip).bind fun stack =>
    if channel.maxStack < stack.counter.toNat then
      (stack.firstNext (current + 1)).bind fun current =>
        if entry then
          some (.again, buf, { channel with
            udpCounters := Function.update channel.udpCounters ip (some current)
            stackedIp := some ip })
        else none
    else some (.done, buf, channel)

/-- The part of `receive` behind the search of the sender. -/
def store (channel : UdpChannel) (datagram : Datagram) (entry : Bool) (current : UInt8) :
    Option Received :=
  (channel.udpStacks datagram.srcAddr).bind fun stack =>
    let stack := stack.add datagram.counter datagram.payload
    let channel := { channel with
      udpStacks := Function.update channel.udpStacks datagram.srcAddr (some stack)
      stackedIp := some datagram.srcAddr }
    if stack.hasNext current then
      let (buf, channel) := channel.handleStackAt datagram.srcAddr current stack
      if channel.stackedIp.isSome then some (.again, buf, channel)
      else if entry then
        checkStack { channel with
          udpCounters := Function.update channel.udpCounters datagram.srcAddr (some current) }
          datagram.srcAddr entry current buf
      -- there is no entry to write to
      else none
    else checkStack { channel with stackedIp := none } datagram.srcAddr entry current none

/-- A call of `receive`; without result when an entry that is not there is used. -/
def receive (channel : UdpChannel) (datagram : Datagram) : Option Received :=
  match channel.stackedIp with
  | some ip => some (channel.handleStack ip)
  | none =>
      if !channel.ready then some (.error, none, channel)
      else
        match channel.udpCounters datagram.srcAddr with
        | none =>
            store { channel with
              udpCounters := Function.update channel.udpCounters datagram.srcAddr
                (some datagram.counter)
              udpStacks := Function.update channel.udpStacks datagram.srcAddr (some .new) }
              datagram false datagram.counter
        | some counter => store channel datagram true (counter + 1)

/-- The calls of `receive` for a datagram, the non-null buffers and the channel after them. -/
inductive Delivers (datagram : Datagram) : UdpChannel → List (List UInt8) → UdpChannel → Prop where
  | last {channel channel' : UdpChannel} {status : ReceiveStatus} {buf : Option (List UInt8)} :
      channel.receive datagram = some (status, buf, channel') → status ≠ .again →
      Delivers datagram channel buf.toList channel'
  | again {channel next channel' : UdpChannel} {buf : Option (List UInt8)}
      {bufs : List (List UInt8)} :
      channel.receive datagram = some (.again, buf, next) → Delivers datagram next bufs channel' →
      Delivers datagram channel (buf.toList ++ bufs) channel'

/-- The datagrams one after the other. -/
inductive DeliversAll : List Datagram → UdpChannel → List (List UInt8) → UdpChannel → Prop where
  | nil {channel : UdpChannel} : DeliversAll [] channel [] channel
  | cons {datagram : Datagram} {datagrams : List Datagram} {channel next channel' : UdpChannel}
      {bufs bufs' : List (List UInt8)} :
      Delivers datagram channel bufs next → DeliversAll datagrams next bufs' channel' →
      DeliversAll (datagram :: datagrams) channel (bufs ++ bufs') channel'

end UdpChannel

/-! ### What resequencing is for -/

/-- Datagrams with consecutive counters, and the order in which those that
are not lost arrive: the first one first, and none behind more than `maxStack` later ones. -/
structure UdpTraffic (maxStack : Nat) where
  first : UInt8
  payloads : List (List UInt8)
  order : List Nat
  once : order.Nodup
  sent : ∀ index ∈ order, index < payloads.length
  starts : ∀ index, order.head? = some index → index = 0
  window : ∀ index ∈ order,
    ((order.takeWhile (· ≠ index)).filter (index < ·)).length ≤ maxStack

namespace UdpTraffic

variable {maxStack : Nat} (traffic : UdpTraffic maxStack)

def payload (index : Nat) : List UInt8 := traffic.payloads.getD index []

def datagram (srcAddr : String) (index : Nat) : Datagram where
  srcAddr := srcAddr
  counter := traffic.first + .ofNat index
  payload := traffic.payload index

/-- After the first arrivals, some of them were delivered, in order and once each, among
them all those that have no missing datagram before them, and `maxStack` wait at most. -/
def DeliveredAfter (srcAddr : String) (channel : UdpChannel) (arrivals : List Nat) : Prop :=
  ∃ (delivered : List Nat) (channel' : UdpChannel),
    UdpChannel.DeliversAll (arrivals.map (traffic.datagram srcAddr)) channel
      (delivered.map traffic.payload) channel' ∧
    delivered.Pairwise (· < ·) ∧
    (∀ index ∈ delivered, index ∈ arrivals) ∧
    (∀ index, (∀ lower ≤ index, lower ∈ arrivals) → index ∈ delivered) ∧
    arrivals.length ≤ delivered.length + maxStack

/-- The channel survives the traffic of a sender and delivers what it should all along. -/
def Resequenced (srcAddr : String) (channel : UdpChannel) : Prop :=
  ∀ count ≤ traffic.order.length, traffic.DeliveredAfter srcAddr channel (traffic.order.take count)

end UdpTraffic

/-- A channel that received nothing of a sender yet. -/
structure FreshChannel (srcAddr : String) extends UdpChannel where
  unknown : udpCounters srcAddr = none
  idle : stackedIp = none

namespace UdpStack

theorem hasNext_add (stack : UdpStack) (counter : UInt8) (data : List UInt8) :
    (stack.add counter data).hasNext counter = decide (data ≠ []) := by
  simp [add, hasNext]

theorem remove_add_fst (stack : UdpStack) (counter : UInt8) (data : List UInt8) :
    ((stack.add counter data).remove counter).1 = some data := by
  simp [add, remove]

theorem hasNext_remove_add {stack : UdpStack} {counter other : UInt8} (ne : other ≠ counter)
    (data : List UInt8) :
    ((stack.add counter data).remove counter).2.hasNext other = stack.hasNext other := by
  simp [add, remove, hasNext, ne]

end UdpStack

namespace UdpChannel

variable {channel channel' : UdpChannel} {datagram : Datagram}

theorem succ_ne_self (counter : UInt8) : counter + 1 ≠ counter := by
  intro same
  have numbers := congrArg UInt8.toNat same
  rw [UInt8.toNat_add] at numbers
  have low := counter.toNat_lt
  simp at numbers
  omega

/-! ### The first datagram of a sender -/

theorem checkStack_no_entry {ip : String} {current : UInt8} {buf buf' : Option (List UInt8)}
    {status : ReceiveStatus} (checked : channel.checkStack ip false current buf =
      some (status, buf', channel')) : status = .done ∧ buf' = buf := by
  obtain ⟨stack, _, rest⟩ := Option.bind_eq_some_iff.mp checked
  split at rest
  · obtain ⟨next, _, used⟩ := Option.bind_eq_some_iff.mp rest
    rw [if_neg Bool.false_ne_true] at used
    cases used
  · cases rest
    exact ⟨rfl, rfl⟩

/-- The first datagram of a sender is not delivered: its counter is written through the
iterator of no entry when its buffer is to be handed out. -/
theorem receive_first (unknown : channel.udpCounters datagram.srcAddr = none)
    (idle : channel.stackedIp = none) {status : ReceiveStatus} {buf : Option (List UInt8)}
    (received : channel.receive datagram = some (status, buf, channel')) :
    status ≠ .again ∧ buf = none := by
  simp only [receive, idle, unknown] at received
  split at received
  · cases received
    exact ⟨by decide, rfl⟩
  · simp only [store, Function.update_self, Option.bind_some, UdpStack.hasNext_add] at received
    split at received
    · have alone : (UdpStack.new.hasNext (datagram.counter + 1)) = false := rfl
      simp only [handleStackAt, UdpStack.hasNext_remove_add (succ_ne_self _), alone] at received
      simp at received
    · obtain ⟨rfl, rfl⟩ := checkStack_no_entry received
      exact ⟨by decide, rfl⟩

theorem delivers_first (unknown : channel.udpCounters datagram.srcAddr = none)
    (idle : channel.stackedIp = none) {bufs : List (List UInt8)}
    (delivered : Delivers datagram channel bufs channel') : bufs = [] := by
  cases delivered with
  | last received _ => rw [(receive_first unknown idle received).2, Option.toList_none]
  | again received _ => exact absurd rfl (receive_first unknown idle received).1

theorem deliversAll_first (unknown : channel.udpCounters datagram.srcAddr = none)
    (idle : channel.stackedIp = none) {bufs : List (List UInt8)}
    (delivered : DeliversAll [datagram] channel bufs channel') : bufs = [] := by
  cases delivered with
  | cons first rest =>
      cases rest
      rw [delivers_first unknown idle first, List.nil_append]

/-! ### Later datagrams of a sender -/

/-- The stack once a datagram was put in it and handed out. -/
def passed (stack : UdpStack) (datagram : Datagram) : UdpStack :=
  ((stack.add datagram.counter datagram.payload).remove datagram.counter).2

theorem passed_slots (stack : UdpStack) (datagram : Datagram) (other : UInt8) :
    (passed stack datagram).slots other =
      if other = datagram.counter then none else stack.slots other := by
  by_cases here : other = datagram.counter
  · simp [passed, UdpStack.add, UdpStack.remove, here]
  · simp [passed, UdpStack.add, UdpStack.remove, here]

section Known

variable {counter : UInt8} {stack : UdpStack}
  (known : channel.udpCounters datagram.srcAddr = some counter)
  (stacked : channel.udpStacks datagram.srcAddr = some stack)
  (idle : channel.stackedIp = none) (ready : channel.ready = true)
  (next : datagram.counter = counter + 1) (some_payload : datagram.payload ≠ [])
include known stacked idle ready next some_payload

theorem receive_next : channel.receive datagram =
    if stack.hasNext (datagram.counter + 1) then
      some (.again, some datagram.payload, { channel with
        udpStacks := Function.update channel.udpStacks datagram.srcAddr
          (some (passed stack datagram))
        stackedIp := some datagram.srcAddr })
    else
      checkStack { channel with
        udpCounters := Function.update channel.udpCounters datagram.srcAddr (some datagram.counter)
        udpStacks := Function.update channel.udpStacks datagram.srcAddr
          (some (passed stack datagram))
        stackedIp := none }
        datagram.srcAddr true datagram.counter (some datagram.payload) := by
  have here : (stack.add datagram.counter datagram.payload).hasNext datagram.counter = true := by
    rw [UdpStack.hasNext_add, decide_eq_true some_payload]
  have behind := @UdpStack.hasNext_remove_add stack _ _ (succ_ne_self datagram.counter)
    datagram.payload
  simp only [receive, idle, ready, known, ← next, store, stacked, Option.bind_some, here,
    handleStackAt, behind, UdpStack.remove_add_fst, Function.update_idem]
  by_cases follows : stack.hasNext (datagram.counter + 1) = true <;> simp [follows, passed]

/-- A datagram in order, with nothing behind it and few datagrams stacked, is delivered at
once and counted. -/
theorem in_order_delivered (nothing : stack.hasNext (datagram.counter + 1) = false)
    (few : (passed stack datagram).counter.toNat ≤ channel.maxStack) :
    ∃ channel', Delivers datagram channel [datagram.payload] channel' ∧
      channel'.udpCounters datagram.srcAddr = some datagram.counter ∧
      channel'.udpStacks datagram.srcAddr = some (passed stack datagram) ∧
      channel'.stackedIp = none := by
  have received := receive_next known stacked idle ready next some_payload
  rw [if_neg (by rw [nothing]; exact Bool.false_ne_true)] at received
  simp only [checkStack, Function.update_self, Option.bind_some, if_neg (Nat.not_lt.mpr few)]
    at received
  exact ⟨_, .last received (by decide), Function.update_self .., Function.update_self .., rfl⟩

/-- A datagram that fills the gap before a stacked one is delivered, but not counted, and
the stacked one stays where it is. -/
theorem filled_gap_stalls (follows : stack.hasNext (datagram.counter + 1) = true)
    (former : stack.slots counter = none) :
    ∃ channel' stack', Delivers datagram channel [datagram.payload] channel' ∧
      channel'.udpCounters datagram.srcAddr = some counter ∧
      channel'.udpStacks datagram.srcAddr = some stack' ∧
      stack'.hasNext (datagram.counter + 1) = true := by
  have received := receive_next known stacked idle ready next some_payload
  rw [if_pos follows] at received
  have before : counter ≠ datagram.counter := by
    rw [next]
    exact (succ_ne_self counter).symm
  have apart : datagram.counter + 1 ≠ counter := by
    rw [next]
    intro same
    have numbers := congrArg UInt8.toNat same
    simp only [UInt8.toNat_add, UInt8.toNat_ofNat] at numbers
    have low := counter.toNat_lt
    omega
  -- the counter was not moved, so the place looked at is the one before the datagram
  have again : ∀ channel : UdpChannel, channel.stackedIp = some datagram.srcAddr →
      channel.udpCounters datagram.srcAddr = some counter →
      channel.udpStacks datagram.srcAddr = some (passed stack datagram) →
      channel.receive datagram = some (.done, none, { channel with
        udpStacks := Function.update channel.udpStacks datagram.srcAddr
          (some ((passed stack datagram).remove counter).2)
        stackedIp := none }) := by
    intro channel waiting counted held
    have empty : ((passed stack datagram).remove counter).1 = none := by
      simp [UdpStack.remove, passed_slots, before, former]
    have gone : ((passed stack datagram).remove counter).2.hasNext (counter + 1) = false := by
      simp [UdpStack.hasNext, UdpStack.remove, passed_slots, ← next, before.symm]
    simp [receive, waiting, handleStack, counted, held, handleStackAt, empty, gone]
  refine ⟨_, _, .again received (.last (again _ rfl ?_ ?_) (by decide)), known,
    Function.update_self .., ?_⟩
  · exact known
  · exact Function.update_self ..
  have kept : ((passed stack datagram).remove counter).2.slots (datagram.counter + 1) =
      stack.slots (datagram.counter + 1) := by
    simp [UdpStack.remove, passed_slots, apart]
  rw [UdpStack.hasNext, kept]
  exact follows

end Known

end UdpChannel

theorem not_resequenced {srcAddr : String} {channel : FreshChannel srcAddr}
    {traffic : UdpTraffic channel.maxStack} (some_arrival : traffic.order ≠ []) :
    ¬ traffic.Resequenced srcAddr channel.toUdpChannel := by
  intro resequenced
  obtain ⟨index, rest, arrivals⟩ := List.exists_cons_of_ne_nil some_arrival
  have zero : index = 0 := traffic.starts index (by rw [arrivals]; rfl)
  have arrived : traffic.order.take 1 = [0] := by rw [arrivals, zero]; rfl
  obtain ⟨delivered, channel', all, _, _, complete, _⟩ := resequenced 1 (by simp [arrivals])
  rw [arrived] at all complete
  have first : 0 ∈ delivered := complete 0 fun lower low => by
    rw [Nat.le_zero.mp low]
    exact List.mem_singleton_self 0
  have nothing := @UdpChannel.deliversAll_first _ _ (traffic.datagram srcAddr 0)
    channel.unknown channel.idle _ all
  rw [List.map_eq_nil_iff.mp nothing] at first
  cases first

/-- A channel resequences no traffic at all: the first datagram of its sender is not
delivered. -/
theorem resequenced_iff (srcAddr : String) (channel : FreshChannel srcAddr)
    (traffic : UdpTraffic channel.maxStack) :
    traffic.Resequenced srcAddr channel.toUdpChannel ↔ traffic.order = [] := by
  constructor
  · exact fun resequenced => by_contra fun some_arrival => not_resequenced some_arrival resequenced
  · intro none count le
    refine ⟨[], channel.toUdpChannel, ?_, List.Pairwise.nil, ?_, ?_, ?_⟩
    · simp only [none, List.take_nil, List.map_nil]
      exact .nil
    · intro index mem
      cases mem
    · intro index lower
      have zero := lower 0 (Nat.zero_le _)
      rw [none, List.take_nil] at zero
      cases zero
    · simp [none]

def freshChannel : FreshChannel "192.168.0.1" where
  ready := true
  udpCounters _ := none
  udpStacks _ := none
  stackedIp := none
  maxStack := 5
  unknown := rfl
  idle := rfl

/-- A single datagram with the counter 0. -/
def oneDatagram : UdpTraffic freshChannel.maxStack where
  first := 0
  payloads := [[0xAB]]
  order := [0]
  once := List.nodup_singleton 0
  sent := by decide
  starts _ first := (Option.some.inj first).symm
  window := by decide

theorem one_datagram_not_resequenced :
    ¬ ∀ srcAddr (channel : FreshChannel srcAddr) (traffic : UdpTraffic channel.maxStack),
      traffic.Resequenced srcAddr channel.toUdpChannel := by
  intro resequenced
  refine not_resequenced ?_ (resequenced _ freshChannel oneDatagram)
  exact List.cons_ne_nil _ _

end OpenSand
