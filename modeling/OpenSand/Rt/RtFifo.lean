import OpenSand.Lib.Run

/-!
The queue of messages between the channels of two blocks (`RtFifo`, `MessageEvent`).

A message is in the queue, announced by a signal in a pipe and counted by a semaphore, and the
calls of the producers and of the consumer interleave between these. `delivers_iff` says that
the three agree, and that the consumer gets what the producers were told is pushed, exactly
when no write in the pipe fails: a message whose signal cannot be written stays in the queue.
-/

namespace OpenSand

open OpenSand.Run

/-- Where the consumer is in `MessageEvent::handle`. -/
inductive Handling where
  | no | reading | popping | notifying
deriving DecidableEq

/-- The queue, the calls in progress, and what was pushed and obtained so far. -/
structure RtFifo (Msg : Type*) where
  fifo : List Msg
  maxSize : Nat
  /-- the signals in the pipe -/
  sigPipe : Nat
  fifoSizeSem : Nat
  /-- the calls of `push` that wait for the semaphore, and those behind it -/
  waiting : List Msg
  pushing : List Msg
  handling : Handling
  /-- the messages whose push returned true, and those obtained -/
  pushed : List Msg
  obtained : List Msg

/-- The steps of the calls: the call of a push, its wait of the semaphore and its locked
section, where the signal may not be written; the call of a handling, its read of the pipe, the
locked section of its pop and the end of the pop. -/
inductive RtStep (Msg : Type*) where
  | callPush (message : Msg)
  | wait (caller : Nat)
  | push (caller : Nat) (written : Bool)
  | callHandle
  | checkRead
  | pop
  | notify

namespace RtFifo

variable {Msg : Type*}

def new (maxSize : Nat) : RtFifo Msg where
  fifo := []
  maxSize := maxSize
  sigPipe := 0
  fifoSizeSem := maxSize
  waiting := []
  pushing := []
  handling := .no
  pushed := []
  obtained := []

/-- A step of a call; a step that would block, or that no call can make, is no step. -/
def step (s : RtFifo Msg) : RtStep Msg → Option (RtFifo Msg)
  | .callPush message => some { s with waiting := s.waiting ++ [message] }
  | .wait caller => s.waiting[caller]?.bind fun message =>
      if s.fifoSizeSem = 0 then none
      else some { s with
        fifoSizeSem := s.fifoSizeSem - 1
        waiting := s.waiting.eraseIdx caller
        pushing := s.pushing ++ [message] }
  | .push caller written => s.pushing[caller]?.map fun message =>
      let s := { s with fifo := s.fifo ++ [message], pushing := s.pushing.eraseIdx caller }
      if written then { s with sigPipe := s.sigPipe + 1, pushed := s.pushed ++ [message] } else s
  | .callHandle => if s.handling = .no then some { s with handling := .reading } else none
  | .checkRead =>
      if s.handling = .reading ∧ s.sigPipe ≠ 0 then
        some { s with sigPipe := s.sigPipe - 1, handling := .popping }
      else none
  | .pop =>
      if s.handling = .popping then
        match s.fifo with
        | [] => some { s with handling := .no }
        | message :: fifo => some { s with
            fifo, handling := .notifying, obtained := s.obtained ++ [message] }
      else none
  | .notify =>
      if s.handling = .notifying then
        some { s with fifoSizeSem := s.fifoSizeSem + 1, handling := .no }
      else none

/-! ### The three counts -/

/-- No call is in progress. -/
def Idle (s : RtFifo Msg) : Prop := s.waiting = [] ∧ s.pushing = [] ∧ s.handling = .no

/-- The queue is bounded and holds what was pushed and not obtained yet, a message is there for
each handling that has read a signal, and the counts agree between the calls. -/
structure Delivers (s : RtFifo Msg) : Prop where
  bounded : s.fifo.length ≤ s.maxSize
  exactlyOnce : s.obtained ++ s.fifo = s.pushed
  popping : s.handling = .popping → s.fifo ≠ []
  agree : s.Idle → s.sigPipe = s.fifo.length ∧ s.fifoSizeSem = s.maxSize - s.fifo.length

/-- The signal of a push is written. -/
def Signals (_ : RtFifo Msg) : RtStep Msg → Prop
  | .push _ written => written = true
  | _ => True

/-- Each place is free, given to a push, taken by a message or about to be given back. -/
def PlacesCounted (s : RtFifo Msg) : Prop :=
  s.fifoSizeSem + s.pushing.length + s.fifo.length +
    (if s.handling = .notifying then 1 else 0) = s.maxSize

/-- Each message is announced by a signal in the pipe or by the one just read. -/
def SignalsCounted (s : RtFifo Msg) : Prop :=
  s.sigPipe + (if s.handling = .popping then 1 else 0) = s.fifo.length

variable {s s' : RtFifo Msg} {rtStep : RtStep Msg}

theorem length_eraseIdx_of_getElem? {messages : List Msg} {caller : Nat} {message : Msg}
    (found : messages[caller]? = some message) :
    (messages.eraseIdx caller).length + 1 = messages.length := by
  obtain ⟨inside, -⟩ := List.getElem?_eq_some_iff.mp found
  rw [List.length_eraseIdx_of_lt inside]
  omega

/-- A step whose signal is written keeps the counts and what was delivered. -/
theorem delivers_step (places : s.PlacesCounted) (signals : s.SignalsCounted)
    (exactlyOnce : s.obtained ++ s.fifo = s.pushed) (taken : s.step rtStep = some s')
    (signalled : s.Signals rtStep) :
    s'.PlacesCounted ∧ s'.SignalsCounted ∧ s'.obtained ++ s'.fifo = s'.pushed := by
  unfold PlacesCounted at places ⊢
  unfold SignalsCounted at signals ⊢
  cases rtStep with
  | callPush message =>
      cases taken
      exact ⟨places, signals, exactlyOnce⟩
  | wait caller =>
      obtain ⟨message, -, admitted⟩ := Option.bind_eq_some_iff.mp taken
      split at admitted
      · cases admitted
      next free =>
        cases admitted
        refine ⟨?_, signals, exactlyOnce⟩
        simp only [List.length_append, List.length_singleton]
        omega
  | push caller written =>
      obtain ⟨message, found, rfl⟩ := Option.map_eq_some_iff.mp taken
      have shorter := length_eraseIdx_of_getElem? found
      rw [signalled]
      simp only [if_true, List.length_append, List.length_singleton]
      refine ⟨by omega, by omega, ?_⟩
      rw [← exactlyOnce, List.append_assoc]
  | callHandle =>
      rw [step] at taken
      split at taken
      next idle =>
        cases taken
        simp [idle] at places signals ⊢
        exact ⟨places, signals, exactlyOnce⟩
      · cases taken
  | checkRead =>
      rw [step] at taken
      split at taken
      next reads =>
        cases taken
        simp [reads.1] at places signals ⊢
        have := reads.2
        exact ⟨places, by omega, exactlyOnce⟩
      · cases taken
  | pop =>
      rw [step] at taken
      split at taken
      next popping =>
        simp only [popping, if_true] at places signals
        cases queue : s.fifo with
        | nil =>
            rw [queue] at signals
            simp at signals
        | cons message fifo =>
            rw [queue] at taken places signals exactlyOnce
            cases taken
            simp only [List.length_cons] at places signals
            simp only [if_true]
            refine ⟨?_, ?_, ?_⟩
            · simp at places
              omega
            · simp
              omega
            · rw [← exactlyOnce, List.append_assoc]
              rfl
      · cases taken
  | notify =>
      rw [step] at taken
      split at taken
      next notifying =>
        cases taken
        simp [notifying] at places signals ⊢
        exact ⟨by omega, signals, exactlyOnce⟩
      · cases taken

/-- The counts give the rest. -/
theorem delivers_of_counted (places : s.PlacesCounted) (signals : s.SignalsCounted)
    (exactlyOnce : s.obtained ++ s.fifo = s.pushed) : s.Delivers := by
  unfold PlacesCounted at places
  unfold SignalsCounted at signals
  refine ⟨by omega, exactlyOnce, ?_, ?_⟩
  · intro popping empty
    rw [popping, empty] at signals
    simp at signals
  · rintro ⟨-, pushing, handling⟩
    rw [pushing, handling] at places
    rw [handling] at signals
    simp at places signals
    exact ⟨signals, by omega⟩

/-- A push whose signal is not written leaves its message in the queue. -/
theorem exactlyOnce_unsignalled (exactlyOnce : s.obtained ++ s.fifo = s.pushed)
    (taken : s.step rtStep = some s') (unsignalled : ¬ s.Signals rtStep) :
    s'.obtained ++ s'.fifo ≠ s'.pushed := by
  cases rtStep with
  | push caller written =>
      obtain ⟨message, -, rfl⟩ := Option.map_eq_some_iff.mp taken
      have failed : written = false := Bool.eq_false_iff.mpr unsignalled
      rw [failed]
      simp only [Bool.false_eq_true, if_false]
      rw [← List.append_assoc, exactlyOnce]
      intro same
      have := congrArg List.length same
      simp at this
  | _ => exact absurd trivial unsignalled

/-- **Delivery.** Along any interleaving of the calls, the messages are delivered exactly once
and the three counts agree exactly when every signal is written. -/
theorem delivers_iff (maxSize : Nat) (steps : List (RtStep Msg)) :
    AllStates step Delivers (new maxSize) steps ↔ AllSteps step Signals (new maxSize) steps := by
  have start : (new maxSize : RtFifo Msg).PlacesCounted ∧
      (new maxSize : RtFifo Msg).SignalsCounted ∧
      (new maxSize : RtFifo Msg).obtained ++ (new maxSize : RtFifo Msg).fifo =
        (new maxSize : RtFifo Msg).pushed := ⟨rfl, rfl, rfl⟩
  have exact_step : ∀ (s : RtFifo Msg) rtStep s', s.Delivers ∧ s.PlacesCounted ∧ s.SignalsCounted →
      s.step rtStep = some s' →
      ((s'.Delivers ∧ s'.PlacesCounted ∧ s'.SignalsCounted) ↔ s.Signals rtStep) := by
    rintro s rtStep s' ⟨delivers, places, signals⟩ taken
    constructor
    · rintro ⟨delivers', -, -⟩
      by_contra unsignalled
      exact exactlyOnce_unsignalled delivers.exactlyOnce taken unsignalled delivers'.exactlyOnce
    · intro signalled
      obtain ⟨places', signals', exactlyOnce'⟩ :=
        delivers_step places signals delivers.exactlyOnce taken signalled
      exact ⟨delivers_of_counted places' signals' exactlyOnce', places', signals'⟩
  rw [← allStates_iff_allSteps
    ⟨delivers_of_counted start.1 start.2.1 start.2.2, start.1, start.2.1⟩ exact_step]
  constructor
  · intro states
    refine states.with_invariant ⟨start.1, start.2.1⟩ ?_
    rintro s rtStep s' ⟨places, signals⟩ delivers delivers' taken
    have signalled : s.Signals rtStep := by
      by_contra unsignalled
      exact exactlyOnce_unsignalled delivers.exactlyOnce taken unsignalled delivers'.exactlyOnce
    obtain ⟨places', signals', -⟩ :=
      delivers_step places signals delivers.exactlyOnce taken signalled
    exact ⟨places', signals'⟩
  · exact fun states => states.mono fun _ both => both.1

/-- A push whose signal is not written, a push that succeeds, and one handling. -/
def failedSignal : List (RtStep Nat) :=
  [.callPush 1, .wait 0, .push 0 false, .callPush 2, .wait 0, .push 0 true, .callHandle, .checkRead,
    .pop, .notify]

/-- The consumer gets the message whose push failed, and the other one is left. -/
theorem failedSignal_not_delivered :
    ¬ AllStates step Delivers (new 3) failedSignal ∧
      (run step (new 3) failedSignal).map (fun s => (s.obtained, s.pushed, s.fifo, s.sigPipe)) =
        some ([1], [2], [2], 0) := by
  refine ⟨?_, by decide +kernel⟩
  intro states
  have waited := (states.2 _ rfl).2 _ rfl
  have failed : ∀ s : RtFifo Nat, ¬ s.Signals (.push 0 false) := fun _ => Bool.false_ne_true
  exact exactlyOnce_unsignalled waited.head.exactlyOnce (by rfl) (failed _)
    (waited.2 _ rfl).head.exactlyOnce

end RtFifo

end OpenSand
