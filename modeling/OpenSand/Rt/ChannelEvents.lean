import OpenSand.Lib.Run
import OpenSand.Lib.SortedMap
import Mathlib.Data.Finset.Basic

/-!
The events of a channel and the descriptors it waits for (`RtChannelBase`).

Events are added and removed between the turns of the loop of the channel, and `updateEvents`
brings the map of the events, the set given to `select` and its greatest descriptor up to date
at the next turn. The descriptor that breaks the wait is in the set and not in the map, so an
event of that descriptor takes it out of the set when it leaves: `survives_watched_iff` says that the set
is exact in a run when no update does this and each descriptor is one that a set can hold.
-/

namespace OpenSand.Rt

open OpenSand.Run

def FD_SETSIZE : Int := 1024

/-- A set of descriptors, each of which has its bit. -/
structure FdSet where
  members : Finset Int
  bounded : ∀ fd ∈ members, 0 ≤ fd ∧ fd < FD_SETSIZE

namespace FdSet

def zero : FdSet := ⟨∅, by simp⟩

/-- `FD_SET`, undefined for a descriptor without a bit. -/
def set (fds : FdSet) (fd : Int) : Option FdSet :=
  if own : 0 ≤ fd ∧ fd < FD_SETSIZE then
    some ⟨insert fd fds.members, fun other mem => by
      rcases Finset.mem_insert.mp mem with rfl | old
      · exact own
      · exact fds.bounded other old⟩
  else none

/-- `FD_CLR`, undefined for a descriptor without a bit. -/
def clr (fds : FdSet) (fd : Int) : Option FdSet :=
  if 0 ≤ fd ∧ fd < FD_SETSIZE then
    some ⟨fds.members.erase fd, fun other mem => fds.bounded other (Finset.mem_of_mem_erase mem)⟩
  else none

theorem set_eq_some {fds fds' : FdSet} {fd : Int} (done : fds.set fd = some fds') :
    (0 ≤ fd ∧ fd < FD_SETSIZE) ∧ fds'.members = insert fd fds.members := by
  unfold set at done
  split at done
  next own =>
    cases done
    exact ⟨own, rfl⟩
  · cases done

theorem set_isSome (fds : FdSet) {fd : Int} (own : 0 ≤ fd ∧ fd < FD_SETSIZE) :
    ∃ fds', fds.set fd = some fds' := ⟨_, dif_pos own⟩

theorem clr_of_mem {fds : FdSet} {fd : Int} (mem : fd ∈ fds.members) :
    ∃ fds', fds.clr fd = some fds' ∧ fds'.members = fds.members.erase fd :=
  ⟨_, if_pos (fds.bounded fd mem), rfl⟩

end FdSet

structure RtEvent where
  name : String
  fd : Int
deriving DecidableEq

structure RtChannelBase where
  /-- the events that are monitored -/
  events : SortedMap Int RtEvent
  newEvents : List RtEvent
  removedEvents : List Int
  maxInputFd : Int
  inputFdSet : FdSet
  rSelBreak : Int

/-- A call on a channel. -/
inductive EventCall where
  | addEvent (event : RtEvent)
  | removeEvent (id : Int)
  | updateEvents

namespace RtChannelBase

/-- A channel before its initialisation, with the descriptor of its pipe. -/
def new (rSelBreak : Int) : RtChannelBase where
  events := .empty
  newEvents := []
  removedEvents := []
  maxInputFd := -1
  inputFdSet := .zero
  rSelBreak := rSelBreak

variable (s : RtChannelBase)

def addInputFd (fd : Int) : Option RtChannelBase :=
  (s.inputFdSet.set fd).map fun fds => { s with
    maxInputFd := if fd > s.maxInputFd then fd else s.maxInputFd
    inputFdSet := fds }

/-- The part of the initialisation that comes before the first event. -/
def init (rSelBreak : Int) : Option RtChannelBase := (new rSelBreak).addInputFd rSelBreak

/-- An event is refused when another of its descriptor is monitored. -/
def addEvent (event : RtEvent) : Bool × RtChannelBase :=
  if s.events.lookup event.fd ≠ none then (false, s)
  else (true, { s with newEvents := s.newEvents ++ [event] })

def removeEvent (id : Int) : RtChannelBase :=
  { s with removedEvents := s.removedEvents ++ [id] }

def updateMaxFd : RtChannelBase :=
  { s with
    maxInputFd := s.events.entries.foldl (fun greatest event =>
      if event.1 > greatest then event.1 else greatest) 0 }

/-- A new event, in the place of the one of its descriptor. -/
def takeNew (event : RtEvent) : Option RtChannelBase :=
  (s.addInputFd event.fd).map fun s => { s with
    events := (s.events.erase event.fd).insert event.fd event }

/-- The greatest descriptor is sought while the removed event is still in the map. -/
def takeRemoved (id : Int) : Option RtChannelBase :=
  match s.events.lookup id with
  | none => some s
  | some _ => (s.inputFdSet.clr id).map fun fds =>
      let s := { s with inputFdSet := fds }
      let s := if id = s.maxInputFd then s.updateMaxFd else s
      { s with events := s.events.erase id }

def updateEvents : Option RtChannelBase :=
  (run takeNew s s.newEvents).bind fun s =>
    (run takeRemoved { s with newEvents := [] } s.removedEvents).map fun s =>
      { s with removedEvents := [] }

def step : EventCall → Option RtChannelBase
  | .addEvent event => some (s.addEvent event).2
  | .removeEvent id => some (s.removeEvent id)
  | .updateEvents => s.updateEvents

/-! ### What is watched -/

/-- The descriptors of the monitored events. -/
def Registered (fd : Int) : Prop := fd ∈ s.events.keys

/-- The descriptor of an event that is to be monitored. -/
def Pending (fd : Int) : Prop := ∃ event ∈ s.newEvents, event.fd = fd

/-- The break of the wait and the monitored events are watched, they alone, and `select` goes
up to all of them. -/
structure Watched : Prop where
  members : ∀ fd, fd ∈ s.inputFdSet.members ↔ fd = s.rSelBreak ∨ s.Registered fd
  greatest : ∀ fd ∈ s.inputFdSet.members, fd ≤ s.maxInputFd

variable {s}

theorem addInputFd_eq_some {s' : RtChannelBase} {fd : Int} (added : s.addInputFd fd = some s') :
    (0 ≤ fd ∧ fd < FD_SETSIZE) ∧ s'.inputFdSet.members = insert fd s.inputFdSet.members ∧
      s'.maxInputFd = max s.maxInputFd fd ∧ s'.events = s.events ∧
        s'.removedEvents = s.removedEvents ∧ s'.rSelBreak = s.rSelBreak := by
  obtain ⟨fds, done, rfl⟩ := Option.map_eq_some_iff.mp added
  obtain ⟨own, members⟩ := FdSet.set_eq_some done
  refine ⟨own, members, ?_, rfl, rfl, rfl⟩
  change (if fd > s.maxInputFd then fd else s.maxInputFd) = _
  split <;> omega

theorem init_watched {rSelBreak : Int} (ready : init rSelBreak = some s) :
    s.Watched ∧ s.rSelBreak = rSelBreak := by
  obtain ⟨-, members, greatest, events, -, brk⟩ := addInputFd_eq_some ready
  refine ⟨⟨fun fd => ?_, fun fd mem => ?_⟩, brk⟩
  · rw [members, brk, Registered, events]
    simp [new, FdSet.zero, SortedMap.keys, SortedMap.empty]
  · rw [members] at mem
    have own : fd = rSelBreak := by simpa [new, FdSet.zero] using mem
    rw [greatest, own]
    exact le_max_right _ _

/-! ### One event more or less -/

/-- What the events taken so far change. -/
structure Taken (s : RtChannelBase) (taken : List RtEvent) (s' : RtChannelBase) : Prop where
  fits : ∀ event ∈ taken, 0 ≤ event.fd ∧ event.fd < FD_SETSIZE
  members : ∀ fd, fd ∈ s'.inputFdSet.members ↔
    fd ∈ s.inputFdSet.members ∨ ∃ event ∈ taken, event.fd = fd
  registered : ∀ fd, s'.Registered fd ↔ s.Registered fd ∨ ∃ event ∈ taken, event.fd = fd
  greatest : s.maxInputFd ≤ s'.maxInputFd ∧ ∀ event ∈ taken, event.fd ≤ s'.maxInputFd
  kept : s'.removedEvents = s.removedEvents ∧ s'.rSelBreak = s.rSelBreak

theorem takeNew_taken {s' : RtChannelBase} {event : RtEvent} (done : s.takeNew event = some s') :
    s.Taken [event] s' := by
  obtain ⟨mid, added, rfl⟩ := Option.map_eq_some_iff.mp done
  obtain ⟨own, members, greatest, events, kept⟩ := addInputFd_eq_some added
  have fresh : (mid.events.erase event.fd).lookup event.fd = none := by
    rw [SortedMap.lookup_erase, if_pos rfl]
  have lookup := SortedMap.lookup_insert fresh event
  constructor
  · simpa using own
  · intro fd
    rw [members, Finset.mem_insert]
    simp [or_comm, eq_comm]
  · intro fd
    rw [Registered, Registered, SortedMap.mem_keys_iff, lookup, SortedMap.lookup_erase,
      SortedMap.mem_keys_iff, ← events]
    by_cases same : fd = event.fd
    · simp [same]
    · simp [same, Ne.symm same]
  · change s.maxInputFd ≤ mid.maxInputFd ∧ ∀ other ∈ [event], other.fd ≤ mid.maxInputFd
    rw [greatest]
    simp
  · exact kept

theorem takeNew_isSome {event : RtEvent} (own : 0 ≤ event.fd ∧ event.fd < FD_SETSIZE) :
    ∃ s', s.takeNew event = some s' := by
  obtain ⟨fds, done⟩ := s.inputFdSet.set_isSome own
  exact ⟨_, by rw [takeNew, addInputFd, done]; rfl⟩

theorem Taken.nil : s.Taken [] s where
  fits := nofun
  members := by simp
  registered := by simp
  greatest := by simp
  kept := ⟨rfl, rfl⟩

theorem Taken.cons {mid s' : RtChannelBase} {event : RtEvent} {events : List RtEvent}
    (first : s.Taken [event] mid) (rest : mid.Taken events s') : s.Taken (event :: events) s' where
  fits := List.forall_mem_cons.mpr ⟨first.fits event (by simp), rest.fits⟩
  members := fun fd => by rw [rest.members, first.members]; simp [or_assoc]
  registered := fun fd => by rw [rest.registered, first.registered]; simp [or_assoc]
  greatest := by
    have own := first.greatest.2 event (by simp)
    refine ⟨first.greatest.1.trans rest.greatest.1, List.forall_mem_cons.mpr ⟨?_, rest.greatest.2⟩⟩
    exact own.trans rest.greatest.1
  kept := ⟨rest.kept.1.trans first.kept.1, rest.kept.2.trans first.kept.2⟩

theorem run_takeNew {s' : RtChannelBase} {events : List RtEvent}
    (done : run takeNew s events = some s') : s.Taken events s' := by
  induction events generalizing s with
  | nil =>
      cases done
      exact .nil
  | cons event events ih =>
      obtain ⟨mid, first, rest⟩ := Option.bind_eq_some_iff.mp done
      exact (takeNew_taken first).cons (ih rest)

theorem run_takeNew_isSome {events : List RtEvent}
    (fits : ∀ event ∈ events, 0 ≤ event.fd ∧ event.fd < FD_SETSIZE) :
    ∃ s', run takeNew s events = some s' := by
  induction events generalizing s with
  | nil => exact ⟨s, rfl⟩
  | cons event events ih =>
      obtain ⟨own, rest⟩ := List.forall_mem_cons.mp fits
      obtain ⟨mid, first⟩ := takeNew_isSome (s := s) own
      obtain ⟨s', last⟩ := ih rest (s := mid)
      exact ⟨s', by rw [run, first, Option.bind_some, last]⟩

theorem le_greatest {entries : List (Int × RtEvent)} (greatest : Int) :
    greatest ≤ entries.foldl (fun greatest event =>
        if event.1 > greatest then event.1 else greatest) greatest ∧
      ∀ entry ∈ entries, entry.1 ≤ entries.foldl (fun greatest event =>
        if event.1 > greatest then event.1 else greatest) greatest := by
  induction entries generalizing greatest with
  | nil => exact ⟨le_refl greatest, nofun⟩
  | cons first entries ih =>
      obtain ⟨from_next, later⟩ := ih (if first.1 > greatest then first.1 else greatest)
      have next : greatest ≤ (if first.1 > greatest then first.1 else greatest) ∧
          first.1 ≤ (if first.1 > greatest then first.1 else greatest) := by
        split <;> omega
      exact ⟨next.1.trans from_next, List.forall_mem_cons.mpr ⟨next.2.trans from_next, later⟩⟩

/-- The greatest descriptor is at least each one in the map. -/
theorem le_updateMaxFd {fd : Int} (mem : s.Registered fd) : fd ≤ s.updateMaxFd.maxInputFd := by
  obtain ⟨entry, held, rfl⟩ := List.mem_map.mp mem
  exact (le_greatest 0).2 entry held

/-- What the removals so far change. -/
structure Left (s : RtChannelBase) (removed : List Int) (s' : RtChannelBase) : Prop where
  members : ∀ fd, fd ∈ s'.inputFdSet.members ↔
    fd ∈ s.inputFdSet.members ∧ ¬ (fd ∈ removed ∧ s.Registered fd)
  registered : ∀ fd, s'.Registered fd ↔ s.Registered fd ∧ fd ∉ removed
  greatest : s.maxInputFd ≤ s'.maxInputFd
  brk : s'.rSelBreak = s.rSelBreak

theorem Left.of_not_registered {id : Int} (none : ¬ s.Registered id) : s.Left [id] s where
  members := fun fd => by
    refine (and_iff_left ?_).symm
    rintro ⟨own, registered⟩
    exact none (List.mem_singleton.mp own ▸ registered)
  registered := fun fd => by
    refine (and_iff_left_of_imp ?_).symm
    intro registered own
    exact none (List.mem_singleton.mp own ▸ registered)
  greatest := le_refl _
  brk := rfl

/-- The greatest descriptor does not go down: the removed event is still in the map. -/
theorem takeRemoved_left (id : Int) (within : ∀ fd, s.Registered fd → fd ∈ s.inputFdSet.members) :
    ∃ s', s.takeRemoved id = some s' ∧ s.Left [id] s' := by
  cases found : s.events.lookup id with
  | none =>
      refine ⟨s, by rw [takeRemoved, found], .of_not_registered ?_⟩
      rw [Registered, SortedMap.mem_keys_iff, found]
      exact Bool.false_ne_true
  | some event =>
      have registered : s.Registered id := by
        rw [Registered, SortedMap.mem_keys_iff, found]
        rfl
      obtain ⟨fds, cleared, members⟩ := FdSet.clr_of_mem (within id registered)
      have after : ∀ greatest, s.maxInputFd ≤ greatest → s.Left [id]
          { s with inputFdSet := fds, maxInputFd := greatest, events := s.events.erase id } := by
        intro greatest le
        constructor
        · intro fd
          change fd ∈ fds.members ↔ _
          rw [members, Finset.mem_erase, List.mem_singleton]
          constructor
          · exact fun ⟨other, mem⟩ => ⟨mem, fun gone => other gone.1⟩
          · exact fun ⟨mem, kept⟩ => ⟨fun same => kept ⟨same, same ▸ registered⟩, mem⟩
        · intro fd
          change fd ∈ (s.events.erase id).keys ↔ _
          rw [SortedMap.keys_erase, List.mem_filter, List.mem_singleton, decide_eq_true_eq]
          rfl
        · exact le
        · rfl
      by_cases own : id = s.maxInputFd
      · refine ⟨_, ?_, after _ (own ▸ le_updateMaxFd registered)⟩
        rw [takeRemoved, found]
        dsimp only
        rw [cleared, Option.map_some, if_pos own]
        rfl
      · refine ⟨_, ?_, after _ (le_refl _)⟩
        rw [takeRemoved, found]
        dsimp only
        rw [cleared, Option.map_some, if_neg own]

theorem Left.cons {mid s' : RtChannelBase} {id : Int} {removed : List Int}
    (first : s.Left [id] mid) (rest : mid.Left removed s') : s.Left (id :: removed) s' where
  members := fun fd => by
    rw [rest.members, first.members, first.registered]
    simp only [List.mem_cons, List.not_mem_nil, or_false]
    tauto
  registered := fun fd => by
    rw [rest.registered, first.registered]
    simp only [List.mem_cons, List.not_mem_nil, or_false]
    tauto
  greatest := first.greatest.trans rest.greatest
  brk := rest.brk.trans first.brk

theorem Left.within {s' : RtChannelBase} {removed : List Int} (left : s.Left removed s')
    (within : ∀ fd, s.Registered fd → fd ∈ s.inputFdSet.members) :
    ∀ fd, s'.Registered fd → fd ∈ s'.inputFdSet.members := by
  intro fd registered
  obtain ⟨before, kept⟩ := (left.registered fd).mp registered
  exact (left.members fd).mpr ⟨within fd before, fun gone => kept gone.1⟩

theorem run_takeRemoved (removed : List Int)
    (within : ∀ fd, s.Registered fd → fd ∈ s.inputFdSet.members) :
    ∃ s', run takeRemoved s removed = some s' ∧ s.Left removed s' := by
  induction removed generalizing s with
  | nil =>
      refine ⟨s, rfl, ?_⟩
      constructor <;> simp
  | cons id removed ih =>
      obtain ⟨mid, first, left⟩ := takeRemoved_left id within
      obtain ⟨s', rest, left'⟩ := ih (left.within within)
      exact ⟨s', by rw [run, first, Option.bind_some, rest], left.cons left'⟩

/-! ### An update -/

/-- An update that the sets of descriptors can hold. -/
def Holds (s : RtChannelBase) : Prop :=
  ∀ event ∈ s.newEvents, 0 ≤ event.fd ∧ event.fd < FD_SETSIZE

/-- An event of the descriptor that breaks the wait is removed. -/
def Breaks (s : RtChannelBase) : Prop :=
  s.rSelBreak ∈ s.removedEvents ∧ (s.Registered s.rSelBreak ∨ s.Pending s.rSelBreak)

/-- The two loops of an update. -/
theorem updateEvents_eq_some {s' : RtChannelBase} :
    s.updateEvents = some s' ↔ ∃ mid last, run takeNew s s.newEvents = some mid ∧
      run takeRemoved { mid with newEvents := [] } mid.removedEvents = some last ∧
        { last with removedEvents := [] } = s' := by
  simp only [updateEvents, Option.bind_eq_some_iff, Option.map_eq_some_iff]
  constructor
  · rintro ⟨mid, added, last, removed, done⟩
    exact ⟨mid, last, added, removed, done⟩
  · rintro ⟨mid, last, added, removed, done⟩
    exact ⟨mid, added, last, removed, done⟩

/-- The events are among the watched descriptors while the new ones are taken. -/
theorem Watched.within {mid : RtChannelBase} (watched : s.Watched)
    (taken : s.Taken s.newEvents mid) :
    ∀ fd, mid.Registered fd → fd ∈ mid.inputFdSet.members := by
  intro fd registered
  rw [taken.members, watched.members]
  rcases (taken.registered fd).mp registered with old | pending
  · exact .inl (.inr old)
  · exact .inr pending

theorem updateEvents_isSome_iff (watched : s.Watched) :
    (∃ s', s.updateEvents = some s') ↔ s.Holds := by
  constructor
  · rintro ⟨s', updated⟩
    obtain ⟨mid, last, added, -, -⟩ := updateEvents_eq_some.mp updated
    exact (run_takeNew added).fits
  · intro holds
    obtain ⟨mid, added⟩ := run_takeNew_isSome (s := s) holds
    have within := watched.within (run_takeNew added)
    obtain ⟨last, removed, -⟩ := run_takeRemoved (s := { mid with newEvents := [] })
      mid.removedEvents within
    exact ⟨_, updateEvents_eq_some.mpr ⟨mid, last, added, removed, rfl⟩⟩

/-- What an update leaves: the events before it and the new ones, without the removed. -/
structure Updated (s s' : RtChannelBase) : Prop where
  members : ∀ fd, fd ∈ s'.inputFdSet.members ↔
    (fd = s.rSelBreak ∨ s.Registered fd ∨ s.Pending fd) ∧
      ¬ (fd ∈ s.removedEvents ∧ (s.Registered fd ∨ s.Pending fd))
  registered : ∀ fd, s'.Registered fd ↔ (s.Registered fd ∨ s.Pending fd) ∧ fd ∉ s.removedEvents
  greatest : ∀ fd ∈ s'.inputFdSet.members, fd ≤ s'.maxInputFd
  brk : s'.rSelBreak = s.rSelBreak

theorem updateEvents_updated {s' : RtChannelBase} (watched : s.Watched)
    (updated : s.updateEvents = some s') : s.Updated s' := by
  obtain ⟨mid, last, added, removed, rfl⟩ := updateEvents_eq_some.mp updated
  have taken := run_takeNew added
  have within := watched.within taken
  obtain ⟨last', removed', left⟩ := run_takeRemoved (s := { mid with newEvents := [] })
    mid.removedEvents within
  cases removed.symm.trans removed'
  rw [taken.kept.1] at left
  have registered : ∀ fd, mid.Registered fd ↔ s.Registered fd ∨ s.Pending fd := taken.registered
  constructor
  · intro fd
    refine (left.members fd).trans ?_
    change fd ∈ mid.inputFdSet.members ∧ ¬ (fd ∈ s.removedEvents ∧ mid.Registered fd) ↔ _
    rw [taken.members, watched.members, registered, or_assoc]
    rfl
  · intro fd
    refine (left.registered fd).trans ?_
    change mid.Registered fd ∧ fd ∉ s.removedEvents ↔ _
    rw [registered]
  · intro fd mem
    have before := ((left.members fd).mp mem).1
    refine le_trans ?_ left.greatest
    rcases (taken.members fd).mp before with old | ⟨event, new, rfl⟩
    · exact (watched.greatest fd old).trans taken.greatest.1
    · exact taken.greatest.2 event new
  · exact left.brk.trans taken.kept.2

theorem Updated.watched_iff {s' : RtChannelBase} (updated : s.Updated s') :
    s'.Watched ↔ ¬ s.Breaks := by
  constructor
  · rintro watched ⟨removed, event⟩
    have member := (watched.members s.rSelBreak).mpr (.inl updated.brk.symm)
    exact ((updated.members s.rSelBreak).mp member).2 ⟨removed, event⟩
  · intro kept
    refine ⟨fun fd => ?_, updated.greatest⟩
    rw [updated.members, updated.registered, updated.brk]
    constructor
    · rintro ⟨rfl | event, gone⟩
      · exact .inl rfl
      · exact .inr ⟨event, fun removed => gone ⟨removed, event⟩⟩
    · rintro (rfl | ⟨event, removed⟩)
      · exact ⟨.inl rfl, kept⟩
      · exact ⟨.inr event, fun gone => removed gone.1⟩

/-- The condition on a call, at the state before it. -/
def Fits (s : RtChannelBase) : EventCall → Prop
  | .updateEvents => s.Holds ∧ ¬ s.Breaks
  | _ => True

theorem addEvent_watched (watched : s.Watched) (event : RtEvent) : (s.addEvent event).2.Watched := by
  unfold addEvent
  split
  · exact watched
  · exact ⟨watched.members, watched.greatest⟩

/-- A call keeps the set exact when it fits, and only then. -/
theorem step_iff (watched : s.Watched) (call : EventCall) :
    (∃ s', s.step call = some s' ∧ True ∧ s'.Watched) ↔ s.Fits call := by
  cases call with
  | addEvent event => exact iff_of_true ⟨_, rfl, trivial, addEvent_watched watched event⟩ trivial
  | removeEvent id =>
      exact iff_of_true ⟨_, rfl, trivial, watched.members, watched.greatest⟩ trivial
  | updateEvents =>
      change (∃ s', s.updateEvents = some s' ∧ True ∧ s'.Watched) ↔ s.Holds ∧ ¬ s.Breaks
      rw [← updateEvents_isSome_iff watched]
      constructor
      · rintro ⟨s', updated, -, watched'⟩
        exact ⟨⟨s', updated⟩, (updateEvents_updated watched updated).watched_iff.mp watched'⟩
      · rintro ⟨⟨s', updated⟩, kept⟩
        exact ⟨s', updated, trivial,
          (updateEvents_updated watched updated).watched_iff.mpr kept⟩

/-- The set of descriptors is exact in every state of a run exactly when each update finds
descriptors that have their bit, and removes no event of the descriptor that breaks the wait. -/
theorem survives_watched_iff (rSelBreak : Int) (s : RtChannelBase) (calls : List EventCall)
    (ready : init rSelBreak = some s) :
    Survives step Watched (fun _ _ _ => True) s calls ↔ AllTries step Fits s calls :=
  survives_iff_allTries (init_watched ready).1 fun _ call watched => step_iff watched call

/-- A timer and a socket, the first of which leaves again. -/
theorem watched_timer : ∃ s, init 3 = some s ∧ Survives step Watched (fun _ _ _ => True) s
    [.addEvent ⟨"timer", 5⟩, .addEvent ⟨"socket", 6⟩, .removeEvent 5, .updateEvents] := by
  obtain ⟨s, ready⟩ : ∃ s, init 3 = some s := ⟨_, rfl⟩
  refine ⟨s, ready, (survives_watched_iff 3 s _ ready).mpr ?_⟩
  cases ready
  refine ⟨trivial, fun _ taken => ?_⟩
  cases taken
  refine ⟨trivial, fun _ taken => ?_⟩
  cases taken
  refine ⟨trivial, fun _ taken => ?_⟩
  cases taken
  refine ⟨⟨by unfold Holds; decide, ?_⟩, fun _ _ => trivial⟩
  exact fun breaks => absurd breaks.1 (by decide)

/-- An event of the descriptor of the break is taken, and its removal takes the break along. -/
theorem watched_break_fails : ¬ ∀ (rSelBreak : Int) (s : RtChannelBase) (calls : List EventCall),
    init rSelBreak = some s → Survives step Watched (fun _ _ _ => True) s calls := by
  intro exact_sets
  obtain ⟨s, ready⟩ : ∃ s, init 3 = some s := ⟨_, rfl⟩
  have survives := exact_sets 3 s [.addEvent ⟨"file", 3⟩, .removeEvent 3, .updateEvents] ready
  cases ready
  obtain ⟨-, _, added, -, -, _, removed, -, watched, _, updated, -, watched'⟩ := survives
  cases added
  cases removed
  have kept := (updateEvents_updated watched updated).watched_iff.mp watched'
  exact kept ⟨by decide, .inr ⟨⟨"file", 3⟩, by decide, rfl⟩⟩

end RtChannelBase

end OpenSand.Rt
