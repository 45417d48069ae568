import OpenSand.Lib.Dated
import OpenSand.Spot.FileEvents

/-!
What the calls of a `FileSimulator` replay.

A call is a turn over the dated lines of the file: a line with an event is an entry, and a line
without one that starts with a number later than the call ends it as a jump does. So every event
is replayed in its call exactly when the file does not start with an empty line and no line ends
the call of an event behind it (`replays_iff`).
-/

namespace OpenSand

open CharStream Scanf

namespace FileSimulator

/-! ### The lines -/

/-- A line as the loop takes it. -/
def dated (line : List Char) : Dated SimulatedEvent :=
  match eventOf line with
  | some event => .entry event.sfNr.toNat event
  | none => (numberOf line).elim .idle fun sfNr => .jump sfNr.toNat

/-- The lines of a file, cut to the size of the buffer. -/
def linesOf (simuFile : List Char) : List (Dated SimulatedEvent) :=
  (pieces (SIMU_BUFF_LEN - 1) simuFile).map dated

theorem linesOf_eq_cons {simuFile : List Char} (nonempty : simuFile ≠ []) :
    linesOf simuFile = dated (firstPiece (SIMU_BUFF_LEN - 1) simuFile) ::
      linesOf (behindPiece (SIMU_BUFF_LEN - 1) simuFile) := by
  rw [linesOf, pieces_eq_cons room nonempty,
    List.map_cons]
  rfl

/-- What is left behind a line does not start with an empty one. -/
theorem behindPiece_head (size : Nat) (text : List Char) :
    (behindPiece size text).head? ≠ some '\n' := by
  intro feed
  have stops := List.head?_dropWhile_not CharStream.isSpace (text.drop (firstPiece size text).length)
  rw [← skipWhitespace, ← behindPiece, feed] at stops
  cases stops

theorem readLine_cases {simuFile : List Char} (full : simuFile.head? ≠ some '\n') :
    (readLine simuFile = .eof ∧ linesOf simuFile = []) ∨
      ∃ line rest, readLine simuFile = .line line rest ∧
        linesOf simuFile = dated line :: linesOf rest ∧ rest.head? ≠ some '\n' ∧
        rest.length < simuFile.length := by
  unfold readLine
  split
  · exact .inl ⟨rfl, rfl⟩
  · exact absurd rfl full
  next nonempty _ =>
    refine .inr ⟨_, _, rfl, linesOf_eq_cons nonempty, behindPiece_head _ _, ?_⟩
    exact length_behindPiece_lt room nonempty

/-! ### One call -/

/-- The lines that are still to be taken. -/
def Awaits (simulator : FileSimulator) (items : List (Dated SimulatedEvent)) : Prop :=
  if simulator.simuEof then items = []
  else items = dated simulator.simuBuffer :: linesOf simulator.simuFile ∧
    simulator.simuFile.head? ≠ some '\n'

/-- What a line makes of the loop. -/
theorem send_spec (counter sfNr : UInt16) (line : List Char) :
    ∃ selected number, selectEvent line sfNr = (selected, number) ∧
      match dated line with
      | .entry time event => number = event.sfNr ∧ time = event.sfNr.toNat ∧
          send counter selected number =
            if event.sfNr < counter then some [] else if counter < event.sfNr then none
            else some [event.frame]
      | .jump time => number.toNat = time ∧ send counter selected number = some []
      | .idle => number = sfNr ∧ send counter selected number = some [] := by
  rcases selectEvent_cases line with ⟨event, number, selected⟩ | selected
  · refine ⟨some event, event.sfNr, selected sfNr, ?_⟩
    rw [dated, eventOf, selected, number]
    by_cases simulated : BROADCAST_TAL_ID < event.stId.toNat
    · rw [Option.filter_some, if_pos (decide_eq_true simulated)]
      refine ⟨rfl, rfl, ?_⟩
      rw [send, if_neg (Nat.not_le.mpr simulated)]
    · rw [Option.filter_some, if_neg (by simpa using simulated)]
      refine ⟨rfl, ?_⟩
      rw [send, if_pos (Nat.not_lt.mp simulated)]
  · refine ⟨none, (numberOf line).getD sfNr, selected sfNr, ?_⟩
    rw [dated, eventOf, selected, Option.filter_none]
    cases numberOf line with
    | none => exact ⟨rfl, rfl⟩
    | some number => exact ⟨rfl, rfl⟩

section Loop

variable {counter sfNr number : UInt16} {fuel : Nat} {msgs sent : List SimulatedFrame}
variable {simulator : FileSimulator} {selected : Option SimulatedEvent}

/-- The loop takes a line and reads the next one. -/
theorem loop_line {line rest : List Char} (le : ¬ counter < sfNr)
    (select : selectEvent simulator.simuBuffer sfNr = (selected, number))
    (sends : send counter selected number = some sent)
    (read : readLine simulator.simuFile = .line line rest) :
    loop counter (fuel + 1) sfNr msgs simulator =
      loop counter fuel number (msgs ++ sent) ⟨simulator.simuEof, line, rest⟩ := by
  rw [loop, if_neg le, select]
  dsimp only
  rw [sends]
  dsimp only
  rw [read]

/-- The loop takes the last line. -/
theorem loop_eof (le : ¬ counter < sfNr)
    (select : selectEvent simulator.simuBuffer sfNr = (selected, number))
    (sends : send counter selected number = some sent)
    (read : readLine simulator.simuFile = .eof) :
    loop counter (fuel + 1) sfNr msgs simulator =
      some (msgs ++ sent, true, { simulator with simuEof := true }) := by
  rw [loop, if_neg le, select]
  dsimp only
  rw [sends]
  dsimp only
  rw [read]

/-- The loop leaves a line for a later call. -/
theorem loop_break (le : ¬ counter < sfNr)
    (select : selectEvent simulator.simuBuffer sfNr = (selected, number))
    (sends : send counter selected number = none) :
    loop counter (fuel + 1) sfNr msgs simulator = some (msgs, true, simulator) := by
  rw [loop, if_neg le, select]
  dsimp only
  rw [sends]

/-- The frames of a turn over some lines, and what it leaves. -/
def Turns (counter : UInt16) (msgs : List SimulatedFrame) (items : List (Dated SimulatedEvent))
    (out : Option (List SimulatedFrame × Bool × FileSimulator)) : Prop :=
  ∃ simulator, out = some (msgs ++ (Dated.turn counter.toNat items).1.map SimulatedEvent.frame,
    true, simulator) ∧ simulator.Awaits (Dated.turn counter.toNat items).2

/-- The loop of a call takes a turn over the lines. -/
theorem loop_spec (goesOn : simulator.simuEof = false)
    (full : simulator.simuFile.head? ≠ some '\n') (le : ¬ counter < sfNr)
    (enough : simulator.simuFile.length < fuel) :
    Turns counter msgs (dated simulator.simuBuffer :: linesOf simulator.simuFile)
      (loop counter fuel sfNr msgs simulator) := by
  induction fuel generalizing sfNr msgs simulator with
  | zero => exact absurd enough (Nat.not_lt_zero _)
  | succ fuel ih =>
      obtain ⟨selected, number, select, spec⟩ := send_spec counter sfNr simulator.simuBuffer
      have lines := readLine_cases full
      -- the call goes on with the next line
      have next {sent : List SimulatedFrame} (sends : send counter selected number = some sent)
          (low : ¬ counter < number) : Turns counter (msgs ++ sent) (linesOf simulator.simuFile)
            (loop counter (fuel + 1) sfNr msgs simulator) := by
        rcases lines with ⟨read, none⟩ | ⟨line, rest, read, same, full', shorter⟩
        · rw [loop_eof le select sends read, none]
          refine ⟨{ simulator with simuEof := true }, ?_, rfl⟩
          rw [Dated.turn, List.map_nil, List.append_nil]
        · rw [loop_line le select sends read, same]
          apply @ih _ _ ⟨simulator.simuEof, line, rest⟩ goesOn full' low
          exact Nat.lt_of_lt_of_le shorter (Nat.le_of_lt_succ enough)
      cases item : dated simulator.simuBuffer with
      | entry time event =>
          rw [item] at spec
          obtain ⟨rfl, rfl, sends⟩ := spec
          unfold Turns Dated.turn
          simp only [← UInt16.lt_iff_toNat_lt]
          by_cases early : event.sfNr < counter
          · rw [if_pos early] at sends
            rw [if_pos early]
            have skipped := next sends (UInt16.lt_asymm early)
            rwa [List.append_nil] at skipped
          rw [if_neg early] at sends ⊢
          by_cases late : counter < event.sfNr
          · rw [if_pos late] at sends ⊢
            rw [loop_break le select sends]
            refine ⟨simulator, by rw [List.map_nil, List.append_nil], ?_⟩
            rw [Awaits, goesOn, item]
            exact ⟨rfl, full⟩
          · rw [if_neg late] at sends ⊢
            have sent := next sends late
            unfold Turns at sent
            rwa [List.append_assoc] at sent
      | jump time =>
          rw [item] at spec
          obtain ⟨rfl, sends⟩ := spec
          unfold Turns Dated.turn
          simp only [← UInt16.lt_iff_toNat_lt]
          by_cases late : counter < number
          · rw [if_pos late]
            rcases lines with ⟨read, none⟩ | ⟨line, rest, read, same, full', shorter⟩
            · rw [loop_eof le select sends read, none]
              exact ⟨_, rfl, rfl⟩
            · obtain ⟨fuel, rfl⟩ := Nat.exists_eq_add_of_le' (show 1 ≤ fuel by omega)
              rw [loop_line le select sends read, loop, if_pos late, same]
              refine ⟨_, rfl, ?_⟩
              rw [Awaits, goesOn]
              exact ⟨rfl, full'⟩
          · rw [if_neg late]
            have skipped := next sends late
            rwa [List.append_nil] at skipped
      | idle =>
          rw [item] at spec
          obtain ⟨rfl, sends⟩ := spec
          have skipped := next sends le
          rwa [List.append_nil] at skipped

end Loop

/-! ### All the calls -/

/-- A call takes a turn. -/
theorem simulation_spec {simulator : FileSimulator} {items : List (Dated SimulatedEvent)}
    (awaits : simulator.Awaits items) (counter : UInt16) :
    Turns counter [] items (simulator.simulation counter) := by
  unfold Awaits at awaits
  unfold simulation
  cases ended : simulator.simuEof with
  | true =>
      rw [ended, if_pos rfl] at awaits
      rw [if_pos rfl, awaits]
      refine ⟨simulator, rfl, ?_⟩
      rw [Awaits, ended]
      rfl
  | false =>
      rw [ended, if_neg Bool.false_ne_true] at awaits
      rw [if_neg Bool.false_ne_true, awaits.1]
      exact loop_spec ended awaits.2 (UInt16.not_lt_zero) (Nat.lt_succ_self _)

/-- The numbers of a file are 16-bit words. -/
theorem time_le {simuFile : List Char} :
    ∀ item ∈ linesOf simuFile, ∀ time ∈ item.time?, time ≤ 65535 := by
  intro item mem time at_
  obtain ⟨line, -, rfl⟩ := List.mem_map.mp mem
  have word (sfNr : UInt16) : sfNr.toNat ≤ 65535 := Nat.le_of_lt_succ sfNr.toNat_lt
  unfold dated at at_
  split at at_
  next event found =>
    cases at_
    exact word event.sfNr
  · cases number : numberOf line with
    | none =>
        rw [number] at at_
        cases at_
    | some sfNr =>
        rw [number] at at_
        cases at_
        exact word sfNr

/-- The calls are the turns, also when the counter has wrapped. -/
theorem call_spec {simuFile : List Char} (full : simuFile.head? ≠ some '\n') (superFrame : Nat) :
    ∃ simulator, call simuFile superFrame =
        some ((Dated.turn superFrame (Dated.left (linesOf simuFile) superFrame)).1.map
          SimulatedEvent.frame, true, simulator) ∧
      simulator.Awaits (Dated.left (linesOf simuFile) (superFrame + 1)) := by
  induction superFrame with
  | zero =>
      have start : (new simuFile).Awaits (.idle :: linesOf simuFile) := ⟨rfl, full⟩
      exact simulation_spec start 0
  | succ superFrame ih =>
      obtain ⟨simulator, called, awaits⟩ := ih
      rw [call, called, Option.bind_some]
      have turns := simulation_spec awaits (.ofNat (superFrame + 1))
      unfold Turns at turns
      rcases Nat.lt_or_ge (superFrame + 1) (2 ^ 16) with fits | wraps
      · rwa [UInt16.toNat_ofNat_of_lt' fits] at turns
      · have behind : 65535 < superFrame + 1 := by omega
        rw [Dated.left_eq_nil time_le behind] at turns ⊢
        rw [Dated.left_eq_nil time_le (Nat.lt_succ_of_lt behind)]
        exact turns

/-- The calls replay the events of a file, each in its superframe. -/
def Replays (simuFile : List Char) : Prop :=
  ∀ superFrame, ∃ simulator, call simuFile superFrame =
    some (((eventsOf simuFile).filter (·.sfNr.toNat = superFrame)).map SimulatedEvent.frame, true,
      simulator)

theorem entriesAt_linesOf (simuFile : List Char) (superFrame : Nat) :
    Dated.entriesAt (linesOf simuFile) superFrame =
      (eventsOf simuFile).filter (·.sfNr.toNat = superFrame) := by
  unfold Dated.entriesAt linesOf eventsOf
  induction pieces (SIMU_BUFF_LEN - 1) simuFile with
  | nil => rfl
  | cons line lines ih =>
      cases found : eventOf line with
      | some event =>
          have entry : dated line = .entry event.sfNr.toNat event := by rw [dated, found]
          rw [List.map_cons, entry, Dated.entries, List.filterMap_cons_some found,
            List.filter_cons, List.filter_cons]
          split
          · rw [List.map_cons, ih]
          · exact ih
      | none =>
          rw [List.map_cons, List.filterMap_cons_none found, dated, found]
          cases numberOf line with
          | none => exact ih
          | some sfNr => exact ih

/-- The first call skips a word of a file that starts with an empty line, and fails. -/
theorem call_empty {simuFile : List Char} (empty : simuFile.head? = some '\n') :
    ∃ simulator, call simuFile 0 = some ([], false, simulator) := by
  cases simuFile with
  | nil => cases empty
  | cons c simuFile =>
      cases empty
      exact ⟨_, rfl⟩

/-- The events are replayed exactly when the file does not start with an empty line and no event
is behind the call that meets it. -/
theorem replays_iff (simuFile : List Char) :
    Replays simuFile ↔ simuFile.head? ≠ some '\n' ∧ Dated.OnTime 0 (linesOf simuFile) := by
  constructor
  · intro replays
    have full : simuFile.head? ≠ some '\n' := by
      intro empty
      obtain ⟨simulator, called⟩ := call_empty empty
      obtain ⟨simulator', replayed⟩ := replays 0
      rw [called, Option.some_inj] at replayed
      exact Bool.false_ne_true (congrArg (·.2.1) replayed)
    refine ⟨full, Dated.turns_iff.mp fun superFrame => ?_⟩
    obtain ⟨simulator, called, -⟩ := call_spec full superFrame
    obtain ⟨simulator', replayed⟩ := replays superFrame
    rw [called, Option.some_inj] at replayed
    -- the events taken are some of those of the superframe, and as many
    have frames := congrArg List.length (congrArg Prod.fst replayed)
    rw [List.length_map, List.length_map, ← entriesAt_linesOf] at frames
    exact (Dated.turn_sublist _ _).eq_of_length frames
  · rintro ⟨full, onTime⟩ superFrame
    obtain ⟨simulator, called, -⟩ := call_spec full superFrame
    rw [Dated.turns_iff.mpr onTime, entriesAt_linesOf] at called
    exact ⟨simulator, called⟩

/-- Where no line but those of the events starts with a number, the events only have to be in the
order of their superframes. -/
theorem replays_iff_of_quiet {simuFile : List Char} (full : simuFile.head? ≠ some '\n')
    (quiet : ∀ item ∈ linesOf simuFile, ∀ time, item ≠ .jump time) :
    Replays simuFile ↔ (Dated.entries (linesOf simuFile)).Pairwise (·.1 ≤ ·.1) := by
  rw [replays_iff, Dated.onTime_iff_of_quiet quiet]
  constructor
  · intro ⟨_, _, sorted⟩
    exact sorted
  · intro sorted
    exact ⟨full, fun entry _ => Nat.zero_le _, sorted⟩

/-- The events that were written are replayed, each in its superframe, and nothing more is once the
file is read. -/
structure ReplayLaw (lines : List FileLine) : Prop where
  replayed : ∀ superFrame, ∃ simulator, call (fileOf lines) superFrame =
    some (((lines.filterMap FileLine.event?).filter (·.sfNr.toNat = superFrame)).map
      SimulatedEvent.frame, true, simulator)
  exhausted : ∀ simulator : FileSimulator, simulator.simuEof = true → ∀ counter,
    simulator.simulation counter = some ([], true, simulator)

/-- The law holds exactly when the file does not start with an empty line and no event is behind
the call that meets it. -/
theorem replayLaw_iff (lines : List FileLine) :
    ReplayLaw lines ↔ (fileOf lines).head? ≠ some '\n' ∧
      Dated.OnTime 0 (linesOf (fileOf lines)) := by
  rw [← replays_iff, Replays, (eventsOf_fileOf lines).1]
  constructor
  · intro law
    exact law.replayed
  · intro replayed
    refine ⟨replayed, fun simulator ended counter => ?_⟩
    rw [simulation, if_pos ended]

/-- An unrecognised line, and the request of a terminal in superframe 0. -/
def numberedLine : List FileLine :=
  [.other "SF9 FOO".toList (by decide) ⟨rfl, rfl⟩, .event ⟨0, 40, .cr 1 0⟩ (by decide)]

/-- The request is lost: the first call ends at the number of the first line. -/
theorem replayLaw_numberedLine_fails : ¬ ReplayLaw numberedLine := by
  intro law
  obtain ⟨simulator, called⟩ := law.replayed 0
  have lost : (call (fileOf numberedLine) 0).map (·.1) = some [] := rfl
  rw [called] at lost
  cases lost

end FileSimulator

end OpenSand
