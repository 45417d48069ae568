import OpenSand.Spot.FileSimulator

/-!
The events in a file of simulated requests.

The three patterns read back the lines that are written along them (`eventOf_text`), so the events
of a file made of such lines and of unrecognised ones are those that were written
(`eventsOf_textOf`).
-/

namespace OpenSand

open CharStream Scanf

namespace FileSimulator

/-! ### The lines -/

/-- The event of a simulated terminal on a line. -/
def eventOf (line : List Char) : Option SimulatedEvent :=
  (selectEvent line 0).1.filter fun event => BROADCAST_TAL_ID < event.stId.toNat

/-- The superframe number at the start of a line. -/
def numberOf (line : List Char) : Option UInt16 :=
  (scan (directives "SF%hu".toList) (cString line)).head?.map .ofNat

/-- The events on the lines of a file, cut to the size of the buffer. -/
def eventsOf (simuFile : List Char) : List SimulatedEvent :=
  (pieces (SIMU_BUFF_LEN - 1) simuFile).filterMap eventOf

/-- The buffer has room for a line. -/
theorem room : 0 < SIMU_BUFF_LEN - 1 := Nat.succ_pos _

/-- The three patterns start with the same number. -/
theorem scan_head (format : List Directive) (text : List Char) :
    (scan (.literal 'S' :: .literal 'F' :: .unsigned 16 :: format) text).head? =
      (scan (directives "SF%hu".toList) text).head? := by
  change _ = (scan [.literal 'S', .literal 'F', .unsigned 16] text).head?
  rcases text with - | ⟨c, - | ⟨c', text⟩⟩
  · rfl
  · simp only [scan]
  · simp only [scan]
    split
    · split
      · cases numeral text <;> rfl
      · rfl
    · rfl

/-- A line has an event with the number at its start, or leaves that number. -/
theorem selectEvent_cases (line : List Char) :
    (∃ event, numberOf line = some event.sfNr ∧
      ∀ sfNr, selectEvent line sfNr = (some event, event.sfNr)) ∨
    ∀ sfNr, selectEvent line sfNr = (none, (numberOf line).getD sfNr) := by
  have cr : (scan crFormat (cString line)).head? = _ := scan_head _ (cString line)
  have logon : (scan logonFormat (cString line)).head? = _ := scan_head _ (cString line)
  have logoff : (scan logoffFormat (cString line)).head? = _ := scan_head _ (cString line)
  unfold selectEvent numberOf
  dsimp only
  generalize (scan (directives "SF%hu".toList) (cString line)).head? = first at cr logon logoff ⊢
  generalize scan crFormat (cString line) = cr at *
  generalize scan logonFormat (cString line) = logon at *
  generalize scan logoffFormat (cString line) = logoff at *
  cases first with
  | none =>
      rw [List.head?_eq_none_iff] at cr logon logoff
      subst cr logon logoff
      exact .inr fun sfNr => rfl
  | some number =>
      simp only [stored, cr, logon, logoff, Option.map_some, Option.getD_some]
      split
      · exact .inl ⟨_, rfl, fun _ => rfl⟩
      split
      · exact .inl ⟨_, rfl, fun _ => rfl⟩
      split
      · exact .inl ⟨_, rfl, fun _ => rfl⟩
      · exact .inr fun _ => rfl

/-! ### The text of an event -/

/-- The line of an event. -/
def textOf (event : SimulatedEvent) : List Char :=
  match event.request with
  | .cr stRequest crType => print crFormat
      [event.sfNr.toNat, event.stId.toNat, stRequest.toNat, crType.toNat]
  | .logon stRt stRbdc stVbdc => print logonFormat
      [event.sfNr.toNat, event.stId.toNat, stRt.toNat, stRbdc.toNat, stVbdc.toNat]
  | .logoff => print logoffFormat [event.sfNr.toNat, event.stId.toNat]

/-- A scan goes on behind the number that starts a line. -/
theorem scan_number (format : List Directive) (sfNr : UInt16) {rest : List Char}
    (stop : ∀ c ∈ rest.head?, c.isDigit = false) :
    scan (.literal 'S' :: .literal 'F' :: .unsigned 16 :: format)
        ('S' :: 'F' :: (Nat.toDigits 10 sfNr.toNat ++ rest)) = sfNr.toNat :: scan format rest := by
  rw [scan, if_pos rfl, scan, if_pos rfl, scan, numeral_toDigits _ stop]
  dsimp only
  rw [storedIn_of_lt (by omega) sfNr.toNat_lt]

theorem selectEvent_textOf (event : SimulatedEvent) (sfNr : UInt16)
    (same : cString (textOf event) = textOf event) :
    selectEvent (textOf event) sfNr = (some event, event.sfNr) := by
  obtain ⟨number, stId, request⟩ := event
  cases request with
  | cr stRequest crType =>
      have read : scan crFormat (textOf ⟨number, stId, .cr stRequest crType⟩) =
          [number.toNat, stId.toNat, stRequest.toNat, crType.toNat] := by
        apply scan_print rfl
        exact ⟨number.toNat_lt, stId.toNat_lt, stRequest.toNat_lt, crType.toNat_lt, rfl⟩
      rw [selectEvent]
      dsimp only
      rw [same, read]
      simp [stored]
  | logon stRt stRbdc stVbdc =>
      have other : scan crFormat (textOf ⟨number, stId, .logon stRt stRbdc stVbdc⟩) =
          [number.toNat] :=
        scan_number _ number (separator_stops rfl _)
      have read : scan logonFormat (textOf ⟨number, stId, .logon stRt stRbdc stVbdc⟩) =
          [number.toNat, stId.toNat, stRt.toNat, stRbdc.toNat, stVbdc.toNat] := by
        apply scan_print rfl
        exact ⟨number.toNat_lt, stId.toNat_lt, stRt.toNat_lt, stRbdc.toNat_lt, stVbdc.toNat_lt, rfl⟩
      rw [selectEvent]
      dsimp only
      rw [same, other, read]
      simp [stored]
  | logoff =>
      have other : scan crFormat (textOf ⟨number, stId, .logoff⟩) = [number.toNat] :=
        scan_number _ number (separator_stops rfl _)
      have other' : scan logonFormat (textOf ⟨number, stId, .logoff⟩) = [number.toNat] :=
        scan_number _ number (separator_stops rfl _)
      have read : scan logoffFormat (textOf ⟨number, stId, .logoff⟩) =
          [number.toNat, stId.toNat] := by
        apply scan_print rfl
        exact ⟨number.toNat_lt, stId.toNat_lt, rfl⟩
      rw [selectEvent]
      dsimp only
      rw [same, other, other', read]
      simp [stored]

/-- The text of an event is printed along one of the patterns. -/
theorem exists_print (event : SimulatedEvent) :
    ∃ format ∈ [crFormat, logonFormat, logoffFormat], ∃ values,
      Fits format values ∧ textOf event = print format values := by
  obtain ⟨number, stId, request⟩ := event
  cases request with
  | cr stRequest crType =>
      refine ⟨crFormat, List.mem_cons_self, _, ?_, rfl⟩
      exact ⟨number.toNat_lt, stId.toNat_lt, stRequest.toNat_lt, crType.toNat_lt, rfl⟩
  | logon stRt stRbdc stVbdc =>
      refine ⟨logonFormat, List.mem_cons_of_mem _ List.mem_cons_self, _, ?_, rfl⟩
      exact ⟨number.toNat_lt, stId.toNat_lt, stRt.toNat_lt, stRbdc.toNat_lt, stVbdc.toNat_lt, rfl⟩
  | logoff =>
      refine ⟨logoffFormat, by simp, _, ?_, rfl⟩
      exact ⟨number.toNat_lt, stId.toNat_lt, rfl⟩

/-- The text of an event has no character that ends a line or a string. -/
theorem notMem_textOf {c : Char} (ends : c = '\n' ∨ c = '\x00') (event : SimulatedEvent) :
    c ∉ textOf event := by
  obtain ⟨format, mem, values, -, printed⟩ := exists_print event
  rw [printed]
  intro inside
  have plain : ∀ format ∈ [crFormat, logonFormat, logoffFormat],
      c ≠ ' ' ∧ .literal c ∉ format ∧ c.isDigit = false := by
    rcases ends with rfl | rfl
    · decide
    · decide
  obtain ⟨blank, literal, digit⟩ := plain format mem
  rcases mem_print inside with same | same | same
  · exact blank same
  · exact literal same
  · rw [digit] at same
    cases same

theorem length_textOf_le (event : SimulatedEvent) :
    (textOf event).length ≤ SIMU_BUFF_LEN - 1 := by
  obtain ⟨format, mem, values, fits, printed⟩ := exists_print event
  have narrow : ∀ format ∈ [crFormat, logonFormat, logoffFormat],
      (format.map Directive.width).sum ≤ SIMU_BUFF_LEN - 1 := by
    decide
  rw [printed]
  exact (length_print_le fits).trans (narrow format mem)

theorem textOf_eq_cons (event : SimulatedEvent) : ∃ text, textOf event = 'S' :: text := by
  obtain ⟨number, stId, request⟩ := event
  cases request <;> exact ⟨_, rfl⟩

/-- The events of a line are read back. -/
theorem eventsOf_textOf {event : SimulatedEvent}
    (simulated : BROADCAST_TAL_ID < event.stId.toNat) :
    eventsOf (textOf event) = [event] ∧ eventsOf (skipWhitespace (textOf event)) = [event] := by
  have same : cString (textOf event) = textOf event := by
    apply List.takeWhile_eq_self_iff.mpr
    intro c mem
    have other : c ≠ '\x00' := by
      rintro rfl
      exact notMem_textOf (.inr rfl) event mem
    exact decide_eq_true other
  have selected := selectEvent_textOf event 0 same
  obtain ⟨text, starts⟩ := textOf_eq_cons event
  have nonempty : textOf event ≠ [] := starts ▸ List.cons_ne_nil _ _
  have skip : skipWhitespace (textOf event) = textOf event := by
    rw [starts]
    rfl
  have one : pieces (SIMU_BUFF_LEN - 1) (textOf event) = [textOf event] :=
    pieces_of_short room (notMem_textOf (.inl rfl) event) nonempty
      (length_textOf_le event)
  have found : eventOf (textOf event) = some event := by
    rw [eventOf, selected, Option.filter_some, if_pos (decide_eq_true simulated)]
  rw [skip, and_self, eventsOf, one, List.filterMap_cons_some found]
  rfl

/-! ### Whole files -/

/-- A line of a file: the text of an event of a simulated terminal, or one that has no event. -/
inductive FileLine where
  | event (written : SimulatedEvent) (simulated : BROADCAST_TAL_ID < written.stId.toNat)
  | other (text : List Char) (whole : '\n' ∉ text)
      (unrecognised : eventsOf text = [] ∧ eventsOf (skipWhitespace text) = [])

def FileLine.text : FileLine → List Char
  | .event written _ => textOf written
  | .other text _ _ => text

def FileLine.event? : FileLine → Option SimulatedEvent
  | .event written _ => some written
  | .other _ _ _ => none

theorem FileLine.notMem_text (line : FileLine) : '\n' ∉ line.text := by
  cases line with
  | event written simulated => exact notMem_textOf (.inl rfl) written
  | other text whole unrecognised => exact whole

theorem FileLine.eventsOf_text (line : FileLine) :
    eventsOf line.text = line.event?.toList ∧
      eventsOf (skipWhitespace line.text) = line.event?.toList := by
  cases line with
  | event written simulated => exact eventsOf_textOf simulated
  | other text whole unrecognised => exact unrecognised

/-- The events of a line of a text, and those behind it. -/
theorem eventsOf_append_cons {line : List Char} (whole : '\n' ∉ line) (rest : List Char) :
    eventsOf (line ++ '\n' :: rest) = eventsOf line ++ eventsOf (skipWhitespace rest) ∧
      eventsOf (skipWhitespace (line ++ '\n' :: rest)) =
        eventsOf (skipWhitespace line) ++ eventsOf (skipWhitespace rest) := by
  have split : ∀ line : List Char, '\n' ∉ line →
      eventsOf (line ++ '\n' :: rest) = eventsOf line ++ eventsOf (skipWhitespace rest) := by
    intro line whole
    by_cases empty : line = []
    · subst empty
      have blank : eventOf (firstPiece (SIMU_BUFF_LEN - 1) ('\n' :: rest)) = none := rfl
      rw [List.nil_append, eventsOf, pieces_eq_cons room (List.cons_ne_nil _ _),
        List.filterMap_cons_none blank]
      rfl
    · rw [eventsOf, pieces_append_cons room whole empty, List.filterMap_append]
      rfl
  refine ⟨split line whole, ?_⟩
  have skipped : skipWhitespace (line ++ '\n' :: rest) =
      if skipWhitespace line = [] then skipWhitespace rest
      else skipWhitespace line ++ '\n' :: rest := by
    rw [skipWhitespace, List.dropWhile_append]
    change (if (skipWhitespace line).isEmpty then skipWhitespace rest
      else skipWhitespace line ++ '\n' :: rest) = _
    simp only [List.isEmpty_iff]
  rw [skipped]
  split
  next blank =>
    rw [blank]
    rfl
  next text =>
    apply split
    intro mem
    exact whole ((List.dropWhile_sublist CharStream.isSpace).mem mem)

/-- The text of some lines. -/
def fileOf (lines : List FileLine) : List Char := ['\n'].intercalate (lines.map FileLine.text)

/-- The events of a file are those of its lines. -/
theorem eventsOf_fileOf (lines : List FileLine) :
    eventsOf (fileOf lines) = lines.filterMap FileLine.event? ∧
      eventsOf (skipWhitespace (fileOf lines)) = lines.filterMap FileLine.event? := by
  induction lines with
  | nil => exact ⟨rfl, rfl⟩
  | cons line lines ih =>
      cases lines with
      | nil =>
          rw [fileOf, List.map_singleton, List.intercalate_singleton, List.filterMap_cons,
            line.eventsOf_text.1, line.eventsOf_text.2]
          cases line.event? <;> exact ⟨rfl, rfl⟩
      | cons line' lines =>
          have joined : fileOf (line :: line' :: lines) =
              line.text ++ '\n' :: fileOf (line' :: lines) := by
            rw [fileOf, List.map_cons, List.map_cons, List.intercalate_cons_cons,
              List.append_assoc]
            rfl
          obtain ⟨first, skipped⟩ := eventsOf_append_cons line.notMem_text (fileOf (line' :: lines))
          rw [joined, first, skipped, line.eventsOf_text.1, line.eventsOf_text.2, ih.2, and_self]
          cases seen : line.event? with
          | none =>
              rw [List.filterMap_cons_none seen]
              rfl
          | some event =>
              rw [List.filterMap_cons_some seen]
              rfl

end FileSimulator

end OpenSand
