import OpenSand.Lib.Lines
import Mathlib.Data.List.Induction
import Mathlib.Algebra.GroupWithZero.Nat
import Mathlib.Algebra.Group.Nat.Defs

/-!
The messages of the PEP and of the SVNO (`NccPepInterface::parsePepMessage`,
`NccSvnoInterface::parseSvnoMessage`), whatever a line of them holds.

A message has a request on each line, all of one type. The lines are read into a buffer of 64
characters, the count of the requests is one of 32 bits, and a line that cannot be parsed or
whose request has another type is skipped. `accepted_iff` says which messages are stored as they
should be.
-/

namespace OpenSand.NccInterface

/-- The characters of a line and its end. -/
def BUFFER_SIZE : Nat := 64

/-- A message that is being parsed: the requests that are stored, each with the number of its line,
their count and their type, and the last request, be it stored or not. -/
structure Parsing (ρ τ : Type) where
  line : Nat
  accepted : List (Nat × ρ)
  nbCmds : UInt32
  allCmdsType : Option τ
  last : Option ρ

variable {ρ τ : Type} [DecidableEq τ]

def Parsing.start : Parsing ρ τ := ⟨0, [], 0, none, none⟩

/-- A line of a message. -/
def Parsing.command (parseCommand : List Char → Option ρ) (getType : ρ → τ)
    (parsing : Parsing ρ τ) (cmd : List Char) : Parsing ρ τ :=
  match parseCommand cmd with
  | none => { parsing with line := parsing.line + 1 }
  | some request =>
      if parsing.nbCmds = 0 then
        ⟨parsing.line + 1, parsing.accepted ++ [(parsing.line, request)], parsing.nbCmds + 1,
          some (getType request), some request⟩
      else if some (getType request) ≠ parsing.allCmdsType then
        { parsing with line := parsing.line + 1, last := some request }
      else
        ⟨parsing.line + 1, parsing.accepted ++ [(parsing.line, request)], parsing.nbCmds + 1,
          parsing.allCmdsType, some request⟩

def parseMessage (parseCommand : List Char → Option ρ) (getType : ρ → τ) (message : List Char) :
    Parsing ρ τ :=
  whileGetline BUFFER_SIZE (Parsing.command parseCommand getType) (message.length + 2)
    ⟨message, false⟩ .start

/-! ### What should be stored -/

section Expected

variable (wellFormed : List Char → Option ρ) (getType : ρ → τ)

/-- The requests of the well-formed lines, with their numbers. -/
def requests (lines : List (List Char)) : List (Nat × ρ) :=
  lines.zipIdx.filterMap fun (line, number) => (wellFormed line).map (number, ·)

/-- Those of the type of the first one. -/
def expected (lines : List (List Char)) : List (Nat × ρ) :=
  (requests wellFormed lines).filter fun entry =>
    (requests wellFormed lines).head?.map (getType ·.2) = some (getType entry.2)

/-- The request of a line that should be stored after those of the lines before it. -/
def wanted (before : List (List Char)) (line : List Char) : Option ρ :=
  (wellFormed line).filter fun request =>
    ∀ entry ∈ (expected wellFormed getType before).head?, getType entry.2 = getType request

/-- The lines are short enough for the buffer. -/
def Short (lines : List (List Char)) : Prop := ∀ line ∈ lines, line.length < BUFFER_SIZE

instance (lines : List (List Char)) : Decidable (Short lines) :=
  inferInstanceAs (Decidable (∀ line ∈ lines, _))

/-- No line before a line to store is too long, and the lines that are parsed and not to be stored,
before the first that is too long, come with the count not at 0 and another type than the
requests stored before. -/
structure Clear (parseCommand : List Char → Option ρ) (before : List (List Char))
    (line : List Char) : Prop where
  reached : (wanted wellFormed getType before line).isSome → Short before
  refused : ∀ request, parseCommand line = some request →
    wanted wellFormed getType before line = none → Short (before ++ [line]) →
      (expected wellFormed getType before).length % 2 ^ 32 ≠ 0 ∧
        ∀ entry ∈ (expected wellFormed getType before).head?, getType entry.2 ≠ getType request

end Expected

variable {wellFormed parseCommand : List Char → Option ρ} {getType : ρ → τ}
  {lines : List (List Char)} {line : List Char}

/-! ### One line more -/

theorem requests_concat (lines : List (List Char)) (line : List Char) :
    requests wellFormed (lines ++ [line]) =
      requests wellFormed lines ++ ((wellFormed line).map (lines.length, ·)).toList := by
  rw [requests, requests, List.zipIdx_append, List.filterMap_append]
  cases parsed : wellFormed line with
  | none => simp [parsed]
  | some request => simp [parsed]

theorem head?_expected (lines : List (List Char)) :
    (expected wellFormed getType lines).head? = (requests wellFormed lines).head? := by
  rw [expected]
  cases requests wellFormed lines with
  | nil => rfl
  | cons first others => simp

theorem expected_concat (lines : List (List Char)) (line : List Char) :
    expected wellFormed getType (lines ++ [line]) = expected wellFormed getType lines ++
      ((wanted wellFormed getType lines line).map (lines.length, ·)).toList := by
  rw [wanted, head?_expected, expected, expected, requests_concat]
  cases requests wellFormed lines with
  | nil =>
      cases parsed : wellFormed line with
      | none => rfl
      | some request => simp [Option.filter]
  | cons first others =>
      cases parsed : wellFormed line with
      | none => simp
      | some request =>
          by_cases same : getType first.2 = getType request <;>
            simp [same, Option.filter]

/-- The requests to store are those of earlier lines. -/
theorem lt_of_mem_expected {entry : Nat × ρ} (mem : entry ∈ expected wellFormed getType lines) :
    entry.1 < lines.length := by
  obtain ⟨⟨line, number⟩, position, taken⟩ :=
    List.mem_filterMap.mp (List.mem_filter.mp mem).1
  obtain ⟨request, -, rfl⟩ := Option.map_eq_some_iff.mp taken
  exact List.snd_lt_of_mem_zipIdx position

/-- The message after some lines. -/
def after (parseCommand : List Char → Option ρ) (getType : ρ → τ) (lines : List (List Char)) :
    Parsing ρ τ :=
  (lines.takeWhile (·.length < BUFFER_SIZE)).foldl (Parsing.command parseCommand getType) .start

theorem parseMessage_eq (message : List Char) :
    parseMessage parseCommand getType message =
      after parseCommand getType (OpenSand.lines message) :=
  whileGetline_eq (Nat.lt_succ_self _) _

theorem Short.concat_iff : Short (lines ++ [line]) ↔ Short lines ∧ line.length < BUFFER_SIZE := by
  simp [Short, or_imp, forall_and]

/-- A line is parsed when no line up to it is too long. -/
theorem after_concat (lines : List (List Char)) (line : List Char) :
    after parseCommand getType (lines ++ [line]) =
      if Short (lines ++ [line]) then
        (after parseCommand getType lines).command parseCommand getType line
      else after parseCommand getType lines := by
  by_cases short : Short lines
  · have whole : lines.takeWhile (·.length < BUFFER_SIZE) = lines :=
      List.takeWhile_eq_self_iff.mpr fun line mem => decide_eq_true (short line mem)
    rw [after, after, List.takeWhile_append, whole, if_pos rfl]
    by_cases fits : line.length < BUFFER_SIZE
    · rw [if_pos (Short.concat_iff.mpr ⟨short, fits⟩), List.takeWhile_cons_of_pos (by simpa),
        List.foldl_append]
      rfl
    · rw [if_neg fun all => fits (Short.concat_iff.mp all).2,
        List.takeWhile_cons_of_neg (by simpa using fits), List.append_nil]
  · have cut : (lines.takeWhile (·.length < BUFFER_SIZE)).length ≠ lines.length := by
      intro same
      have whole := (List.takeWhile_prefix fun line : List Char =>
        decide (line.length < BUFFER_SIZE)).eq_of_length same
      exact short fun line mem => of_decide_eq_true (List.takeWhile_eq_self_iff.mp whole line mem)
    rw [if_neg fun all => short (Short.concat_iff.mp all).1, after, after, List.takeWhile_append,
      if_neg cut]

/-- The request of a line that is stored. -/
def Parsing.stores (parseCommand : List Char → Option ρ) (getType : ρ → τ)
    (parsing : Parsing ρ τ) (line : List Char) : Option ρ :=
  (parseCommand line).filter fun request =>
    parsing.nbCmds = 0 ∨ parsing.allCmdsType = some (getType request)

/-- The requests of a line that is parsed: the one it stores, if any, whose type is then known. -/
theorem Parsing.command_spec (parsing : Parsing ρ τ) (line : List Char) :
    (parsing.command parseCommand getType line).accepted = parsing.accepted ++
        ((parsing.stores parseCommand getType line).map (parsing.line, ·)).toList ∧
      (parsing.command parseCommand getType line).allCmdsType =
        ((parsing.stores parseCommand getType line).map getType).or parsing.allCmdsType := by
  rw [command, stores]
  cases parseCommand line with
  | none => simp
  | some request =>
      by_cases first : parsing.nbCmds = 0
      · simp [first, Option.filter]
      · by_cases same : some (getType request) = parsing.allCmdsType
        · simp [first, ← same, Option.filter]
        · simp [first, same, Ne.symm same, Option.filter]

theorem Parsing.accepted_command (parsing : Parsing ρ τ) (line : List Char) :
    (parsing.command parseCommand getType line).accepted = parsing.accepted ++
      ((parsing.stores parseCommand getType line).map (parsing.line, ·)).toList :=
  (parsing.command_spec line).1

theorem Parsing.allCmdsType_command (parsing : Parsing ρ τ) (line : List Char) :
    (parsing.command parseCommand getType line).allCmdsType =
      ((parsing.stores parseCommand getType line).map getType).or parsing.allCmdsType :=
  (parsing.command_spec line).2

theorem Parsing.line_command (parsing : Parsing ρ τ) (line : List Char) :
    (parsing.command parseCommand getType line).line = parsing.line + 1 := by
  rw [command]
  repeat' split
  all_goals rfl

theorem Parsing.nbCmds_command {parsing : Parsing ρ τ}
    (counted : parsing.nbCmds = .ofNat parsing.accepted.length) (line : List Char) :
    (parsing.command parseCommand getType line).nbCmds =
      .ofNat (parsing.command parseCommand getType line).accepted.length := by
  have one : ∀ entry, parsing.nbCmds + 1 = .ofNat (parsing.accepted ++ [entry]).length := by
    intro entry
    rw [List.length_append, List.length_singleton, UInt32.ofNat_add, counted]
    rfl
  rw [command]
  repeat' split
  · exact counted
  · exact one _
  · exact counted
  · exact one _

theorem ofNat_eq_zero_iff (count : Nat) : UInt32.ofNat count = 0 ↔ count % 2 ^ 32 = 0 := by
  rw [← UInt32.toNat_inj, UInt32.toNat_ofNat']
  rfl

/-! ### When the right lines are stored -/

/-- What is stored is what should be, and the next lines are compared with its type. -/
structure Kept (wellFormed parseCommand : List Char → Option ρ) (getType : ρ → τ)
    (lines : List (List Char)) : Prop where
  accepted : (after parseCommand getType lines).accepted = expected wellFormed getType lines
  type : ∀ entry ∈ (expected wellFormed getType lines).head?,
    (after parseCommand getType lines).allCmdsType = some (getType entry.2)

/-- The count is that of the requests stored, and the line the number of the lines read. -/
theorem after_counts (lines : List (List Char)) :
    (after parseCommand getType lines).nbCmds =
        .ofNat (after parseCommand getType lines).accepted.length ∧
      (after parseCommand getType lines).line ≤ lines.length ∧
      (Short lines → (after parseCommand getType lines).line = lines.length) ∧
      ∀ entry ∈ (after parseCommand getType lines).accepted, entry.1 < lines.length := by
  induction lines using List.reverseRecOn with
  | nil => exact ⟨rfl, le_rfl, fun _ => rfl, fun _ mem => absurd mem List.not_mem_nil⟩
  | append_singleton lines line ih =>
      obtain ⟨counted, bound, number, earlier⟩ := ih
      rw [after_concat, List.length_append, List.length_singleton]
      split
      next short =>
        have here := number (Short.concat_iff.mp short).1
        refine ⟨Parsing.nbCmds_command counted line, ?_, fun _ => ?_, fun entry mem => ?_⟩
        · rw [Parsing.line_command, here]
        · rw [Parsing.line_command, here]
        · rw [Parsing.accepted_command, List.mem_append] at mem
          rcases mem with mem | mem
          · exact Nat.lt_succ_of_lt (earlier entry mem)
          · obtain ⟨request, -, rfl⟩ := Option.map_eq_some_iff.mp (Option.mem_toList.mp mem)
            rw [here]
            exact Nat.lt_succ_self _
      next long =>
        exact ⟨counted, Nat.le_succ_of_le bound, fun short => absurd short long,
          fun entry mem => Nat.lt_succ_of_lt (earlier entry mem)⟩

theorem toList_map_inj {number : Nat} {request request' : Option ρ} :
    (request.map (number, ·)).toList = (request'.map (number, ·)).toList ↔ request = request' := by
  cases request <;> cases request' <;> simp

/-- A line is stored as it should be exactly when it is clear. -/
theorem stores_eq_wanted_iff
    (agree : ∀ line request, wellFormed line = some request → parseCommand line = some request)
    (kept : Kept wellFormed parseCommand getType lines) (short : Short (lines ++ [line])) :
    (after parseCommand getType lines).stores parseCommand getType line =
        wanted wellFormed getType lines line ↔
      Clear wellFormed getType parseCommand lines line := by
  have count : (after parseCommand getType lines).nbCmds = 0 ↔
      (expected wellFormed getType lines).length % 2 ^ 32 = 0 := by
    rw [(after_counts lines).1, kept.accepted, ofNat_eq_zero_iff]
  cases parsed : parseCommand line with
  | none =>
      have ill : wellFormed line = none := by
        by_contra some
        obtain ⟨request, taken⟩ := Option.ne_none_iff_exists'.mp some
        cases parsed.symm.trans (agree _ _ taken)
      refine iff_of_true (by simp [Parsing.stores, wanted, parsed, ill]) ⟨?_, ?_⟩
      · simp [wanted, ill]
      · intro request taken
        cases parsed.symm.trans taken
  | some request =>
      cases want : wanted wellFormed getType lines line with
      | none =>
          have stored : (after parseCommand getType lines).stores parseCommand getType line =
              none ↔ (after parseCommand getType lines).nbCmds ≠ 0 ∧
                (after parseCommand getType lines).allCmdsType ≠ some (getType request) := by
            simp [Parsing.stores, parsed, Option.filter]
          rw [stored]
          constructor
          · rintro ⟨counted, other⟩
            refine ⟨fun some => by simp [want] at some, fun request' taken _ _ => ?_⟩
            cases parsed.symm.trans taken
            refine ⟨fun zero => counted (count.mpr zero), fun entry first same => other ?_⟩
            rw [kept.type entry first, same]
          · intro clear
            obtain ⟨odd, other⟩ := clear.refused request parsed want short
            refine ⟨fun zero => odd (count.mp zero), fun same => ?_⟩
            cases first : (expected wellFormed getType lines).head? with
            | none =>
                rw [List.head?_eq_none_iff.mp first] at odd
                exact odd rfl
            | some entry =>
                rw [kept.type entry first, Option.some.injEq] at same
                exact other entry first same
      | some request' =>
          obtain ⟨formed, like⟩ := Option.filter_eq_some_iff.mp want
          cases parsed.symm.trans (agree _ _ formed)
          refine iff_of_true ?_ ⟨fun _ => (Short.concat_iff.mp short).1, ?_⟩
          · refine Option.filter_eq_some_iff.mpr ⟨parsed, decide_eq_true ?_⟩
            cases first : (expected wellFormed getType lines).head? with
            | none =>
                refine .inl (count.mpr ?_)
                rw [List.head?_eq_none_iff.mp first]
                rfl
            | some entry =>
                right
                rw [kept.type entry first, of_decide_eq_true like entry first]
          · intro _ _ none
            cases want.symm.trans none

/-- One line more is stored as it should be exactly when it is clear, and then the next ones are
compared with the right type. -/
theorem kept_concat_iff
    (agree : ∀ line request, wellFormed line = some request →
      parseCommand line = some request ∧ line.length < BUFFER_SIZE)
    (kept : Kept wellFormed parseCommand getType lines) (line : List Char) :
    ((after parseCommand getType (lines ++ [line])).accepted =
        expected wellFormed getType (lines ++ [line]) ↔
      Clear wellFormed getType parseCommand lines line) ∧
    (Clear wellFormed getType parseCommand lines line →
      Kept wellFormed parseCommand getType (lines ++ [line])) := by
  by_cases short : Short (lines ++ [line])
  · have number : (after parseCommand getType lines).line = lines.length :=
      (after_counts lines).2.2.1 (Short.concat_iff.mp short).1
    have right := stores_eq_wanted_iff (fun line request taken => (agree line request taken).1)
      kept short
    rw [after_concat, if_pos short, Parsing.accepted_command, expected_concat, kept.accepted,
      List.append_cancel_left_eq, number, toList_map_inj, right]
    refine ⟨Iff.rfl, fun clear => ⟨?_, fun entry first => ?_⟩⟩
    · rw [after_concat, if_pos short, Parsing.accepted_command, expected_concat, kept.accepted,
        number, right.mpr clear]
    · rw [after_concat, if_pos short, Parsing.allCmdsType_command, right.mpr clear]
      rw [expected_concat] at first
      cases want : wanted wellFormed getType lines line with
      | none =>
          rw [want] at first
          exact kept.type entry (by simpa using first)
      | some request =>
          have like := of_decide_eq_true (Option.filter_eq_some_iff.mp want).2
          rw [want] at first
          cases before : expected wellFormed getType lines with
          | nil =>
              rw [before] at first
              cases first
              rfl
          | cons first' others =>
              rw [before] at first
              cases first
              exact congrArg some (like entry (by rw [before]; rfl)).symm
  · have narrow : Clear wellFormed getType parseCommand lines line ↔
        wanted wellFormed getType lines line = none := by
      constructor
      · intro clear
        by_contra some
        obtain ⟨request, want⟩ := Option.ne_none_iff_exists'.mp some
        have formed := (Option.filter_eq_some_iff.mp want).1
        have before := clear.reached (by rw [want]; rfl)
        exact short (Short.concat_iff.mpr ⟨before, (agree _ _ formed).2⟩)
      · exact fun none => ⟨fun some => by simp [none] at some, fun _ _ _ all => absurd all short⟩
    rw [after_concat, if_neg short, expected_concat, kept.accepted, narrow]
    refine ⟨?_, fun none => ⟨?_, fun entry first => ?_⟩⟩
    · simp
    · rw [after_concat, if_neg short, expected_concat, none, kept.accepted]
      simp
    · rw [after_concat, if_neg short]
      rw [expected_concat, none] at first
      exact kept.type entry (by simpa using first)

/-- What is stored of the lines before the last one is right when the whole is. -/
theorem accepted_of_concat
    (right : (after parseCommand getType (lines ++ [line])).accepted =
      expected wellFormed getType (lines ++ [line])) :
    (after parseCommand getType lines).accepted = expected wellFormed getType lines := by
  -- the entries of the last line have its number
  have cut : ∀ (entries last : List (Nat × ρ)), (∀ entry ∈ entries, entry.1 < lines.length) →
      (∀ entry ∈ last, entry.1 = lines.length) →
      (entries ++ last).filter (·.1 < lines.length) = entries := by
    intro entries last earlier here
    rw [List.filter_append, List.filter_eq_self.mpr fun entry mem => decide_eq_true (earlier _ mem),
      List.filter_eq_nil_iff.mpr fun entry mem => by simp [here entry mem], List.append_nil]
  obtain ⟨-, -, number, earlier⟩ := @after_counts _ _ _ parseCommand getType lines
  have before := congrArg (List.filter (·.1 < lines.length)) right
  rw [expected_concat, cut _ _ (fun _ => lt_of_mem_expected) (by simp), after_concat] at before
  split at before
  next short =>
    rw [Parsing.accepted_command, number (Short.concat_iff.mp short).1,
      cut _ _ earlier (by simp)] at before
    exact before
  next =>
    rw [List.filter_eq_self.mpr fun entry mem => decide_eq_true (earlier entry mem)] at before
    exact before

/-- What is stored is what should be exactly when every line is clear. -/
theorem accepted_iff
    (agree : ∀ line request, wellFormed line = some request →
      parseCommand line = some request ∧ line.length < BUFFER_SIZE)
    (lines : List (List Char)) :
    (after parseCommand getType lines).accepted = expected wellFormed getType lines ↔
      ∀ number line, lines[number]? = some line →
        Clear wellFormed getType parseCommand (lines.take number) line := by
  suffices both : ((after parseCommand getType lines).accepted =
      expected wellFormed getType lines ↔ ∀ number line, lines[number]? = some line →
        Clear wellFormed getType parseCommand (lines.take number) line) ∧
      ((after parseCommand getType lines).accepted = expected wellFormed getType lines →
        Kept wellFormed parseCommand getType lines) from both.1
  induction lines using List.reverseRecOn with
  | nil =>
      refine ⟨iff_of_true rfl fun _ _ found => ?_, fun _ => ⟨rfl, fun _ first => ?_⟩⟩
      · rw [List.getElem?_nil] at found
        cases found
      · cases first
  | append_singleton lines line ih =>
      obtain ⟨clear, keep⟩ := ih
      constructor
      · constructor
        · intro right number line' found
          have before := accepted_of_concat right
          obtain ⟨exact_line, -⟩ := kept_concat_iff agree (keep before) line
          rcases Nat.lt_trichotomy number lines.length with earlier | here | later
          · rw [List.getElem?_append_left earlier] at found
            rw [List.take_append_of_le_length (Nat.le_of_lt earlier)]
            exact clear.mp before number line' found
          · subst here
            rw [List.getElem?_concat_length] at found
            cases found
            rw [List.take_left]
            exact exact_line.mp right
          · rw [List.getElem?_eq_none (by rw [List.length_append]; exact later)] at found
            cases found
        · intro all
          have before : (after parseCommand getType lines).accepted =
              expected wellFormed getType lines := by
            refine clear.mpr fun number line' found => ?_
            have earlier := (List.getElem?_eq_some_iff.mp found).1
            rw [← List.take_append_of_le_length (Nat.le_of_lt earlier)]
            exact all number line' ((List.getElem?_append_left earlier).trans found)
          obtain ⟨exact_line, -⟩ := kept_concat_iff agree (keep before) line
          have last := all lines.length line List.getElem?_concat_length
          rw [List.take_left] at last
          exact exact_line.mpr last
      · intro right
        obtain ⟨exact_line, next⟩ := kept_concat_iff agree (keep (accepted_of_concat right)) line
        exact next (exact_line.mp right)

/-! ### The result of a message -/

/-- The last request of the lines before the first that is too long. -/
def lastParsed (parseCommand : List Char → Option ρ) (lines : List (List Char)) : Option ρ :=
  ((lines.takeWhile (·.length < BUFFER_SIZE)).filterMap parseCommand).getLast?

theorem Parsing.last_command (parsing : Parsing ρ τ) (line : List Char) :
    (parsing.command parseCommand getType line).last =
      (parseCommand line).or parsing.last := by
  rw [command]
  cases parseCommand line with
  | none => rfl
  | some request =>
      simp only
      repeat' split
      all_goals rfl

theorem last_foldl (lines : List (List Char)) (parsing : Parsing ρ τ) :
    (lines.foldl (Parsing.command parseCommand getType) parsing).last =
      (lines.filterMap parseCommand).getLast?.or parsing.last := by
  induction lines using List.reverseRecOn with
  | nil => rfl
  | append_singleton lines line ih =>
      rw [List.foldl_append, List.foldl_cons, List.foldl_nil, Parsing.last_command, ih,
        List.filterMap_append, List.getLast?_append]
      cases parsed : parseCommand line <;> simp [parsed]

theorem last_after (lines : List (List Char)) :
    (after parseCommand getType lines).last = lastParsed parseCommand lines := by
  rw [after, last_foldl, lastParsed]
  exact Option.or_none

/-- A request that is stored was parsed. -/
theorem last_ne_none (some : (after parseCommand getType lines).accepted ≠ []) :
    (after parseCommand getType lines).last ≠ none := by
  induction lines using List.reverseRecOn with
  | nil => exact absurd rfl some
  | append_singleton lines line ih =>
      rw [after_concat] at some ⊢
      split at some
      next short =>
        rw [if_pos short, Parsing.last_command]
        rw [Parsing.accepted_command] at some
        cases parsed : parseCommand line with
        | none =>
            rw [Parsing.stores, parsed] at some
            exact ih (by simpa using some)
        | some request => exact Option.some_ne_none _
      next long =>
        rw [if_neg long]
        exact ih some

/-- Every line is clear, and the count of the requests does not come back to 0. -/
structure MessageClear (wellFormed : List Char → Option ρ) (getType : ρ → τ)
    (parseCommand : List Char → Option ρ) (lines : List (List Char)) : Prop where
  clear : ∀ number line, lines[number]? = some line →
    Clear wellFormed getType parseCommand (lines.take number) line
  counted : (expected wellFormed getType lines).length % 2 ^ 32 = 0 →
    expected wellFormed getType lines = []

/-- What is stored is what should be, and the count tells whether there is any. -/
theorem messageClear_iff
    (agree : ∀ line request, wellFormed line = some request →
      parseCommand line = some request ∧ line.length < BUFFER_SIZE)
    (message : List Char) :
    ((parseMessage parseCommand getType message).accepted =
          expected wellFormed getType (OpenSand.lines message) ∧
        ((parseMessage parseCommand getType message).nbCmds ≠ 0 ↔
          (parseMessage parseCommand getType message).accepted ≠ [])) ↔
      MessageClear wellFormed getType parseCommand (OpenSand.lines message) := by
  have count : (parseMessage parseCommand getType message).nbCmds = 0 ↔
      (parseMessage parseCommand getType message).accepted.length % 2 ^ 32 = 0 := by
    rw [parseMessage_eq, (after_counts _).1, ofNat_eq_zero_iff]
  have lines := @accepted_iff _ _ _ _ parseCommand getType agree (OpenSand.lines message)
  rw [← parseMessage_eq] at lines
  constructor
  · rintro ⟨right, returned⟩
    refine ⟨lines.mp right, fun zero => ?_⟩
    rw [← right] at zero ⊢
    exact of_not_not fun some => returned.mpr some (count.mpr zero)
  · intro clear
    have right := lines.mpr clear.clear
    refine ⟨right, fun counted none => counted (count.mpr ?_), fun some zero => some ?_⟩
    · rw [none]
      rfl
    · have zero := count.mp zero
      rw [right] at zero ⊢
      exact clear.counted zero

end OpenSand.NccInterface
