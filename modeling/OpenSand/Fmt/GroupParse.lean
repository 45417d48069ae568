import OpenSand.Fmt.FmtGroup
import OpenSand.Lib.CharStream
import OpenSand.Lib.Tokens
import Mathlib.Data.List.Nodup

/-!
The parsing of the FMT groups.

A group is written as items separated by semicolons, an item being an identifier or a range.
The parser logs an error for an identifier whose required Es/N0 is 0, as the one of an unknown
definition, and goes on without it. It reads the identifiers in 8 bits, takes a range that
starts with 0 for its ends alone and fills the range 255-255 from 0, so a text is read as it
is written exactly when these readings make no difference.
-/

namespace OpenSand

open OpenSand.Word

namespace FmtGroup

/-! ### The parser -/

/-- The identifiers kept so far, and whether an error was logged. -/
structure Parsing where
  fmtIds : List FmtId
  failed : Bool

namespace Parsing

def ids (parsing : Parsing) : List UInt8 := parsing.fmtIds.map (·.id)

/-- An identifier is added once; the one that cannot be is an error. -/
def add (table : FmtDefinitionTable) (parsing : Parsing) (id : UInt8) : Bool × Parsing :=
  if id ∈ parsing.ids then (true, parsing)
  else
    let esN0 := table.getRequiredEsN0 id
    if esN0 = 0 then (false, { parsing with failed := true })
    else (true, { parsing with fmtIds := parsing.fmtIds ++ [⟨id, esN0⟩] })

end Parsing

/-- The identifiers of the loop between two others, whose bounds are stored in 8 bits. -/
def between (previousId val : UInt8) : List UInt8 :=
  let first := UInt8.ofNat (min (previousId.toNat + 1) (val.toNat + 1))
  (List.range' first.toNat ((max previousId.toNat val.toNat) - first.toNat)).map UInt8.ofNat

/-- A token, after the previous identifier of its item, 0 when there is none. -/
def parseToken (table : FmtDefinitionTable) (state : Parsing × UInt8) (token : List Char) :
    Parsing × UInt8 :=
  let (parsing, previousId) := state
  let (dummy, str) := CharStream.extractUnsigned 32 ⟨token, false⟩ 0
  if str.fail then state
  else
    let val := UInt8.ofNat dummy
    match parsing.add table val with
    | (false, parsing) => (parsing, previousId)
    | (true, parsing) =>
        if previousId = 0 then (parsing, val)
        else
          ((between previousId val).foldl (fun parsing i => (parsing.add table i).2) parsing, val)

def parseItem (table : FmtDefinitionTable) (parsing : Parsing) (item : List Char) : Parsing :=
  ((tokenize '-' item).foldl (parseToken table) (parsing, 0)).1

def parseItems (table : FmtDefinitionTable) (text : List Char) : Parsing :=
  (tokenize ';' text).foldl (parseItem table) ⟨[], false⟩

/-- The group of a text, from the most to the least robust identifier. -/
def parse (table : FmtDefinitionTable) (text : List Char) : FmtGroup where
  fmtIds := (parseItems table text).fmtIds.mergeSort fun a b => a.esN0 ≤ b.esN0
  modcodDef := table

end FmtGroup

/-! ### The grammar -/

/-- The digits of an identifier. -/
structure Numeral where
  digits : List Char
  nonempty : digits ≠ []
  isDigit : ∀ c ∈ digits, c.isDigit = true

namespace Numeral

def value (numeral : Numeral) : Nat := Nat.ofDigitChars 10 numeral.digits 0

end Numeral

inductive FmtItem where
  | id (numeral : Numeral)
  | range (first last : Numeral)

namespace FmtItem

def numerals : FmtItem → List Numeral
  | id numeral => [numeral]
  | range first last => [first, last]

def text (item : FmtItem) : List Char := ['-'].intercalate (item.numerals.map (·.digits))

/-- An identifier is in the inclusive range of an item. -/
def Has : FmtItem → Nat → Prop
  | id numeral, n => n = numeral.value
  | range first last, n =>
      min first.value last.value ≤ n ∧ n ≤ max first.value last.value

/-- What is left of a numeral in 32, then 8 bits. -/
def readNumeral (numeral : Numeral) : Option UInt8 :=
  if numeral.value < 2 ^ 32 then some (UInt8.ofNat numeral.value) else none

/-- The identifiers that are looked up for an item. -/
def read (item : FmtItem) : List UInt8 :=
  match item.numerals.filterMap readNumeral with
  | [first, last] => first :: last :: if first = 0 then [] else FmtGroup.between first last
  | ids => ids

end FmtItem

/-- The text of a group. -/
def groupText (items : List FmtItem) : List Char := [';'].intercalate (items.map (·.text))

/-! ### What the parser is for -/

namespace FmtDefinitionTable

variable (table : FmtDefinitionTable)

/-- The required Es/N0 is not the one of an unknown definition. -/
def Usable (id : UInt8) : Prop := table.getRequiredEsN0 id ≠ 0

def Known (n : Nat) : Prop := ∃ id : UInt8, id.toNat = n ∧ id ∈ table

end FmtDefinitionTable

namespace FmtGroup

variable (table : FmtDefinitionTable) (items : List FmtItem)

/-- A text is parsed without error exactly when all its identifiers are known, and then the
group is made of them, each once. -/
structure ParsesItems : Prop where
  accepts : (parseItems table (groupText items)).failed = false ↔
    ∀ item ∈ items, ∀ n, item.Has n → table.Known n
  nodup : (parse table (groupText items)).getFmtIds.Nodup
  union : (parseItems table (groupText items)).failed = false →
    ∀ id : UInt8, id ∈ (parse table (groupText items)).getFmtIds ↔
      ∃ item ∈ items, item.Has id.toNat

/-- The identifiers that are looked up are usable exactly when the ones that are written are
known, and then they are the same. -/
structure ReadAsWritten : Prop where
  verdict : (∀ item ∈ items, ∀ id ∈ item.read, table.Usable id) ↔
    ∀ item ∈ items, ∀ n, item.Has n → table.Known n
  ids : (∀ item ∈ items, ∀ id ∈ item.read, table.Usable id) →
    ∀ id : UInt8, (∃ item ∈ items, id ∈ item.read) ↔ ∃ item ∈ items, item.Has id.toNat

variable {table items}

/-! ### The identifiers kept -/

namespace Parsing

/-- The identifiers are different, and kept with what their definitions require, which is
not 0. -/
structure Sound (table : FmtDefinitionTable) (parsing : Parsing) : Prop where
  nodup : parsing.ids.Nodup
  esN0 : ∀ fmtId ∈ parsing.fmtIds, fmtId.esN0 = table.getRequiredEsN0 fmtId.id
  usable : ∀ id ∈ parsing.ids, table.Usable id

/-- Some identifiers were looked up: an error if one of them is not usable, otherwise they
are added. -/
structure Reads (table : FmtDefinitionTable) (parsing : Parsing) (ids : List UInt8)
    (parsing' : Parsing) : Prop where
  sound : parsing'.Sound table
  failed : parsing'.failed = true ↔ parsing.failed = true ∨ ∃ id ∈ ids, ¬ table.Usable id
  added : (∀ id ∈ ids, table.Usable id) →
    ∀ id, id ∈ parsing'.ids ↔ id ∈ parsing.ids ∨ id ∈ ids

variable {parsing parsing' parsing'' : Parsing} {id : UInt8} {ids ids' : List UInt8}

theorem Reads.nil (sound : parsing.Sound table) : Reads table parsing [] parsing where
  sound := sound
  failed := by simp
  added := by simp

theorem Reads.append (first : Reads table parsing ids parsing')
    (second : Reads table parsing' ids' parsing'') :
    Reads table parsing (ids ++ ids') parsing'' where
  sound := second.sound
  failed := by
    rw [second.failed, first.failed, or_assoc]
    simp only [List.mem_append, or_and_right, exists_or]
  added := by
    intro usable id
    rw [second.added fun id mem => usable id (List.mem_append_right _ mem),
      first.added fun id mem => usable id (List.mem_append_left _ mem), List.mem_append, or_assoc]

/-- After an error the identifiers that follow make no difference. -/
theorem Reads.skip (first : Reads table parsing ids parsing') (mem : id ∈ ids)
    (unusable : ¬ table.Usable id) (ids' : List UInt8) :
    Reads table parsing (ids ++ ids') parsing' where
  sound := first.sound
  failed := by
    rw [first.failed]
    have error : ∃ id ∈ ids, ¬ table.Usable id := ⟨id, mem, unusable⟩
    have error' : ∃ id ∈ ids ++ ids', ¬ table.Usable id :=
      ⟨id, List.mem_append_left _ mem, unusable⟩
    exact ⟨fun _ => .inr error', fun _ => .inr error⟩
  added usable := absurd (usable id (List.mem_append_left _ mem)) unusable

/-- An identifier is added if it is usable; otherwise it is an error. -/
theorem Sound.add (sound : parsing.Sound table) (id : UInt8) :
    ((parsing.add table id).1 = true ↔ table.Usable id) ∧
      Reads table parsing [id] (parsing.add table id).2 := by
  unfold Parsing.add
  split
  next known =>
    have usable := sound.usable id known
    refine ⟨⟨fun _ => usable, fun _ => rfl⟩, sound, ?_, fun _ other => ?_⟩
    · simp [usable]
    · rw [List.mem_singleton]
      exact ⟨.inl, fun mem => mem.elim (fun mem => mem) fun same => same ▸ known⟩
  next new =>
    dsimp only
    split
    next zero =>
      have unusable : ¬ table.Usable id := fun usable => usable zero
      refine ⟨⟨fun added => absurd added (by simp), fun usable => absurd usable unusable⟩,
        ⟨sound.nodup, sound.esN0, sound.usable⟩, ?_, ?_⟩
      · simp [unusable]
      · exact fun usable => absurd (usable id List.mem_cons_self) unusable
    next usable =>
      have ids : Parsing.ids ⟨parsing.fmtIds ++ [⟨id, table.getRequiredEsN0 id⟩], parsing.failed⟩ =
          parsing.ids ++ [id] := by simp [Parsing.ids]
      refine ⟨⟨fun _ => usable, fun _ => rfl⟩, ⟨?_, ?_, ?_⟩, ?_, ?_⟩
      · rw [ids]
        exact List.nodup_append.mpr ⟨sound.nodup, List.nodup_singleton id, by
          intro other mem same last
          rintro rfl
          exact new (List.mem_singleton.mp last ▸ mem)⟩
      · intro fmtId mem
        rcases List.mem_append.mp mem with old | last
        · exact sound.esN0 fmtId old
        · rw [List.mem_singleton.mp last]
      · intro other mem
        rw [ids] at mem
        rcases List.mem_append.mp mem with old | last
        · exact sound.usable other old
        · rw [List.mem_singleton.mp last]
          exact usable
      · have noError : table.Usable id := usable
        simp [noError]
      · intro _ other
        rw [ids, List.mem_append]

theorem Sound.foldl_add (sound : parsing.Sound table) (ids : List UInt8) :
    Reads table parsing ids (ids.foldl (fun parsing i => (parsing.add table i).2) parsing) := by
  induction ids generalizing parsing with
  | nil => exact .nil sound
  | cons id ids ih =>
      have first := (sound.add id).2
      exact first.append (ih first.sound)

end Parsing

/-! ### The items -/

/-- A token as a word, once it is read. -/
def readToken (table : FmtDefinitionTable) (state : Parsing × UInt8) (val : UInt8) :
    Parsing × UInt8 :=
  match state.1.add table val with
  | (false, parsing) => (parsing, state.2)
  | (true, parsing) =>
      if state.2 = 0 then (parsing, val)
      else ((between state.2 val).foldl (fun parsing i => (parsing.add table i).2) parsing, val)

theorem extract_numeral (numeral : Numeral) :
    CharStream.extractUnsigned 32 ⟨numeral.digits, false⟩ 0 =
      if 2 ^ 32 ≤ numeral.value then (2 ^ 32 - 1, ⟨[], true⟩) else (numeral.value, ⟨[], false⟩) :=
  CharStream.extractUnsigned_digits numeral.nonempty numeral.isDigit 32 0

theorem parseToken_digits (table : FmtDefinitionTable) (state : Parsing × UInt8)
    (numeral : Numeral) :
    parseToken table state numeral.digits =
      match FmtItem.readNumeral numeral with
      | none => state
      | some val => readToken table state val := by
  unfold parseToken FmtItem.readNumeral
  dsimp only
  rw [extract_numeral]
  by_cases fits : numeral.value < 2 ^ 32
  · rw [if_pos fits, if_neg (Nat.not_le.mpr fits)]
    rfl
  · rw [if_neg fits, if_pos (Nat.not_lt.mp fits)]
    rfl

/-- The numerals of an item that fit in 32 bits are read one after the other. -/
theorem foldl_parseToken (table : FmtDefinitionTable) (numerals : List Numeral)
    (state : Parsing × UInt8) :
    (numerals.map (·.digits)).foldl (parseToken table) state =
      (numerals.filterMap FmtItem.readNumeral).foldl (readToken table) state := by
  induction numerals generalizing state with
  | nil => rfl
  | cons numeral numerals ih =>
      rw [List.map_cons, List.foldl_cons, ih, parseToken_digits]
      cases read : FmtItem.readNumeral numeral with
      | none => rw [List.filterMap_cons_none read]
      | some val => rw [List.filterMap_cons_some read, List.foldl_cons]

namespace Parsing

variable {parsing : Parsing}

theorem readToken_of_usable (sound : parsing.Sound table) {val previousId : UInt8}
    (usable : table.Usable val) :
    readToken table (parsing, previousId) val =
      if previousId = 0 then ((parsing.add table val).2, val)
      else ((between previousId val).foldl (fun parsing i => (parsing.add table i).2)
        (parsing.add table val).2, val) := by
  have added := (sound.add val).1.mpr usable
  unfold readToken
  dsimp only
  rw [show parsing.add table val = (true, (parsing.add table val).2) from Prod.ext added rfl]

theorem readToken_of_unusable (sound : parsing.Sound table) {val previousId : UInt8}
    (unusable : ¬ table.Usable val) :
    readToken table (parsing, previousId) val = ((parsing.add table val).2, previousId) := by
  have refused := Bool.eq_false_of_not_eq_true (mt (sound.add val).1.mp unusable)
  unfold readToken
  dsimp only
  rw [show parsing.add table val = (false, (parsing.add table val).2) from Prod.ext refused rfl]

/-- A token that comes first in an item. -/
theorem readToken_first (sound : parsing.Sound table) (val : UInt8) :
    (readToken table (parsing, 0) val).1 = (parsing.add table val).2 := by
  by_cases usable : table.Usable val
  · rw [readToken_of_usable sound usable, if_pos rfl]
  · rw [readToken_of_unusable sound usable]

/-- The identifiers of an item are looked up, up to the first error among its ends. -/
theorem readTokens (sound : parsing.Sound table) (first last : UInt8) :
    Reads table parsing (first :: last :: if first = 0 then [] else between first last)
      ([first, last].foldl (readToken table) (parsing, 0)).1 := by
  have addFirst := sound.add first
  rw [List.foldl_cons, List.foldl_cons, List.foldl_nil]
  by_cases usable : table.Usable first
  · rw [readToken_of_usable sound usable, if_pos rfl]
    have addLast := addFirst.2.sound.add last
    by_cases usable' : table.Usable last
    · rw [readToken_of_usable addFirst.2.sound usable']
      split
      next zero => exact addFirst.2.append addLast.2
      next => exact addFirst.2.append (addLast.2.append (addLast.2.sound.foldl_add _))
    · rw [readToken_of_unusable addFirst.2.sound usable']
      have error := addLast.2.skip List.mem_cons_self usable'
        (if first = 0 then [] else between first last)
      exact addFirst.2.append error
  · rw [readToken_of_unusable sound usable, readToken_first addFirst.2.sound]
    have addLast := addFirst.2.append (addFirst.2.sound.add last).2
    exact addLast.skip List.mem_cons_self usable _

end Parsing

/-! ### The text -/

theorem digits_notMem (numeral : Numeral) {c : Char} (other : c.isDigit = false) :
    c ∉ numeral.digits := by
  intro mem
  rw [numeral.isDigit c mem] at other
  cases other

theorem tokenize_item (item : FmtItem) :
    tokenize '-' item.text = item.numerals.map (·.digits) := by
  apply tokenize_intercalate
  · intro part mem
    obtain ⟨numeral, -, rfl⟩ := List.mem_map.mp mem
    exact digits_notMem numeral (by decide)
  · intro part mem
    obtain ⟨numeral, -, rfl⟩ := List.mem_map.mp mem
    exact numeral.nonempty

theorem item_text_eq (item : FmtItem) : item.text = match item with
    | .id numeral => numeral.digits
    | .range first last => first.digits ++ '-' :: last.digits := by
  cases item <;> simp [FmtItem.text, FmtItem.numerals, List.intercalate]

theorem tokenize_groupText (items : List FmtItem) :
    tokenize ';' (groupText items) = items.map (·.text) := by
  apply tokenize_intercalate
  · intro part mem
    obtain ⟨item, -, rfl⟩ := List.mem_map.mp mem
    rw [item_text_eq]
    cases item with
    | id numeral => exact digits_notMem numeral (by decide)
    | range first last =>
        intro mem
        rcases List.mem_append.mp mem with mem | mem
        · exact digits_notMem first (by decide) mem
        · rcases List.mem_cons.mp mem with minus | mem
          · cases minus
          · exact digits_notMem last (by decide) mem
  · intro part mem
    obtain ⟨item, -, rfl⟩ := List.mem_map.mp mem
    rw [item_text_eq]
    cases item with
    | id numeral => exact numeral.nonempty
    | range first last => exact List.append_ne_nil_of_left_ne_nil first.nonempty _

namespace Parsing

variable {parsing : Parsing}

/-- The identifiers of an item are looked up. -/
theorem parseItem_reads (sound : parsing.Sound table) (item : FmtItem) :
    Reads table parsing item.read (parseItem table parsing item.text) := by
  unfold parseItem FmtItem.read
  rw [tokenize_item, foldl_parseToken]
  have single (val : UInt8) : Reads table parsing [val]
      ([val].foldl (readToken table) (parsing, 0)).1 := by
    rw [List.foldl_cons, List.foldl_nil, readToken_first sound]
    exact (sound.add val).2
  cases item with
  | id numeral =>
      cases read : FmtItem.readNumeral numeral with
      | none => simpa [FmtItem.numerals, read] using Reads.nil sound
      | some val => simpa [FmtItem.numerals, read] using single val
  | range first last =>
      cases read : FmtItem.readNumeral first with
      | none =>
          cases read' : FmtItem.readNumeral last with
          | none => simpa [FmtItem.numerals, read, read'] using Reads.nil sound
          | some val' => simpa [FmtItem.numerals, read, read'] using single val'
      | some val =>
          cases read' : FmtItem.readNumeral last with
          | none => simpa [FmtItem.numerals, read, read'] using single val
          | some val' =>
              simpa [FmtItem.numerals, read, read'] using readTokens sound val val'

theorem start_sound (table : FmtDefinitionTable) : Sound table ⟨[], false⟩ where
  nodup := List.nodup_nil
  esN0 _ mem := absurd mem List.not_mem_nil
  usable _ mem := absurd mem List.not_mem_nil

/-- The identifiers of a text are looked up, item after item. -/
theorem parseItems_reads (table : FmtDefinitionTable) (items : List FmtItem) :
    Reads table ⟨[], false⟩ (items.flatMap (·.read)) (parseItems table (groupText items)) := by
  have fold (parsing : Parsing) (sound : parsing.Sound table) (items : List FmtItem) :
      Reads table parsing (items.flatMap (·.read))
        ((items.map (·.text)).foldl (parseItem table) parsing) := by
    induction items generalizing parsing with
    | nil => exact .nil sound
    | cons item items ih =>
        have first := parseItem_reads sound item
        exact first.append (ih _ first.sound)
  unfold parseItems
  rw [tokenize_groupText]
  exact fold _ (start_sound table) items

end Parsing

/-! ### The group -/

theorem parse_perm (table : FmtDefinitionTable) (text : List Char) :
    (parse table text).getFmtIds.Perm (parseItems table text).ids :=
  List.Perm.map FmtId.id (List.mergeSort_perm _ _)

/-- A text is parsed as it should exactly when it is read as it is written. -/
theorem parsesItems_iff (table : FmtDefinitionTable) (items : List FmtItem) :
    ParsesItems table items ↔ ReadAsWritten table items := by
  have reads := Parsing.parseItems_reads table items
  have clean : (parseItems table (groupText items)).failed = false ↔
      ∀ item ∈ items, ∀ id ∈ item.read, table.Usable id := by
    rw [← Bool.not_eq_true, reads.failed]
    simp only [Bool.false_eq_true, false_or, List.mem_flatMap, not_exists, not_and, not_not]
    exact ⟨fun usable item mem id read => usable id ⟨item, mem, read⟩,
      fun usable id ⟨item, mem, read⟩ => usable item mem id read⟩
  have ids (usable : ∀ item ∈ items, ∀ id ∈ item.read, table.Usable id) (id : UInt8) :
      id ∈ (parse table (groupText items)).getFmtIds ↔ ∃ item ∈ items, id ∈ item.read := by
    rw [(parse_perm table _).mem_iff, reads.added]
    · simp [Parsing.ids]
    · intro id mem
      obtain ⟨item, itemMem, read⟩ := List.mem_flatMap.mp mem
      exact usable item itemMem id read
  constructor
  · intro parses
    refine ⟨clean.symm.trans parses.accepts, fun usable id => ?_⟩
    rw [← ids usable, parses.union (clean.mpr usable)]
  · intro same
    refine ⟨clean.trans same.verdict, ?_, fun noError id => ?_⟩
    · exact (parse_perm table _).nodup_iff.mpr reads.sound.nodup
    · have usable := clean.mp noError
      rw [ids usable, same.ids usable]

/-! ### Identifiers that fit -/

/-- The numerals fit in 8 bits, a range does not start with 0 and is not 255-255. -/
def Plain : FmtItem → Prop
  | .id numeral => numeral.value < 256
  | .range first last => 0 < first.value ∧ first.value < 256 ∧ last.value < 256 ∧
      (first.value < 255 ∨ last.value < 255)

theorem mem_between {first last id : UInt8} (room : first.toNat < 255 ∨ last.toNat < 255) :
    id ∈ between first last ↔
      min first.toNat last.toNat < id.toNat ∧ id.toNat < max first.toNat last.toNat := by
  have start : (UInt8.ofNat (min (first.toNat + 1) (last.toNat + 1))).toNat =
      min (first.toNat + 1) (last.toNat + 1) := UInt8.toNat_ofNat_of_lt' (by
    have := UInt8.toNat_lt first
    have := UInt8.toNat_lt last
    change _ < 256
    omega)
  unfold between
  dsimp only
  rw [start, List.mem_map]
  constructor
  · rintro ⟨n, mem, rfl⟩
    rw [List.mem_range'_1] at mem
    rw [UInt8.toNat_ofNat_of_lt' (by
      have := UInt8.toNat_lt first
      have := UInt8.toNat_lt last
      change _ < 256
      omega)]
    omega
  · intro inside
    refine ⟨id.toNat, List.mem_range'_1.mpr (by omega), UInt8.ofNat_toNat⟩

theorem readNumeral_of_lt {numeral : Numeral} (lt : numeral.value < 256) :
    FmtItem.readNumeral numeral = some (UInt8.ofNat numeral.value) :=
  if_pos (lt.trans (by decide))

theorem toNat_ofNat_value {numeral : Numeral} (lt : numeral.value < 256) :
    (UInt8.ofNat numeral.value).toNat = numeral.value := UInt8.toNat_ofNat_of_lt' lt

/-- A plain item is read as it is written. -/
theorem mem_read_of_plain {item : FmtItem} (plain : Plain item) (id : UInt8) :
    id ∈ item.read ↔ item.Has id.toNat := by
  cases item with
  | id numeral =>
      have read : FmtItem.read (.id numeral) = [UInt8.ofNat numeral.value] := by
        simp [FmtItem.read, FmtItem.numerals, readNumeral_of_lt plain]
      rw [read, List.mem_singleton, ← UInt8.toNat_inj, toNat_ofNat_value plain]
      rfl
  | range first last =>
      obtain ⟨positive, firstLt, lastLt, room⟩ := plain
      have firstEq := toNat_ofNat_value firstLt
      have lastEq := toNat_ofNat_value lastLt
      have nonzero : UInt8.ofNat first.value ≠ 0 := by
        intro zero
        rw [zero] at firstEq
        exact absurd firstEq (Nat.ne_of_lt positive)
      have read : FmtItem.read (.range first last) = UInt8.ofNat first.value ::
          UInt8.ofNat last.value ::
            between (UInt8.ofNat first.value) (UInt8.ofNat last.value) := by
        simp [FmtItem.read, FmtItem.numerals, readNumeral_of_lt firstLt,
          readNumeral_of_lt lastLt, nonzero]
      have room' : (UInt8.ofNat first.value).toNat < 255 ∨ (UInt8.ofNat last.value).toNat < 255 := by
        rwa [firstEq, lastEq]
      rw [read, List.mem_cons, List.mem_cons, mem_between room', ← UInt8.toNat_inj,
        ← UInt8.toNat_inj, firstEq, lastEq]
      unfold FmtItem.Has
      omega

theorem lt_of_plain {item : FmtItem} (plain : Plain item) {n : Nat} (has : item.Has n) :
    n < 256 := by
  cases item with
  | id numeral =>
      change n = numeral.value at has
      rw [has]
      exact plain
  | range first last =>
      obtain ⟨-, firstLt, lastLt, -⟩ := plain
      obtain ⟨-, le⟩ := has
      omega

theorem toNat_ofNat_of_plain {item : FmtItem} (plain : Plain item) {n : Nat} (has : item.Has n) :
    (UInt8.ofNat n).toNat = n := UInt8.toNat_ofNat_of_lt' (lt_of_plain plain has)

/-- Plain items are read as they are written unless a known identifier requires 0 dB. -/
theorem readAsWritten_of_plain (plain : ∀ item ∈ items, Plain item) :
    ReadAsWritten table items ↔
      ((∀ item ∈ items, ∀ n, item.Has n → table.Known n) →
        ∀ item ∈ items, ∀ id : UInt8, item.Has id.toNat → table.Usable id) := by
  have known_of_usable {id : UInt8} (usable : table.Usable id) : table.Known id.toNat := by
    refine ⟨id, rfl, Std.TreeMap.mem_iff_isSome_getElem?.mpr ?_⟩
    cases found : table[id]? with
    | some fmt => rfl
    | none => exact absurd (FmtDefinitionTable.getRequiredEsN0_of_none found) usable
  constructor
  · intro same known item mem id has
    exact same.verdict.mpr known item mem id ((mem_read_of_plain (plain item mem) id).mpr has)
  · intro usable
    refine ⟨⟨fun readUsable item mem n has => ?_, fun known item mem id read => ?_⟩, fun _ id => ?_⟩
    · have value := toNat_ofNat_of_plain (plain item mem) has
      rw [← value] at has ⊢
      exact known_of_usable (readUsable item mem _ ((mem_read_of_plain (plain item mem) _).mpr has))
    · exact usable known item mem id ((mem_read_of_plain (plain item mem) id).mp read)
    · constructor
      · rintro ⟨item, mem, read⟩
        exact ⟨item, mem, (mem_read_of_plain (plain item mem) id).mp read⟩
      · rintro ⟨item, mem, has⟩
        exact ⟨item, mem, (mem_read_of_plain (plain item mem) id).mpr has⟩

end FmtGroup

end OpenSand
