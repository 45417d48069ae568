import OpenSand.Lib.Numeral
import Mathlib.Algebra.GroupWithZero.Nat
import Mathlib.Data.List.DropRight

/-!
Formatted input, as `sscanf` and `fscanf` do it.

A format is a list of directives. A directive that fails ends the scan, but what the conversions
before it stored stays stored. `scan_print` reads back the numbers that were printed along a
format.

A text read again and again by `%N[^\n]\n` comes in pieces of at most `N` characters, with the
white space before each but the first skipped: the pieces of a text are those of its lines
(`pieces_append_cons`).
-/

namespace OpenSand.Scanf

open CharStream

inductive Directive where
  /-- White space, as much as there is. -/
  | space
  | literal (c : Char)
  /-- A number in decimal, stored in `w` bits. -/
  | unsigned (w : Nat)
deriving DecidableEq, Repr

/-- The directives of a format string. -/
def directives : List Char → List Directive
  | '%' :: 'h' :: 'h' :: 'u' :: format => .unsigned 8 :: directives format
  | '%' :: 'h' :: 'u' :: format => .unsigned 16 :: directives format
  | '%' :: 'u' :: format => .unsigned 32 :: directives format
  | c :: format => (if CharStream.isSpace c then .space else .literal c) :: directives format
  | [] => []

/-- What a conversion stores: the integer, or the largest one, as 64 bits and then `w`. -/
def storedIn (w : Nat) (i : Int) : Nat :=
  if 2 ^ 64 ≤ i.natAbs then 2 ^ w - 1 else (i % 2 ^ w).toNat

/-- The numbers stored by a scan. -/
def scan : List Directive → List Char → List Nat
  | .space :: format, text => scan format (skipWhitespace text)
  | .literal c :: format, c' :: text => if c' = c then scan format text else []
  | .literal _ :: _, [] => []
  | .unsigned w :: format, text =>
      match numeral text with
      | some (i, text) => storedIn w i :: scan format text
      | none => []
  | [], _ => []

/-- A text printed along a format. -/
def print : List Directive → List Nat → List Char
  | .space :: format, values => ' ' :: print format values
  | .literal c :: format, values => c :: print format values
  | .unsigned _ :: format, value :: values => Nat.toDigits 10 value ++ print format values
  | _, _ => []

/-- The numbers that a format is given for its conversions. -/
def Fits : List Directive → List Nat → Prop
  | .space :: format, values => Fits format values
  | .literal _ :: format, values => Fits format values
  | .unsigned w :: format, value :: values => value < 2 ^ w ∧ Fits format values
  | .unsigned _ :: _, [] => False
  | [], values => values = []

/-- No number runs into the next one or into a digit. -/
def startsApart : List Directive → Bool
  | .unsigned _ :: _ => false
  | .literal c :: _ => !c.isDigit
  | _ => true

/-- A format that reads what it printed. -/
def readable : List Directive → Bool
  | .space :: format => readable format
  | .literal c :: format => !CharStream.isSpace c && readable format
  | .unsigned w :: format => w ≤ 64 && startsApart format && readable format
  | [] => true

variable {format : List Directive} {values : List Nat}

theorem skipWhitespace_idem (text : List Char) :
    skipWhitespace (skipWhitespace text) = skipWhitespace text :=
  List.dropWhile_idempotent _ _

/-- A printed number is read up to the first character after it. -/
theorem numeral_toDigits (n : Nat) {chars : List Char}
    (stop : ∀ c ∈ chars.head?, c.isDigit = false) :
    numeral (Nat.toDigits 10 n ++ chars) = some ((n : Int), chars) := by
  obtain ⟨skip, sign⟩ := skip_toDigits n chars
  obtain ⟨take, drop⟩ := takeWhile_toDigits n stop
  simp only [numeral, skip, sign, take, drop, Nat.toDigits_ne_nil, Nat.ofDigitChars_ten_toDigits,
    if_false, Bool.false_eq_true]

theorem storedIn_of_lt {w n : Nat} (narrow : w ≤ 64) (fits : n < 2 ^ w) : storedIn w n = n := by
  have le : 2 ^ w ≤ 2 ^ 64 := Nat.pow_le_pow_right Nat.two_pos narrow
  rw [storedIn, if_neg (by omega), natCast_emod_toNat fits]

/-- White space before a printed text is no obstacle to reading it. -/
theorem scan_skipWhitespace (legible : readable format) :
    scan format (skipWhitespace (print format values)) = scan format (print format values) := by
  cases format with
  | nil => rfl
  | cons directive format =>
      cases directive with
      | space => rw [scan, scan, skipWhitespace_idem]
      | literal c =>
          rw [readable, Bool.and_eq_true, Bool.not_eq_true'] at legible
          rw [print, skipWhitespace, List.dropWhile_cons_of_neg (by simpa using legible.1)]
      | unsigned w =>
          have same (text : List Char) : numeral (skipWhitespace text) = numeral text := by
            rw [numeral, numeral, skipWhitespace_idem]
          rw [scan, scan, same]

theorem print_stops (apart : startsApart format) :
    ∀ c ∈ (print format values).head?, c.isDigit = false := by
  cases format with
  | nil => simp [print]
  | cons directive format =>
      cases directive with
      | space => exact separator_stops rfl _
      | literal c => exact separator_stops (by simpa [startsApart] using apart) _
      | unsigned w => cases apart

/-- The numbers that are printed along a format are read back. -/
theorem scan_print (legible : readable format) (fits : Fits format values) :
    scan format (print format values) = values := by
  induction format generalizing values with
  | nil => exact fits.symm
  | cons directive format ih =>
      cases directive with
      | space =>
          have skip : skipWhitespace (' ' :: print format values) =
              skipWhitespace (print format values) := rfl
          rw [print, scan, skip, scan_skipWhitespace (show readable format from legible)]
          exact ih legible fits
      | literal c =>
          rw [readable, Bool.and_eq_true] at legible
          rw [print, scan, if_pos rfl]
          exact ih legible.2 fits
      | unsigned w =>
          cases values with
          | nil => exact fits.elim
          | cons value values =>
              simp only [readable, Bool.and_eq_true, decide_eq_true_eq] at legible
              rw [print, scan, numeral_toDigits value (print_stops legible.1.2)]
              dsimp only
              rw [storedIn_of_lt legible.1.1 fits.1, ih legible.2 fits.2]

/-- A printed text has white space, the characters of the format and digits. -/
theorem mem_print {c : Char} (mem : c ∈ print format values) :
    c = ' ' ∨ .literal c ∈ format ∨ c.isDigit = true := by
  induction format generalizing values with
  | nil => cases mem
  | cons directive format ih =>
      have later : c = ' ' ∨ .literal c ∈ format ∨ c.isDigit = true →
          c = ' ' ∨ .literal c ∈ directive :: format ∨ c.isDigit = true :=
        Or.imp_right (Or.imp_left (List.mem_cons_of_mem _))
      cases directive with
      | space =>
          rcases List.mem_cons.mp mem with blank | mem
          · exact .inl blank
          · exact later (ih mem)
      | literal c' =>
          rcases List.mem_cons.mp mem with same | mem
          · exact .inr (.inl (same ▸ List.mem_cons_self))
          · exact later (ih mem)
      | unsigned w =>
          cases values with
          | nil => cases mem
          | cons value values =>
              rcases List.mem_append.mp mem with digit | mem
              · exact .inr (.inr (Nat.isDigit_of_mem_toDigits (by omega) (by omega) digit))
              · exact later (ih mem)

/-- The room that the text of a directive takes at most. -/
def Directive.width : Directive → Nat
  | .unsigned w => w + 1
  | _ => 1

theorem length_print_le (fits : Fits format values) :
    (print format values).length ≤ (format.map Directive.width).sum := by
  induction format generalizing values with
  | nil => exact Nat.le_refl 0
  | cons directive format ih =>
      rw [List.map_cons, List.sum_cons, Nat.add_comm]
      cases directive with
      | space => exact Nat.add_le_add_right (ih fits) 1
      | literal c => exact Nat.add_le_add_right (ih fits) 1
      | unsigned w =>
          cases values with
          | nil => exact fits.elim
          | cons value values =>
              have digits : (Nat.toDigits 10 value).length ≤ w + 1 := by
                rw [Nat.length_toDigits_le_iff (by omega) (Nat.succ_pos w)]
                calc value < 2 ^ w := fits.1
                  _ ≤ 10 ^ w := Nat.pow_le_pow_left (by omega) w
                  _ ≤ 10 ^ (w + 1) := Nat.pow_le_pow_right (by omega) (Nat.le_succ w)
              rw [print, List.length_append, Nat.add_comm]
              exact Nat.add_le_add (ih fits.2) digits

/-! ### Texts read by pieces -/

/-- What `%N[^\n]` stores. -/
def firstPiece (size : Nat) (text : List Char) : List Char := (text.take size).takeWhile (· ≠ '\n')

/-- What is left to read after it and the white space behind it. -/
def behindPiece (size : Nat) (text : List Char) : List Char :=
  skipWhitespace (text.drop (firstPiece size text).length)

/-- The pieces of a text that so many reads give. -/
def piecesWithin (size : Nat) : Nat → List Char → List (List Char)
  | 0, _ => []
  | _ + 1, [] => []
  | fuel + 1, c :: text =>
      firstPiece size (c :: text) :: piecesWithin size fuel (behindPiece size (c :: text))

/-- All the pieces of a text. -/
def pieces (size : Nat) (text : List Char) : List (List Char) := piecesWithin size text.length text

section Pieces

variable {size : Nat}

/-- Each read goes on in the text. -/
theorem length_behindPiece_lt {text : List Char} (room : 0 < size) (nonempty : text ≠ []) :
    (behindPiece size text).length < text.length := by
  obtain ⟨c, text, rfl⟩ := List.exists_cons_of_ne_nil nonempty
  obtain ⟨size, rfl⟩ := Nat.exists_eq_add_of_le' room
  have le (chars : List Char) : (skipWhitespace chars).length ≤ chars.length :=
    (List.dropWhile_sublist CharStream.isSpace).length_le
  by_cases feed : c = '\n'
  · subst feed
    exact Nat.lt_succ_of_le (le text)
  · have first : firstPiece (size + 1) (c :: text) = c :: firstPiece size text := by
      simp [firstPiece, feed]
    rw [behindPiece, first, List.length_cons, List.drop_succ_cons, List.length_cons]
    apply Nat.lt_succ_of_le
    exact (le _).trans (by rw [List.length_drop]; exact Nat.sub_le _ _)

/-- More reads than the text has characters give no more. -/
theorem piecesWithin_eq (room : 0 < size) {fuel : Nat} {text : List Char}
    (enough : text.length ≤ fuel) : piecesWithin size fuel text = pieces size text := by
  have grows : ∀ {fuel more : Nat} {text : List Char}, text.length ≤ fuel → fuel ≤ more →
      piecesWithin size more text = piecesWithin size fuel text := by
    intro fuel
    induction fuel with
    | zero =>
        intro more text enough _
        rw [List.eq_nil_of_length_eq_zero (Nat.le_zero.mp enough)]
        cases more <;> rfl
    | succ fuel ih =>
        intro more text enough le
        obtain ⟨more, rfl⟩ := Nat.exists_eq_add_of_le' (Nat.zero_lt_of_lt le)
        cases text with
        | nil => rfl
        | cons c text =>
            have shorter := length_behindPiece_lt room (List.cons_ne_nil c text)
            rw [piecesWithin, piecesWithin]
            congr 1
            exact ih (by omega) (by omega)
  exact grows (Nat.le_refl _) enough

theorem pieces_eq_cons (room : 0 < size) {text : List Char} (nonempty : text ≠ []) :
    pieces size text = firstPiece size text :: pieces size (behindPiece size text) := by
  have shorter := length_behindPiece_lt room nonempty
  obtain ⟨c, text, rfl⟩ := List.exists_cons_of_ne_nil nonempty
  rw [← piecesWithin_eq room (Nat.le_of_lt_succ shorter)]
  rfl

theorem firstPiece_of_notMem {line : List Char} (whole : '\n' ∉ line) :
    firstPiece size line = line.take size := by
  apply List.takeWhile_eq_self_iff.mpr
  intro c mem
  have other : c ≠ '\n' := by
    rintro rfl
    exact whole (List.mem_of_mem_take mem)
  exact decide_eq_true other

/-- A line that is short enough is one piece. -/
theorem pieces_of_short (room : 0 < size) {line : List Char} (whole : '\n' ∉ line)
    (nonempty : line ≠ []) (short : line.length ≤ size) : pieces size line = [line] := by
  have first : firstPiece size line = line := by
    rw [firstPiece_of_notMem whole, List.take_of_length_le short]
  have behind : behindPiece size line = [] := by
    rw [behindPiece, first, List.drop_length]
    rfl
  rw [pieces_eq_cons room nonempty, first, behind]
  rfl

/-- The first piece of a line is the one of the text it starts. -/
theorem firstPiece_append_cons {line : List Char} (whole : '\n' ∉ line) (rest : List Char) :
    firstPiece size (line ++ '\n' :: rest) = firstPiece size line := by
  rcases Nat.lt_or_ge line.length size with short | long
  · obtain ⟨more, room⟩ := Nat.exists_eq_add_of_le' (Nat.sub_pos_of_lt short)
    have all := @firstPiece_of_notMem size line whole
    rw [List.take_of_length_le (Nat.le_of_lt short)] at all
    have inside : ∀ c ∈ line, decide (c ≠ '\n') = true := by
      rw [firstPiece, List.take_of_length_le (Nat.le_of_lt short)] at all
      exact List.takeWhile_eq_self_iff.mp all
    rw [all, firstPiece, List.take_append, List.take_of_length_le (Nat.le_of_lt short), room,
      List.take_succ_cons, List.takeWhile_append_of_pos inside,
      List.takeWhile_cons_of_neg (by simp), List.append_nil]
  · rw [firstPiece, List.take_append_of_le_length long]
    rfl

/-- A line of a text is read as if it was alone. -/
theorem pieces_append_cons (room : 0 < size) {line : List Char} (whole : '\n' ∉ line)
    (nonempty : line ≠ []) (rest : List Char) : pieces size (line ++ '\n' :: rest) =
      pieces size line ++ pieces size (skipWhitespace rest) := by
  induction length : line.length using Nat.strong_induction_on generalizing line with
  | h n ih =>
      have behind : behindPiece size (line ++ '\n' :: rest) =
          skipWhitespace (line.drop (firstPiece size line).length ++ '\n' :: rest) := by
        have inside : (firstPiece size line).length ≤ line.length := by
          rw [firstPiece_of_notMem whole, List.length_take]
          exact Nat.min_le_right _ _
        rw [behindPiece, firstPiece_append_cons whole, List.drop_append_of_le_length inside]
      rw [pieces_eq_cons room (by simp), pieces_eq_cons room nonempty, List.cons_append,
        firstPiece_append_cons whole, behind, skipWhitespace, List.dropWhile_append]
      congr 1
      change pieces size (if (behindPiece size line).isEmpty then skipWhitespace ('\n' :: rest)
        else behindPiece size line ++ '\n' :: rest) = _
      have shorter := length_behindPiece_lt room nonempty
      cases left : behindPiece size line with
      | nil => rfl
      | cons c line' =>
          -- the line is too long for one piece
          rw [left, length] at shorter
          have part : '\n' ∉ c :: line' := by
            intro mem
            rw [← left] at mem
            exact whole (List.mem_of_mem_drop ((List.dropWhile_sublist CharStream.isSpace).mem mem))
          exact ih _ shorter part (List.cons_ne_nil c line') rfl

end Pieces

end OpenSand.Scanf
