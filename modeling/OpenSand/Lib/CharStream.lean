import Mathlib.Data.Nat.Basic
import Mathlib.Data.List.TakeDrop
import Mathlib.Algebra.Group.Nat.Defs
import Mathlib.Algebra.Group.Int.Defs

/-!
Formatted extraction from a character stream, as `istream >>` does it.

A stream is the characters left to read and a failure flag. Once the flag is
set nothing is extracted any more and the targets keep their values.
`extractUnsigned_decimal` reads back what was printed in decimal.
-/

namespace OpenSand

structure CharStream where
  rest : List Char
  fail : Bool
deriving DecidableEq, Repr

namespace CharStream

/-- White space, with the tabulations and the form feed. -/
def isSpace (c : Char) : Bool := c = ' ' || '\t' ≤ c && c ≤ '\r'

def skipWhitespace (chars : List Char) : List Char := chars.dropWhile isSpace

/-- An optional sign: whether it is a minus, and the characters after it. -/
def readSign : List Char → Bool × List Char
  | '-' :: chars => (true, chars)
  | '+' :: chars => (false, chars)
  | chars => (false, chars)

/-- Extraction of an unsigned integer of `w` bits. A value out of range gives the
largest one and a missing one gives 0, both with a failure; a minus sign negates
modulo `2 ^ w`. -/
def extractUnsigned (w : Nat) (s : CharStream) (target : Nat) : Nat × CharStream :=
  if s.fail then (target, s)
  else
    let (negative, chars) := readSign (skipWhitespace s.rest)
    let digits := chars.takeWhile Char.isDigit
    let rest := chars.dropWhile Char.isDigit
    let value := Nat.ofDigitChars 10 digits 0
    if digits = [] then (0, ⟨rest, true⟩)
    else if 2 ^ w ≤ value then (2 ^ w - 1, ⟨rest, true⟩)
    else (if negative then (2 ^ w - value) % 2 ^ w else value, ⟨rest, false⟩)

/-- Extraction of a signed integer of `w` bits. A value out of range gives the nearest one and
a missing one gives 0, both with a failure. -/
def extractSigned (w : Nat) (s : CharStream) (target : Int) : Int × CharStream :=
  if s.fail then (target, s)
  else
    let (negative, chars) := readSign (skipWhitespace s.rest)
    let digits := chars.takeWhile Char.isDigit
    let rest := chars.dropWhile Char.isDigit
    let value : Int :=
      if negative then -(Nat.ofDigitChars 10 digits 0 : Int) else Nat.ofDigitChars 10 digits 0
    if digits = [] then (0, ⟨rest, true⟩)
    else if value < -2 ^ (w - 1) then (-2 ^ (w - 1), ⟨rest, true⟩)
    else if 2 ^ (w - 1) ≤ value then (2 ^ (w - 1) - 1, ⟨rest, true⟩)
    else (value, ⟨rest, false⟩)

/-- Extraction of a Boolean written as a word (`std::boolalpha`). -/
def extractBoolAlpha (s : CharStream) (target : Bool) : Bool × CharStream :=
  if s.fail then (target, s)
  else
    let chars := skipWhitespace s.rest
    if ['t', 'r', 'u', 'e'] <+: chars then (true, ⟨chars.drop 4, false⟩)
    else if ['f', 'a', 'l', 's', 'e'] <+: chars then (false, ⟨chars.drop 5, false⟩)
    else (false, ⟨chars, true⟩)

/-- Extraction of one character, white space skipped; the character is dropped. -/
def extractChar (s : CharStream) : CharStream :=
  if s.fail then s
  else
    match skipWhitespace s.rest with
    | [] => ⟨[], true⟩
    | _ :: chars => ⟨chars, false⟩

/-- A signed integer in decimal. -/
def decimal : Int → List Char
  | .ofNat n => Nat.toDigits 10 n
  | .negSucc n => '-' :: Nat.toDigits 10 (n + 1)

@[simp] theorem extractUnsigned_fail (w target : Nat) (chars : List Char) :
    extractUnsigned w ⟨chars, true⟩ target = (target, ⟨chars, true⟩) := rfl

@[simp] theorem extractChar_fail (chars : List Char) :
    extractChar ⟨chars, true⟩ = ⟨chars, true⟩ := rfl

@[simp] theorem extractChar_colon (chars : List Char) :
    extractChar ⟨':' :: chars, false⟩ = ⟨chars, false⟩ := rfl

/-! ### Reading back decimals -/

theorem not_isSpace_of_isDigit {c : Char} (h : c.isDigit = true) : isSpace c = false := by
  simp only [Char.isDigit, Bool.and_eq_true, decide_eq_true_eq] at h
  have low : 48 ≤ c.val.toNat := h.1
  simp only [isSpace, Bool.or_eq_false_iff, Bool.and_eq_false_iff, decide_eq_false_iff_not]
  refine ⟨?_, .inr fun high => ?_⟩
  · rintro rfl
    exact absurd low (by decide)
  · have small : c.val.toNat ≤ 13 := high
    omega

theorem toDigits_cons (n : Nat) :
    ∃ c chars, Nat.toDigits 10 n = c :: chars ∧ c.isDigit = true := by
  obtain ⟨c, chars, h⟩ := List.exists_cons_of_ne_nil (Nat.toDigits_ne_nil (n := n) (b := 10))
  refine ⟨c, chars, h, ?_⟩
  apply Nat.isDigit_of_mem_toDigits (b := 10) (n := n) (by decide) (by decide)
  rw [h]
  exact List.mem_cons_self

/-- A printed natural starts with a digit: neither white space nor a sign. -/
theorem skip_toDigits (n : Nat) (chars : List Char) :
    skipWhitespace (Nat.toDigits 10 n ++ chars) = Nat.toDigits 10 n ++ chars ∧
      readSign (Nat.toDigits 10 n ++ chars) = (false, Nat.toDigits 10 n ++ chars) := by
  obtain ⟨c, digits, h, hc⟩ := toDigits_cons n
  rw [h, List.cons_append]
  constructor
  · simp [skipWhitespace, not_isSpace_of_isDigit hc]
  · unfold readSign
    split
    · rename_i heq
      cases heq
      exact absurd hc (by decide)
    · rename_i heq
      cases heq
      exact absurd hc (by decide)
    · rfl

theorem takeWhile_toDigits (n : Nat) {chars : List Char}
    (stop : ∀ c ∈ chars.head?, c.isDigit = false) :
    (Nat.toDigits 10 n ++ chars).takeWhile Char.isDigit = Nat.toDigits 10 n ∧
      (Nat.toDigits 10 n ++ chars).dropWhile Char.isDigit = chars := by
  have digits : ∀ c ∈ Nat.toDigits 10 n, c.isDigit = true := fun c hc =>
    Nat.isDigit_of_mem_toDigits (by decide) (by decide) hc
  rw [List.takeWhile_append_of_pos digits, List.dropWhile_append_of_pos digits]
  cases chars with
  | nil => simp
  | cons c chars => simp [stop c rfl]

/-- A separator stops the digits. -/
theorem separator_stops {separator : Char} (other : separator.isDigit = false)
    (chars : List Char) : ∀ c ∈ (separator :: chars).head?, c.isDigit = false := by
  intro c first
  cases first
  exact other

/-- A printed natural in range is read back, up to the first character after it. -/
theorem extractUnsigned_toDigits {w n : Nat} (h : n < 2 ^ w) (target : Nat) {chars : List Char}
    (stop : ∀ c ∈ chars.head?, c.isDigit = false) :
    extractUnsigned w ⟨Nat.toDigits 10 n ++ chars, false⟩ target = (n, ⟨chars, false⟩) := by
  obtain ⟨skip, sign⟩ := skip_toDigits n chars
  obtain ⟨take, drop⟩ := takeWhile_toDigits n stop
  simp only [extractUnsigned, Bool.false_eq_true, if_false, skip, sign, take, drop,
    Nat.ofDigitChars_ten_toDigits, Nat.toDigits_ne_nil]
  rw [if_neg (by omega)]

/-- Digits are read to their end; a number out of range is a failure. -/
theorem extractUnsigned_digits {digits : List Char} (nonempty : digits ≠ [])
    (isDigit : ∀ c ∈ digits, c.isDigit = true) (w target : Nat) :
    extractUnsigned w ⟨digits, false⟩ target =
      if 2 ^ w ≤ Nat.ofDigitChars 10 digits 0 then (2 ^ w - 1, ⟨[], true⟩)
      else (Nat.ofDigitChars 10 digits 0, ⟨[], false⟩) := by
  have skip : skipWhitespace digits = digits ∧ readSign digits = (false, digits) := by
    obtain ⟨c, rest, rfl⟩ := List.exists_cons_of_ne_nil nonempty
    have first := isDigit c List.mem_cons_self
    constructor
    · simp [skipWhitespace, not_isSpace_of_isDigit first]
    · unfold readSign
      split
      next minus =>
        cases minus
        exact absurd first (by decide)
      next plus =>
        cases plus
        exact absurd first (by decide)
      next => rfl
  have take : digits.takeWhile Char.isDigit = digits := by
    have all := @List.takeWhile_append_of_pos _ _ digits [] isDigit
    simpa using all
  have drop : digits.dropWhile Char.isDigit = [] := by
    have all := @List.dropWhile_append_of_pos _ _ digits [] isDigit
    simpa using all
  simp [extractUnsigned, skip, take, drop, nonempty]

/-- A printed integer in range is read back. -/
theorem extractSigned_decimal {w : Nat} {i : Int} (low : -2 ^ (w - 1) ≤ i) (high : i < 2 ^ (w - 1))
    (target : Int) : extractSigned w ⟨decimal i, false⟩ target = (i, ⟨[], false⟩) := by
  have stop : ∀ c ∈ ([] : List Char).head?, c.isDigit = false := by simp
  cases i with
  | ofNat n =>
      obtain ⟨skip, sign⟩ := skip_toDigits n []
      obtain ⟨take, drop⟩ := takeWhile_toDigits n stop
      rw [List.append_nil] at skip sign take drop
      simp only [extractSigned, Bool.false_eq_true, if_false, decimal, skip, sign, take, drop,
        Nat.ofDigitChars_ten_toDigits, Nat.toDigits_ne_nil]
      have pos : (0 : Int) < 2 ^ (w - 1) := Int.pow_pos (by decide)
      have same : Int.ofNat n = (n : Int) := rfl
      rw [same] at high
      rw [if_neg (by omega), if_neg (by omega)]
      rfl
  | negSucc n =>
      obtain ⟨take, drop⟩ := takeWhile_toDigits (n + 1) stop
      rw [List.append_nil] at take drop
      have skip : skipWhitespace ('-' :: Nat.toDigits 10 (n + 1)) =
          '-' :: Nat.toDigits 10 (n + 1) := rfl
      simp only [extractSigned, Bool.false_eq_true, if_false, decimal, skip, readSign, take, drop,
        Nat.toDigits_ne_nil, if_true, Nat.ofDigitChars_ten_toDigits]
      have same : -((n + 1 : Nat) : Int) = Int.negSucc n := rfl
      rw [same, if_neg (by omega), if_neg (by omega)]

/-- A printed integer is read up to the first character after it, or fails. -/
theorem extractUnsigned_decimal (w : Nat) (i : Int) (target : Nat) {chars : List Char}
    (stop : ∀ c ∈ chars.head?, c.isDigit = false) :
    ∃ value fail, extractUnsigned w ⟨decimal i ++ chars, false⟩ target =
      (value, ⟨chars, fail⟩) := by
  cases i with
  | ofNat n =>
      obtain ⟨skip, sign⟩ := skip_toDigits n chars
      obtain ⟨take, drop⟩ := takeWhile_toDigits n stop
      simp only [extractUnsigned, Bool.false_eq_true, if_false, decimal, skip, sign, take, drop,
        Nat.toDigits_ne_nil]
      split
      · exact ⟨_, _, rfl⟩
      · exact ⟨_, _, rfl⟩
  | negSucc n =>
      obtain ⟨take, drop⟩ := takeWhile_toDigits (n + 1) stop
      have skip : skipWhitespace ('-' :: (Nat.toDigits 10 (n + 1) ++ chars)) =
          '-' :: (Nat.toDigits 10 (n + 1) ++ chars) := rfl
      simp only [extractUnsigned, Bool.false_eq_true, if_false, decimal, List.cons_append, skip,
        readSign, take, drop, Nat.toDigits_ne_nil]
      split
      · exact ⟨_, _, rfl⟩
      · exact ⟨_, _, rfl⟩

/-- What is extracted is in range, whether the text was or not. -/
theorem extractUnsigned_lt (w : Nat) (chars : List Char) (target : Nat) :
    (extractUnsigned w ⟨chars, false⟩ target).1 < 2 ^ w := by
  have pos := Nat.two_pow_pos w
  simp only [extractUnsigned, Bool.false_eq_true, if_false]
  split
  · exact pos
  split
  · exact Nat.sub_lt pos Nat.one_pos
  next fits =>
    split
    · exact Nat.mod_lt _ pos
    · exact Nat.not_le.mp fits

/-! ### Decimals as a code -/

theorem toDigits_injective : Function.Injective (Nat.toDigits 10) := by
  intro m n same
  rw [← Nat.ofDigitChars_ten_toDigits (n := m), same, Nat.ofDigitChars_ten_toDigits]

/-- No character of a decimal is anything else than a digit or a minus sign. -/
theorem notMem_toDigits {c : Char} (other : c.isDigit = false) (n : Nat) :
    c ∉ Nat.toDigits 10 n := by
  intro mem
  rw [Nat.isDigit_of_mem_toDigits (by decide) (by decide) mem] at other
  cases other

theorem notMem_decimal {c : Char} (other : c.isDigit = false) (notMinus : c ≠ '-') (i : Int) :
    c ∉ decimal i := by
  cases i with
  | ofNat n => exact notMem_toDigits other n
  | negSucc n =>
      intro mem
      rcases List.mem_cons.mp mem with minus | digit
      · exact notMinus minus
      · exact notMem_toDigits other (n + 1) digit

theorem decimal_injective : Function.Injective decimal := by
  have minus : ∀ m n, Nat.toDigits 10 m ≠ '-' :: Nat.toDigits 10 n := by
    intro m n same
    exact notMem_toDigits (c := '-') rfl m (same ▸ List.mem_cons_self)
  intro i j same
  cases i with
  | ofNat m =>
      cases j with
      | ofNat n => exact congrArg Int.ofNat (toDigits_injective same)
      | negSucc n => exact absurd same (minus m (n + 1))
  | negSucc m =>
      cases j with
      | ofNat n => exact absurd same.symm (minus n (m + 1))
      | negSucc n =>
          exact congrArg Int.negSucc (Nat.succ_injective (toDigits_injective (List.cons.inj same).2))

/-- Texts with a separator that is not in their first parts. -/
theorem append_separator_inj {c : Char} {text text' rest rest' : List Char} (notMem : c ∉ text)
    (notMem' : c ∉ text') (same : text ++ c :: rest = text' ++ c :: rest') :
    text = text' ∧ rest = rest' := by
  induction text generalizing text' with
  | nil =>
      cases text' with
      | nil => exact ⟨rfl, (List.cons.inj same).2⟩
      | cons first text' =>
          exact absurd ((List.cons.inj same).1 ▸ List.mem_cons_self) notMem'
  | cons first text ih =>
      cases text' with
      | nil => exact absurd ((List.cons.inj same).1 ▸ List.mem_cons_self) notMem
      | cons first' text' =>
          obtain ⟨rfl, same'⟩ := List.cons.inj same
          obtain ⟨rfl, rest⟩ := ih (fun mem => notMem (List.mem_cons_of_mem _ mem))
            (fun mem => notMem' (List.mem_cons_of_mem _ mem)) same'
          exact ⟨rfl, rest⟩

end CharStream

end OpenSand
