import OpenSand.Lib.CharStream

/-!
Integers as they are written, and what `>>` and `sscanf` make of them.

Both read a sign and digits after white space. `>>` fails on a number that is too large, `%u` does
not, and neither minds a minus sign.
-/

namespace OpenSand

open CharStream

/-- The integer at the start of a text, and the characters after it. -/
def numeral (text : List Char) : Option (Int × List Char) :=
  let (negative, chars) := readSign (skipWhitespace text)
  let digits := chars.takeWhile Char.isDigit
  let magnitude : Int := Nat.ofDigitChars 10 digits 0
  if digits = [] then none
  else some (if negative then -magnitude else magnitude, chars.dropWhile Char.isDigit)

/-- The integers of a text with a separator between them; what is behind the last one is not
read. -/
def scanNumbers (separator : Char) : Nat → List Char → Option (List Int)
  | 0, _ => some []
  | 1, text => (numeral text).map fun (i, _) => [i]
  | count + 2, text =>
      match numeral text with
      | some (i, c :: rest) =>
          if c = separator then (scanNumbers separator (count + 1) rest).map (i :: ·) else none
      | _ => none

/-- What `%u` stores: the integer, or the largest one, as 64 bits and then 32. -/
def asUnsigned (i : Int) : Nat := if 2 ^ 64 ≤ i.natAbs then 2 ^ 32 - 1 else (i % 2 ^ 32).toNat

theorem asUnsigned_of_fits {i : Int} (low : 0 ≤ i) (high : i < 2 ^ 32) : asUnsigned i = i.toNat := by
  rw [asUnsigned, if_neg (by omega), Int.emod_eq_of_lt low high]

theorem natCast_emod_toNat {w n : Nat} (fits : n < 2 ^ w) : ((n : Int) % 2 ^ w).toNat = n := by
  have cast : ((2 ^ w : Nat) : Int) = 2 ^ w := by push_cast; rfl
  rw [← cast, ← Int.natCast_emod, Int.toNat_natCast, Nat.mod_eq_of_lt fits]

theorem neg_emod_toNat {w n : Nat} (fits : n < 2 ^ w) :
    (-(n : Int) % 2 ^ w).toNat = (2 ^ w - n) % 2 ^ w := by
  have cast : ((2 ^ w : Nat) : Int) = 2 ^ w := by push_cast; rfl
  have shift : -(n : Int) % (2 ^ w : Nat) = ((2 ^ w - n : Nat) : Int) % (2 ^ w : Nat) := by
    rw [Int.natCast_sub (Nat.le_of_lt fits), Int.sub_eq_add_neg, Int.add_emod_left]
  rw [← cast, shift, ← Int.natCast_emod, Int.toNat_natCast]

namespace CharStream

/-- Extraction of an unsigned integer in the terms of what is written. -/
theorem extractUnsigned_of_numeral {w target : Nat} {text rest : List Char} {i : Int}
    (read : numeral text = some (i, rest)) :
    extractUnsigned w ⟨text, false⟩ target =
      if 2 ^ w ≤ i.natAbs then (2 ^ w - 1, ⟨rest, true⟩) else ((i % 2 ^ w).toNat, ⟨rest, false⟩) := by
  simp only [numeral] at read
  split at read
  · cases read
  next digits =>
    cases read
    simp only [extractUnsigned, Bool.false_eq_true, if_false, if_neg digits]
    generalize Nat.ofDigitChars 10 _ 0 = magnitude
    cases (readSign (skipWhitespace text)).1 with
    | false =>
        simp only [Bool.false_eq_true, if_false, Int.natAbs_natCast]
        by_cases large : 2 ^ w ≤ magnitude
        · rw [if_pos large, if_pos large]
        · rw [if_neg large, if_neg large, natCast_emod_toNat (Nat.not_le.mp large)]
    | true =>
        simp only [if_true, Int.natAbs_neg, Int.natAbs_natCast]
        by_cases large : 2 ^ w ≤ magnitude
        · rw [if_pos large, if_pos large]
        · rw [if_neg large, if_neg large, neg_emod_toNat (Nat.not_le.mp large)]

theorem extractUnsigned_of_no_numeral {w target : Nat} {text : List Char}
    (missing : numeral text = none) : (extractUnsigned w ⟨text, false⟩ target).2.fail = true := by
  simp only [numeral] at missing
  split at missing
  next digits => simp only [extractUnsigned, Bool.false_eq_true, if_false, if_pos digits]
  · cases missing

/-- Extraction of a word: what is before the next white space. -/
def extractWord (s : CharStream) (target : List Char) : List Char × CharStream :=
  if s.fail then (target, s)
  else
    let chars := skipWhitespace s.rest
    let word := chars.takeWhile (!CharStream.isSpace ·)
    if word = [] then ([], ⟨chars, true⟩) else (word, ⟨chars.dropWhile (!CharStream.isSpace ·), false⟩)

end CharStream

end OpenSand
