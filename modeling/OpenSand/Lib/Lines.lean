import Mathlib.Data.List.TakeWhile

/-!
Lines read into a buffer of fixed size, as `istream::getline` does it.

A loop on `getline` ends at the first line that does not fit in the buffer: `whileGetline_eq` says
that it goes through the lines before it, and no further.
-/

namespace OpenSand

/-- The lines of a text. There is none behind a last line feed. -/
def lines (text : List Char) : List (List Char) :=
  let pieces := text.splitOn '\n'
  if pieces.getLast? = some [] then pieces.dropLast else pieces

theorem lines_append_cons {line : List Char} (whole : '\n' ∉ line) (rest : List Char) :
    lines (line ++ '\n' :: rest) = line :: lines rest := by
  have split := List.splitOn_append_cons_self_of_not_mem whole rest
  obtain ⟨first, others, pieces⟩ := List.exists_cons_of_ne_nil (List.splitOn_ne_nil '\n' rest)
  simp only [lines, split, pieces, List.getLast?_cons_cons, List.dropLast_cons_cons]
  split <;> rfl

theorem lines_of_notMem {line : List Char} (whole : '\n' ∉ line) :
    lines line = if line = [] then [] else [line] := by
  simp [lines, List.splitOn_eq_singleton whole]

/-- The characters left to read, and whether the end was met. -/
structure LineStream where
  rest : List Char
  eof : Bool

/-- Extract a line into a buffer, which also holds its end. A line that does not fit is a failure,
and so is a stream at its end. -/
def LineStream.getline (size : Nat) (stream : LineStream) : Option (List Char × LineStream) :=
  if stream.eof then none
  else
    let line := stream.rest.takeWhile (· ≠ '\n')
    if size ≤ line.length then none
    else
      match stream.rest.dropWhile (· ≠ '\n') with
      | [] => if line = [] then none else some (line, ⟨[], true⟩)
      | _ :: rest => some (line, ⟨rest, false⟩)

/-- Call the body on each line, within a number of calls of `getline`. -/
def whileGetline {σ : Type*} (size : Nat) (body : σ → List Char → σ) : Nat → LineStream → σ → σ
  | 0, _, s => s
  | fuel + 1, stream, s =>
      match stream.getline size with
      | none => s
      | some (line, stream) => whileGetline size body fuel stream (body s line)

/-- The first line of a text, and what is behind it. -/
theorem exists_first_line (text : List Char) :
    '\n' ∉ text.takeWhile (· ≠ '\n') ∧
      (text.dropWhile (· ≠ '\n') = [] ∧ text.takeWhile (· ≠ '\n') = text ∨
        ∃ rest, text.dropWhile (· ≠ '\n') = '\n' :: rest ∧
          text = text.takeWhile (· ≠ '\n') ++ '\n' :: rest) := by
  have whole : '\n' ∉ text.takeWhile (· ≠ '\n') := by
    intro mem
    simpa using List.mem_takeWhile_imp mem
  have parts := @List.takeWhile_append_dropWhile _ (fun c => decide (c ≠ '\n')) text
  cases behind : text.dropWhile (· ≠ '\n') with
  | nil =>
      rw [behind, List.append_nil] at parts
      exact ⟨whole, .inl ⟨rfl, parts⟩⟩
  | cons c rest =>
      have feed : c = '\n' := by
        have some : text.dropWhile (· ≠ '\n') ≠ [] := behind ▸ List.cons_ne_nil _ _
        have stops := List.head_dropWhile_not (fun c => decide (c ≠ '\n')) some
        simpa only [behind, List.head_cons, decide_eq_false_iff_not, not_not] using stops
      subst feed
      rw [behind] at parts
      exact ⟨whole, .inr ⟨rest, rfl, parts.symm⟩⟩

variable {σ : Type*} {size : Nat} {body : σ → List Char → σ}

/-- The loop goes through the lines before the first one that does not fit. -/
theorem whileGetline_eq {fuel : Nat} {text : List Char} (enough : text.length + 1 < fuel) (s : σ) :
    whileGetline size body fuel ⟨text, false⟩ s =
      ((lines text).takeWhile (·.length < size)).foldl body s := by
  induction fuel generalizing text s with
  | zero => exact absurd enough (Nat.not_lt_zero _)
  | succ fuel ih =>
      obtain ⟨whole, ⟨ends, same⟩ | ⟨rest, behind, same⟩⟩ := exists_first_line text
      · rw [same] at whole
        rw [whileGetline, LineStream.getline, lines_of_notMem whole]
        simp only [ends, same, Bool.false_eq_true, if_false]
        by_cases long : size ≤ text.length
        · have stays : (if text = [] then [] else [text]).takeWhile
              (fun line => decide (line.length < size)) = [] := by
            split
            · rfl
            · exact List.takeWhile_cons_of_neg (by simpa using long)
          rw [if_pos long, stays]
          rfl
        rw [if_neg long]
        by_cases empty : text = []
        · rw [if_pos empty, if_pos empty]
          rfl
        · rw [if_neg empty, if_neg empty, List.takeWhile_cons_of_pos (by simpa using long)]
          -- the end of the text makes the next call fail
          cases fuel with
          | zero => omega
          | succ fuel => rfl
      · have shorter : rest.length < text.length := by
          rw [same, List.length_append, List.length_cons]
          omega
        rw [whileGetline, LineStream.getline,
          (congrArg lines same).trans (lines_append_cons whole rest)]
        simp only [behind, Bool.false_eq_true, if_false]
        by_cases long : size ≤ (text.takeWhile (· ≠ '\n')).length
        · rw [if_pos long, List.takeWhile_cons_of_neg (by simpa using long)]
          rfl
        · rw [if_neg long, List.takeWhile_cons_of_pos (by simpa using long), List.foldl_cons]
          exact ih (by omega) _

end OpenSand
