import Mathlib.Data.List.Basic

/-!
Texts cut into tokens.

The tokens of a list are its longest parts without separators, the empty ones left out. Parts
that are not empty and that do not hold a separator are the tokens of the list that joins them.
-/

namespace OpenSand

/-! ### Several separators -/

section Delimiters

variable {γ : Type*}

/-- The tokens between the elements that a test takes for separators. -/
def tokensBy (isDelimiter : γ → Bool) (text : List γ) : List (List γ) :=
  (text.splitOnP isDelimiter).filter (!·.isEmpty)

variable {isDelimiter : γ → Bool}

/-- A part without separator is a token. -/
theorem tokensBy_of_forall {part : List γ} (whole : ∀ c ∈ part, isDelimiter c = false)
    (nonempty : part ≠ []) : tokensBy isDelimiter part = [part] := by
  have single : part.splitOnP isDelimiter = [part] := by
    apply List.splitOnP_eq_singleton
    simpa using whole
  rw [tokensBy, single]
  simp [nonempty]

theorem tokensBy_append_cons {part rest : List γ} {delimiter : γ}
    (whole : ∀ c ∈ part, isDelimiter c = false) (nonempty : part ≠ [])
    (separates : isDelimiter delimiter = true) :
    tokensBy isDelimiter (part ++ delimiter :: rest) = part :: tokensBy isDelimiter rest := by
  have single : part.splitOnP isDelimiter = [part] := by
    apply List.splitOnP_eq_singleton
    simpa using whole
  rw [tokensBy, List.splitOnP_append_cons _ _ separates, single]
  simp [nonempty, tokensBy]

/-- The tokens of parts joined by one of the separators are the parts. -/
theorem tokensBy_intercalate {parts : List (List γ)} {delimiter : γ}
    (whole : ∀ part ∈ parts, ∀ c ∈ part, isDelimiter c = false)
    (nonempty : ∀ part ∈ parts, part ≠ []) (separates : isDelimiter delimiter = true) :
    tokensBy isDelimiter ([delimiter].intercalate parts) = parts := by
  induction parts with
  | nil => simp [tokensBy]
  | cons part parts ih =>
      obtain ⟨wholePart, whole'⟩ := List.forall_mem_cons.mp whole
      obtain ⟨nonemptyPart, nonempty'⟩ := List.forall_mem_cons.mp nonempty
      cases parts with
      | nil =>
          rw [List.intercalate_singleton]
          exact tokensBy_of_forall wholePart nonemptyPart
      | cons next parts =>
          rw [List.intercalate_cons_cons, List.append_assoc, List.singleton_append,
            tokensBy_append_cons wholePart nonemptyPart separates, ih whole' nonempty']

end Delimiters

/-! ### One separator -/

variable {α : Type*} [BEq α]

def tokenize (separator : α) (text : List α) : List (List α) :=
  (text.splitOn separator).filter (!·.isEmpty)

variable {separator : α}

@[simp] theorem tokenize_nil : tokenize separator ([] : List α) = [] := by
  simp [tokenize]

theorem tokenize_eq (text : List α) : tokenize separator text = tokensBy (· == separator) text :=
  rfl

variable [LawfulBEq α]

theorem tokenize_intercalate {parts : List (List α)}
    (whole : ∀ part ∈ parts, separator ∉ part) (nonempty : ∀ part ∈ parts, part ≠ []) :
    tokenize separator ([separator].intercalate parts) = parts := by
  have others : ∀ part ∈ parts, ∀ c ∈ part, (c == separator) = false := by
    intro part mem c held
    apply beq_eq_false_iff_ne.mpr
    rintro rfl
    exact whole part mem held
  rw [tokenize_eq]
  exact tokensBy_intercalate others nonempty (beq_self_eq_true separator)

end OpenSand
