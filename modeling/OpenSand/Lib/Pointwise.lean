import Mathlib.Data.List.Forall2

/-!
Lists related element by element.

The relation may depend on the position, so that it can say which elements a loop over
positions has passed. A list is related to what is left of it after changes at some of its
positions.
-/

namespace OpenSand

variable {α β γ : Type*}

/-- Lists of one length whose elements are related, position by position. -/
def Pointwise (R : Nat → α → β → Prop) (l : List α) (l' : List β) : Prop :=
  ∀ i, Option.Rel (R i) l[i]? l'[i]?

namespace Pointwise

theorem refl {R : Nat → α → α → Prop} (l : List α) (same : ∀ i, ∀ a ∈ l, R i a a) :
    Pointwise R l l := by
  intro i
  cases found : l[i]? with
  | none => exact .none
  | some a => exact .some (same i a (List.mem_of_getElem? found))

variable {R : Nat → α → β → Prop} {l : List α} {l' : List β}

theorem mono {S : Nat → α → β → Prop} (h : Pointwise R l l')
    (weaker : ∀ i a, l[i]? = some a → ∀ b, R i a b → S i a b) : Pointwise S l l' := by
  intro i
  have related := h i
  generalize found : l[i]? = before at related ⊢
  generalize l'[i]? = after at related ⊢
  cases related with
  | some holds => exact .some (weaker i _ found _ holds)
  | none => exact .none

theorem trans {S : Nat → β → γ → Prop} {T : Nat → α → γ → Prop} {l'' : List γ}
    (h : Pointwise R l l') (h' : Pointwise S l' l'')
    (comp : ∀ i, ∀ a ∈ l, ∀ b c, R i a b → S i b c → T i a c) : Pointwise T l l'' := by
  intro i
  have first := h i
  have second := h' i
  generalize found : l[i]? = before at first ⊢
  generalize l'[i]? = middle at first second
  generalize l''[i]? = after at second ⊢
  cases first with
  | some holds =>
      cases second with
      | some holds' => exact .some (comp i _ (List.mem_of_getElem? found) _ _ holds holds')
  | none =>
      cases second
      exact .none

theorem length_eq (h : Pointwise R l l') : l'.length = l.length := by
  have sameEnd : ∀ i, l'.length ≤ i ↔ l.length ≤ i := by
    intro i
    rw [← List.getElem?_eq_none_iff, ← List.getElem?_eq_none_iff]
    have related := h i
    generalize l[i]? = before at related
    generalize l'[i]? = after at related
    cases related with
    | some => simp
    | none => simp
  exact Nat.le_antisymm ((sameEnd _).mpr Nat.le.refl) ((sameEnd _).mp Nat.le.refl)

/-- The element that a given one comes from. -/
theorem getElem? (h : Pointwise R l l') {i : Nat} {b : β} (found : l'[i]? = some b) :
    ∃ a, l[i]? = some a ∧ R i a b := by
  have related := h i
  rw [found] at related
  generalize before : l[i]? = old at related
  cases related with
  | some holds => exact ⟨_, rfl, holds⟩

/-- A change at one position. -/
theorem modify {R : Nat → α → α → Prop} {l : List α} {i : Nat} {f : α → α}
    (changed : ∀ a, l[i]? = some a → R i a (f a)) (same : ∀ j, j ≠ i → ∀ a ∈ l, R j a a) :
    Pointwise R l (l.modify i f) := by
  intro j
  rw [List.getElem?_modify]
  cases found : l[j]? with
  | none => exact .none
  | some a =>
      by_cases own : i = j
      · subst own
        simpa using Option.Rel.some (changed a found)
      · simpa [own] using Option.Rel.some (same j (Ne.symm own) a (List.mem_of_getElem? found))

theorem map {R : Nat → α → β → Prop} {l : List α} {f : α → β}
    (mapped : ∀ i, ∀ a ∈ l, R i a (f a)) : Pointwise R l (l.map f) := by
  intro i
  rw [List.getElem?_map]
  cases found : l[i]? with
  | none => exact .none
  | some a => exact .some (mapped i a (List.mem_of_getElem? found))

/-- A relation that does not look at the position. -/
theorem forall₂ {R : α → β → Prop} (h : Pointwise (fun _ => R) l l') : List.Forall₂ R l l' := by
  refine List.forall₂_iff_get.mpr ⟨h.length_eq.symm, fun i bound bound' => ?_⟩
  have related := h i
  rw [List.getElem?_eq_getElem bound, List.getElem?_eq_getElem bound'] at related
  cases related with
  | some holds => exact holds

end Pointwise

theorem forall₂_comp {R : α → β → Prop} {S : β → γ → Prop} {l : List α} {m : List β} {n : List γ}
    (h : List.Forall₂ R l m) (h' : List.Forall₂ S m n) :
    List.Forall₂ (fun a c => ∃ b, R a b ∧ S b c) l n := by
  induction h generalizing n with
  | nil =>
      cases h'
      exact .nil
  | cons related rest ih =>
      cases h' with
      | cons related' rest' => exact .cons ⟨_, related, related'⟩ (ih rest')

/-- The first elements of two related lists that satisfy tests agreeing on related elements. -/
theorem find?_of_forall₂ {R : α → β → Prop} {p : α → Bool} {q : β → Bool} {l : List α} {l' : List β}
    (h : List.Forall₂ R l l') (agree : ∀ a b, R a b → q b = p a) :
    Option.Rel R (l.find? p) (l'.find? q) := by
  induction h with
  | nil => exact .none
  | @cons a b l l' related rest ih =>
      rw [List.find?_cons, List.find?_cons, agree a b related]
      cases p a with
      | true => exact .some related
      | false => exact ih

/-- The element that an element of the second list comes from, with it. -/
theorem exists_zip_of_forall₂ {R : α → β → Prop} {l : List α} {l' : List β}
    (h : List.Forall₂ R l l') {b : β} (mem : b ∈ l') : ∃ a, (a, b) ∈ l.zip l' ∧ R a b := by
  induction h with
  | nil => cases mem
  | cons related rest ih =>
      rcases List.mem_cons.mp mem with rfl | later
      · exact ⟨_, List.mem_cons_self, related⟩
      · obtain ⟨a, on, related'⟩ := ih later
        exact ⟨a, List.mem_cons_of_mem _ on, related'⟩

/-! ### Lists made element by element -/

theorem mapM_isSome_iff {f : α → Option β} {l : List α} :
    (l.mapM f).isSome ↔ ∀ a ∈ l, (f a).isSome := by
  induction l with
  | nil => exact iff_of_true rfl fun a mem => absurd mem List.not_mem_nil
  | cons a l ih =>
      rw [List.mapM_cons, List.forall_mem_cons, ← ih]
      cases f a with
      | none => exact iff_of_false Bool.false_ne_true fun both => Bool.false_ne_true both.1
      | some b =>
          cases l.mapM f with
          | none => exact iff_of_false Bool.false_ne_true fun both => Bool.false_ne_true both.2
          | some l' => exact iff_of_true rfl ⟨rfl, rfl⟩

theorem forall₂_of_mapM {f : α → Option β} {l : List α} {l' : List β} (made : l.mapM f = some l') :
    List.Forall₂ (fun a b => f a = some b) l l' := by
  induction l generalizing l' with
  | nil =>
      cases made
      exact .nil
  | cons a l ih =>
      rw [List.mapM_cons] at made
      obtain ⟨b, first, rest⟩ := Option.bind_eq_some_iff.mp made
      obtain ⟨l'', later, last⟩ := Option.bind_eq_some_iff.mp rest
      cases last
      exact .cons first (ih later)

/-- What is read of each element of the second list is known of the first. -/
theorem map_eq_of_forall₂ {R : α → β → Prop} {l : List α} {l' : List β} (h : List.Forall₂ R l l')
    {f : α → γ} {g : β → γ} (agree : ∀ a b, R a b → g b = f a) : l'.map g = l.map f := by
  induction h with
  | nil => rfl
  | @cons a b l l' related rest ih => rw [List.map_cons, List.map_cons, agree a b related, ih]

end OpenSand
