import Mathlib.Logic.Relation
import Mathlib.Order.WellFounded

/-!
Loops of a machine that goes from state to state until it halts.

A turn is a partial step, and `exec` takes turns as long as it has fuel. A well-founded
relation that every turn goes down gives a fuel that is enough, whatever is added to it.
`exec_iff` turns an exact law of one turn into an exact law of the loop.
-/

namespace OpenSand.Loop

variable {σ : Type*}

/-- The state in which the loop halts, when it does with this fuel. -/
def exec (halted : σ → Bool) (step : σ → Option σ) : Nat → σ → Option σ
  | 0, _ => none
  | fuel + 1, s => if halted s then some s else (step s).bind (exec halted step fuel)

/-- A turn of the loop. -/
def Turn (halted : σ → Bool) (step : σ → Option σ) (s s' : σ) : Prop :=
  halted s = false ∧ step s = some s'

/-- The states that the loop goes through. -/
def Reaches (halted : σ → Bool) (step : σ → Option σ) : σ → σ → Prop :=
  Relation.ReflTransGen (Turn halted step)

variable {halted : σ → Bool} {step : σ → Option σ} {P Q C : σ → Prop} {s s' : σ} {fuel : Nat}

/-- The loop rule. -/
theorem Reaches.keeps (keep : ∀ s s', P s → Turn halted step s s' → P s') (init : P s)
    (h : Reaches halted step s s') : P s' := by
  induction h with
  | refl => exact init
  | tail _ turn ih => exact keep _ _ ih turn

theorem exec_reaches (h : exec halted step fuel s = some s') :
    Reaches halted step s s' ∧ halted s' = true := by
  induction fuel generalizing s with
  | zero => cases h
  | succ fuel ih =>
      rw [exec] at h
      split at h
      next halt =>
        cases h
        exact ⟨.refl, halt⟩
      next running =>
        obtain ⟨mid, stepped, rest⟩ := Option.bind_eq_some_iff.mp h
        obtain ⟨reached, halt⟩ := ih rest
        exact ⟨.head ⟨Bool.eq_false_of_not_eq_true running, stepped⟩ reached, halt⟩

theorem exec_mono {more : Nat} (le : fuel ≤ more) (h : exec halted step fuel s = some s') :
    exec halted step more s = some s' := by
  induction fuel generalizing s more with
  | zero => cases h
  | succ fuel ih =>
      obtain ⟨more, rfl⟩ := Nat.exists_eq_add_of_le' (Nat.one_le_of_lt le)
      rw [exec] at h ⊢
      split at h
      next halt => rw [if_pos halt, h]
      next running =>
        obtain ⟨mid, stepped, rest⟩ := Option.bind_eq_some_iff.mp h
        rw [if_neg running, stepped]
        exact ih (Nat.le_of_succ_le_succ le) rest

/-- A loop whose turns keep an invariant and go down a well-founded relation halts. -/
theorem exec_ends {r : σ → σ → Prop} (wf : WellFounded r)
    (progress : ∀ s, P s → halted s = false → ∃ s', step s = some s' ∧ P s' ∧ r s' s)
    (init : P s) : ∃ fuel s', exec halted step fuel s = some s' := by
  induction s using wf.induction with
  | _ s ih =>
      cases halt : halted s with
      | true => exact ⟨1, s, if_pos halt⟩
      | false =>
          obtain ⟨next, stepped, keeps, down⟩ := progress s init halt
          obtain ⟨fuel, s', rest⟩ := ih next down keeps
          refine ⟨fuel + 1, s', ?_⟩
          rw [exec, halt, stepped]
          exact rest

/-- If, as long as an invariant holds, a turn leads to a good state exactly when it meets
the condition, and never from a bad state to a good one, then the loop halts in a good
state exactly when all its turns meet the condition. -/
theorem exec_iff (keep : ∀ s s', Q s → Turn halted step s s' → Q s')
    (back : ∀ s s', Q s → Turn halted step s s' → P s' → P s)
    (exact_turn : ∀ s s', Q s → P s → Turn halted step s s' → (P s' ↔ C s))
    (inv : Q s) (init : P s) (h : exec halted step fuel s = some s') :
    P s' ↔ ∀ mid, Reaches halted step s mid → halted mid = false → C mid := by
  induction fuel generalizing s with
  | zero => cases h
  | succ fuel ih =>
      rw [exec] at h
      split at h
      next halt =>
        cases h
        refine ⟨fun _ mid reached running => ?_, fun _ => init⟩
        rcases Relation.ReflTransGen.cases_head reached with rfl | ⟨next, turn, -⟩
        · rw [halt] at running
          cases running
        · exact absurd (halt.symm.trans turn.1) (by simp)
      next running =>
        obtain ⟨next, stepped, rest⟩ := Option.bind_eq_some_iff.mp h
        have turn : Turn halted step s next := ⟨Bool.eq_false_of_not_eq_true running, stepped⟩
        have inv' := keep s next inv turn
        constructor
        · intro good mid reached runningMid
          have goodNext : P next :=
            ((exec_reaches rest).1.keeps (P := fun s => Q s ∧ (P s → P next))
              (fun a b kept turn => ⟨keep a b kept.1 turn,
                fun good => kept.2 (back a b kept.1 turn good)⟩) ⟨inv', id⟩).2 good
          rcases Relation.ReflTransGen.cases_head reached with rfl | ⟨other, turn', later⟩
          · exact (exact_turn s next inv init turn).mp goodNext
          · obtain rfl : next = other := Option.some.inj (stepped.symm.trans turn'.2)
            exact (ih inv' goodNext rest).mp good mid later runningMid
        · intro calls
          have goodNext := (exact_turn s next inv init turn).mpr (calls s .refl turn.1)
          exact (ih inv' goodNext rest).mpr fun mid later => calls mid (.head turn later)

end OpenSand.Loop
