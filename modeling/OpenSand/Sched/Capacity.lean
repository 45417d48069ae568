import OpenSand.Sched.LoopMoves

/-!
The capacity that the loops of the S2 schedulers spend.

The symbols emitted on some carriers and the capacity they have left only exchange: a
move spends one for the other, whatever it does with the frames.
-/

namespace OpenSand

/-- The symbols of the complete frames that were scheduled on some carriers. -/
def BBFrames.emitted (bbframes : BBFrames) (position : Nat × Nat) : Nat :=
  ((bbframes.complete.filter (·.carriers = position)).map (·.sizeSym)).sum

/-! ### Moves -/

theorem BBFrames.emitted_append {bbframes bbframes' : BBFrames} {f sizeSym : Nat}
    {position : Nat × Nat}
    (complete : bbframes'.complete = bbframes.complete ++ [⟨f, position, sizeSym⟩])
    (p : Nat × Nat) :
    bbframes'.emitted p = bbframes.emitted p + if p = position then sizeSym else 0 := by
  rw [BBFrames.emitted, BBFrames.emitted, complete, List.filter_append, List.map_append,
    List.sum_append]
  by_cases same : p = position
  · subst same
    simp
  · simp [same, Ne.symm same]

/-- What is emitted on carriers is taken from the capacity, the other ones emit nothing. -/
structure Spends (position : Nat × Nat) (s s' : Serving) : Prop where
  own : s'.bbframes.emitted position + s'.capacitySym ≤
    s.bbframes.emitted position + s.capacitySym
  others : ∀ p, p ≠ position → s'.bbframes.emitted p = s.bbframes.emitted p

section Moves

variable {link : S2Link} {position : Nat × Nat} {licence : Licence} {s s' : Serving}

/-- A frame completed on the carriers. -/
theorem Spends.emit {f sizeSym : Nat} (enough : sizeSym ≤ s.capacitySym)
    (complete : s'.bbframes.complete = s.bbframes.complete ++ [⟨f, position, sizeSym⟩])
    (capacity : s'.capacitySym = s.capacitySym - sizeSym) : Spends position s s' where
  own := by
    rw [BBFrames.emitted_append complete, if_pos rfl, capacity]
    omega
  others p other := by
    rw [BBFrames.emitted_append complete, if_neg other, Nat.add_zero]

/-- No frame is completed. -/
theorem Spends.idle (complete : s'.bbframes.complete = s.bbframes.complete)
    (capacity : s'.capacitySym ≤ s.capacitySym) : Spends position s s' where
  own := by
    rw [BBFrames.emitted, BBFrames.emitted, complete]
    exact Nat.add_le_add_left capacity _
  others p _ := by rw [BBFrames.emitted, BBFrames.emitted, complete]

theorem Move.spends (once : ¬ licence.refill) (move : Move link position licence s s') :
    Spends position s s' := by
  cases move with
  | create => exact .idle rfl le_rfl
  | skip => exact .idle rfl le_rfl
  | encap _ _ _ _ _ _ _ _ added =>
      refine .idle ?_ le_rfl
      rw [BBFrames.addData_eq added]
  | lose => exact .idle rfl le_rfl
  | complete _ _ enough => exact .emit enough rfl rfl
  | pend => exact .idle rfl le_rfl
  | resume _ _ enough => exact .emit enough rfl rfl
  | forget => exact .idle rfl le_rfl
  | capacity allowed => exact .idle rfl (allowed.resolve_left once)
  | carriers => exact .idle rfl le_rfl

theorem Evolves.spends (once : ¬ licence.refill) (evolves : Evolves link position licence s s') :
    Spends position s s' := by
  refine evolves.keeps (P := Spends position s) ?_ (.idle rfl le_rfl)
  intro mid mid' before move
  have step := move.spends once
  exact ⟨step.own.trans before.own, fun p other => (step.others p other).trans
    (before.others p other)⟩

end Moves

/-- A frame is completed only when the capacity is enough for it. -/
theorem BBFrames.addCompleteBBFrame_enough {bbframes : BBFrames} {table : FmtDefinitionTable}
    {position : Nat × Nat} {f capacitySym : Nat}
    (added : (bbframes.addCompleteBBFrame table position f capacitySym).1 = .ok) :
    ∃ sizeSym, bbframes.sizeSym table f = some sizeSym ∧ sizeSym ≤ capacitySym := by
  rcases bbframes.addCompleteBBFrame_cases table position f capacitySym with
    ⟨_, eq⟩ | ⟨sizeSym, size, ⟨_, eq⟩ | ⟨enough, _⟩⟩
  · rw [eq] at added
    cases added
  · rw [eq] at added
    cases added
  · exact ⟨sizeSym, size, enough⟩

end OpenSand
