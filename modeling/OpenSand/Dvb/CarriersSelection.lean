import OpenSand.Dvb.BandPlan

/-!
What the calculation of the carriers to transfer selects.

The walk takes as many carriers of each rate as it takes and as are listed, from the largest rate
on. If it runs out before the rate is reached, one carrier more is taken of the last spare rate: a
rate that was too large, or of which it did not take exactly half. The carriers are well selected
when the walk reaches the rate exactly or the spare rate has a carrier left.
-/

namespace OpenSand

open OpenSand.Word

/-- A rate that one carrier more may be taken of, with the carriers taken and the ones listed. -/
structure SpareRate where
  rate : ℚ
  taken : Nat
  stock : Nat

/-- The end of the walk: the rate that is still needed and the last spare rate. -/
structure CarriersWalk where
  left : ℚ
  spare : Option SpareRate

/-- A spare rate counts unless a smaller one comes after it. -/
def CarriersWalk.passed (walk : CarriersWalk) (spare : SpareRate) : CarriersWalk :=
  { walk with spare := walk.spare <|> some spare }

@[simp] theorem CarriersWalk.passed_of_spare (left : ℚ) (spare larger : SpareRate) :
    (⟨left, some spare⟩ : CarriersWalk).passed larger = ⟨left, some spare⟩ := rfl

/-- The walk over the rates, from the largest one on. A quotient that is not a 32-bit word has no
result. -/
def walkCarriers (need : ℚ) : List (ℚ × Nat) → Option CarriersWalk
  | [] => some ⟨need, none⟩
  | (rate, stock) :: smaller =>
      if need ≤ 0 then some ⟨need, none⟩
      else if need < rate then (walkCarriers need smaller).map (·.passed ⟨rate, 0, stock⟩)
      else if rate ≤ 0 ∨ 2 ^ 32 ≤ ⌊need / rate⌋₊ then none
      else
        let number := min ⌊need / rate⌋₊ stock
        (walkCarriers (need - rate * number) smaller).map fun walk =>
          if number = stock - number then walk else walk.passed ⟨rate, number, stock⟩

/-- The walk reaches the rate exactly, or its last spare rate has a carrier left. -/
def CarriersWalk.Suffices (walk : CarriersWalk) : Prop :=
  walk.left ≤ 0 ∨ ∃ spare, walk.spare = some spare ∧ spare.taken < spare.stock

/-! ### The plan of a walk -/

/-- Carriers of a list that make up a rate, without one to spare. -/
structure Selects (need left : ℚ) (stocks carriers : List (ℚ × Nat)) : Prop where
  within : ∀ entry ∈ carriers, ∃ stock, (entry.1, stock) ∈ stocks ∧ entry.2 ≤ stock
  sum : carriersRate carriers = need - left
  reached : left ≤ 0
  surplus : ∀ entry ∈ carriers, 0 < entry.2 → -left < entry.1

/-- More carriers of a rate than are listed, or too few for the rate needed. -/
def Misses (need : ℚ) (stocks carriers : List (ℚ × Nat)) : Prop :=
  (∃ entry ∈ carriers, ∃ stock, (entry.1, stock) ∈ stocks ∧ stock < entry.2) ∨
    carriersRate carriers < need

/-- How a walk and its plan may end. -/
inductive PlanEnds (need : ℚ) (stocks : List (ℚ × Nat)) : Option CarriersWalk → BandPlan → Prop
  | undefined : PlanEnds need stocks none .undefined
  | reached {spare : Option SpareRate} {carriers : List (ℚ × Nat)} :
      Selects need 0 stocks carriers → PlanEnds need stocks (some ⟨0, spare⟩) (.made carriers 0)
  | short {left : ℚ} : 0 < left → 0 < need → PlanEnds need stocks (some ⟨left, none⟩) .short
  | more {left left' : ℚ} {spare : SpareRate} {carriers : List (ℚ × Nat)} :
      0 < left → spare.taken < spare.stock → (spare.rate, spare.stock) ∈ stocks →
      -left' < spare.rate → Selects need left' stocks carriers →
      PlanEnds need stocks (some ⟨left, some spare⟩) (.made carriers left')
  | lacking {left left' : ℚ} {spare : SpareRate} {carriers : List (ℚ × Nat)} :
      0 < left → ¬ spare.taken < spare.stock → Misses need stocks carriers →
      PlanEnds need stocks (some ⟨left, some spare⟩) (.made carriers left')
  | lost {left : ℚ} {spare : SpareRate} : 0 < left → ¬ spare.taken < spare.stock →
      PlanEnds need stocks (some ⟨left, some spare⟩) .undefined

section

variable {need left : ℚ} {rate : ℚ} {number stock : Nat} {stocks carriers : List (ℚ × Nat)}

theorem Selects.weaken (selects : Selects need left stocks carriers) (entry : ℚ × Nat) :
    Selects need left (entry :: stocks) carriers where
  within entry' mem := by
    obtain ⟨stock, listed, le⟩ := selects.within entry' mem
    exact ⟨stock, List.mem_cons_of_mem _ listed, le⟩
  sum := selects.sum
  reached := selects.reached
  surplus := selects.surplus

theorem Misses.weaken (misses : Misses need stocks carriers) (entry : ℚ × Nat) :
    Misses need (entry :: stocks) carriers := by
  rcases misses with ⟨entry', mem, stock, listed, lt⟩ | few
  · exact .inl ⟨entry', mem, stock, List.mem_cons_of_mem _ listed, lt⟩
  · exact .inr few

/-- The carriers of a larger rate are added. -/
theorem Selects.add (selects : Selects (need - rate * number) left stocks carriers)
    (le : number ≤ stock) (above : -left < rate) :
    Selects need left ((rate, stock) :: stocks) (carriers ++ [(rate, number)]) where
  within entry mem := by
    rcases List.mem_append.mp mem with mem | mem
    · obtain ⟨stock', listed, le'⟩ := selects.within entry mem
      exact ⟨stock', List.mem_cons_of_mem _ listed, le'⟩
    · rw [List.mem_singleton.mp mem]
      exact ⟨stock, List.mem_cons_self, le⟩
  sum := by
    rw [carriersRate_append, selects.sum, carriersRate, List.map_singleton, List.sum_singleton]
    ring
  reached := selects.reached
  surplus entry mem pos := by
    rcases List.mem_append.mp mem with mem | mem
    · exact selects.surplus entry mem pos
    · rwa [List.mem_singleton.mp mem]

theorem Misses.add (misses : Misses (need - rate * number) stocks carriers) :
    Misses need ((rate, stock) :: stocks) (carriers ++ [(rate, number)]) := by
  rcases misses with ⟨entry, mem, stock', listed, lt⟩ | few
  · exact .inl ⟨entry, List.mem_append_left _ mem, stock', List.mem_cons_of_mem _ listed, lt⟩
  · right
    rw [carriersRate_append, carriersRate_cons]
    change carriersRate carriers + (rate * number + 0) < need
    linarith

/-- One carrier of a spare rate alone. -/
theorem selects_one (more : number < stock) (word : stock < 2 ^ 32) (pos : 0 < need - rate * number)
    (le : need - rate * number ≤ rate) :
    Selects need (need - rate * number - rate) ((rate, stock) :: stocks)
      [(rate, addW 32 number 1)] where
  within := by
    rw [addW_of_lt (by omega)]
    exact List.forall_mem_singleton.mpr ⟨stock, List.mem_cons_self, more⟩
  sum := by
    rw [addW_of_lt (by omega), carriersRate, List.map_singleton, List.sum_singleton]
    push_cast
    ring
  reached := by linarith
  surplus := List.forall_mem_singleton.mpr fun _ => by linarith

/-- One carrier more of a rate that has none left. -/
theorem misses_one (word : stock < 2 ^ 32) (pos : 0 < need) :
    Misses need ((rate, stock) :: stocks) [(rate, addW 32 stock 1)] := by
  by_cases fits : stock + 1 < 2 ^ 32
  · left
    refine ⟨_, List.mem_singleton_self _, stock, List.mem_cons_self, ?_⟩
    rw [addW_of_lt fits]
    exact Nat.lt_succ_self stock
  · right
    have last : stock = 2 ^ 32 - 1 := by omega
    have none : addW 32 stock 1 = 0 := by
      rw [last]
      rfl
    rw [none, carriersRate, List.map_singleton, List.sum_singleton]
    simpa using pos

/-- A rate above the others that is passed over. -/
theorem PlanEnds.weaken {walk : Option CarriersWalk} {plan : BandPlan}
    (ends : PlanEnds need stocks walk plan) (entry : ℚ × Nat) (spare : SpareRate)
    (long : plan ≠ .short) :
    PlanEnds need (entry :: stocks) (walk.map (·.passed spare)) plan := by
  cases ends with
  | undefined => exact .undefined
  | reached selects => exact .reached (selects.weaken entry)
  | short => exact absurd rfl long
  | more pos lt listed above selects =>
      exact .more pos lt (List.mem_cons_of_mem _ listed) above (selects.weaken entry)
  | lacking pos none misses => exact .lacking pos none (misses.weaken entry)
  | lost pos none => exact .lost pos none

/-- A rate of which carriers are taken, when the smaller rates make up what is left. -/
theorem PlanEnds.add {walk : CarriersWalk} {plan : BandPlan} {spare : SpareRate}
    (ends : PlanEnds (need - rate * number) stocks (some walk) plan) (le : number ≤ stock)
    (pos : 0 < rate) (below : ∀ entry ∈ stocks, entry.1 < rate) (long : plan ≠ .short)
    {walk' : CarriersWalk} (same : walk' = walk ∨ walk' = walk.passed spare) :
    PlanEnds need ((rate, stock) :: stocks) (some walk') (match plan with
      | .made carriers left => .made (carriers ++ [(rate, number)]) left
      | plan => plan) := by
  cases ends with
  | reached selects =>
      rcases same with rfl | rfl
      · exact .reached (selects.add le (by simpa using pos))
      · exact .reached (selects.add le (by simpa using pos))
  | short => exact absurd rfl long
  | more left lt listed above selects =>
      have added := selects.add le (above.trans (below _ listed))
      rw [CarriersWalk.passed_of_spare, or_self] at same
      subst same
      exact .more left lt (List.mem_cons_of_mem _ listed) above added
  | lacking left none misses =>
      rw [CarriersWalk.passed_of_spare, or_self] at same
      subst same
      exact .lacking left none misses.add
  | lost left none =>
      rw [CarriersWalk.passed_of_spare, or_self] at same
      subst same
      exact .lost left none

/-- A rate that is too large for what is needed becomes the spare one, unless a smaller one does. -/
theorem PlanEnds.large {walk : Option CarriersWalk} {plan : BandPlan}
    (ends : PlanEnds need stocks walk plan) (word : stock < 2 ^ 32) (pos : 0 < need)
    (large : need < rate) :
    PlanEnds need ((rate, stock) :: stocks) (walk.map (·.passed ⟨rate, 0, stock⟩)) (match plan with
      | .short => .made [(rate, 1)] (need - rate)
      | plan => plan) := by
  cases plan with
  | made carriers left => exact ends.weaken (rate, stock) ⟨rate, 0, stock⟩ (by simp)
  | undefined => exact ends.weaken (rate, stock) ⟨rate, 0, stock⟩ (by simp)
  | short =>
      cases ends with
      | short left _ =>
          by_cases more : 0 < stock
          · have one := @selects_one need rate 0 stock stocks more word (by simpa using pos)
              (by simpa using large.le)
            rw [Nat.cast_zero, mul_zero, sub_zero] at one
            exact .more left more List.mem_cons_self (by linarith) one
          · obtain rfl : stock = 0 := by omega
            exact .lacking left more (misses_one word pos)

/-- What carriers of a rate leave to be needed; with carriers of the rate left, it is smaller than
one of them. -/
theorem rate_left (positive : 0 < rate) (nonneg : 0 ≤ need)
    (taken : number = min ⌊need / rate⌋₊ stock) :
    0 ≤ need - rate * number ∧ (number < stock → need - rate * number < rate) := by
  have quotient : (number : ℚ) ≤ need / rate :=
    (Nat.cast_le.mpr (taken.le.trans (Nat.min_le_left _ _))).trans
      (Nat.floor_le (div_nonneg nonneg positive.le))
  rw [le_div_iff₀ positive] at quotient
  refine ⟨by linarith, fun more => ?_⟩
  obtain rfl : number = ⌊need / rate⌋₊ := by omega
  have above := Nat.lt_floor_add_one (need / rate)
  rw [div_lt_iff₀ positive] at above
  linarith

/-- A rate of which carriers are taken becomes the spare one if they are not half of those listed,
unless a smaller one does. -/
theorem PlanEnds.taken {walk : Option CarriersWalk} {plan : BandPlan}
    (ends : PlanEnds (need - rate * number) stocks walk plan) (word : stock < 2 ^ 32)
    (pos : 0 < need) (positive : 0 < rate) (below : ∀ entry ∈ stocks, entry.1 < rate)
    (le : number ≤ stock) (small : number < stock → need - rate * number < rate) :
    PlanEnds need ((rate, stock) :: stocks)
      (walk.map fun walk =>
        if number = stock - number then walk else walk.passed ⟨rate, number, stock⟩)
      (match plan with
      | .made carriers left => .made (carriers ++ [(rate, number)]) left
      | .short =>
          if number = stock - number then .short
          else if rate < need - rate * number then .undefined
          else .made [(rate, addW 32 number 1)] (need - rate * number - rate)
      | .undefined => .undefined) := by
  cases walk with
  | none =>
      cases ends
      exact .undefined
  | some walk =>
      rw [Option.map_some]
      have same : (if number = stock - number then walk else walk.passed ⟨rate, number, stock⟩) =
          walk ∨ (if number = stock - number then walk else
            walk.passed ⟨rate, number, stock⟩) = walk.passed ⟨rate, number, stock⟩ := by
        split
        · exact .inl rfl
        · exact .inr rfl
      cases plan with
      | made carriers left' => exact ends.add le positive below (by simp) same
      | undefined => exact ends.add le positive below (by simp) same
      | short =>
          cases ends with
          | short still need' =>
              dsimp only
              by_cases half : number = stock - number
              · rw [if_pos half, if_pos half]
                exact .short still pos
              rw [if_neg half, if_neg half]
              by_cases more : number < stock
              · rw [if_neg (not_lt.mpr (small more).le)]
                refine .more still more List.mem_cons_self ?_
                  (selects_one more word need' (small more).le)
                have := small more
                linarith
              · obtain rfl : number = stock := by omega
                split
                · exact .lost still more
                · exact .lacking still more (misses_one word pos)

/-- A walk and the plan of the same rates end together. -/
theorem planEnds (sorted : stocks.Pairwise fun a b => b.1 < a.1)
    (words : ∀ entry ∈ stocks, entry.2 < 2 ^ 32) (nonneg : 0 ≤ need) :
    PlanEnds need stocks (walkCarriers need stocks) (bandPlan need stocks) := by
  have nothing : ∀ stocks spare, PlanEnds 0 stocks (some ⟨0, spare⟩) (.made [] 0) := fun _ _ =>
    .reached ⟨List.forall_mem_nil _, (sub_zero _).symm, le_rfl, List.forall_mem_nil _⟩
  induction stocks generalizing need with
  | nil =>
      rw [walkCarriers, bandPlan]
      rcases nonneg.eq_or_lt with rfl | pos
      · rw [if_neg (lt_irrefl 0)]
        exact nothing _ _
      · rw [if_pos pos]
        exact .short pos pos
  | cons entry stocks ih =>
      obtain ⟨rate, stock⟩ := entry
      obtain ⟨below, sorted'⟩ := List.pairwise_cons.mp sorted
      obtain ⟨word, words'⟩ := List.forall_mem_cons.mp words
      rw [walkCarriers, bandPlan]
      rcases nonneg.eq_or_lt with rfl | pos
      · rw [if_pos le_rfl, if_pos le_rfl]
        exact nothing _ _
      rw [if_neg (not_le.mpr pos), if_neg (not_le.mpr pos)]
      by_cases large : need < rate
      · rw [if_pos large, if_pos large]
        exact (ih sorted' words' nonneg).large word pos large
      rw [if_neg large, if_neg large]
      by_cases undefined : rate ≤ 0 ∨ 2 ^ 32 ≤ ⌊need / rate⌋₊
      · rw [if_pos undefined, if_pos undefined]
        exact .undefined
      rw [if_neg undefined, if_neg undefined]
      have positive : 0 < rate := not_le.mp (not_or.mp undefined).1
      obtain ⟨left, small⟩ := rate_left positive nonneg (rfl : min ⌊need / rate⌋₊ stock = _)
      exact (ih sorted' words' left).taken word pos positive below (Nat.min_le_right _ _) small

end

/-! ### Main result -/

/-- Carriers that are available and make up a rate, and of which none can be left out. -/
structure CoversRate (available carriers : SortedMap ℚ Nat) (need : ℚ) : Prop where
  within : ∀ entry ∈ carriers.entries, ∃ stock, available.lookup entry.1 = some stock ∧
    entry.2 ≤ stock
  enough : need ≤ carriersRate carriers.entries
  minimal : ∀ entry ∈ carriers.entries, 0 < entry.2 →
    carriersRate carriers.entries - entry.1 < need

/-- The calculation ends with such carriers. -/
def SelectsCarriers (category : TerminalCategory) (need : ℚ) : Prop :=
  ∃ carriers left, carriersTransferCalculation category need = some (carriers, left) ∧
    CoversRate category.symbolRateList carriers need

theorem coversRate_of_selects {available carriers : SortedMap ℚ Nat} {need left : ℚ}
    (selects : Selects need left available.entries.reverse carriers.entries) :
    CoversRate available carriers need where
  within entry mem := by
    obtain ⟨stock, listed, le⟩ := selects.within entry mem
    exact ⟨stock, SortedMap.lookup_of_mem (List.mem_reverse.mp listed), le⟩
  enough := by
    rw [selects.sum]
    linarith [selects.reached]
  minimal entry mem pos := by
    rw [selects.sum]
    linarith [selects.surplus entry mem pos]

theorem not_coversRate_of_misses {available carriers : SortedMap ℚ Nat} {need : ℚ}
    (misses : Misses need available.entries.reverse carriers.entries) :
    ¬ CoversRate available carriers need := by
  intro covers
  rcases misses with ⟨entry, mem, stock, listed, lt⟩ | few
  · obtain ⟨stock', found, le⟩ := covers.within entry mem
    rw [SortedMap.lookup_of_mem (List.mem_reverse.mp listed)] at found
    obtain rfl := Option.some.inj found
    exact absurd le (not_le.mpr lt)
  · exact absurd covers.enough (not_le.mpr few)

/-- The carriers are well selected exactly when the walk reaches the rate or its last spare rate
has a carrier left. -/
theorem selectsCarriers_iff (category : TerminalCategory) {need : ℚ} (pos : 0 < need)
    (words : ∀ entry ∈ category.symbolRateList.entries, entry.2 < 2 ^ 32) :
    SelectsCarriers category need ↔
      ∃ walk, walkCarriers need category.symbolRateList.entries.reverse = some walk ∧
        walk.Suffices := by
  have computed := carriersTransferCalculation_eq category need
  have ends := planEnds (List.pairwise_reverse.mpr category.symbolRateList.sorted)
    (fun entry mem => words entry (List.mem_reverse.mp mem)) pos.le
  have unmade (failed : (carriersTransferCalculation category need).map
      (fun result => (result.1.entries, result.2)) = none) : ¬ SelectsCarriers category need := by
    rintro ⟨carriers, left, found, -⟩
    rw [found] at failed
    cases failed
  have made {carriers : List (ℚ × Nat)} {left : ℚ} (done : (carriersTransferCalculation category
      need).map (fun result => (result.1.entries, result.2)) = some (carriers, left)) :
      ∃ map : SortedMap ℚ Nat, map.entries = carriers ∧ (SelectsCarriers category need ↔
        CoversRate category.symbolRateList map need) := by
    obtain ⟨⟨map, left'⟩, found, eq⟩ := Option.map_eq_some_iff.mp done
    refine ⟨map, (Prod.mk.inj eq).1, ⟨?_, fun covers => ⟨map, left', found, covers⟩⟩⟩
    rintro ⟨carriers', left'', found', covers⟩
    rw [found] at found'
    cases found'
    exact covers
  generalize walkCarriers need category.symbolRateList.entries.reverse = walk at ends ⊢
  generalize bandPlan need category.symbolRateList.entries.reverse = plan at ends computed
  cases ends with
  | undefined => exact iff_of_false (unmade computed) (by rintro ⟨walk, ⟨⟩, -⟩)
  | reached selects =>
      obtain ⟨map, rfl, selected⟩ := made computed
      exact iff_of_true (selected.mpr (coversRate_of_selects selects)) ⟨_, rfl, .inl le_rfl⟩
  | short left =>
      refine iff_of_false (unmade computed) ?_
      rintro ⟨walk, ⟨⟩, reached | ⟨spare, ⟨⟩, -⟩⟩
      exact absurd reached (not_le.mpr left)
  | more left lt listed above selects =>
      obtain ⟨map, rfl, selected⟩ := made computed
      exact iff_of_true (selected.mpr (coversRate_of_selects selects)) ⟨_, rfl, .inr ⟨_, rfl, lt⟩⟩
  | lacking left none misses =>
      obtain ⟨map, rfl, selected⟩ := made computed
      refine iff_of_false (fun selects => not_coversRate_of_misses misses (selected.mp selects)) ?_
      rintro ⟨walk, ⟨⟩, reached | ⟨spare, ⟨⟩, lt⟩⟩
      · exact absurd reached (not_le.mpr left)
      · exact none lt
  | lost left none =>
      refine iff_of_false (unmade computed) ?_
      rintro ⟨walk, ⟨⟩, reached | ⟨spare, ⟨⟩, lt⟩⟩
      · exact absurd reached (not_le.mpr left)
      · exact none lt

/-- A category with one carrier of a large rate and two of a small one. -/
def twoRates : TerminalCategory where
  carriersGroups := []
  desiredAccess := .dama
  symbolRateList := ⟨[(300, 2), (1000, 1)], by simp; norm_num⟩
  otherCarriers := []

theorem twoRates_words : ∀ entry ∈ twoRates.symbolRateList.entries, entry.2 < 2 ^ 32 := by
  decide +kernel

theorem twoRates_selectsCarriers_iff :
    SelectsCarriers twoRates 1300 ↔
      ∃ walk, walkCarriers 1300 twoRates.symbolRateList.entries.reverse = some walk ∧
        walk.Suffices :=
  selectsCarriers_iff twoRates (by norm_num) twoRates_words

/-- Half of the small carriers is taken, and then a second carrier of the large rate. -/
theorem twoRates_not_selected :
    1500 ≤ carriersRate twoRates.symbolRateList.entries ∧ ¬ SelectsCarriers twoRates 1500 := by
  refine ⟨by decide +kernel, ?_⟩
  rintro ⟨carriers, left, found, covers⟩
  have computed : (carriersTransferCalculation twoRates 1500).map (fun result =>
      result.1.entries) = some [(1000, 2)] := by decide +kernel
  rw [found, Option.map_some, Option.some.injEq] at computed
  obtain ⟨stock, listed, le⟩ := covers.within (1000, 2) (by rw [computed]; exact .head _)
  have one : twoRates.symbolRateList.lookup 1000 = some 1 := by decide +kernel
  rw [one] at listed
  cases listed
  exact absurd le (by decide)

end OpenSand
