import OpenSand.Dvb.Band
import Mathlib.Data.List.Induction

/-!
The carriers that a transfer takes.

`bandPlan` walks the rates from the largest one on without the maps and iterators of the
calculation: each rate gives as many carriers as it takes and as are listed, and when the rates
run out, one carrier more of the last rate that was too large, or of which the walk did not take
exactly half, replaces all the smaller ones. `carriersTransferCalculation_eq` says that the
calculation computes this plan.
-/

namespace OpenSand

open OpenSand.Word

/-- A plan, with its carriers from the smallest rate on and the rate that is left to transfer;
a walk that lacks carriers; or one without result. -/
inductive BandPlan where
  | made (carriers : List (ℚ × Nat)) (left : ℚ)
  | short
  | undefined

def bandPlan (need : ℚ) : List (ℚ × Nat) → BandPlan
  | [] => if 0 < need then .short else .made [] need
  | (rate, stock) :: smaller =>
      if need ≤ 0 then .made [] need
      else if need < rate then
        match bandPlan need smaller with
        | .short => .made [(rate, 1)] (need - rate)
        | plan => plan
      else if rate ≤ 0 ∨ 2 ^ 32 ≤ ⌊need / rate⌋₊ then .undefined
      else
        let number := min ⌊need / rate⌋₊ stock
        match bandPlan (need - rate * number) smaller with
        | .made carriers left => .made (carriers ++ [(rate, number)]) left
        | .short =>
            if number = stock - number then .short
            else if rate < need - rate * number then .undefined
            else .made [(rate, addW 32 number 1)] (need - rate * number - rate)
        | .undefined => .undefined

/-- The rate of some carriers. -/
def carriersRate (carriers : List (ℚ × Nat)) : ℚ :=
  (carriers.map fun entry => entry.1 * (entry.2 : ℚ)).sum

theorem carriersRate_append (carriers carriers' : List (ℚ × Nat)) :
    carriersRate (carriers ++ carriers') = carriersRate carriers + carriersRate carriers' := by
  rw [carriersRate, List.map_append, List.sum_append]
  rfl

theorem carriersRate_cons (entry : ℚ × Nat) (carriers : List (ℚ × Nat)) :
    carriersRate (entry :: carriers) = entry.1 * entry.2 + carriersRate carriers := by
  rw [carriersRate, List.map_cons, List.sum_cons]
  rfl

/-! ### The calculation -/

/-- One carrier more of a rate that is not above the others. -/
def raise (rate : ℚ) : List (ℚ × Nat) → List (ℚ × Nat)
  | [] => [(rate, 1)]
  | first :: rest =>
      if first.1 = rate then (rate, addW 32 first.2 1) :: rest else (rate, 1) :: first :: rest

/-- The end of a walk that lacks carriers: one carrier more of the last spare rate replaces the
carriers `low` of the smaller rates. -/
def BandPlan.finish (spare : Option ℚ) (low high : List (ℚ × Nat)) (need : ℚ) :
    Option (List (ℚ × Nat) × ℚ) :=
  spare.bind fun rate =>
    let left := need + carriersRate low - rate
    if 0 < left then none else some (raise rate high, left)

namespace TransferCalculation

/-- The carriers and the rate of a state of the calculation. -/
def view (state : TransferCalculation) : List (ℚ × Nat) × ℚ :=
  (state.carriers.entries, state.rateSymps)

variable {state : TransferCalculation} {low high rest : List (ℚ × Nat)} {rate : ℚ}

/-- The carriers of the smaller rates, as many as are left available, are all given back. -/
theorem foldl_eraseSmaller (carriers : state.carriers.entries = low ++ high)
    (available : state.available.entries = low ++ rest) :
    (((low.map Prod.fst).reverse).foldl eraseSmaller state).view =
      (high, state.rateSymps + carriersRate low) := by
  induction low using List.reverseRecOn generalizing state rest with
  | nil => exact Prod.ext carriers (add_zero _).symm
  | append_singleton low entry ih =>
      obtain ⟨rate, number⟩ := entry
      rw [List.append_assoc, List.singleton_append] at carriers available
      rw [List.map_append, List.reverse_append, List.map_singleton, List.reverse_singleton,
        List.singleton_append, List.foldl_cons]
      have erased : eraseSmaller state rate =
          { state with
            rateSymps := state.rateSymps + rate * number
            available := state.available.modify rate fun number => addW 32 number number
            carriers := state.carriers.erase rate } := by
        unfold eraseSmaller
        rw [SortedMap.lookup_split carriers, SortedMap.lookup_split available]
        rfl
      rw [erased, ih (SortedMap.erase_split carriers) (SortedMap.modify_split available _),
        carriersRate_append, carriersRate_cons]
      refine Prod.ext rfl ?_
      change state.rateSymps + rate * number + carriersRate low =
        state.rateSymps + (carriersRate low + (rate * number + 0))
      ring

/-- The insertion or the increment of `carriers_ite2`. -/
theorem raise_carriers {carriers : SortedMap ℚ Nat} (split : carriers.entries = low ++ high)
    (above : ∀ entry ∈ low, entry.1 < rate) (below : ∀ entry ∈ high, rate ≤ entry.1) :
    (match carriers.lookup rate with
      | none => carriers.insert rate 1
      | some _ => carriers.modify rate fun number => addW 32 number 1).entries =
      low ++ raise rate high := by
  cases high with
  | nil =>
      have absent : carriers.lookup rate = none := by
        refine SortedMap.lookup_eq_none_iff.mpr fun entry mem => ?_
        rw [split, List.append_nil] at mem
        exact ne_of_lt (above entry mem)
      rw [absent]
      exact SortedMap.insert_between split above (List.forall_mem_nil _)
  | cons first high =>
      obtain ⟨key, number⟩ := first
      by_cases own : key = rate
      · subst own
        rw [SortedMap.lookup_split split]
        exact (SortedMap.modify_split split _).trans (congrArg (low ++ ·) (if_pos rfl).symm)
      · have lt : rate < key := lt_of_le_of_ne (below _ List.mem_cons_self) (Ne.symm own)
        have below' : ∀ entry ∈ (key, number) :: high, rate < entry.1 := by
          intro entry mem
          rcases List.mem_cons.mp mem with rfl | later
          · exact lt
          · exact lt.trans (SortedMap.lt_higher split entry later)
        have absent : carriers.lookup rate = none := by
          refine SortedMap.lookup_eq_none_iff.mpr fun entry mem => ?_
          rw [split] at mem
          rcases List.mem_append.mp mem with mem | mem
          · exact ne_of_lt (above entry mem)
          · exact ne_of_gt (below' entry mem)
        rw [absent]
        exact (SortedMap.insert_between split above below').trans
          (congrArg (low ++ ·) (if_neg own).symm)

theorem oneMore_view (spare : state.ite2 = some rate) (carriers : state.carriers.entries = low ++ high)
    (available : state.available.entries = low ++ rest) (above : ∀ entry ∈ low, entry.1 < rate)
    (below : ∀ entry ∈ high, rate ≤ entry.1) (below' : ∀ entry ∈ rest, rate ≤ entry.1) :
    state.oneMore.map view = some (raise rate high, state.rateSymps - rate + carriersRate low) := by
  have smaller : (state.available.entries.map Prod.fst).reverse.filter (· < rate) =
      (low.map Prod.fst).reverse := by
    rw [available, List.map_append, List.reverse_append, List.filter_append,
      List.filter_eq_nil_iff.mpr, List.nil_append, List.filter_eq_self.mpr]
    · intro key mem
      obtain ⟨entry, mem', rfl⟩ := List.mem_map.mp (List.mem_reverse.mp mem)
      exact decide_eq_true (above entry mem')
    · intro key mem lt
      obtain ⟨entry, mem', rfl⟩ := List.mem_map.mp (List.mem_reverse.mp mem)
      exact absurd (of_decide_eq_true lt) (not_lt_of_ge (below' entry mem'))
  obtain ⟨rest', available'⟩ :=
    SortedMap.modify_lower available (fun number => subW 32 number 1) above
  rw [oneMore, spare, Option.map_some, Option.map_some]
  dsimp only
  rw [smaller, foldl_eraseSmaller (raise_carriers carriers above below) available']

/-- A state of the loop: the rates of `later` are still to come, `low` are the carriers taken
since the last spare rate, and these are as many as are left available. -/
structure Walked (state : TransferCalculation) (later low high : List (ℚ × Nat)) : Prop where
  carriers : state.carriers.entries = low ++ high
  below : ∀ entry ∈ later, ∀ entry' ∈ low ++ high, entry.1 < entry'.1
  available : ∃ rest, state.available.entries = later.reverse ++ (low ++ rest) ∧
    ∀ rate, state.ite2 = some rate → ∀ entry ∈ rest, rate ≤ entry.1
  spare : ∀ rate, state.ite2 = some rate →
    (∀ entry ∈ later ++ low, entry.1 < rate) ∧ ∀ entry ∈ high, rate ≤ entry.1

/-- A rate that becomes the spare one. -/
theorem Walked.ofSpare {later : List (ℚ × Nat)} {number : Nat} (spare : state.ite2 = some rate)
    (carriers : state.carriers.entries = high)
    (available : state.available.entries = later.reverse ++ (rate, number) :: rest)
    (above : ∀ entry ∈ high, rate ≤ entry.1) : Walked state later [] high := by
  have own : ∀ rate', state.ite2 = some rate' → rate = rate' :=
    fun rate' same => Option.some.inj (spare.symm.trans same)
  have lower : ∀ entry ∈ later, entry.1 < rate :=
    fun entry mem => SortedMap.lower_lt available entry (List.mem_reverse.mpr mem)
  refine ⟨carriers, ?_, ⟨(rate, number) :: rest, available, ?_⟩, ?_⟩
  · exact fun entry mem entry' mem' => lt_of_lt_of_le (lower entry mem) (above entry' mem')
  · intro rate' same entry mem
    obtain rfl := own rate' same
    rcases List.mem_cons.mp mem with rfl | higher
    · exact le_rfl
    · exact le_of_lt (SortedMap.lt_higher available entry higher)
  · intro rate' same
    obtain rfl := own rate' same
    exact ⟨(List.append_nil later).symm ▸ lower, above⟩

/-- A rate of which exactly half is taken. -/
theorem Walked.keep {state' : TransferCalculation} {later : List (ℚ × Nat)} {stock number : Nat}
    (walked : Walked state ((rate, stock) :: later) low high)
    (carriers : state'.carriers.entries = (rate, number) :: (low ++ high))
    (available : state'.available.entries = later.reverse ++ (rate, number) :: (low ++ rest))
    (above : ∀ rate, state.ite2 = some rate → ∀ entry ∈ rest, rate ≤ entry.1)
    (spare : state'.ite2 = state.ite2) : Walked state' later ((rate, number) :: low) high := by
  refine ⟨carriers, ?_, ⟨rest, available, spare ▸ above⟩, ?_⟩
  · intro entry mem entry' mem'
    rcases List.mem_cons.mp mem' with rfl | mem'
    · exact SortedMap.lower_lt available entry (List.mem_reverse.mpr mem)
    · exact walked.below entry (List.mem_cons_of_mem _ mem) entry' mem'
  · intro rate' same
    obtain ⟨below, above'⟩ := walked.spare rate' (spare ▸ same)
    refine ⟨?_, above'⟩
    intro entry mem
    rcases List.mem_append.mp mem with mem | mem
    · exact below entry (List.mem_append_left _ (List.mem_cons_of_mem _ mem))
    rcases List.mem_cons.mp mem with rfl | mem
    · exact below (rate, stock) (List.mem_append_left _ List.mem_cons_self)
    · exact below entry (List.mem_append_right _ mem)

theorem raise_of_lt (below : ∀ entry ∈ high, rate < entry.1) : raise rate high = (rate, 1) :: high := by
  cases high with
  | nil => rfl
  | cons first high => exact if_neg (ne_of_gt (below first List.mem_cons_self))

/-! The end of a walk that lacks carriers, for each way its last rate was passed. -/

/-- Of a rate that was too large one carrier is enough. -/
theorem finish_large {need : ℚ} (large : need < rate) (below : ∀ entry ∈ high, rate < entry.1) :
    BandPlan.finish (some rate) [] high need = some ((rate, 1) :: high, need - rate) := by
  have left : need + carriersRate [] = need := add_zero _
  have reached : ¬ 0 < need - rate := not_lt_of_ge (le_of_lt (sub_neg.mpr large))
  rw [BandPlan.finish, Option.bind_some, left, if_neg reached, raise_of_lt below]

/-- The carriers of a rate of which half was taken are given back with the smaller ones. -/
theorem finish_half {spare : Option ℚ} {need : ℚ} {number : Nat} :
    BandPlan.finish spare ((rate, number) :: low) high (need - rate * number) =
      BandPlan.finish spare low high need := by
  refine congrArg (Option.bind spare) (funext fun rate' => ?_)
  rw [carriersRate_cons, ← add_assoc, sub_add_cancel]

/-- Of a rate that was not half taken one carrier more is taken. -/
theorem finish_taken {need : ℚ} {number : Nat} :
    BandPlan.finish (some rate) [] ((rate, number) :: high) need =
      if rate < need then none else some ((rate, addW 32 number 1) :: high, need - rate) := by
  have left : need + carriersRate [] = need := add_zero _
  rw [BandPlan.finish, Option.bind_some, left, raise, if_pos rfl]
  by_cases again : rate < need
  · rw [if_pos again, if_pos (sub_pos.mpr again)]
  · rw [if_neg again, if_neg (mt sub_pos.mp again)]

/-- Past the last rate, one carrier more of the spare one is taken when some rate is left. -/
theorem Walked.calculate_nil (walked : Walked state [] low high) :
    (state.calculate []).map view =
      if 0 < state.rateSymps then BandPlan.finish state.ite2 low high state.rateSymps
      else some (low ++ high, state.rateSymps) := by
  obtain ⟨rest, available, below'⟩ := walked.available
  rw [calculate]
  by_cases need : 0 < state.rateSymps
  · rw [if_pos need, if_pos need]
    cases spare : state.ite2 with
    | none =>
        rw [oneMore, spare]
        rfl
    | some rate =>
        obtain ⟨above, below⟩ := walked.spare rate spare
        rw [List.nil_append] at above
        have more := oneMore_view spare walked.carriers available above below (below' rate spare)
        obtain ⟨after, found, seen⟩ := Option.map_eq_some_iff.mp more
        have left : after.rateSymps = state.rateSymps + carriersRate low - rate := by
          rw [show after.rateSymps = after.view.2 from rfl, seen]
          ring
        rw [found, Option.bind_some, BandPlan.finish, Option.bind_some, left]
        dsimp only
        by_cases again : 0 < state.rateSymps + carriersRate low - rate
        · rw [if_pos again, if_pos again]
          rfl
        · rw [if_neg again, if_neg again, Option.map_some, seen]
          exact congrArg some (Prod.ext rfl (by ring))
  · rw [if_neg need, if_neg need]
    exact congrArg some (Prod.ext walked.carriers rfl)

/-- The loop computes the plan of the rates that are still to come. -/
theorem calculate_view (later : List (ℚ × Nat)) (walked : Walked state later low high) :
    (state.calculate (later.map Prod.fst)).map view =
      match bandPlan state.rateSymps later with
      | .made carriers left => some (carriers ++ (low ++ high), left)
      | .short => BandPlan.finish state.ite2 low high state.rateSymps
      | .undefined => none := by
  induction later generalizing state low high with
  | nil =>
      rw [List.map_nil, walked.calculate_nil, bandPlan]
      by_cases need : 0 < state.rateSymps
      · rw [if_pos need, if_pos need]
      · rw [if_neg need, if_neg need]
        rfl
  | cons entry later ih =>
      obtain ⟨rate, stock⟩ := entry
      obtain ⟨rest, available, below'⟩ := walked.available
      rw [List.reverse_cons, List.append_assoc, List.singleton_append] at available
      have below : ∀ entry ∈ low ++ high, rate < entry.1 :=
        walked.below _ List.mem_cons_self
      rw [List.map_cons, calculate, bandPlan]
      by_cases need : state.rateSymps ≤ 0
      · rw [if_pos need, if_neg (not_lt_of_ge need)]
        exact congrArg some (Prod.ext walked.carriers rfl)
      rw [if_neg need, if_pos (lt_of_not_ge need)]
      by_cases large : state.rateSymps < rate
      · have walked' : Walked { state with ite2 := some rate } later [] (low ++ high) :=
          .ofSpare rfl walked.carriers available fun entry mem => le_of_lt (below entry mem)
        rw [if_pos large, if_pos large, ih walked']
        cases bandPlan state.rateSymps later with
        | made carriers left => rfl
        | undefined => rfl
        | short => exact finish_large large below
      rw [if_neg large, if_neg large, takeCarriers, SortedMap.lookup_split available]
      by_cases undefined : rate ≤ 0 ∨ 2 ^ 32 ≤ ⌊state.rateSymps / rate⌋₊
      · rw [if_pos undefined, if_pos undefined]
        rfl
      rw [if_neg undefined, if_neg undefined, Option.bind_some, Option.getD_some]
      dsimp only
      generalize min ⌊state.rateSymps / rate⌋₊ stock = number
      have carriers := SortedMap.insert_of_lt number (walked.carriers ▸ below)
      have available' := SortedMap.modify_split available fun _ => stock - number
      rw [walked.carriers] at carriers
      by_cases half : number = stock - number
      · rw [if_neg (not_not.mpr half), if_pos half]
        have kept : later.reverse ++ (rate, stock - number) :: (low ++ rest) =
            later.reverse ++ (rate, number) :: (low ++ rest) := by rw [← half]
        refine (ih (?_ : Walked _ later ((rate, number) :: low) high)).trans ?_
        · exact walked.keep carriers (available'.trans kept) below' rfl
        dsimp only
        cases bandPlan (state.rateSymps - rate * number) later with
        | made carriers left =>
            dsimp only
            rw [List.append_assoc, List.singleton_append, List.cons_append]
        | undefined => rfl
        | short => exact finish_half
      · rw [if_pos half, if_neg half]
        have above : ∀ entry ∈ (rate, number) :: (low ++ high), rate ≤ entry.1 := by
          intro entry mem
          rcases List.mem_cons.mp mem with rfl | mem
          · exact le_rfl
          · exact le_of_lt (below entry mem)
        refine (ih (.ofSpare rfl carriers available' above)).trans ?_
        dsimp only
        cases bandPlan (state.rateSymps - rate * number) later with
        | made carriers left =>
            dsimp only
            rw [List.append_assoc, List.singleton_append, List.nil_append]
        | undefined => rfl
        | short =>
            dsimp only
            rw [finish_taken]
            by_cases again : rate < state.rateSymps - rate * number
            · rw [if_pos again, if_pos again]
            · rw [if_neg again, if_neg again]
              rfl

end TransferCalculation

/-- The calculation computes the plan of the symbol rate list. -/
theorem carriersTransferCalculation_eq (category : TerminalCategory) (need : ℚ) :
    (carriersTransferCalculation category need).map (fun result => (result.1.entries, result.2)) =
      match bandPlan need category.symbolRateList.entries.reverse with
      | .made carriers left => some (carriers, left)
      | _ => none := by
  let start : TransferCalculation :=
    { rateSymps := need, carriers := .empty, available := category.symbolRateList, ite2 := none }
  have walked : TransferCalculation.Walked start category.symbolRateList.entries.reverse [] [] :=
    { carriers := rfl
      below := fun _ _ _ mem => absurd mem List.not_mem_nil
      available := ⟨[], (List.reverse_reverse _).symm ▸ (List.append_nil _).symm,
        fun _ same => absurd same (Option.some_ne_none _).symm⟩
      spare := fun _ same => absurd same (Option.some_ne_none _).symm }
  have computed := TransferCalculation.calculate_view _ walked
  rw [List.map_reverse] at computed
  unfold carriersTransferCalculation
  rw [Option.map_map]
  refine computed.trans ?_
  cases bandPlan need category.symbolRateList.entries.reverse with
  | made carriers left => exact congrArg (fun l => some (l, left)) (List.append_nil carriers)
  | short => rfl
  | undefined => rfl

/-- The ways a plan is made: nothing is needed, one carrier of a larger rate is enough, carriers
of a rate are followed by those of smaller ones, or one more of them is enough. -/
theorem bandPlan_made_rec {P : ℚ → List (ℚ × Nat) → ℚ → Prop} {all : List (ℚ × Nat)}
    (reached : ∀ need ≤ 0, P need [] need)
    (larger : ∀ need rate, need < rate → P need [(rate, 1)] (need - rate))
    (smaller : ∀ need rate (number : Nat) carriers left, number < 2 ^ 32 →
      P (need - rate * number) carriers left → P need (carriers ++ [(rate, number)]) left)
    (next : ∀ need rate stock (number : Nat), (rate, stock) ∈ all → number ≤ stock →
      need - rate * number ≤ rate →
      P need [(rate, addW 32 number 1)] (need - rate * number - rate))
    {need left : ℚ} {stocks carriers : List (ℚ × Nat)} (within : stocks ⊆ all)
    (made : bandPlan need stocks = .made carriers left) : P need carriers left := by
  induction stocks generalizing need carriers left with
  | nil =>
      unfold bandPlan at made
      split at made
      · cases made
      next enough =>
        cases made
        exact reached _ (not_lt.mp enough)
  | cons entry stocks ih =>
      obtain ⟨rate, stock⟩ := entry
      obtain ⟨mem, within'⟩ := List.cons_subset.mp within
      unfold bandPlan at made
      split at made
      next enough =>
        cases made
        exact reached _ enough
      split at made
      next large =>
        cases later : bandPlan need stocks with
        | made carriers' left' =>
            rw [later] at made
            cases made
            exact ih within' later
        | undefined =>
            rw [later] at made
            cases made
        | short =>
            rw [later] at made
            cases made
            exact larger _ _ large
      split at made
      · cases made
      next counted =>
        dsimp only at made
        have few : min ⌊need / rate⌋₊ stock ≤ stock := Nat.min_le_right _ _
        have word : min ⌊need / rate⌋₊ stock < 2 ^ 32 :=
          lt_of_le_of_lt (Nat.min_le_left _ _) (not_le.mp fun large => counted (.inr large))
        generalize min ⌊need / rate⌋₊ stock = number at made few word
        cases later : bandPlan (need - rate * number) stocks with
        | made carriers' left' =>
            rw [later] at made
            cases made
            exact smaller _ _ _ _ _ word (ih within' later)
        | undefined =>
            rw [later] at made
            cases made
        | short =>
            rw [later] at made
            dsimp only at made
            split at made
            · cases made
            split at made
            · cases made
            next enough =>
              cases made
              exact next _ _ stock _ mem few (not_lt.mp enough)

/-- The numbers of a plan are words. -/
theorem bandPlan_lt {need left : ℚ} {stocks carriers : List (ℚ × Nat)}
    (made : bandPlan need stocks = .made carriers left) : ∀ entry ∈ carriers, entry.2 < 2 ^ 32 := by
  refine bandPlan_made_rec (P := fun _ carriers _ => ∀ entry ∈ carriers, entry.2 < 2 ^ 32)
    (fun _ _ => List.forall_mem_nil _) (fun _ _ _ => ?_) (fun _ _ _ _ _ word former => ?_)
    (fun _ _ _ _ _ _ _ => ?_) (List.Subset.refl stocks) made
  · exact List.forall_mem_singleton.mpr (Nat.one_lt_two_pow (by decide))
  · exact List.forall_mem_append.mpr ⟨former, List.forall_mem_singleton.mpr word⟩
  · exact List.forall_mem_singleton.mpr (addW_lt 32 _ 1)

/-- The carriers of a plan make up the rate that it is made for. -/
theorem bandPlan_reaches {need left : ℚ} {stocks carriers : List (ℚ × Nat)}
    (words : ∀ entry ∈ stocks, entry.2 + 1 < 2 ^ 32)
    (made : bandPlan need stocks = .made carriers left) :
    left ≤ 0 ∧ carriersRate carriers = need - left := by
  refine bandPlan_made_rec
    (P := fun need carriers left => left ≤ 0 ∧ carriersRate carriers = need - left)
    (fun need enough => ⟨enough, (sub_self _).symm⟩) (fun need rate large => ⟨by linarith, ?_⟩)
    (fun need rate number carriers left _ former => ⟨former.1, ?_⟩)
    (fun need rate stock number mem few enough => ⟨by linarith, ?_⟩)
    (List.Subset.refl stocks) made
  · rw [carriersRate, List.map_singleton, List.sum_singleton, Nat.cast_one]
    ring
  · rw [carriersRate_append, former.2, carriersRate, List.map_singleton, List.sum_singleton]
    ring
  · have word : number + 1 < 2 ^ 32 := lt_of_le_of_lt (Nat.succ_le_succ few) (words _ mem)
    rw [carriersRate, List.map_singleton, List.sum_singleton, addW_of_lt word]
    push_cast
    ring

end OpenSand
