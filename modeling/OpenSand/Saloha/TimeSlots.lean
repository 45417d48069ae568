import Mathlib.Data.List.Dedup
import OpenSand.Lib.Rand
import OpenSand.Saloha.Tal

/-!
The slots that a terminal draws for a Slotted Aloha frame (`SlottedAlohaTal::getTimeSlots`).

As many different slots of one carrier are drawn as there are copies to send, then a
carrier for each of them. The greatest outcome of the generator gives the slot behind the
last one of a carrier, and the carrier behind the last one. A slot behind the last one of
its carrier is the first one of the next.
-/

namespace OpenSand

open OpenSand.Word

/-- A quotient of `unsigned int`. A division by zero is not survived. -/
def divide (a b : UInt32) : Option UInt32 := if b = 0 then none else some (a / b)

/-- The check of `nb_max_packets` in `init`. -/
def checkMaxPackets (slotsNumber carriersNumber : UInt32) (nbReplicas nbMaxPackets : UInt16) :
    Option UInt16 :=
  (mulInt nbMaxPackets.toNat nbReplicas.toNat).bind fun wanted =>
    (divide slotsNumber carriersNumber).bind fun slotsPerCarrier =>
      if slotsPerCarrier.toNat < wanted then
        (divide slotsNumber (nbReplicas.toUInt32 * carriersNumber)).map UInt32.toUInt16
      else some nbMaxPackets

/-- What the slots are drawn for: the slots of the category, a maximum that `init` let
through, and the number of packets to send. -/
structure SlotsRequest where
  slotsNumber : UInt32
  carriersNumber : UInt32
  nbReplicas : UInt16
  configuredMaxPackets : UInt16
  nbMaxPackets : UInt16
  checked : checkMaxPackets slotsNumber carriersNumber nbReplicas configuredMaxPackets =
    some nbMaxPackets
  nbPackets : UInt16

/-- How a draw goes wrong: there are no more outcomes, or a number leaves its type. -/
inductive DrawFault where
  | starved | undefined
deriving DecidableEq, Repr

namespace SlotsRequest

open SlottedAlohaTal (insertSlot)

def slotsPerCarrier (request : SlotsRequest) : Nat :=
  (request.slotsNumber / request.carriersNumber).toNat

/-- The number of slots to draw. -/
def requested (request : SlotsRequest) : Nat :=
  min request.nbPackets.toNat request.nbMaxPackets.toNat * request.nbReplicas.toNat

/-- First step: different slots of one carrier, in order. -/
def drawTimeSlots (slotsPerCarrier max : Nat) :
    List Rand → List UInt16 → Except DrawFault (List UInt16 × List Rand)
  | [], tmp => if max ≤ tmp.length then .ok (tmp, []) else .error .starved
  | draw :: draws, tmp =>
      if max ≤ tmp.length then .ok (tmp, draw :: draws)
      else if draw.scale slotsPerCarrier < 2 ^ 16 then
        drawTimeSlots slotsPerCarrier max draws
          (insertSlot (.ofNat (draw.scale slotsPerCarrier)) tmp)
      else .error .undefined

/-- Second step: a carrier for each slot. -/
def drawCarriers (slotsPerCarrier carriersNumber : Nat) :
    List UInt16 → List Rand → List UInt16 → Except DrawFault (List UInt16)
  | [], _, timeSlots => .ok timeSlots
  | _ :: _, [], _ => .error .starved
  | id :: tmp, draw :: draws, timeSlots =>
      if draw.scale carriersNumber < 2 ^ 31 then
        drawCarriers slotsPerCarrier carriersNumber tmp draws (insertSlot
          (.ofNat (draw.scale carriersNumber * slotsPerCarrier + id.toNat)) timeSlots)
      else .error .undefined

/-- The slots of a frame, from the outcomes of the generator. Their number is counted on
16 bits. -/
def getTimeSlots (request : SlotsRequest) (draws : List Rand) : Except DrawFault (List UInt16) := do
  let max ← (mulInt (min request.nbPackets.toNat request.nbMaxPackets.toNat)
    request.nbReplicas.toNat).elim (.error .undefined) .ok
  let (tmp, draws) ← drawTimeSlots request.slotsPerCarrier (wrap 16 max) draws []
  drawCarriers request.slotsPerCarrier request.carriersNumber.toNat tmp draws []

/-- What the draw is for: as many slots as requested, all different, all of the category. -/
def Served (request : SlotsRequest) (draws : List Rand) : Prop :=
  ∃ slots, request.getTimeSlots draws = .ok slots ∧ slots.length = request.requested ∧
    slots.Nodup ∧ (∀ slot ∈ slots, slot.toNat < request.slotsNumber.toNat) ∧
    request.requested ≤ request.slotsNumber.toNat

/-! ### What is chosen -/

/-- The slots of the first step with the carriers drawn for them. -/
def withCarriers (carriersNumber : Nat) (tmp : List UInt16) (draws : List Rand) :
    List (UInt16 × Nat) :=
  tmp.zipWith (fun slot draw => (slot, draw.scale carriersNumber)) draws

def choices (request : SlotsRequest) (draws : List Rand) : List (UInt16 × Nat) :=
  match drawTimeSlots request.slotsPerCarrier request.requested draws [] with
  | .ok (tmp, draws) => withCarriers request.carriersNumber.toNat tmp draws
  | .error _ => []

/-- Where a chosen slot lies among those of the category. -/
def place (request : SlotsRequest) (choice : UInt16 × Nat) : Nat :=
  choice.2 * request.slotsPerCarrier + choice.1.toNat

/-- The carrier behind the last one is drawn only for the slots that are left there when the
slots are divided among the carriers. The slot behind the last one of a carrier is not drawn
on the last carrier, unless some are left there, nor on a carrier before the one that is drawn for
the first slot. -/
def OnCarriers (request : SlotsRequest) (draws : List Rand) : Prop :=
  (∀ choice ∈ request.choices draws,
    (choice.2 = request.carriersNumber.toNat →
      choice.1.toNat < request.slotsNumber.toNat % request.carriersNumber.toNat) ∧
    (choice.1.toNat = request.slotsPerCarrier → choice.2 + 1 = request.carriersNumber.toNat →
      0 < request.slotsNumber.toNat % request.carriersNumber.toNat)) ∧
  ∀ behind ∈ request.choices draws, ∀ first ∈ request.choices draws,
    behind.1.toNat = request.slotsPerCarrier → first.1.toNat = 0 → first.2 ≠ behind.2 + 1

/-- Every outcome of the first step is scaled to 16 bits. -/
def Narrow (slotsPerCarrier max : Nat) : List Rand → List UInt16 → Prop
  | [], _ => True
  | draw :: draws, tmp => max ≤ tmp.length ∨ draw.scale slotsPerCarrier < 2 ^ 16 ∧
      Narrow slotsPerCarrier max draws (insertSlot (.ofNat (draw.scale slotsPerCarrier)) tmp)

/-- The numbers that are drawn fit their types, and on 16 bits no two chosen slots meet or leave
the category. -/
def OnWords (request : SlotsRequest) (draws : List Rand) : Prop :=
  Narrow request.slotsPerCarrier request.requested draws [] ∧
    (∀ choice ∈ request.choices draws, choice.2 < 2 ^ 31 ∧
      wrap 16 (request.place choice) < request.slotsNumber.toNat) ∧
    ((request.choices draws).map fun choice => wrap 16 (request.place choice)).Nodup

/-! ### Sets of slots -/

theorem mem_insertSlot {slot other : UInt16} {slots : List UInt16} :
    other ∈ insertSlot slot slots ↔ other = slot ∨ other ∈ slots := by
  unfold insertSlot
  split
  next known => exact ⟨.inr, Or.rec (fun same => same ▸ known) id⟩
  next => exact List.mem_orderedInsert (· ≤ ·)

theorem nodup_insertSlot (slot : UInt16) {slots : List UInt16} (nodup : slots.Nodup) :
    (insertSlot slot slots).Nodup := by
  unfold insertSlot
  split
  next => exact nodup
  next fresh =>
    exact (List.perm_orderedInsert (· ≤ ·) slot slots).nodup_iff.mpr (nodup.cons fresh)

theorem length_insertSlot_le (slot : UInt16) (slots : List UInt16) :
    (insertSlot slot slots).length ≤ slots.length + 1 := by
  unfold insertSlot
  split
  · exact Nat.le_succ _
  · rw [List.orderedInsert_length]

/-- Slots inserted one after the other. -/
def insertSlots (slots former : List UInt16) : List UInt16 :=
  slots.foldl (fun former slot => insertSlot slot former) former

theorem insertSlots_spec (slots : List UInt16) {former : List UInt16} (nodup : former.Nodup) :
    (insertSlots slots former).Nodup ∧
      ∀ slot, slot ∈ insertSlots slots former ↔ slot ∈ former ∨ slot ∈ slots := by
  induction slots generalizing former with
  | nil => exact ⟨nodup, fun slot => (or_iff_left List.not_mem_nil).symm⟩
  | cons first slots ih =>
      obtain ⟨nodup', mem⟩ := ih (nodup_insertSlot first nodup)
      refine ⟨nodup', fun slot => ?_⟩
      rw [insertSlots, List.foldl_cons]
      exact (mem slot).trans (by rw [mem_insertSlot, List.mem_cons, or_comm (a := slot = first), or_assoc])

theorem insertSlots_perm (slots : List UInt16) : (insertSlots slots []).Perm slots.dedup := by
  obtain ⟨nodup, mem⟩ := insertSlots_spec slots List.nodup_nil
  rw [List.perm_ext_iff_of_nodup nodup slots.nodup_dedup]
  intro slot
  rw [mem, List.mem_dedup, or_iff_right List.not_mem_nil]

theorem length_insertSlots_le (slots : List UInt16) :
    (insertSlots slots []).length ≤ slots.length := by
  rw [(insertSlots_perm slots).length_eq]
  exact (List.dedup_sublist slots).length_le

/-- They are all there exactly when no two are the same. -/
theorem length_insertSlots_eq_iff (slots : List UInt16) :
    (insertSlots slots []).length = slots.length ↔ slots.Nodup := by
  rw [(insertSlots_perm slots).length_eq]
  constructor
  · intro all
    exact List.dedup_eq_self.mp ((List.dedup_sublist slots).eq_of_length all)
  · intro all
    rw [List.dedup_eq_self.mpr all]

/-! ### The two steps -/

variable {slotsPerCarrier max carriersNumber : Nat} {draws rest : List Rand}
  {tmp former slots : List UInt16}

/-- The first step ends with as many slots as asked for, all different, each of which some outcome
gives, and leaves the outcomes that it does not need. -/
theorem drawTimeSlots_spec {P : UInt16 → Prop}
    (drawn : drawTimeSlots slotsPerCarrier max draws former = .ok (tmp, rest))
    (nodup : former.Nodup) (few : former.length ≤ max) (within : ∀ slot ∈ former, P slot)
    (gives : ∀ draw ∈ draws, ∀ slot : UInt16, slot.toNat = draw.scale slotsPerCarrier → P slot) :
    tmp.Nodup ∧ tmp.length = max ∧ (∀ slot ∈ tmp, P slot) ∧ rest ⊆ draws := by
  induction draws generalizing former with
  | nil =>
      rw [drawTimeSlots] at drawn
      split at drawn
      next enough =>
        obtain ⟨rfl, rfl⟩ := Prod.mk.inj (Except.ok.inj drawn)
        exact ⟨nodup, le_antisymm few enough, within, List.Subset.refl _⟩
      next => cases drawn
  | cons draw draws ih =>
      rw [drawTimeSlots] at drawn
      split at drawn
      next enough =>
        obtain ⟨rfl, rfl⟩ := Prod.mk.inj (Except.ok.inj drawn)
        exact ⟨nodup, le_antisymm few enough, within, List.Subset.refl _⟩
      next missing =>
        split at drawn
        next narrow =>
          obtain ⟨nodup', length, within', left⟩ := ih drawn (nodup_insertSlot _ nodup)
            ((length_insertSlot_le _ _).trans (Nat.lt_of_not_le missing))
            (fun slot mem => by
              rcases mem_insertSlot.mp mem with rfl | mem
              · exact gives draw List.mem_cons_self _ (UInt16.toNat_ofNat_of_lt' narrow)
              · exact within slot mem)
            fun draw mem => gives draw (List.mem_cons_of_mem _ mem)
          exact ⟨nodup', length, within', List.subset_cons_of_subset _ left⟩
        next => cases drawn

theorem drawTimeSlots_from_nil (drawn : drawTimeSlots slotsPerCarrier max draws [] = .ok (tmp, rest)) :
    tmp.Nodup ∧ tmp.length = max ∧
      (∀ slot ∈ tmp, ∃ draw ∈ draws, slot.toNat = draw.scale slotsPerCarrier) ∧ rest ⊆ draws :=
  drawTimeSlots_spec drawn List.nodup_nil (Nat.zero_le _) nofun
    fun draw mem _ given => ⟨draw, mem, given⟩

theorem drawTimeSlots_undefined_iff :
    drawTimeSlots slotsPerCarrier max draws former = .error .undefined ↔
      ¬ Narrow slotsPerCarrier max draws former := by
  induction draws generalizing former with
  | nil =>
      rw [drawTimeSlots, Narrow]
      split <;> simp
  | cons draw draws ih =>
      rw [drawTimeSlots, Narrow]
      split
      next enough => exact iff_of_false nofun fun wide => wide (.inl enough)
      next missing =>
        split
        next narrow =>
          rw [ih]
          simp only [missing, narrow, true_and, false_or]
        next wide => exact iff_of_true rfl fun narrow => narrow.elim missing fun both => wide both.1

theorem narrow_of_lt (small : slotsPerCarrier < 2 ^ 16) :
    Narrow slotsPerCarrier max draws former := by
  induction draws generalizing former with
  | nil => trivial
  | cons draw draws ih => exact .inr ⟨lt_of_le_of_lt (draw.scale_le _) small, ih⟩

/-- The second step collects the chosen slots, if it has an outcome for each and the carriers are
`int`. -/
theorem drawCarriers_ok_iff :
    drawCarriers slotsPerCarrier carriersNumber tmp draws former = .ok slots ↔
      tmp.length ≤ draws.length ∧
      (∀ choice ∈ withCarriers carriersNumber tmp draws, choice.2 < 2 ^ 31) ∧
      insertSlots ((withCarriers carriersNumber tmp draws).map fun choice =>
        UInt16.ofNat (choice.2 * slotsPerCarrier + choice.1.toNat)) former = slots := by
  induction tmp generalizing draws former with
  | nil => simp [drawCarriers, withCarriers, insertSlots]
  | cons slot tmp ih =>
      cases draws with
      | nil => simp [drawCarriers]
      | cons draw draws =>
          rw [drawCarriers]
          split
          next int =>
            rw [ih]
            simp only [withCarriers, List.zipWith_cons_cons, List.length_cons, List.forall_mem_cons,
              int, true_and, List.map_cons, insertSlots, List.foldl_cons, Nat.add_le_add_iff_right]
          next wide =>
            refine iff_of_false nofun fun holds => ?_
            exact wide (holds.2.1 (slot, draw.scale carriersNumber) List.mem_cons_self)

theorem drawCarriers_starved
    (int : ∀ choice ∈ withCarriers carriersNumber tmp draws, choice.2 < 2 ^ 31)
    (short : draws.length < tmp.length) :
    drawCarriers slotsPerCarrier carriersNumber tmp draws former = .error .starved := by
  induction tmp generalizing draws former with
  | nil => cases short
  | cons slot tmp ih =>
      cases draws with
      | nil => rfl
      | cons draw draws =>
          rw [withCarriers, List.zipWith_cons_cons, List.forall_mem_cons] at int
          rw [drawCarriers, if_pos int.1]
          exact ih int.2 (Nat.lt_of_succ_lt_succ short)

/-! ### The slots of a frame -/

variable {request : SlotsRequest}

theorem getTimeSlots_eq (int : request.requested < 2 ^ 31) (draws : List Rand) :
    request.getTimeSlots draws =
      (drawTimeSlots request.slotsPerCarrier (wrap 16 request.requested) draws []).bind fun drawn =>
        drawCarriers request.slotsPerCarrier request.carriersNumber.toNat drawn.1 drawn.2 [] := by
  rw [getTimeSlots, mulInt_eq_some.mpr ⟨int, rfl⟩]
  rfl

theorem getTimeSlots_ok_iff : request.getTimeSlots draws = .ok slots ↔
    request.requested < 2 ^ 31 ∧ ∃ drawn,
      drawTimeSlots request.slotsPerCarrier (wrap 16 request.requested) draws [] = .ok drawn ∧
        drawCarriers request.slotsPerCarrier request.carriersNumber.toNat drawn.1 drawn.2 [] =
          .ok slots := by
  by_cases int : request.requested < 2 ^ 31
  · rw [getTimeSlots_eq int]
    cases drawTimeSlots request.slotsPerCarrier (wrap 16 request.requested) draws [] with
    | error fault => exact iff_of_false nofun fun ⟨_, _, drawn, _⟩ => nomatch drawn
    | ok drawn => exact ⟨fun moved => ⟨int, drawn, rfl, moved⟩, fun ⟨_, _, same, moved⟩ => by
        cases same
        exact moved⟩
  · have product : mulInt (min request.nbPackets.toNat request.nbMaxPackets.toNat)
        request.nbReplicas.toNat = none := if_neg int
    rw [getTimeSlots, product]
    exact iff_of_false nofun fun holds => int holds.1

/-- More slots than 16 bits can count are not drawn. -/
theorem few_of_served (served : request.Served draws) : request.requested < 2 ^ 16 := by
  obtain ⟨slots, ran, all, -⟩ := served
  obtain ⟨-, ⟨tmp, rest⟩, drawn, moved⟩ := getTimeSlots_ok_iff.mp ran
  obtain ⟨-, length, -⟩ := drawTimeSlots_from_nil drawn
  obtain ⟨-, -, rfl⟩ := drawCarriers_ok_iff.mp moved
  calc request.requested
      = _ := all.symm
    _ ≤ (withCarriers request.carriersNumber.toNat tmp rest).length :=
        (length_insertSlots_le _).trans_eq (List.length_map _)
    _ ≤ tmp.length := by
        rw [withCarriers, List.length_zipWith]
        exact min_le_left ..
    _ = wrap 16 request.requested := length
    _ < 2 ^ 16 := wrap_lt 16 _

/-- Different numbers below a bound are not more than the bound. -/
theorem length_le_of_forall_lt {slots : List UInt16} {bound : Nat} (nodup : slots.Nodup)
    (below : ∀ slot ∈ slots, slot.toNat < bound) : slots.length ≤ bound := by
  have numbers : (slots.map UInt16.toNat).Nodup :=
    nodup.map fun _ _ same => UInt16.toNat_inj.mp same
  have inside : slots.map UInt16.toNat ⊆ List.range bound := by
    intro number mem
    obtain ⟨slot, mem', rfl⟩ := List.mem_map.mp mem
    exact List.mem_range.mpr (below slot mem')
  have most := (List.subperm_of_subset numbers inside).length_le
  rwa [List.length_map, List.length_range] at most

/-- Chosen slots are different on 16 bits exactly when their places are. -/
theorem nodup_slots_iff (chosen : List (UInt16 × Nat)) :
    (chosen.map fun choice => UInt16.ofNat (request.place choice)).Nodup ↔
      (chosen.map fun choice => wrap 16 (request.place choice)).Nodup := by
  have numbers : (chosen.map fun choice => wrap 16 (request.place choice)) =
      (chosen.map fun choice => UInt16.ofNat (request.place choice)).map UInt16.toNat := by
    rw [List.map_map]
    exact List.map_congr_left fun choice _ => UInt16.toNat_ofNat'.symm
  rw [numbers]
  exact (List.nodup_map_iff fun _ _ same => UInt16.toNat_inj.mp same).symm

/-- The second step keeps as many slots as the first one when the carriers are `int` and, on
16 bits, the places are different ones of the category. -/
theorem drawCarriers_serves_iff (fed : drawCarriers request.slotsPerCarrier
      request.carriersNumber.toNat tmp rest [] ≠ .error .starved) (bound : Nat) :
    (∃ slots, drawCarriers request.slotsPerCarrier request.carriersNumber.toNat tmp rest [] =
        .ok slots ∧ slots.length = tmp.length ∧ slots.Nodup ∧
        (∀ slot ∈ slots, slot.toNat < bound) ∧ tmp.length ≤ bound) ↔
      (∀ choice ∈ withCarriers request.carriersNumber.toNat tmp rest,
        choice.2 < 2 ^ 31 ∧ wrap 16 (request.place choice) < bound) ∧
      ((withCarriers request.carriersNumber.toNat tmp rest).map fun choice =>
        wrap 16 (request.place choice)).Nodup := by
  have length : tmp.length ≤ rest.length →
      ((withCarriers request.carriersNumber.toNat tmp rest).map fun choice =>
        UInt16.ofNat (request.place choice)).length = tmp.length := by
    intro enough
    rw [List.length_map, withCarriers, List.length_zipWith, min_eq_left enough]
  have collected := insertSlots_spec ((withCarriers request.carriersNumber.toNat tmp rest).map
    fun choice => UInt16.ofNat (request.place choice)) List.nodup_nil
  constructor
  · rintro ⟨slots, ran, all, -, inside, -⟩
    obtain ⟨enough, int, rfl⟩ := drawCarriers_ok_iff.mp ran
    refine ⟨fun choice mem => ⟨int choice mem, ?_⟩, (nodup_slots_iff _).mp ?_⟩
    · have below := inside _ ((collected.2 _).mpr (.inr (List.mem_map_of_mem mem)))
      rwa [UInt16.toNat_ofNat'] at below
    · exact (length_insertSlots_eq_iff _).mp (all.trans (length enough).symm)
  · rintro ⟨inside, nodup⟩
    have int := fun choice mem => (inside choice mem).1
    have enough : tmp.length ≤ rest.length := by
      by_contra short
      exact fed (drawCarriers_starved int (not_le.mp short))
    have all := ((length_insertSlots_eq_iff _).mpr ((nodup_slots_iff _).mpr nodup)).trans
      (length enough)
    have below : ∀ slot ∈ insertSlots ((withCarriers request.carriersNumber.toNat tmp rest).map
        fun choice => UInt16.ofNat (request.place choice)) [], slot.toNat < bound := by
      intro slot mem
      obtain ⟨choice, mem', rfl⟩ :=
        List.mem_map.mp (((collected.2 slot).mp mem).resolve_left List.not_mem_nil)
      rw [UInt16.toNat_ofNat']
      exact (inside choice mem').2
    exact ⟨_, drawCarriers_ok_iff.mpr ⟨enough, int, rfl⟩, all, collected.1, below,
      all ▸ length_le_of_forall_lt collected.1 below⟩

/-- With few slots, they are served when the numbers that are drawn and chosen fit their types. -/
theorem served_iff_onWords (few : request.requested < 2 ^ 16)
    (fed : request.getTimeSlots draws ≠ .error .starved) :
    request.Served draws ↔ request.OnWords draws := by
  have eq := getTimeSlots_eq (lt_trans few (by decide)) draws
  rw [wrap_of_lt few] at eq
  unfold Served OnWords choices
  cases drawn : drawTimeSlots request.slotsPerCarrier request.requested draws [] with
  | error fault =>
      rw [drawn] at eq
      cases fault with
      | starved => exact absurd eq fed
      | undefined =>
          refine iff_of_false ?_ fun words => drawTimeSlots_undefined_iff.mp drawn words.1
          rintro ⟨slots, ran, -⟩
          exact nomatch eq.symm.trans ran
  | ok both =>
      obtain ⟨tmp, rest⟩ := both
      have narrow : Narrow request.slotsPerCarrier request.requested draws [] := by
        by_contra wide
        exact nomatch (drawTimeSlots_undefined_iff.mpr wide).symm.trans drawn
      obtain ⟨-, length, -⟩ := drawTimeSlots_from_nil drawn
      rw [drawn] at eq
      replace eq : request.getTimeSlots draws = drawCarriers request.slotsPerCarrier
        request.carriersNumber.toNat tmp rest [] := eq
      rw [eq] at fed ⊢
      have served := drawCarriers_serves_iff fed request.slotsNumber.toNat
      rw [length] at served
      exact served.trans (and_iff_right narrow).symm

/-! ### Slots and carriers -/

/-- Two cells of rows of one width are the same only when one is behind the end of its row and
the other is the first of the next. -/
theorem cells_meet {width row row' column column' : Nat} (within : column ≤ width)
    (same : row * width + column = row' * width + column')
    (less : row < row') : column = width ∧ column' = 0 ∧ (width = 0 ∨ row' = row + 1) := by
  obtain ⟨more, rfl⟩ := Nat.exists_eq_add_of_lt less
  rw [Nat.add_mul, Nat.add_mul, Nat.one_mul] at same
  have none_between : more * width = 0 := by omega
  refine ⟨by omega, by omega, ?_⟩
  rcases Nat.mul_eq_zero.mp none_between with rfl | zero
  · exact .inr rfl
  · exact .inl zero

theorem divide_eq_some {a b quotient : UInt32} :
    divide a b = some quotient ↔ b ≠ 0 ∧ quotient = a / b := by
  rw [divide, Option.ite_none_left_eq_some, Option.some_inj]
  exact and_congr_right fun _ => eq_comm

theorem checkMaxPackets_eq_some {slotsNumber carriersNumber : UInt32}
    {nbReplicas nbMaxPackets checked : UInt16} :
    checkMaxPackets slotsNumber carriersNumber nbReplicas nbMaxPackets = some checked ↔
      nbMaxPackets.toNat * nbReplicas.toNat < 2 ^ 31 ∧ carriersNumber ≠ 0 ∧
      if (slotsNumber / carriersNumber).toNat < nbMaxPackets.toNat * nbReplicas.toNat then
        nbReplicas.toUInt32 * carriersNumber ≠ 0 ∧
          checked = (slotsNumber / (nbReplicas.toUInt32 * carriersNumber)).toUInt16
      else checked = nbMaxPackets := by
  simp only [checkMaxPackets, Option.bind_eq_some_iff, mulInt_eq_some, divide_eq_some]
  constructor
  · rintro ⟨_, ⟨int, rfl⟩, _, ⟨nonzero, rfl⟩, bound⟩
    refine ⟨int, nonzero, ?_⟩
    split at bound
    next more =>
      obtain ⟨_, divided, rfl⟩ := Option.map_eq_some_iff.mp bound
      rw [if_pos more]
      obtain ⟨nonzero', rfl⟩ := divide_eq_some.mp divided
      exact ⟨nonzero', rfl⟩
    next enough =>
      rw [if_neg enough]
      exact (Option.some.inj bound).symm
  · rintro ⟨int, nonzero, bound⟩
    refine ⟨_, ⟨int, rfl⟩, _, ⟨nonzero, rfl⟩, ?_⟩
    split at bound
    next more =>
      rw [if_pos more]
      exact Option.map_eq_some_iff.mpr ⟨_, divide_eq_some.mpr ⟨bound.1, rfl⟩, bound.2.symm⟩
    next enough => rw [if_neg enough, bound]

theorem carriersNumber_pos (request : SlotsRequest) : 0 < request.carriersNumber.toNat := by
  obtain ⟨-, nonzero, -⟩ := checkMaxPackets_eq_some.mp request.checked
  exact Nat.pos_of_ne_zero fun zero => nonzero (UInt32.toNat_inj.mp zero)

/-- The slots are those of the carriers and those left. -/
theorem slotsNumber_eq (request : SlotsRequest) : request.slotsNumber.toNat =
    request.carriersNumber.toNat * request.slotsPerCarrier +
      request.slotsNumber.toNat % request.carriersNumber.toNat := by
  rw [slotsPerCarrier, UInt32.toNat_div, Nat.div_add_mod]

/-- A maximum that is let through asks for slots of one carrier at most, when the carriers of the
copies of a packet can be counted. -/
theorem requested_le (exact_product : request.nbReplicas.toNat * request.carriersNumber.toNat < 2 ^ 32) :
    request.requested ≤ request.slotsPerCarrier := by
  obtain ⟨-, -, bound⟩ := checkMaxPackets_eq_some.mp request.checked
  have most : request.requested ≤ request.nbMaxPackets.toNat * request.nbReplicas.toNat :=
    Nat.mul_le_mul_right _ (min_le_right ..)
  split at bound
  next more =>
    have parts : (request.nbReplicas.toUInt32 * request.carriersNumber).toNat =
        request.carriersNumber.toNat * request.nbReplicas.toNat := by
      rw [UInt32.toNat_mul, UInt16.toNat_toUInt32, Nat.mod_eq_of_lt exact_product, Nat.mul_comm]
    have bounded : request.nbMaxPackets.toNat ≤
        request.slotsPerCarrier / request.nbReplicas.toNat := by
      rw [bound.2, UInt32.toNat_toUInt16, UInt32.toNat_div, parts, ← Nat.div_div_eq_div_mul,
        slotsPerCarrier, UInt32.toNat_div]
      exact Nat.mod_le ..
    calc request.requested
        ≤ request.nbMaxPackets.toNat * request.nbReplicas.toNat := most
      _ ≤ request.slotsPerCarrier / request.nbReplicas.toNat * request.nbReplicas.toNat :=
          Nat.mul_le_mul_right _ bounded
      _ ≤ request.slotsPerCarrier := Nat.div_mul_le_self ..
  next enough =>
    rw [bound] at most
    exact most.trans (not_lt.mp enough)

theorem withCarriers_spec (carriersNumber : Nat) (tmp : List UInt16) (draws : List Rand) :
    ((withCarriers carriersNumber tmp draws).map Prod.fst).Sublist tmp ∧
      ∀ choice ∈ withCarriers carriersNumber tmp draws,
        ∃ draw ∈ draws, choice.2 = draw.scale carriersNumber := by
  induction tmp generalizing draws with
  | nil => exact ⟨.slnil, nofun⟩
  | cons slot tmp ih =>
      cases draws with
      | nil => exact ⟨List.nil_sublist _, nofun⟩
      | cons draw draws =>
          obtain ⟨sublist, given⟩ := ih draws
          refine ⟨sublist.cons_cons slot, List.forall_mem_cons.mpr
            ⟨⟨draw, List.mem_cons_self, rfl⟩, fun choice mem => ?_⟩⟩
          obtain ⟨draw', mem', same⟩ := given choice mem
          exact ⟨draw', List.mem_cons_of_mem _ mem', same⟩

/-- A single slot is not asked of carriers without slots. -/
theorem slotsPerCarrier_pos_of_single (single : request.requested = 1) :
    0 < request.slotsPerCarrier := by
  have copies : request.nbReplicas.toNat = 1 := Nat.eq_one_of_mul_eq_one_left single
  have most := request.requested_le (by
    rw [copies, Nat.one_mul]
    exact request.carriersNumber.toNat_lt)
  omega

/-- The chosen slots are different, and outcomes give them and their carriers. -/
theorem choices_spec (request : SlotsRequest) (draws : List Rand) :
    ((request.choices draws).map Prod.fst).Nodup ∧
      ∀ choice ∈ request.choices draws,
        (∃ draw ∈ draws, choice.1.toNat = draw.scale request.slotsPerCarrier) ∧
        (∃ draw ∈ draws, choice.2 = draw.scale request.carriersNumber.toNat) ∧
        0 < request.slotsPerCarrier := by
  unfold choices
  cases drawn : drawTimeSlots request.slotsPerCarrier request.requested draws [] with
  | error fault => exact ⟨List.nodup_nil, nofun⟩
  | ok both =>
      obtain ⟨tmp, rest⟩ := both
      obtain ⟨nodup, length, given, left⟩ := drawTimeSlots_from_nil drawn
      obtain ⟨sublist, carriers⟩ := withCarriers_spec request.carriersNumber.toNat tmp rest
      refine ⟨nodup.sublist sublist, fun choice mem => ?_⟩
      have mem' : choice.1 ∈ tmp := sublist.subset (List.mem_map_of_mem mem)
      obtain ⟨draw, drawnFrom, carrier⟩ := carriers choice mem
      refine ⟨given _ mem', ⟨draw, left drawnFrom, carrier⟩, ?_⟩
      by_contra empty
      have below : ∀ slot ∈ tmp, slot.toNat < 1 := by
        intro slot mem
        obtain ⟨draw, -, same⟩ := given slot mem
        have := draw.scale_le request.slotsPerCarrier
        omega
      have few := length_le_of_forall_lt nodup below
      have some_drawn := List.length_pos_of_mem mem'
      exact empty (slotsPerCarrier_pos_of_single (by omega))

/-- They go up to the slot behind the last of a carrier, and to the carrier behind the last. -/
theorem choices_within (request : SlotsRequest) (draws : List Rand) :
    ∀ choice ∈ request.choices draws, choice.1.toNat ≤ request.slotsPerCarrier ∧
      choice.2 ≤ request.carriersNumber.toNat ∧ 0 < request.slotsPerCarrier := by
  intro choice mem
  obtain ⟨⟨slot, -, place⟩, ⟨carrier, -, number⟩, pos⟩ := (request.choices_spec draws).2 choice mem
  exact ⟨place ▸ slot.scale_le _, number ▸ carrier.scale_le _, pos⟩

/-- Where the place of a chosen slot is one of the category. -/
theorem place_lt_iff {choice : UInt16 × Nat} (within : choice.1.toNat ≤ request.slotsPerCarrier)
    (carrier : choice.2 ≤ request.carriersNumber.toNat) (pos : 0 < request.slotsPerCarrier) :
    request.place choice < request.slotsNumber.toNat ↔
      (choice.2 = request.carriersNumber.toNat →
        choice.1.toNat < request.slotsNumber.toNat % request.carriersNumber.toNat) ∧
      (choice.1.toNat = request.slotsPerCarrier → choice.2 + 1 = request.carriersNumber.toNat →
        0 < request.slotsNumber.toNat % request.carriersNumber.toNat) := by
  have slots := request.slotsNumber_eq
  unfold place
  generalize request.slotsNumber.toNat % request.carriersNumber.toNat = left at slots ⊢
  rcases Nat.lt_or_ge choice.2 request.carriersNumber.toNat with before | behind
  · obtain ⟨more, count⟩ := Nat.exists_eq_add_of_lt before
    have rows : request.carriersNumber.toNat * request.slotsPerCarrier =
        choice.2 * request.slotsPerCarrier + more * request.slotsPerCarrier +
          request.slotsPerCarrier := by
      rw [count, Nat.add_mul, Nat.add_mul, Nat.one_mul]
    rcases Nat.eq_zero_or_pos more with rfl | later
    · omega
    · have room : 0 < more * request.slotsPerCarrier := Nat.mul_pos later pos
      omega
  · have last : choice.2 = request.carriersNumber.toNat := le_antisymm carrier behind
    rw [last]
    omega

/-- Chosen slots meet only where one is behind the last of a carrier and the other the first of the
next carrier. -/
theorem nodup_places_iff {chosen : List (UInt16 × Nat)} (nodup : (chosen.map Prod.fst).Nodup)
    (within : ∀ choice ∈ chosen, choice.1.toNat ≤ request.slotsPerCarrier)
    (pos : ∀ choice ∈ chosen, 0 < request.slotsPerCarrier) :
    (chosen.map request.place).Nodup ↔
      ∀ behind ∈ chosen, ∀ first ∈ chosen, behind.1.toNat = request.slotsPerCarrier →
        first.1.toNat = 0 → first.2 ≠ behind.2 + 1 := by
  rw [List.nodup_map_iff_inj_on nodup.of_map]
  constructor
  · intro apart behind mem first mem' last zero next
    have meet : request.place behind = request.place first := by
      rw [place, place, last, zero, next, Nat.add_mul, Nat.one_mul, Nat.add_zero]
    rw [apart behind mem first mem' meet] at last
    have := pos first mem'
    omega
  · intro apart
    have different : ∀ behind ∈ chosen, ∀ first ∈ chosen, behind.2 < first.2 →
        request.place behind ≠ request.place first := by
      intro behind mem first mem' less meet
      obtain ⟨last, zero, empty | next⟩ := cells_meet (within behind mem) meet less
      · exact absurd empty (pos behind mem).ne'
      · exact apart behind mem first mem' last zero next
    intro choice mem other mem' meet
    rcases Nat.lt_trichotomy choice.2 other.2 with less | same | more
    · exact absurd meet (different choice mem other mem' less)
    · rw [place, place, same] at meet
      exact Prod.ext (UInt16.toNat_inj.mp (Nat.add_left_cancel meet)) same
    · exact absurd meet.symm (different other mem' choice mem more)

/-- When no slot number leaves 16 bits, the chosen ones are as they should be exactly when the slots
and the carriers behind the last ones are drawn only where they are not missing. -/
theorem onWords_iff_onCarriers
    (small : request.slotsNumber.toNat + request.slotsPerCarrier < 2 ^ 16) (draws : List Rand) :
    request.OnWords draws ↔ request.OnCarriers draws := by
  have nodup := (request.choices_spec draws).1
  have chosen := request.choices_within draws
  have slots := request.slotsNumber_eq
  have narrow : Narrow request.slotsPerCarrier request.requested draws [] :=
    narrow_of_lt (lt_of_le_of_lt (Nat.le_add_left ..) small)
  -- no place leaves 16 bits, not even behind the last slot of the carrier behind the last
  have fits : ∀ choice ∈ request.choices draws,
      choice.2 < 2 ^ 31 ∧ wrap 16 (request.place choice) = request.place choice := by
    intro choice mem
    obtain ⟨within, carrier, pos⟩ := chosen choice mem
    have rows := Nat.mul_le_mul_right request.slotsPerCarrier carrier
    have many : choice.2 ≤ choice.2 * request.slotsPerCarrier := Nat.le_mul_of_pos_right _ pos
    refine ⟨by omega, wrap_of_lt ?_⟩
    rw [place]
    omega
  have inside : (∀ choice ∈ request.choices draws, choice.2 < 2 ^ 31 ∧
      wrap 16 (request.place choice) < request.slotsNumber.toNat) ↔ _ :=
    forall₂_congr fun choice mem => by
      rw [(fits choice mem).2, and_iff_right (fits choice mem).1,
        place_lt_iff (chosen choice mem).1 (chosen choice mem).2.1 (chosen choice mem).2.2]
  rw [OnWords, OnCarriers, and_iff_right narrow, inside,
    List.map_congr_left fun choice mem => (fits choice mem).2,
    nodup_places_iff nodup (fun choice mem => (chosen choice mem).1)
      fun choice mem => (chosen choice mem).2.2]

/-- Every request and every sequence of outcomes that does not starve the draw. -/
theorem served_iff (request : SlotsRequest) (draws : List Rand)
    (fed : request.getTimeSlots draws ≠ .error .starved) :
    request.Served draws ↔ request.requested < 2 ^ 16 ∧
      if request.slotsNumber.toNat + request.slotsPerCarrier < 2 ^ 16 then request.OnCarriers draws
      else request.OnWords draws := by
  by_cases few : request.requested < 2 ^ 16
  · rw [and_iff_right few, served_iff_onWords few fed]
    split
    next small => exact onWords_iff_onCarriers small draws
    next => exact Iff.rfl
  · exact iff_of_false (fun served => few (few_of_served served)) fun holds => few holds.1

/-- Without the greatest outcome, a category with few slots serves every request that `init` lets
through. -/
theorem served_of_ordinary (few : request.nbReplicas.toNat * request.carriersNumber.toNat < 2 ^ 32)
    (small : request.slotsNumber.toNat + request.slotsPerCarrier < 2 ^ 16)
    (fed : request.getTimeSlots draws ≠ .error .starved)
    (ordinary : ∀ draw ∈ draws, draw.outcome < RAND_MAX) : request.Served draws := by
  have slots := request.slotsNumber_eq
  have rows := Nat.le_mul_of_pos_left request.slotsPerCarrier request.carriersNumber_pos
  have asked := request.requested_le few
  rw [served_iff_onWords (by omega) fed, onWords_iff_onCarriers small]
  have before : ∀ choice ∈ request.choices draws, choice.1.toNat < request.slotsPerCarrier ∧
      choice.2 < request.carriersNumber.toNat := by
    intro choice mem
    obtain ⟨⟨slot, mem, place⟩, ⟨carrier, mem', number⟩, pos⟩ :=
      (request.choices_spec draws).2 choice mem
    rw [place, number]
    exact ⟨(slot.scale_lt_iff pos).mpr (ordinary slot mem),
      (carrier.scale_lt_iff request.carriersNumber_pos).mpr (ordinary carrier mem')⟩
  refine ⟨fun choice mem => ⟨fun behind => ?_, fun behind => ?_⟩, fun choice mem _ _ behind => ?_⟩
  · exact absurd behind (before choice mem).2.ne
  · exact absurd behind (before choice mem).1.ne
  · exact absurd behind (before choice mem).1.ne

/-! ### The draws of a terminal -/

/-- The outcomes of the first step, as the slots that they give. -/
theorem drawSlots_of_drawTimeSlots
    (drawn : drawTimeSlots slotsPerCarrier max draws former = .ok (tmp, rest)) :
    ∃ ids, SlottedAlohaTal.drawSlots max ids former = some tmp := by
  induction draws generalizing former with
  | nil =>
      rw [drawTimeSlots] at drawn
      split at drawn
      next enough =>
        obtain ⟨rfl, -⟩ := Prod.mk.inj (Except.ok.inj drawn)
        exact ⟨[], if_pos enough⟩
      next => cases drawn
  | cons draw draws ih =>
      rw [drawTimeSlots] at drawn
      split at drawn
      next enough =>
        obtain ⟨rfl, -⟩ := Prod.mk.inj (Except.ok.inj drawn)
        exact ⟨[], if_pos enough⟩
      next missing =>
        split at drawn
        next narrow =>
          obtain ⟨ids, ran⟩ := ih drawn
          exact ⟨.ofNat (draw.scale slotsPerCarrier) :: ids, (if_neg missing).trans ran⟩
        next => cases drawn

/-- The carriers of the second step, as those of the slots by their index. -/
theorem insertSlots_eq_foldl (enough : tmp.length ≤ rest.length) (carriers : Nat → UInt16)
    (index : Nat) (given : ∀ (i : Nat) (inside : i < rest.length),
      carriers (index + i) = .ofNat ((rest.get ⟨i, inside⟩).scale carriersNumber)) :
    insertSlots ((withCarriers carriersNumber tmp rest).map fun choice =>
        UInt16.ofNat (choice.2 * slotsPerCarrier + choice.1.toNat)) former =
      (tmp.zipIdx index).foldl (fun slots entry => insertSlot
        (.ofNat ((carriers entry.2).toNat * slotsPerCarrier + entry.1.toNat)) slots) former := by
  induction tmp generalizing rest index former with
  | nil => rfl
  | cons slot tmp ih =>
      cases rest with
      | nil => cases enough
      | cons draw rest =>
          have first : carriers index = .ofNat (draw.scale carriersNumber) :=
            given 0 (Nat.succ_pos _)
          have same : UInt16.ofNat ((carriers index).toNat * slotsPerCarrier + slot.toNat) =
              .ofNat (draw.scale carriersNumber * slotsPerCarrier + slot.toNat) := by
            apply UInt16.toNat_inj.mp
            simp only [first, UInt16.toNat_ofNat', Nat.add_mod, Nat.mod_mul_mod, Nat.mod_mod]
          rw [List.zipIdx_cons, List.foldl_cons]
          dsimp only
          rw [same]
          exact ih (Nat.le_of_succ_le_succ enough) (index + 1) fun i inside => by
            rw [Nat.add_assoc, Nat.add_comm 1 i]
            exact given (i + 1) (Nat.succ_lt_succ inside)

/-- The slots drawn for a terminal are ones that it may draw. -/
theorem getTimeSlots_refines {config : SlottedAlohaTalConfig} {tal : SlottedAlohaTal}
    (copies : request.nbReplicas = config.nbReplicas)
    (most : request.nbMaxPackets = config.nbMaxPackets)
    (carrier : request.slotsPerCarrier = config.slotsPerCarrier)
    (packets : request.nbPackets.toNat = wrap 16 (tal.retransmissionPackets.length +
      ((tal.dvbFifos.entries.filter fun entry => entry.2.accessType = .return .saloha).map
        fun entry => entry.2.getCurrentSize).sum))
    (ran : request.getTimeSlots draws = .ok slots) :
    ∃ ids carriers, tal.getTimeSlots config ids carriers = some slots := by
  obtain ⟨-, ⟨tmp, rest⟩, drawn, moved⟩ := getTimeSlots_ok_iff.mp ran
  obtain ⟨enough, -, rfl⟩ := drawCarriers_ok_iff.mp moved
  obtain ⟨ids, drew⟩ := drawSlots_of_drawTimeSlots drawn
  let carriers (i : Nat) : UInt16 :=
    .ofNat ((rest[i]?.map fun draw => draw.scale request.carriersNumber.toNat).getD 0)
  have given : ∀ (i : Nat) (inside : i < rest.length),
      carriers (0 + i) = .ofNat ((rest.get ⟨i, inside⟩).scale request.carriersNumber.toNat) := by
    intro i inside
    simp [carriers, inside]
  refine ⟨ids, carriers, ?_⟩
  rw [requested, packets, most, copies] at drew
  rw [SlottedAlohaTal.getTimeSlots]
  refine Option.map_eq_some_iff.mpr ⟨tmp, drew, ?_⟩
  rw [← carrier]
  exact (insertSlots_eq_foldl enough carriers 0 given).symm

/-- Two carriers of two slots each, for one packet sent twice. -/
def twoCarriers : SlotsRequest where
  slotsNumber := 4
  carriersNumber := 2
  nbReplicas := 2
  configuredMaxPackets := 1
  nbMaxPackets := 1
  checked := by decide
  nbPackets := 1

/-- An outcome in the middle. -/
def middle : Rand := ⟨2 ^ 30, by decide⟩

/-- Slots 0 and 1 on the carriers 1 and 0 are drawn. -/
theorem twoCarriers_served : twoCarriers.Served [.least, middle, middle, .least] := by
  refine (served_iff twoCarriers [.least, middle, middle, .least] (by decide)).mpr ⟨by decide, ?_⟩
  rw [if_pos (by decide), OnCarriers]
  decide

/-- The greatest outcome on the carrier 0 and the least one on the carrier 1 are one slot for two
copies. -/
theorem twoCarriers_not_served :
    ¬ twoCarriers.Served [.greatest, .least, middle, .least] := by
  rintro ⟨slots, ran, all, -⟩
  have one : twoCarriers.getTimeSlots [.greatest, .least, middle, .least] = .ok [2] := by decide
  obtain rfl := Except.ok.inj (one.symm.trans ran)
  exact absurd all (by decide)

end SlotsRequest

end OpenSand
