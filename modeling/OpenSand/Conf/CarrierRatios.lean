import OpenSand.Conf.Path
import OpenSand.Lib.CharStream
import OpenSand.Lib.LastValue
import OpenSand.Lib.Tokens
import OpenSand.Lib.Word
import Mathlib.Algebra.BigOperators.Ring.List
import Mathlib.Data.Char
import Mathlib.Data.List.Lex

/-!
The carriers of a spot in the frequency plan (`OpenSandModelConf::getSpotCarriers`).

The ratios of the formats of a carrier are scaled to a sum of 1000: each is multiplied by 1000
and divided by the total, in 32 bits and rounded down. A ratio is kept for each format, the
last one listed for it, but the total counts them all.

The floating point numbers are a type of their own; the bandwidth of a carrier is a parameter.
-/

namespace OpenSand.Conf

open OpenSand.Word

/-! ### The configuration -/

/-- What a carrier sets in the frequency plan. -/
structure CarrierConf (Double : Type) where
  symbolRate : Option Double
  group : Option String
  type : Option String
  waveForm : Option Text
  ratio : Option Text

/-- A spot of the frequency plan, with what it sets for each direction. -/
structure FrequencySpot (Double : Type) where
  gatewayId : Option Int
  rollOff : Bool → Option Double
  band : Bool → List (CarrierConf Double)

inductive AccessType where
  | dama | tdm | aloha | scpc | error
deriving DecidableEq

def strToAccessType (accessType : String) : AccessType :=
  if accessType = "DAMA" then .dama
  else if accessType = "ACM" then .tdm
  else if accessType = "ALOHA" then .aloha
  else if accessType = "VCM" then .tdm
  else if accessType = "SCPC" then .scpc
  else .error

structure Carrier (Double : Type) where
  accessType : AccessType
  category : String
  symbolRate : Double
  formatRatios : SortedMap Text Nat
  bandwidthKhz : UInt32

structure SpotCarriers (Double : Type) where
  bandwidthKhz : UInt32
  rollOff : Double
  carriers : List (Carrier Double)

variable {Double : Type}

/-! ### Reading a carrier -/

/-- `tokenize`, with a set of delimiters. -/
def tokens (str delimiters : Text) : List Text := tokensBy (fun c => delimiters.contains c) str

/-- A format and the value of its token. -/
def formatRatio (format token : Text) : Option (Text × Nat) :=
  let (value, parser) := CharStream.extractUnsigned 32 ⟨token, false⟩ 0
  if parser.fail then none else some (format, value)

/-- The formats of a carrier with their values, as they are listed. -/
def readRatios (ratio formatIds : Text) : Option (List (Text × Nat)) :=
  let values := tokens ratio [',', ';', '-', ' ']
  let formats := tokens formatIds [',']
  if values.length ≠ formats.length then none
  else (formats.zip values).mapM fun pair => formatRatio pair.1 pair.2

structure ReadCarrier (Double : Type) where
  symbolRate : Double
  category : String
  accessType : String
  pairs : List (Text × Nat)
deriving DecidableEq

/-- What is read of a carrier; a carrier that is not as it should be rejects the spot. -/
def CarrierConf.read (carrier : CarrierConf Double) : Option (ReadCarrier Double) := do
  let symbolRate ← carrier.symbolRate
  let category ← carrier.group
  let accessType ← carrier.type
  let formatIds ← carrier.waveForm
  let ratio ← if accessType = "VCM" then carrier.ratio else some ['1', '0', '0', '0']
  let pairs ← readRatios ratio formatIds
  return ⟨symbolRate, category, accessType, pairs⟩

/-- The formats and the ratios of two lists of the same length are read from their texts. -/
theorem readRatios_of_lists {pairs : List (Text × Nat)}
    (formats : ∀ pair ∈ pairs, ',' ∉ pair.1 ∧ pair.1 ≠ []) (fits : ∀ pair ∈ pairs, pair.2 < 2 ^ 32) :
    readRatios ([','].intercalate (pairs.map fun pair => Nat.toDigits 10 pair.2))
      ([','].intercalate (pairs.map Prod.fst)) = some pairs := by
  have values : tokens ([','].intercalate (pairs.map fun pair => Nat.toDigits 10 pair.2))
      [',', ';', '-', ' '] = pairs.map fun pair => Nat.toDigits 10 pair.2 := by
    apply tokensBy_intercalate
    · intro part mem c held
      obtain ⟨pair, -, rfl⟩ := List.mem_map.mp mem
      have digit := Nat.isDigit_of_mem_toDigits (by decide) (by decide) held
      simp only [List.contains_cons, List.contains_nil, Bool.or_false, Bool.or_eq_false_iff,
        beq_eq_false_iff_ne]
      refine ⟨?_, ?_, ?_, ?_⟩ <;>
        · rintro rfl
          exact absurd digit (by decide)
    · intro part mem
      obtain ⟨pair, -, rfl⟩ := List.mem_map.mp mem
      exact Nat.toDigits_ne_nil
    · rfl
  have names : tokens ([','].intercalate (pairs.map Prod.fst)) [','] = pairs.map Prod.fst := by
    apply tokensBy_intercalate
    · intro part mem c held
      obtain ⟨pair, own, rfl⟩ := List.mem_map.mp mem
      simp only [List.contains_cons, List.contains_nil, Bool.or_false, beq_eq_false_iff_ne]
      rintro rfl
      exact (formats pair own).1 held
    · intro part mem
      obtain ⟨pair, own, rfl⟩ := List.mem_map.mp mem
      exact (formats pair own).2
    · rfl
  rw [readRatios, values, names, if_neg (by simp)]
  clear values names formats
  induction pairs with
  | nil => rfl
  | cons pair pairs ih =>
      obtain ⟨own, rest⟩ := List.forall_mem_cons.mp fits
      have read : formatRatio pair.1 (Nat.toDigits 10 pair.2) = some pair := by
        have stops : ∀ c ∈ ([] : Text).head?, c.isDigit = false := nofun
        have extracted := CharStream.extractUnsigned_toDigits own 0 stops
        rw [List.append_nil] at extracted
        rw [formatRatio, extracted]
        rfl
      simp only [List.map_cons, List.zip_cons_cons, List.mapM_cons, read, ih rest]
      rfl

/-! ### The ratios -/

/-- The values by format, and their total. -/
def collect (pairs : List (Text × Nat)) : SortedMap Text Nat × Nat :=
  pairs.foldl (fun state pair => (state.1.assign pair.1 pair.2, addW 32 state.2 pair.2)) (.empty, 0)

/-- The ratios scaled to 1000; a division by a total of 0 is not defined. -/
def scaleRatios (ratios : SortedMap Text Nat) (totalRatio : Nat) : Option (SortedMap Text Nat) :=
  if totalRatio = 0 ∧ ratios.entries ≠ [] then none
  else some (ratios.mapValues fun value => 1000 * value % 2 ^ 32 / totalRatio)

def formatRatios (pairs : List (Text × Nat)) : Option (SortedMap Text Nat) :=
  scaleRatios (collect pairs).1 (collect pairs).2

/-! ### The carriers of a spot -/

/-- The loop over the carriers: no result where it is not defined, none when it rejects. -/
def readCarriers (bandwidth : Double → UInt32) :
    List (CarrierConf Double) → Option (Option (UInt32 × List (Carrier Double)))
  | [] => some (some (0, []))
  | conf :: band =>
      match conf.read with
      | none => some none
      | some read => do
          let ratios ← formatRatios read.pairs
          let out ← readCarriers bandwidth band
          return out.map fun (total, carriers) =>
            let bandwidthKhz := bandwidth read.symbolRate
            (bandwidthKhz + total,
              ⟨strToAccessType read.accessType, read.category, read.symbolRate, ratios,
                bandwidthKhz⟩ :: carriers)

/-- The first spot of a gateway, as long as the ones before it are set. -/
def selectSpot (gwId : UInt16) : List (FrequencySpot Double) → Option (FrequencySpot Double)
  | [] => none
  | spot :: spots =>
      spot.gatewayId.bind fun gatewayId =>
        if gatewayId = gwId.toNat then some spot else selectSpot gwId spots

/-- The carriers of a gateway in one direction; the bandwidth is that of a symbol rate and a
roll-off. -/
def getSpotCarriers (bandwidthKhz : Double → Double → UInt32)
    (topology : Option (List (FrequencySpot Double))) (gwId : UInt16) (forward : Bool) :
    Option (Option (SpotCarriers Double)) :=
  match (topology.bind (selectSpot gwId)).bind fun spot =>
      (spot.rollOff forward).map fun rollOff => (spot.band forward, rollOff) with
  | none => some none
  | some (band, rollOff) =>
      (readCarriers (bandwidthKhz · rollOff) band).map fun out =>
        out.map fun (total, carriers) => ⟨total, rollOff, carriers⟩

/-! ### What the ratios are for -/

open SortedMap

/-- The ratios of the formats, with what was listed for them: they make 1000 in all, and each is
within one unit of its share. -/
structure RatioLaw (pairs : List (Text × Nat)) (ratios : SortedMap Text Nat) : Prop where
  formats : ∀ format, format ∈ ratios.keys ↔ ∃ pair ∈ pairs, pair.1 = format
  sum : ratios.sum = 1000
  share : ∀ format ratio, (format, ratio) ∈ ratios.entries →
    ratio * givenTotal pairs ≤ 1000 * given pairs format + givenTotal pairs ∧
      1000 * given pairs format ≤ ratio * givenTotal pairs + givenTotal pairs

/-- Ratios whose scaling is exact. -/
structure RatiosFit (pairs : List (Text × Nat)) : Prop where
  total : givenTotal pairs ≠ 0 ∧ givenTotal pairs < 2 ^ 32
  rewrites : RewritesZeros pairs
  divides : ∀ pair ∈ pairs, 1000 * pair.2 < 2 ^ 32 ∧ givenTotal pairs ∣ 1000 * pair.2

/-- Ratios whose division is defined. -/
def Divides (pairs : List (Text × Nat)) : Prop := pairs ≠ [] → givenTotal pairs % 2 ^ 32 ≠ 0

theorem collect_eq (pairs : List (Text × Nat)) :
    collect pairs = (ofList pairs, givenTotal pairs % 2 ^ 32) := by
  induction pairs using List.reverseRecOn with
  | nil => rfl
  | append_singleton pairs pair ih =>
      have step : collect (pairs ++ [pair]) = ((collect pairs).1.assign pair.1 pair.2,
          addW 32 (collect pairs).2 pair.2) := by
        rw [collect, List.foldl_append]
        rfl
      rw [step, ih, ofList_concat, givenTotal_concat, addW, Nat.mod_add_mod]

theorem ofList_entries_eq_nil {pairs : List (Text × Nat)} :
    (ofList pairs).entries = [] ↔ pairs = [] := by
  constructor
  · intro empty
    apply List.eq_nil_iff_forall_not_mem.mpr
    intro pair mem
    have key : pair.1 ∈ (ofList pairs).keys := mem_keys_ofList.mpr ⟨pair, mem, rfl⟩
    rw [keys, empty] at key
    cases key
  · rintro rfl
    rfl

theorem formatRatios_eq_some {pairs : List (Text × Nat)} {ratios : SortedMap Text Nat} :
    formatRatios pairs = some ratios ↔ Divides pairs ∧
      (ofList pairs).mapValues (fun value => 1000 * value % 2 ^ 32 / (givenTotal pairs % 2 ^ 32)) =
        ratios := by
  have divides : ¬ (givenTotal pairs % 2 ^ 32 = 0 ∧ (ofList pairs).entries ≠ []) ↔
      Divides pairs := by
    rw [ne_eq, ofList_entries_eq_nil, Divides]
    tauto
  rw [← divides, formatRatios, collect_eq, scaleRatios]
  split
  next undefined => exact iff_of_false nofun fun defined => defined.1 undefined
  next defined => rw [and_iff_right defined, Option.some.injEq]

/-! ### The exact ratios -/

/-- The terms of a scaled sum. -/
theorem sum_mapValues_mul (f : Nat → Nat) (map : SortedMap Text Nat) (total : Nat) :
    (map.mapValues f).sum * total = (map.entries.map fun entry => f entry.2 * total).sum := by
  rw [SortedMap.sum, SortedMap.total, mapValues, List.map_map, ← List.sum_map_mul_right]
  rfl

theorem mul_sum (map : SortedMap Text Nat) :
    1000 * map.sum = (map.entries.map fun entry => 1000 * entry.2).sum :=
  (List.sum_map_mul_left ..).symm

theorem RatiosFit.law {pairs : List (Text × Nat)} (fit : RatiosFit pairs) :
    ∃ ratios, formatRatios pairs = some ratios ∧ RatioLaw pairs ratios := by
  obtain ⟨some_total, small⟩ := fit.total
  have whole : givenTotal pairs % 2 ^ 32 = givenTotal pairs := Nat.mod_eq_of_lt small
  have divides : Divides pairs := fun _ => by rwa [whole]
  -- nothing is lost of the value of an entry
  have scaled : ∀ entry ∈ (ofList pairs).entries,
      1000 * entry.2 % 2 ^ 32 / givenTotal pairs * givenTotal pairs = 1000 * entry.2 := by
    intro entry mem
    have given := mem_of_lookup_ofList (lookup_of_mem mem)
    obtain ⟨fits, divides⟩ := fit.divides entry given
    rw [Nat.mod_eq_of_lt fits, Nat.div_mul_cancel divides]
  refine ⟨_, formatRatios_eq_some.mpr ⟨divides, rfl⟩, ?_⟩
  rw [whole]
  constructor
  · intro format
    rw [keys_mapValues, mem_keys_ofList]
  · have sums := sum_ofList_iff.mpr fit.rewrites
    apply Nat.eq_of_mul_eq_mul_right (Nat.pos_of_ne_zero some_total)
    rw [sum_mapValues_mul, List.map_congr_left scaled, ← mul_sum, sums]
  · intro format ratio mem
    obtain ⟨value, held, rfl⟩ := mem_mapValues.mp mem
    have all := fit.rewrites.lookup_eq format
    rw [lookup_of_mem held, Option.getD_some] at all
    have exact_ratio := scaled (format, value) held
    dsimp only at exact_ratio
    omega

theorem RatioLaw.fit {pairs : List (Text × Nat)} {ratios : SortedMap Text Nat}
    (law : RatioLaw pairs ratios) (scaled : formatRatios pairs = some ratios)
    (small : givenTotal pairs < 2 ^ 32) : RatiosFit pairs := by
  obtain ⟨divides, rfl⟩ := formatRatios_eq_some.mp scaled
  have thousand := law.sum
  rw [Nat.mod_eq_of_lt small] at thousand
  have some_total : givenTotal pairs ≠ 0 := by
    intro none
    have empty : pairs = [] := by
      by_contra some
      exact divides some (by rw [none, Nat.zero_mod])
    subst empty
    exact absurd thousand (by decide)
  have le : ∀ entry ∈ (ofList pairs).entries,
      1000 * entry.2 % 2 ^ 32 / givenTotal pairs * givenTotal pairs ≤ 1000 * entry.2 :=
    fun entry _ => (Nat.div_mul_le_self _ _).trans (Nat.mod_le _ _)
  have bounds := leavesOut pairs
  have all := sum_mapValues_mul (fun value => 1000 * value % 2 ^ 32 / givenTotal pairs)
    (ofList pairs) (givenTotal pairs)
  rw [thousand] at all
  have most := List.sum_le_sum le
  rw [← all, ← mul_sum] at most
  have kept : (ofList pairs).sum = givenTotal pairs :=
    Nat.le_antisymm bounds.sum_le (Nat.le_of_mul_le_mul_left most (by decide))
  have exact_ratio := eq_of_sum_le le (by rw [← all, ← mul_sum, kept])
  have rewrites := sum_ofList_iff.mp kept
  refine ⟨⟨some_total, small⟩, rewrites, fun pair mem => ?_⟩
  by_cases zero : pair.2 = 0
  · rw [zero]
    exact ⟨by decide, dvd_zero _⟩
  · have held := mem_of_lookup (rewrites.lookup_of_mem mem zero)
    have same := exact_ratio pair held
    refine ⟨?_, Dvd.intro_left _ same⟩
    have cut := Nat.div_mul_le_self (1000 * pair.2 % 2 ^ 32) (givenTotal pairs)
    rw [same] at cut
    exact lt_of_le_of_lt cut (Nat.mod_lt _ (by decide))

/-! ### The carriers of a band -/

/-- The divisions that are reached are defined, and the ratios of a band that is not rejected
fit. -/
structure BandFits (band : List (CarrierConf Double)) : Prop where
  divides : ∀ conf ∈ band.takeWhile (·.read.isSome), ∀ read, conf.read = some read →
    Divides read.pairs
  fits : (∀ conf ∈ band, conf.read.isSome = true) → ∀ conf ∈ band, ∀ read,
    conf.read = some read → RatiosFit read.pairs

/-- The carrier of a configuration that is read has the ratios it should. -/
def HasRatios (conf : CarrierConf Double) (carrier : Carrier Double) : Prop :=
  ∃ read, conf.read = some read ∧ RatioLaw read.pairs carrier.formatRatios

theorem readCarriers_isSome_iff (bandwidth : Double → UInt32) (band : List (CarrierConf Double)) :
    (∃ out, readCarriers bandwidth band = some out) ↔
      ∀ conf ∈ band.takeWhile (·.read.isSome), ∀ read, conf.read = some read →
        Divides read.pairs := by
  induction band with
  | nil => exact iff_of_true ⟨_, rfl⟩ nofun
  | cons conf band ih =>
      cases read : conf.read with
      | none =>
          rw [readCarriers, read, List.takeWhile_cons_of_neg (by simp [read])]
          exact iff_of_true ⟨_, rfl⟩ nofun
      | some own =>
          rw [readCarriers, read, List.takeWhile_cons_of_pos (by simp [read]),
            List.forall_mem_cons, ← ih]
          simp only [Option.bind_eq_bind, Option.bind_eq_some_iff, Option.pure_def]
          constructor
          · rintro ⟨_, ratios, scaled, out, rest, _⟩
            refine ⟨fun read' same => ?_, out, rest⟩
            cases read.symm.trans same
            exact (formatRatios_eq_some.mp scaled).1
          · rintro ⟨divides, out, rest⟩
            exact ⟨_, _, formatRatios_eq_some.mpr ⟨divides own read, rfl⟩, out, rest, rfl⟩

theorem readCarriers_accepted {bandwidth : Double → UInt32} {band : List (CarrierConf Double)}
    {total : UInt32} {carriers : List (Carrier Double)}
    (looped : readCarriers bandwidth band = some (some (total, carriers))) :
    List.Forall₂ (fun conf carrier => ∃ read, conf.read = some read ∧
      formatRatios read.pairs = some carrier.formatRatios) band carriers := by
  induction band generalizing total carriers with
  | nil =>
      cases looped
      exact .nil
  | cons conf band ih =>
      rw [readCarriers] at looped
      split at looped
      · cases looped
      next read own =>
        simp only [Option.bind_eq_bind, Option.bind_eq_some_iff, Option.pure_def,
          Option.some.injEq] at looped
        obtain ⟨ratios, scaled, out, rest, last⟩ := looped
        obtain ⟨⟨total', carriers'⟩, rfl, same⟩ := Option.map_eq_some_iff.mp last
        cases same
        exact .cons ⟨read, own, scaled⟩ (ih rest)

theorem readCarriers_rejected {bandwidth : Double → UInt32} {band : List (CarrierConf Double)}
    (looped : readCarriers bandwidth band = some none) : ∃ conf ∈ band, conf.read = none := by
  induction band with
  | nil => cases looped
  | cons conf band ih =>
      rw [readCarriers] at looped
      split at looped
      next rejected => exact ⟨conf, List.mem_cons_self, rejected⟩
      · simp only [Option.bind_eq_bind, Option.bind_eq_some_iff, Option.pure_def,
          Option.some.injEq, Option.map_eq_none_iff] at looped
        obtain ⟨ratios, scaled, out, rest, rfl⟩ := looped
        obtain ⟨other, mem, rejected⟩ := ih rest
        exact ⟨other, List.mem_cons_of_mem conf mem, rejected⟩

/-- Two relations between lists hold of the same pairs. -/
theorem exists_of_forall₂ {α β : Type*} {R S : α → β → Prop} {as : List α} {bs : List β}
    (first : List.Forall₂ R as bs) (second : List.Forall₂ S as bs) :
    ∀ a ∈ as, ∃ b, R a b ∧ S a b := by
  induction first with
  | nil => exact nofun
  | cons related _ ih =>
      cases second with
      | cons related' rest' =>
          exact List.forall_mem_cons.mpr ⟨⟨_, related, related'⟩, ih rest'⟩

/-- A band is read as it should be. -/
def BandLaw (bandwidth : Double → UInt32) (band : List (CarrierConf Double)) : Prop :=
  ∃ out, readCarriers bandwidth band = some out ∧
    ∀ total carriers, out = some (total, carriers) → List.Forall₂ HasRatios band carriers

theorem BandFits.law {band : List (CarrierConf Double)} (fits : BandFits band)
    (bandwidth : Double → UInt32) : BandLaw bandwidth band := by
  obtain ⟨out, looped⟩ := (readCarriers_isSome_iff bandwidth band).mpr fits.divides
  refine ⟨out, looped, ?_⟩
  rintro total carriers rfl
  have scaled := readCarriers_accepted looped
  have all : ∀ conf ∈ band, conf.read.isSome = true := by
    intro conf mem
    obtain ⟨carrier, ⟨read, own, -⟩, -⟩ := exists_of_forall₂ scaled scaled conf mem
    rw [own]
    rfl
  have fit := fits.fits all
  clear looped all fits
  induction scaled with
  | nil => exact .nil
  | cons own _ ih =>
      obtain ⟨read, here, ratios⟩ := own
      obtain ⟨first, rest⟩ := List.forall_mem_cons.mp fit
      obtain ⟨ratios', scaled', law⟩ := (first read here).law
      cases ratios.symm.trans scaled'
      exact .cons ⟨read, here, law⟩ (ih rest)

/-- A band with a total that 32 bits cannot hold. -/
def Overflows (band : List (CarrierConf Double)) : Prop :=
  ∃ conf ∈ band, ∃ read, conf.read = some read ∧ 2 ^ 32 ≤ givenTotal read.pairs

theorem BandLaw.fits {bandwidth : Double → UInt32} {band : List (CarrierConf Double)}
    (law : BandLaw bandwidth band) (small : ¬ Overflows band) : BandFits band := by
  obtain ⟨out, looped, ratios⟩ := law
  refine ⟨(readCarriers_isSome_iff bandwidth band).mp ⟨out, looped⟩, ?_⟩
  intro all conf mem read own
  cases out with
  | none =>
      obtain ⟨other, held, rejected⟩ := readCarriers_rejected looped
      have accepted := all other held
      rw [rejected] at accepted
      cases accepted
  | some out =>
      obtain ⟨carrier, ⟨read', own', scaled⟩, read'', own'', law⟩ :=
        exists_of_forall₂ (readCarriers_accepted looped) (ratios out.1 out.2 rfl) conf mem
      cases own.symm.trans own'
      cases own.symm.trans own''
      apply law.fit scaled
      by_contra large
      exact small ⟨conf, mem, read, own, Nat.le_of_not_lt large⟩

/-! ### The law of a spot -/

section Spot

variable (bandwidthKhz : Double → Double → UInt32)
  (topology : Option (List (FrequencySpot Double))) (gwId : UInt16) (forward : Bool)

/-- The spot is rejected or has the ratios of its carriers, and no division is undefined. -/
def SpotLaw : Prop :=
  ∃ out, getSpotCarriers bandwidthKhz topology gwId forward = some out ∧
    ∀ carriers, out = some carriers → ∃ spot, topology.bind (selectSpot gwId) = some spot ∧
      List.Forall₂ HasRatios (spot.band forward) carriers.carriers

/-- The band that is read, that of the spot of the gateway. -/
def ReadBand (band : List (CarrierConf Double)) : Prop :=
  ∃ spot, topology.bind (selectSpot gwId) = some spot ∧ (spot.rollOff forward).isSome = true ∧
    spot.band forward = band

theorem spotLaw_iff_bands : SpotLaw bandwidthKhz topology gwId forward ↔
    ∀ spot rollOff, topology.bind (selectSpot gwId) = some spot →
      spot.rollOff forward = some rollOff →
        BandLaw (bandwidthKhz · rollOff) (spot.band forward) := by
  cases selected : topology.bind (selectSpot gwId) with
  | none =>
      apply iff_of_true
      · exact ⟨none, by rw [getSpotCarriers, selected]; rfl, nofun⟩
      · exact nofun
  | some spot =>
      cases set : spot.rollOff forward with
      | none =>
          apply iff_of_true
          · exact ⟨none, by rw [getSpotCarriers, selected, Option.bind_some, set]; rfl, nofun⟩
          · rintro _ rollOff ⟨⟩ here
            rw [set] at here
            cases here
      | some rollOff =>
          have read : getSpotCarriers bandwidthKhz topology gwId forward =
              (readCarriers (bandwidthKhz · rollOff) (spot.band forward)).map fun out =>
                out.map fun (total, carriers) => ⟨total, rollOff, carriers⟩ := by
            rw [getSpotCarriers, selected, Option.bind_some, set]
            rfl
          rw [SpotLaw, read, selected]
          constructor
          · rintro ⟨_, looped, ratios⟩ _ _ ⟨⟩ here
            cases set.symm.trans here
            obtain ⟨out, reads, rfl⟩ := Option.map_eq_some_iff.mp looped
            refine ⟨out, reads, ?_⟩
            rintro total carriers rfl
            obtain ⟨_, ⟨⟩, law⟩ := ratios _ rfl
            exact law
          · intro bands
            obtain ⟨out, looped, law⟩ := bands spot rollOff rfl set
            refine ⟨_, by rw [looped, Option.map_some], ?_⟩
            intro carriers accepted
            obtain ⟨⟨total, list⟩, rfl, rfl⟩ := Option.map_eq_some_iff.mp accepted
            exact ⟨spot, rfl, law total list rfl⟩

/-- Scaled ratios are right in a spot whose ratios fit; where they are right and do not fit, a
total has overflowed. -/
theorem spotLaw_of_fit :
    ((∀ band, ReadBand topology gwId forward band → BandFits band) →
        SpotLaw bandwidthKhz topology gwId forward) ∧
      (SpotLaw bandwidthKhz topology gwId forward →
        (∀ band, ReadBand topology gwId forward band → BandFits band ∨ Overflows band)) := by
  rw [spotLaw_iff_bands]
  constructor
  · intro fits spot rollOff selected set
    have band := fits (spot.band forward) ⟨spot, selected, by rw [set]; rfl, rfl⟩
    exact band.law _
  · rintro bands band ⟨spot, selected, set, rfl⟩
    obtain ⟨rollOff, set⟩ := Option.isSome_iff_exists.mp set
    rw [or_iff_not_imp_right]
    exact (bands spot rollOff selected set).fits

end Spot

/-- A carrier in VCM with three formats of the same ratio. -/
def equalThirds : CarrierConf Unit where
  symbolRate := some ()
  group := some "Standard"
  type := some "VCM"
  waveForm := some ['1', ',', '2', ',', '3']
  ratio := some ['1', ',', '1', ',', '1']

theorem equalThirds_read : equalThirds.read =
    some ⟨(), "Standard", "VCM", [(['1'], 1), (['2'], 1), (['3'], 1)]⟩ := by
  decide

/-- Three equal ratios make 999. -/
theorem spotLaw_thirds_fails : ¬ ∀ (bandwidthKhz : Unit → Unit → UInt32)
    (topology : Option (List (FrequencySpot Unit))) (gwId : UInt16) (forward : Bool),
      SpotLaw bandwidthKhz topology gwId forward := by
  intro law
  have bands := (spotLaw_iff_bands _ _ _ _).mp
    (law (fun _ _ => 0) (some [⟨some 0, fun _ => some (), fun _ => [equalThirds]⟩]) 0 true)
  have band := bands _ () rfl rfl
  have small : ¬ Overflows [equalThirds] := by
    rintro ⟨conf, mem, read, own, large⟩
    cases List.mem_singleton.mp mem
    cases equalThirds_read.symm.trans own
    exact absurd large (by decide)
  have fits := (band.fits small).fits (by simp [equalThirds_read]) equalThirds (by simp) _
    equalThirds_read
  exact absurd (fits.divides (['1'], 1) (by simp)).2 (by decide)

end OpenSand.Conf
