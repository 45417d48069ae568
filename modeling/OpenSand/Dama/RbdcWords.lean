import OpenSand.Dama.RbdcSlots
import Mathlib.Tactic.FieldSimp
import Mathlib.Tactic.Linarith

/-!
The conversions of the RBDC when they do not overflow.

A maximum that fits the words with one more packet bounds all the rates below it. What the second
step tests in kbit/s is then true of the packets, whatever the conversions round.
-/

namespace OpenSand.Allocation

/-- The converter of an FMT definition. -/
def converterOf (format : Nat × Nat) (fmt : FmtDefinition) : UnitConverterFixedSymbolLength :=
  ⟨format.1, format.2, fmt.modulationEfficiency⟩

/-- The maximum RBDC and one more packet fit the words of the conversions. -/
structure FitsWords (format : Nat × Nat) (fmt : FmtDefinition) (maxKbps : Nat) : Prop where
  codingRate : 0 < fmt.codingRate ∧ fmt.codingRate ≤ 1
  frameDuration : 0 < format.1
  packetLength : 0 < format.2
  efficiency : 0 < fmt.modulationEfficiency
  fecWord : ⌊(maxKbps : ℚ) / fmt.codingRate⌋₊ < 2 ^ 16
  packetsWord : ⌈(⌊(maxKbps : ℚ) / fmt.codingRate⌋₊ : ℚ) * (format.2 : ℚ)⁻¹ *
    (fmt.modulationEfficiency : ℚ)⁻¹ * format.1⌉₊ < 2 ^ 16
  bitsWord : (packets format fmt maxKbps + 1) * format.2 * fmt.modulationEfficiency < 2 ^ 32
  rateWord : ⌈(((packets format fmt maxKbps + 1) * format.2 * fmt.modulationEfficiency : Nat) : ℚ) *
    (format.1 : ℚ)⁻¹⌉₊ < 2 ^ 16

namespace FitsWords

variable {format : Nat × Nat} {fmt : FmtDefinition} {maxKbps kbps n : Nat}

/-- The packets for a rate never exceed what they would be in larger words. -/
theorem packets_le : packets format fmt kbps ≤
    ⌈(⌊(kbps : ℚ) / fmt.codingRate⌋₊ : ℚ) * (format.2 : ℚ)⁻¹ *
      (fmt.modulationEfficiency : ℚ)⁻¹ * format.1⌉₊ := by
  refine (Nat.mod_le _ _).trans (Nat.ceil_le_ceil ?_)
  have word : fmt.addFec kbps ≤ ⌊(kbps : ℚ) / fmt.codingRate⌋₊ := Nat.mod_le _ _
  gcongr

section Words

variable (fits : FitsWords format fmt maxKbps)

include fits

theorem packets_eq (le : kbps ≤ maxKbps) : packets format fmt kbps =
    ⌈(⌊(kbps : ℚ) / fmt.codingRate⌋₊ : ℚ) * (format.2 : ℚ)⁻¹ *
      (fmt.modulationEfficiency : ℚ)⁻¹ * format.1⌉₊ := by
  have positive := fits.codingRate.1
  have fec : ⌊(kbps : ℚ) / fmt.codingRate⌋₊ ≤ ⌊(maxKbps : ℚ) / fmt.codingRate⌋₊ := by
    apply Nat.floor_le_floor
    gcongr
  have word : fmt.addFec kbps = ⌊(kbps : ℚ) / fmt.codingRate⌋₊ :=
    Word.wrap_of_lt (fec.trans_lt fits.fecWord)
  unfold packets UnitConverterFixedSymbolLength.kbpsToPktpf ceilW
  rw [word]
  apply Word.wrap_of_lt
  refine lt_of_le_of_lt (Nat.ceil_le_ceil ?_) fits.packetsWord
  gcongr

theorem packets_mono (le : kbps ≤ maxKbps) :
    packets format fmt kbps ≤ packets format fmt maxKbps := by
  have positive := fits.codingRate.1
  rw [fits.packets_eq le, fits.packets_eq le_rfl]
  apply Nat.ceil_le_ceil
  have fec : ⌊(kbps : ℚ) / fmt.codingRate⌋₊ ≤ ⌊(maxKbps : ℚ) / fmt.codingRate⌋₊ := by
    apply Nat.floor_le_floor
    gcongr
  gcongr

theorem pktpfToKbps_eq (le : n ≤ packets format fmt maxKbps + 1) :
    (converterOf format fmt).pktpfToKbps n =
      ⌈((n * format.2 * fmt.modulationEfficiency : Nat) : ℚ) * (format.1 : ℚ)⁻¹⌉₊ := by
  have bits : n * format.2 * fmt.modulationEfficiency ≤
      (packets format fmt maxKbps + 1) * format.2 * fmt.modulationEfficiency := by
    gcongr
  have word : Word.wrap 32 (n * format.2 * fmt.modulationEfficiency) =
      n * format.2 * fmt.modulationEfficiency := Word.wrap_of_lt (bits.trans_lt fits.bitsWord)
  unfold UnitConverterFixedSymbolLength.pktpfToKbps converterOf ceilW
  dsimp only
  rw [word]
  apply Word.wrap_of_lt
  refine lt_of_le_of_lt (Nat.ceil_le_ceil ?_) fits.rateWord
  gcongr

/-- The rate of some packets with the FEC is no less than what they are worth. -/
theorem pktpfToKbps_ge (le : n ≤ packets format fmt maxKbps + 1) :
    (n : ℚ) ≤ (converterOf format fmt).pktpfToKbps n * (format.2 : ℚ)⁻¹ *
      (fmt.modulationEfficiency : ℚ)⁻¹ * format.1 := by
  have duration : (0 : ℚ) < format.1 := by exact_mod_cast fits.frameDuration
  have length : (0 : ℚ) < format.2 := by exact_mod_cast fits.packetLength
  have efficiency : (0 : ℚ) < fmt.modulationEfficiency := by exact_mod_cast fits.efficiency
  have worth : ((n * format.2 * fmt.modulationEfficiency : Nat) : ℚ) * (format.1 : ℚ)⁻¹ ≤
      (converterOf format fmt).pktpfToKbps n := by
    rw [fits.pktpfToKbps_eq le]
    exact Nat.le_ceil _
  calc (n : ℚ) = ((n * format.2 * fmt.modulationEfficiency : Nat) : ℚ) * (format.1 : ℚ)⁻¹ *
        (format.2 : ℚ)⁻¹ * (fmt.modulationEfficiency : ℚ)⁻¹ * format.1 := by
        push_cast
        field_simp
    _ ≤ _ := by gcongr

/-- The rate without FEC is no less than the coding rate makes it. -/
theorem packetsRate_ge (n : Nat) :
    ((converterOf format fmt).pktpfToKbps n : ℚ) * fmt.codingRate ≤ packetsRate format fmt n := by
  have small : ⌈((converterOf format fmt).pktpfToKbps n : ℚ) * fmt.codingRate⌉₊ < 2 ^ 16 := by
    have kbps : (converterOf format fmt).pktpfToKbps n < 2 ^ 16 := Word.wrap_lt 16 _
    refine lt_of_le_of_lt (Nat.ceil_le.mpr ?_) kbps
    exact mul_le_of_le_one_right (Nat.cast_nonneg _) fits.codingRate.2
  have rate : packetsRate format fmt n =
      ⌈((converterOf format fmt).pktpfToKbps n : ℚ) * fmt.codingRate⌉₊ := Word.wrap_of_lt small
  rw [rate]
  exact Nat.le_ceil _

/-- A packet that the maximum has room for, with the CRA, in kbit/s. -/
theorem room (le : n ≤ packets format fmt maxKbps) {craKbps : Nat}
    (test : (slotKbps format fmt : Int) < maxKbps - packetsRate format fmt n - craKbps) :
    n + 1 + packets format fmt craKbps ≤ packets format fmt maxKbps := by
  have positive := fits.codingRate.1
  have duration : (0 : ℚ) < format.1 := by exact_mod_cast fits.frameDuration
  have length : (0 : ℚ) < format.2 := by exact_mod_cast fits.packetLength
  have efficiency : (0 : ℚ) < fmt.modulationEfficiency := by exact_mod_cast fits.efficiency
  -- the rates with the FEC: those of the packets and of the CRA are within the one of the maximum
  have rates : (converterOf format fmt).pktpfToKbps n + (converterOf format fmt).pktpfToKbps 1 +
      ⌊(craKbps : ℚ) / fmt.codingRate⌋₊ ≤ ⌊(maxKbps : ℚ) / fmt.codingRate⌋₊ := by
    apply Nat.le_floor
    have cra : (⌊(craKbps : ℚ) / fmt.codingRate⌋₊ : ℚ) ≤ craKbps / fmt.codingRate :=
      Nat.floor_le (by positivity)
    have first := fits.packetsRate_ge n
    have slot := fits.packetsRate_ge 1
    have sum : (packetsRate format fmt n + slotKbps format fmt + craKbps : ℚ) ≤ maxKbps := by
      have within : packetsRate format fmt n + slotKbps format fmt + craKbps ≤ maxKbps := by omega
      exact_mod_cast within
    rw [le_div_iff₀ positive] at cra ⊢
    push_cast
    unfold slotKbps at sum
    linarith
  -- the packets: they are worth no more than their rates
  rw [fits.packets_eq le_rfl]
  have cra : packets format fmt craKbps ≤ _ := packets_le
  refine (Nat.add_le_add_left cra _).trans ?_
  rw [Nat.add_comm, ← Nat.ceil_add_natCast (by positivity)]
  apply Nat.ceil_le_ceil
  have first := fits.pktpfToKbps_ge (Nat.le_succ_of_le le)
  have slot := fits.pktpfToKbps_ge (n := 1) (Nat.le_add_left _ _)
  have cast : ((converterOf format fmt).pktpfToKbps n + (converterOf format fmt).pktpfToKbps 1 +
      ⌊(craKbps : ℚ) / fmt.codingRate⌋₊ : ℚ) ≤ ⌊(maxKbps : ℚ) / fmt.codingRate⌋₊ := by
    exact_mod_cast rates
  calc _ ≤ ((converterOf format fmt).pktpfToKbps n + (converterOf format fmt).pktpfToKbps 1 +
        ⌊(craKbps : ℚ) / fmt.codingRate⌋₊ : ℚ) * (format.2 : ℚ)⁻¹ *
          (fmt.modulationEfficiency : ℚ)⁻¹ * format.1 := by
        push_cast at first slot ⊢
        linarith
    _ ≤ _ := by gcongr

theorem packets_pos (le : kbps ≤ maxKbps) (positive : 0 < kbps) : 0 < packets format fmt kbps := by
  have duration : (0 : ℚ) < format.1 := by exact_mod_cast fits.frameDuration
  have length : (0 : ℚ) < format.2 := by exact_mod_cast fits.packetLength
  have efficiency : (0 : ℚ) < fmt.modulationEfficiency := by exact_mod_cast fits.efficiency
  have fec : 0 < ⌊(kbps : ℚ) / fmt.codingRate⌋₊ := by
    apply Nat.floor_pos.mpr
    rw [le_div_iff₀ fits.codingRate.1, one_mul]
    refine fits.codingRate.2.trans ?_
    exact_mod_cast positive
  rw [fits.packets_eq le]
  apply Nat.ceil_pos.mpr
  positivity

end Words

end FitsWords

end OpenSand.Allocation
