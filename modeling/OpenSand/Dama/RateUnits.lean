import OpenSand.Dama.UnitConverter
import OpenSand.Lib.CeilPair
import Mathlib.Tactic.NormNum

/-!
The conversions between rates and packets per superframe.

A packet of a superframe is a unit of rate. The conversions of rates in kb/s are the rounded ones
of that unit as long as the bits of the packets are a word. The ones of rates in symbols per second
are a thousand times too large one way and a thousand times too small the other way: they agree
with each other, but on a unit that is a million times smaller.
-/

namespace OpenSand.UnitConverterFixedSymbolLength

open OpenSand.Word OpenSand.CeilPair

variable (converter : UnitConverterFixedSymbolLength)

/-- The rate of one packet of each superframe: a bit per ms is a kb/s. -/
def packetKbps : ℚ :=
  converter.packetLengthSym * converter.modulationEfficiency / converter.frameDurationMs

/-- In symbols per second. -/
def packetSymps : ℚ := 1000 * converter.packetLengthSym / converter.frameDurationMs

/-- Both ways between kb/s and packets: the results that are in range are the rounded ones of one
unit, there and back never loses and a rate gains one packet at most. -/
structure ServesKbps (ratePktpf rateKbps : Nat) : Prop where
  rate : rateOf converter.packetKbps ratePktpf < 2 ^ 16 →
    converter.pktpfToKbps ratePktpf = rateOf converter.packetKbps ratePktpf ∧
      (unitsOf converter.packetKbps (rateOf converter.packetKbps ratePktpf : ℚ) < 2 ^ 16 →
        ratePktpf ≤ converter.kbpsToPktpf (converter.pktpfToKbps ratePktpf))
  packets : unitsOf converter.packetKbps rateKbps < 2 ^ 16 →
    converter.kbpsToPktpf rateKbps = unitsOf converter.packetKbps rateKbps ∧
      (rateOf converter.packetKbps (unitsOf converter.packetKbps rateKbps) < 2 ^ 16 →
        converter.pktpfToKbps (converter.kbpsToPktpf rateKbps) =
            rateOf converter.packetKbps (unitsOf converter.packetKbps rateKbps) ∧
          rateKbps ≤ converter.pktpfToKbps (converter.kbpsToPktpf rateKbps) ∧
          converter.pktpfToKbps (converter.kbpsToPktpf rateKbps) ≤
            ⌈rateKbps + converter.packetKbps⌉₊)

/-- Both ways between symbols per second and packets. -/
structure ServesSymps (ratePktpf : Nat) (rateSymps : ℚ) : Prop where
  rate : converter.pktpfToSymps ratePktpf = rateOf converter.packetSymps ratePktpf ∧
    (unitsOf converter.packetSymps (rateOf converter.packetSymps ratePktpf : ℚ) < 2 ^ 16 →
      ∃ back, converter.sympsToPktpf (converter.pktpfToSymps ratePktpf) = some back ∧
        ratePktpf ≤ back)
  packets : unitsOf converter.packetSymps rateSymps < 2 ^ 16 →
    ∃ number, converter.sympsToPktpf rateSymps = some number ∧
      number = unitsOf converter.packetSymps rateSymps ∧
      rateSymps ≤ converter.pktpfToSymps number ∧
      converter.pktpfToSymps number ≤ ⌈rateSymps + converter.packetSymps⌉₊

/-- A converter with a duration, a length and an efficiency, which are words. -/
structure Valid : Prop where
  duration : 0 < converter.frameDurationMs
  durationWord : converter.frameDurationMs < 2 ^ 32
  length : 0 < converter.packetLengthSym
  lengthWord : converter.packetLengthSym < 2 ^ 32
  efficiency : 0 < converter.modulationEfficiency

section

variable {converter}

/-! ### Rates in kb/s -/

theorem Valid.packetKbps_pos (valid : converter.Valid) : 0 < converter.packetKbps := by
  have duration : (0 : ℚ) < converter.frameDurationMs := Nat.cast_pos.mpr valid.duration
  have length : (0 : ℚ) < converter.packetLengthSym := Nat.cast_pos.mpr valid.length
  have efficiency : (0 : ℚ) < converter.modulationEfficiency := Nat.cast_pos.mpr valid.efficiency
  exact div_pos (mul_pos length efficiency) duration

theorem kbpsToPktpf_eq_wrap (rateKbps : Nat) :
    converter.kbpsToPktpf rateKbps = wrap 16 (unitsOf converter.packetKbps (rateKbps : ℚ)) := by
  rw [kbpsToPktpf, ceilW, unitsOf, packetKbps]
  congr 2
  rw [div_div_eq_mul_div, div_eq_mul_inv, mul_inv]
  ring

/-- The bits of the packets before they are divided by the duration. -/
def packetsBits (converter : UnitConverterFixedSymbolLength) (ratePktpf : Nat) : Nat :=
  ratePktpf * converter.packetLengthSym * converter.modulationEfficiency

/-- Bits that wrap give a smaller rate. -/
theorem pktpfToKbps_eq_iff (valid : converter.Valid) {ratePktpf : Nat}
    (inRange : rateOf converter.packetKbps ratePktpf < 2 ^ 16) :
    converter.pktpfToKbps ratePktpf = rateOf converter.packetKbps ratePktpf ↔
      converter.packetsBits ratePktpf < 2 ^ 32 := by
  have exactly : rateOf converter.packetKbps ratePktpf =
      ⌈(converter.packetsBits ratePktpf : ℚ) * (converter.frameDurationMs : ℚ)⁻¹⌉₊ := by
    rw [rateOf, packetKbps, packetsBits, div_eq_mul_inv]
    push_cast
    congr 1
    ring
  have duration : (0 : ℚ) < converter.frameDurationMs := Nat.cast_pos.mpr valid.duration
  rw [pktpfToKbps, ← packetsBits, ceilW]
  constructor
  · intro same
    by_contra wraps
    have lost : wrap 32 (converter.packetsBits ratePktpf) + converter.frameDurationMs ≤
        converter.packetsBits ratePktpf := by
      have := Nat.mod_add_div (converter.packetsBits ratePktpf) (2 ^ 32)
      have quotient : 1 ≤ converter.packetsBits ratePktpf / 2 ^ 32 :=
        Nat.div_pos (Nat.not_lt.mp wraps) (by norm_num)
      have := valid.durationWord
      unfold wrap
      omega
    have less : ⌈(wrap 32 (converter.packetsBits ratePktpf) : ℚ) *
        (converter.frameDurationMs : ℚ)⁻¹⌉₊ + 1 ≤ rateOf converter.packetKbps ratePktpf := by
      rw [exactly, ← Nat.ceil_add_one (by positivity)]
      refine Nat.ceil_mono ?_
      rw [← div_eq_mul_inv, ← div_eq_mul_inv, div_add_one duration.ne', div_le_div_iff_of_pos_right duration]
      exact_mod_cast lost
    have := wrap_le 16 ⌈(wrap 32 (converter.packetsBits ratePktpf) : ℚ) *
      (converter.frameDurationMs : ℚ)⁻¹⌉₊
    omega
  · intro word
    rw [wrap_of_lt word, ← exactly, wrap_of_lt inRange]

/-- The rates in kb/s are served as long as the bits are words. -/
theorem servesKbps_iff (valid : converter.Valid) (ratePktpf rateKbps : Nat) :
    converter.ServesKbps ratePktpf rateKbps ↔
      (rateOf converter.packetKbps ratePktpf < 2 ^ 16 →
        converter.packetsBits ratePktpf < 2 ^ 32) ∧
      (unitsOf converter.packetKbps (rateKbps : ℚ) < 2 ^ 16 →
        rateOf converter.packetKbps (unitsOf converter.packetKbps (rateKbps : ℚ)) < 2 ^ 16 →
          converter.packetsBits (unitsOf converter.packetKbps (rateKbps : ℚ)) < 2 ^ 32) := by
  have pos := valid.packetKbps_pos
  constructor
  · rintro ⟨rate, packets⟩
    refine ⟨fun inRange => (pktpfToKbps_eq_iff valid inRange).mp (rate inRange).1, ?_⟩
    intro inRange backInRange
    obtain ⟨number, back⟩ := packets inRange
    have served := (back backInRange).1
    rw [number] at served
    exact (pktpfToKbps_eq_iff valid backInRange).mp served
  · rintro ⟨word, backWord⟩
    refine ⟨fun inRange => ?_, fun inRange => ?_⟩
    · have rate := (pktpfToKbps_eq_iff valid inRange).mpr (word inRange)
      refine ⟨rate, fun backInRange => ?_⟩
      rw [rate, kbpsToPktpf_eq_wrap, wrap_of_lt backInRange]
      exact le_unitsOf_rateOf pos ratePktpf
    · have number : converter.kbpsToPktpf rateKbps = unitsOf converter.packetKbps (rateKbps : ℚ) := by
        rw [kbpsToPktpf_eq_wrap, wrap_of_lt inRange]
      refine ⟨number, fun backInRange => ?_⟩
      have rate := (pktpfToKbps_eq_iff valid backInRange).mpr (backWord inRange backInRange)
      rw [number, rate]
      refine ⟨rfl, ?_, rateOf_unitsOf_le pos (Nat.cast_nonneg rateKbps)⟩
      exact_mod_cast le_rateOf_unitsOf pos (rateKbps : ℚ)

/-! ### Rates in symbols per second -/

/-- The unit on which the conversions agree. -/
def convertedSymps (converter : UnitConverterFixedSymbolLength) : ℚ :=
  converter.packetLengthSym / converter.frameDurationMs / 1000

theorem convertedSymps_eq : converter.convertedSymps = converter.packetSymps / 1000000 := by
  unfold convertedSymps packetSymps
  ring

theorem Valid.convertedSymps_pos (valid : converter.Valid) : 0 < converter.convertedSymps := by
  have duration : (0 : ℚ) < converter.frameDurationMs := Nat.cast_pos.mpr valid.duration
  have length : (0 : ℚ) < converter.packetLengthSym := Nat.cast_pos.mpr valid.length
  exact div_pos (div_pos length duration) (by norm_num)

theorem Valid.packetSymps_pos (valid : converter.Valid) : 0 < converter.packetSymps := by
  have pos := valid.convertedSymps_pos
  rw [convertedSymps_eq] at pos
  linarith

theorem sympsToPktpf_eq (rateSymps : ℚ) : converter.sympsToPktpf rateSymps =
    if unitsOf converter.convertedSymps rateSymps < 2 ^ 16
    then some (unitsOf converter.convertedSymps rateSymps) else none := by
  have same : rateSymps * (converter.packetLengthSym : ℚ)⁻¹ * converter.frameDurationMs * 1000 =
      rateSymps / converter.convertedSymps := by
    rw [convertedSymps, div_div_eq_mul_div, div_div_eq_mul_div, div_eq_mul_inv]
    ring
  rw [sympsToPktpf, same]
  rfl

theorem pktpfToSymps_le (ratePktpf : Nat) :
    converter.pktpfToSymps ratePktpf ≤ rateOf converter.convertedSymps ratePktpf := by
  refine Nat.ceil_mono ?_
  have le : (wrap 32 (ratePktpf * converter.packetLengthSym) : ℚ) ≤
      ratePktpf * converter.packetLengthSym := by
    exact_mod_cast wrap_le 32 (ratePktpf * converter.packetLengthSym)
  calc (wrap 32 (ratePktpf * converter.packetLengthSym) : ℚ) *
        (converter.frameDurationMs : ℚ)⁻¹ / 1000
      ≤ ratePktpf * converter.packetLengthSym * (converter.frameDurationMs : ℚ)⁻¹ / 1000 := by
        gcongr
    _ = ratePktpf * converter.convertedSymps := by
        rw [convertedSymps, div_eq_mul_inv (converter.packetLengthSym : ℚ)]
        ring

theorem pktpfToSymps_of_lt {ratePktpf : Nat}
    (word : ratePktpf * converter.packetLengthSym < 2 ^ 32) :
    converter.pktpfToSymps ratePktpf = rateOf converter.convertedSymps ratePktpf := by
  rw [pktpfToSymps, wrap_of_lt word, rateOf, convertedSymps, div_eq_mul_inv (converter.packetLengthSym : ℚ)]
  push_cast
  congr 1
  ring

/-- Within the words there and back never loses, on the unit of the conversions. -/
theorem convertedSymps_serves (valid : converter.Valid) {ratePktpf back : Nat}
    (word : ratePktpf * converter.packetLengthSym < 2 ^ 32)
    (converted : converter.sympsToPktpf (converter.pktpfToSymps ratePktpf) = some back) :
    ratePktpf ≤ back := by
  rw [sympsToPktpf_eq, pktpfToSymps_of_lt word] at converted
  split at converted
  · cases converted
    exact le_unitsOf_rateOf valid.convertedSymps_pos ratePktpf
  · cases converted

/-- Two roundings of one number in units that are a million apart. -/
theorem ceil_lt_ceil {x : ℚ} (more : 1 < x) : ⌈x / 1000000⌉₊ < ⌈x⌉₊ := by
  have two : 1 < ⌈x⌉₊ := Nat.lt_ceil.mpr (by exact_mod_cast more)
  rcases le_or_gt x 1000000 with small | large
  · have one : ⌈x / 1000000⌉₊ ≤ 1 := by
      rw [Nat.ceil_le, Nat.cast_one, div_le_one (by norm_num)]
      exact small
    omega
  · have below : (⌈x / 1000000⌉₊ : ℚ) < x := by
      have := Nat.ceil_lt_add_one (show 0 ≤ x / 1000000 by positivity)
      linarith
    exact_mod_cast below.trans_le (Nat.le_ceil x)

theorem ceil_eq_one {x : ℚ} (pos : 0 < x) (le : x ≤ 1) : ⌈x⌉₊ = 1 := by
  refine le_antisymm (Nat.ceil_le.mpr (by exact_mod_cast le)) ?_
  exact Nat.one_le_ceil_iff.mpr pos

theorem pktpfToSymps_zero : converter.pktpfToSymps 0 = 0 := by
  rw [pktpfToSymps, Nat.zero_mul, wrap_of_lt (Nat.two_pow_pos 32), Nat.cast_zero, zero_mul, zero_div,
    Nat.ceil_zero]

theorem sympsToPktpf_zero : converter.sympsToPktpf 0 = some 0 := by
  rw [sympsToPktpf_eq, unitsOf_zero, if_pos (Nat.two_pow_pos 16)]

/-- Packets of less than a symbol per second all get one. -/
theorem pktpfToSymps_eq_one (valid : converter.Valid) {ratePktpf : Nat} (some : 0 < ratePktpf)
    (le : ratePktpf * converter.packetSymps ≤ 1) : converter.pktpfToSymps ratePktpf = 1 := by
  have duration : (0 : ℚ) < converter.frameDurationMs := Nat.cast_pos.mpr valid.duration
  have pos : 0 < (ratePktpf : ℚ) * converter.packetSymps :=
    mul_pos (Nat.cast_pos.mpr some) valid.packetSymps_pos
  have word : ratePktpf * converter.packetLengthSym < 2 ^ 32 := by
    refine lt_of_le_of_lt ?_ valid.durationWord
    rw [packetSymps, ← mul_div_assoc, div_le_one duration] at le
    have bound : ratePktpf * (1000 * converter.packetLengthSym) ≤ converter.frameDurationMs := by
      exact_mod_cast le
    nlinarith
  rw [pktpfToSymps_of_lt word, rateOf, convertedSymps_eq]
  refine ceil_eq_one ?_ ?_ <;> linarith

/-- The rate of some packets is right only when it is less than one symbol per second. -/
theorem le_one_of_pktpfToSymps {ratePktpf : Nat}
    (same : converter.pktpfToSymps ratePktpf = rateOf converter.packetSymps ratePktpf) :
    ratePktpf * converter.packetSymps ≤ 1 := by
  by_contra more
  have less := ceil_lt_ceil (not_le.mp more)
  have le := @pktpfToSymps_le converter ratePktpf
  rw [same, rateOf, rateOf, convertedSymps_eq, ← mul_div_assoc] at le
  omega

/-- Rates are right for no packet, or when the duration is so long that no packets are in range. -/
theorem rate_symps_iff (valid : converter.Valid) {ratePktpf : Nat} (word : ratePktpf < 2 ^ 16) :
    (converter.pktpfToSymps ratePktpf = rateOf converter.packetSymps ratePktpf ∧
      (unitsOf converter.packetSymps (rateOf converter.packetSymps ratePktpf : ℚ) < 2 ^ 16 →
        ∃ back, converter.sympsToPktpf (converter.pktpfToSymps ratePktpf) = some back ∧
          ratePktpf ≤ back)) ↔
      ratePktpf = 0 ∨ 65535 * converter.packetSymps < 1 := by
  have pos := valid.packetSymps_pos
  rcases Nat.eq_zero_or_pos ratePktpf with rfl | some
  · refine iff_of_true ⟨?_, fun _ => ⟨0, ?_, Nat.le_refl 0⟩⟩ (.inl rfl)
    · rw [pktpfToSymps_zero, rateOf_zero]
    · rw [pktpfToSymps_zero]
      exact sympsToPktpf_zero
  have one_le : (1 : ℚ) ≤ ratePktpf := by exact_mod_cast some
  rw [or_iff_right some.ne']
  constructor
  · rintro ⟨same, back⟩
    have le := le_one_of_pktpfToSymps same
    have unit : converter.packetSymps ≤ 1 := by nlinarith
    by_contra short
    rw [not_lt] at short
    have one := ceil_eq_one (mul_pos (by linarith) pos) le
    have inRange : unitsOf converter.packetSymps (rateOf converter.packetSymps ratePktpf : ℚ) <
        2 ^ 16 := by
      rw [rateOf, one, unitsOf]
      refine Nat.lt_of_le_of_lt (Nat.ceil_le (n := 65535).mpr ?_) (by norm_num)
      rw [Nat.cast_one, div_le_iff₀ pos]
      exact_mod_cast short
    obtain ⟨number, converted, -⟩ := back inRange
    rw [pktpfToSymps_eq_one valid some le, sympsToPktpf_eq] at converted
    split at converted
    next fits =>
      refine absurd fits (Nat.not_lt.mpr ?_)
      rw [unitsOf, convertedSymps_eq, Nat.cast_one]
      have large : (2 ^ 16 : ℕ) ≤ 1 / (converter.packetSymps / 1000000) := by
        rw [le_div_iff₀ (by positivity)]
        norm_num
        linarith
      exact_mod_cast large.trans (Nat.le_ceil _)
    · cases converted
  · intro short
    have bound : (ratePktpf : ℚ) ≤ 65535 := by exact_mod_cast Nat.le_of_lt_succ word
    have le : ratePktpf * converter.packetSymps ≤ 1 := by nlinarith
    have one := ceil_eq_one (mul_pos (by linarith) pos) le
    refine ⟨?_, fun inRange => ?_⟩
    · rw [pktpfToSymps_eq_one valid some le, rateOf, one]
    · refine absurd inRange (Nat.not_lt.mpr ?_)
      rw [rateOf, one, unitsOf, Nat.cast_one]
      have many : (65535 : ℕ) < 1 / converter.packetSymps := by
        rw [lt_div_iff₀ pos]
        exact_mod_cast short
      exact Nat.lt_ceil.mpr many

/-- Packets are right for no rate, for rates below a millionth of a packet, and out of range. -/
theorem packets_symps_iff (valid : converter.Valid) {rateSymps : ℚ} (nonneg : 0 ≤ rateSymps) :
    (unitsOf converter.packetSymps rateSymps < 2 ^ 16 →
      ∃ number, converter.sympsToPktpf rateSymps = some number ∧
        number = unitsOf converter.packetSymps rateSymps ∧
        rateSymps ≤ converter.pktpfToSymps number ∧
        converter.pktpfToSymps number ≤ ⌈rateSymps + converter.packetSymps⌉₊) ↔
      rateSymps = 0 ∨ 1000000 * rateSymps ≤ converter.packetSymps ∨
        65535 * converter.packetSymps < rateSymps := by
  have pos := valid.packetSymps_pos
  have pos' := valid.convertedSymps_pos
  rcases nonneg.eq_or_lt with rfl | some
  · refine iff_of_true (fun _ => ⟨0, sympsToPktpf_zero, unitsOf_zero.symm, ?_, ?_⟩) (.inl rfl)
    · exact Nat.cast_nonneg _
    · rw [pktpfToSymps_zero]
      exact Nat.zero_le _
  rw [or_iff_right some.ne']
  have scaled : rateSymps / converter.packetSymps =
      rateSymps / converter.convertedSymps / 1000000 := by
    rw [convertedSymps_eq]
    field_simp
  constructor
  · intro served
    by_contra neither
    rw [not_or, not_le, not_lt] at neither
    have inRange : unitsOf converter.packetSymps rateSymps < 2 ^ 16 := by
      refine Nat.lt_of_le_of_lt (Nat.ceil_le (n := 65535).mpr ?_) (by norm_num)
      rw [div_le_iff₀ pos]
      exact_mod_cast neither.2
    obtain ⟨number, converted, same, -⟩ := served inRange
    rw [sympsToPktpf_eq] at converted
    split at converted
    · have more : 1 < rateSymps / converter.convertedSymps := by
        rw [one_lt_div pos', convertedSymps_eq]
        linarith [neither.1]
      have less := ceil_lt_ceil more
      rw [← scaled] at less
      rw [← Option.some.inj converted] at same
      exact less.ne same.symm
    · cases converted
  · rintro (tiny | large) inRange
    · have one : unitsOf converter.convertedSymps rateSymps = 1 := by
        refine ceil_eq_one (div_pos some pos') ?_
        rw [div_le_one pos', convertedSymps_eq]
        linarith
      have one' : unitsOf converter.packetSymps rateSymps = 1 := by
        refine ceil_eq_one (div_pos some pos) ?_
        rw [div_le_one pos]
        linarith
      have back : converter.pktpfToSymps 1 = ⌈converter.convertedSymps⌉₊ := by
        rw [pktpfToSymps_of_lt (by rw [Nat.one_mul]; exact valid.lengthWord), rateOf, Nat.cast_one,
          one_mul]
      refine ⟨1, ?_, one'.symm, ?_, ?_⟩
      · rw [sympsToPktpf_eq, one]
        rfl
      · rw [back]
        refine le_trans ?_ (Nat.le_ceil _)
        rw [convertedSymps_eq]
        linarith
      · rw [back, convertedSymps_eq]
        refine Nat.ceil_mono ?_
        linarith
    · refine absurd inRange (Nat.not_lt.mpr ?_)
      have many : (65535 : ℕ) < rateSymps / converter.packetSymps := by
        rw [lt_div_iff₀ pos]
        exact_mod_cast large
      exact Nat.lt_ceil.mpr many

end

/-- A return link with superframes of 53 ms and packets of 1060 symbols. -/
def usualConverter : UnitConverterFixedSymbolLength := ⟨53, 1060, 2⟩

theorem usualConverter_valid : usualConverter.Valid :=
  ⟨by decide, by decide, by decide, by decide, by decide⟩

end OpenSand.UnitConverterFixedSymbolLength
