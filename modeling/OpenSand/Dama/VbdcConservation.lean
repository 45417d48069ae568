import OpenSand.Dama.TerminalsChange

/-!
The volumes requested and granted by VBDC.

A terminal that is granted packets is granted whole ones: its last packet may be worth more
than what is left of its request, which is then 0. What the grants take off the request and
what is left of it never exceed what was requested.
-/

namespace OpenSand

open OpenSand.Run OpenSand.Word Allocation

/-! ### The volume of the packets granted -/

section Volumes

variable (fmt : FmtDefinition) (converter : UnitConverterFixedSymbolLength)

theorem FmtDefinition.addFec_le (volKb : Nat) (rate : 0 ≤ fmt.codingRate) :
    (fmt.addFec volKb : ℚ) ≤ volKb / fmt.codingRate :=
  (Nat.cast_le.mpr (wrap_le 16 _)).trans (Nat.floor_le (div_nonneg volKb.cast_nonneg rate))

theorem FmtDefinition.removeFec_lt (volKb : Nat) (rate : 0 ≤ fmt.codingRate) :
    (fmt.removeFec volKb : ℚ) < volKb * fmt.codingRate + 1 :=
  (Nat.cast_le.mpr (wrap_le 16 _)).trans_lt
    (Nat.ceil_lt_add_one (mul_nonneg volKb.cast_nonneg rate))

theorem UnitConverterFixedSymbolLength.pktToKbits_lt (packets : Nat) :
    (converter.pktToKbits packets : ℚ) < packets *
      ((converter.packetLengthSym * converter.modulationEfficiency : Nat) : ℚ) / 1000 + 1 := by
  have bits : ((wrap 32 (packets * converter.packetLengthSym * converter.modulationEfficiency) :
      Nat) : ℚ) ≤ packets *
        ((converter.packetLengthSym * converter.modulationEfficiency : Nat) : ℚ) := by
    rw [← Nat.cast_mul, Nat.cast_le, ← mul_assoc]
    exact wrap_le 32 _
  calc (converter.pktToKbits packets : ℚ)
      ≤ (⌈(wrap 32 (packets * converter.packetLengthSym * converter.modulationEfficiency) : ℚ) /
          1000⌉₊ : ℚ) := Nat.cast_le.mpr (wrap_le 16 _)
    _ < (wrap 32 (packets * converter.packetLengthSym * converter.modulationEfficiency) : ℚ) /
          1000 + 1 := Nat.ceil_lt_add_one (by positivity)
    _ ≤ _ := by gcongr

/-- The packets of a volume are less than one packet more than it. -/
theorem UnitConverterFixedSymbolLength.kbitsToPkt_lt {volKb : Nat}
    (some : converter.kbitsToPkt volKb ≠ 0) :
    (converter.kbitsToPkt volKb : ℚ) *
        ((converter.packetLengthSym * converter.modulationEfficiency : Nat) : ℚ) <
      volKb * 1000 + ((converter.packetLengthSym * converter.modulationEfficiency : Nat) : ℚ) := by
  have length : (converter.packetLengthSym : ℚ) ≠ 0 := by
    intro zero
    exact some (by simp [kbitsToPkt, zero, ceilW, wrap])
  have efficiency : (converter.modulationEfficiency : ℚ) ≠ 0 := by
    intro zero
    exact some (by simp [kbitsToPkt, zero, ceilW, wrap])
  have least : (converter.kbitsToPkt volKb : ℚ) < volKb * (converter.packetLengthSym : ℚ)⁻¹ *
      (converter.modulationEfficiency : ℚ)⁻¹ * 1000 + 1 :=
    (Nat.cast_le.mpr (wrap_le 16 _)).trans_lt (Nat.ceil_lt_add_one (by positivity))
  have bits : 0 < (converter.packetLengthSym : ℚ) * converter.modulationEfficiency := by
    positivity
  rw [Nat.cast_mul]
  calc (converter.kbitsToPkt volKb : ℚ) *
        (converter.packetLengthSym * converter.modulationEfficiency)
      < (volKb * (converter.packetLengthSym : ℚ)⁻¹ * (converter.modulationEfficiency : ℚ)⁻¹ *
          1000 + 1) * (converter.packetLengthSym * converter.modulationEfficiency) :=
        mul_lt_mul_of_pos_right least bits
    _ = volKb * 1000 + converter.packetLengthSym * converter.modulationEfficiency := by
        field_simp

/-- The information of a packet, in kbit. -/
def FmtDefinition.packetKb (packetLengthSym : Nat) : ℚ :=
  ((packetLengthSym * fmt.modulationEfficiency : Nat) : ℚ) / 1000 * fmt.codingRate

/-- The volume of a packet as the controller counts it: rounded up to whole kbits, with and
without the FEC. -/
def FmtDefinition.packetVolumeKb (packetLengthSym : Nat) : Nat :=
  ⌈(⌈((packetLengthSym * fmt.modulationEfficiency : Nat) : ℚ) / 1000⌉₊ : ℚ) * fmt.codingRate⌉₊

/-- Packets are asked for with a coding rate and for some volume only. -/
theorem asked_of_packets {requestKb : Nat}
    (some : converter.kbitsToPkt (fmt.addFec requestKb) ≠ 0) :
    0 < fmt.codingRate ∧ requestKb ≠ 0 := by
  constructor
  · by_contra negative
    have nothing : ⌊(requestKb : ℚ) / fmt.codingRate⌋₊ = 0 :=
      Nat.floor_of_nonpos (div_nonpos_of_nonneg_of_nonpos requestKb.cast_nonneg (not_lt.mp negative))
    apply some
    simp [UnitConverterFixedSymbolLength.kbitsToPkt, FmtDefinition.addFec, nothing, ceilW, wrap]
  · rintro rfl
    apply some
    simp [UnitConverterFixedSymbolLength.kbitsToPkt, FmtDefinition.addFec, ceilW, wrap]

/-- The packets granted for a request are worth less than one packet more than it, up to
the rounding of their volume to whole kbits, with and without the FEC. -/
theorem granted_lt {requestKb packets : Nat}
    (efficiency : converter.modulationEfficiency = fmt.modulationEfficiency)
    (some : converter.kbitsToPkt (fmt.addFec requestKb) ≠ 0)
    (le : packets ≤ converter.kbitsToPkt (fmt.addFec requestKb)) :
    (fmt.removeFec (converter.pktToKbits packets) : ℚ) <
      requestKb + fmt.packetKb converter.packetLengthSym + fmt.codingRate + 1 := by
  have rate := (asked_of_packets fmt converter some).1
  have request := fmt.addFec_le requestKb rate.le
  have asked := converter.kbitsToPkt_lt some
  have given := converter.pktToKbits_lt packets
  have bits : (packets : ℚ) *
      ((converter.packetLengthSym * converter.modulationEfficiency : Nat) : ℚ) ≤
        converter.kbitsToPkt (fmt.addFec requestKb) *
          ((converter.packetLengthSym * converter.modulationEfficiency : Nat) : ℚ) := by
    gcongr
  have coded : (converter.pktToKbits packets : ℚ) < requestKb / fmt.codingRate +
      ((converter.packetLengthSym * fmt.modulationEfficiency : Nat) : ℚ) / 1000 + 1 := by
    rw [efficiency] at asked given bits
    linarith
  calc (fmt.removeFec (converter.pktToKbits packets) : ℚ)
      < converter.pktToKbits packets * fmt.codingRate + 1 := fmt.removeFec_lt _ rate.le
    _ < (requestKb / fmt.codingRate +
          ((converter.packetLengthSym * fmt.modulationEfficiency : Nat) : ℚ) / 1000 + 1) *
            fmt.codingRate + 1 := by gcongr
    _ = requestKb + fmt.packetKb converter.packetLengthSym + fmt.codingRate + 1 := by
        rw [FmtDefinition.packetKb]
        field_simp

/-- In whole kbits, they are worth one packet more than it at most. -/
theorem granted_le {requestKb packets : Nat}
    (efficiency : converter.modulationEfficiency = fmt.modulationEfficiency)
    (some : converter.kbitsToPkt (fmt.addFec requestKb) ≠ 0)
    (le : packets ≤ converter.kbitsToPkt (fmt.addFec requestKb)) :
    fmt.removeFec (converter.pktToKbits packets) ≤
      requestKb + fmt.packetVolumeKb converter.packetLengthSym := by
  have rate := (asked_of_packets fmt converter some).1
  have request := fmt.addFec_le requestKb rate.le
  have asked := converter.kbitsToPkt_lt some
  rw [efficiency] at asked
  set packetB : Nat := converter.packetLengthSym * fmt.modulationEfficiency with packet
  have bits : ((wrap 32 (packets * converter.packetLengthSym * converter.modulationEfficiency) :
      Nat) : ℚ) ≤ fmt.addFec requestKb * 1000 + packetB := by
    have product : wrap 32 (packets * converter.packetLengthSym * converter.modulationEfficiency) ≤
        packets * packetB := by
      rw [packet, efficiency, ← mul_assoc]
      exact wrap_le 32 _
    calc ((wrap 32 (packets * converter.packetLengthSym * converter.modulationEfficiency) :
          Nat) : ℚ)
        ≤ packets * packetB := by exact_mod_cast product
      _ ≤ converter.kbitsToPkt (fmt.addFec requestKb) * packetB := by gcongr
      _ ≤ fmt.addFec requestKb * 1000 + packetB := asked.le
  have coded : converter.pktToKbits packets ≤
      fmt.addFec requestKb + ⌈(packetB : ℚ) / 1000⌉₊ := by
    refine (wrap_le 16 _).trans (Nat.ceil_le.mpr ?_)
    have up := Nat.le_ceil ((packetB : ℚ) / 1000)
    push_cast
    linarith
  refine (wrap_le 16 _).trans (Nat.ceil_le.mpr ?_)
  have up := Nat.le_ceil ((⌈(packetB : ℚ) / 1000⌉₊ : ℚ) * fmt.codingRate)
  calc (converter.pktToKbits packets : ℚ) * fmt.codingRate
      ≤ (fmt.addFec requestKb + ⌈(packetB : ℚ) / 1000⌉₊ : Nat) * fmt.codingRate := by gcongr
    _ ≤ (requestKb / fmt.codingRate + ⌈(packetB : ℚ) / 1000⌉₊) * fmt.codingRate := by
        push_cast
        gcongr
    _ = requestKb + ⌈(packetB : ℚ) / 1000⌉₊ * fmt.codingRate := by field_simp
    _ ≤ (requestKb + fmt.packetVolumeKb converter.packetLengthSym : Nat) := by
        rw [Nat.cast_add]
        gcongr
        exact up

end Volumes

/-! ### The VBDC of a group -/

/-- The same terminal, for what the VBDC looks at. -/
structure SameVolume (before after : TerminalContextDamaRcs) : Prop where
  talId : after.talId = before.talId
  carrierId : after.carrierId = before.carrierId
  fmt : after.fmt = before.fmt
  maxVbdcKb : after.maxVbdcKb = before.maxVbdcKb
  vbdcRequestKb : after.vbdcRequestKb = before.vbdcRequestKb
  vbdcAllocKb : after.vbdcAllocKb = before.vbdcAllocKb

theorem SameVolume.refl (terminal : TerminalContextDamaRcs) : SameVolume terminal terminal :=
  ⟨rfl, rfl, rfl, rfl, rfl, rfl⟩

theorem SameVolume.trans (first second third : TerminalContextDamaRcs)
    (h : SameVolume first second) (h' : SameVolume second third) : SameVolume first third where
  talId := h'.talId.trans h.talId
  carrierId := h'.carrierId.trans h.carrierId
  fmt := h'.fmt.trans h.fmt
  maxVbdcKb := h'.maxVbdcKb.trans h.maxVbdcKb
  vbdcRequestKb := h'.vbdcRequestKb.trans h.vbdcRequestKb
  vbdcAllocKb := h'.vbdcAllocKb.trans h.vbdcAllocKb

/-- A terminal before and after the VBDC: the volume granted lowers its request, down to 0,
and is less than a packet more than it, up to the rounding to whole kbits. -/
structure GrantedVolume (packetLengthSym : Nat) (before after : TerminalContextDamaRcs) : Prop where
  talId : after.talId = before.talId
  maxVbdcKb : after.maxVbdcKb = before.maxVbdcKb
  lowered : after.vbdcRequestKb = before.vbdcRequestKb - after.vbdcAllocKb
  within : after.vbdcAllocKb ≠ 0 → ∃ fmt, after.fmt = some fmt ∧
    (after.vbdcAllocKb : ℚ) <
      before.vbdcRequestKb + fmt.packetKb packetLengthSym + fmt.codingRate + 1

/-- A terminal served on its group. -/
structure ServedVolume (packetLengthSym : Nat) (before after : TerminalContextDamaRcs) : Prop extends
    GrantedVolume packetLengthSym before after where
  carrierId : after.carrierId = before.carrierId
  fmt : after.fmt = before.fmt

theorem ServedVolume.of_same {packetLengthSym : Nat} {first second third : TerminalContextDamaRcs}
    (same : SameVolume first second) (h : ServedVolume packetLengthSym second third) :
    ServedVolume packetLengthSym first third where
  talId := h.talId.trans same.talId
  maxVbdcKb := h.maxVbdcKb.trans same.maxVbdcKb
  lowered := by rw [h.lowered, same.vbdcRequestKb]
  within := by
    rw [← same.vbdcRequestKb]
    exact h.within
  carrierId := h.carrierId.trans same.carrierId
  fmt := h.fmt.trans same.fmt

theorem ServedVolume.same {packetLengthSym : Nat} {first second third : TerminalContextDamaRcs}
    (h : ServedVolume packetLengthSym first second) (same : SameVolume second third) :
    ServedVolume packetLengthSym first third where
  talId := same.talId.trans h.talId
  maxVbdcKb := same.maxVbdcKb.trans h.maxVbdcKb
  lowered := by rw [same.vbdcRequestKb, same.vbdcAllocKb, h.lowered]
  within := by
    rw [same.vbdcAllocKb, same.fmt]
    exact h.within
  carrierId := same.carrierId.trans h.carrierId
  fmt := same.fmt.trans h.fmt

/-- The volume granted is the one of whole packets, for a request that is not null: in whole
kbits, it is one packet more than the request at most. -/
structure GrantedPackets (packetLengthSym : Nat) (before after : TerminalContextDamaRcs) : Prop extends
    GrantedVolume packetLengthSym before after where
  asked : after.vbdcAllocKb ≠ 0 → before.vbdcRequestKb ≠ 0
  packets : after.vbdcAllocKb ≠ 0 → ∃ fmt, after.fmt = some fmt ∧
    after.vbdcAllocKb ≤ before.vbdcRequestKb + fmt.packetVolumeKb packetLengthSym

/-- A terminal granted whole packets on its group. -/
structure ServedPackets (packetLengthSym : Nat) (before after : TerminalContextDamaRcs) : Prop extends
    ServedVolume packetLengthSym before after, GrantedPackets packetLengthSym before after

theorem ServedPackets.of_same {packetLengthSym : Nat} {first second third : TerminalContextDamaRcs}
    (same : SameVolume first second) (h : ServedPackets packetLengthSym second third) :
    ServedPackets packetLengthSym first third where
  toServedVolume := .of_same same h.toServedVolume
  asked := by
    rw [← same.vbdcRequestKb]
    exact h.asked
  packets := by
    rw [← same.vbdcRequestKb]
    exact h.packets

theorem ServedPackets.same {packetLengthSym : Nat} {first second third : TerminalContextDamaRcs}
    (h : ServedPackets packetLengthSym first second) (same : SameVolume second third) :
    ServedPackets packetLengthSym first third where
  toServedVolume := h.toServedVolume.same same
  asked := by
    rw [same.vbdcAllocKb]
    exact h.asked
  packets := by
    rw [same.vbdcAllocKb, same.fmt]
    exact h.packets

namespace Allocation

theorem vbdcTerminal_volumes (run : Allocation) (i : Nat) :
    Pointwise (fun j before after => after = before ∨
        j = i ∧ ServedPackets run.ctrl.converter.packetLengthSym before after)
      run.terminals (vbdcTerminal run i).terminals := by
  have same := Pointwise.refl run.terminals (R := fun j before after => after = before ∨
    j = i ∧ ServedPackets run.ctrl.converter.packetLengthSym before after) fun _ _ _ => .inl rfl
  unfold vbdcTerminal forServed
  split
  next => exact same
  next terminal found =>
    split
    next => exact same
    next fmt served =>
      dsimp only
      split
      · exact same
      · refine Pointwise.modify (fun own hown => .inr ⟨rfl, ?_⟩) fun _ _ _ _ => .inl rfl
        obtain rfl : terminal = own := Option.some.inj (found.symm.trans hown)
        next asked =>
          refine ⟨⟨⟨rfl, rfl, ?_, fun _ => ⟨fmt, served, ?_⟩⟩, rfl, rfl⟩, fun _ => ?_,
            fun _ => ⟨fmt, served, ?_⟩⟩
          · exact TerminalContextDamaRcs.setVbdcAllocation_vbdcRequestKb _ terminal
          · apply granted_lt fmt (run.withEfficiency fmt).ctrl.converter rfl asked
            split
            · exact le_rfl
            · omega
          · exact (asked_of_packets fmt (run.withEfficiency fmt).ctrl.converter asked).2
          · apply granted_le fmt (run.withEfficiency fmt).ctrl.converter rfl asked
            split
            · exact le_rfl
            · omega

/-- Every terminal is served once at most. -/
theorem vbdcTerminals_volumes {tal : List Nat} (nodup : tal.Nodup) (run : Allocation) :
    Pointwise (fun i before after => after = before ∨
        i ∈ tal ∧ ServedPackets run.ctrl.converter.packetLengthSym before after)
      run.terminals (vbdcTerminals run tal).terminals := by
  induction tal generalizing run with
  | nil => exact Pointwise.refl _ fun _ _ _ => .inl rfl
  | cons i tal ih =>
      rw [List.nodup_cons] at nodup
      rw [vbdcTerminals]
      split
      · have first := vbdcTerminal_volumes run i
        have rest := ih nodup.2 (vbdcTerminal run i)
        have length : (vbdcTerminal run i).ctrl.converter.packetLengthSym =
            run.ctrl.converter.packetLengthSym := by
          obtain ⟨granted, charges⟩ := vbdcTerminal_accounts run i
          exact congrArg Prod.snd charges.packetFormat
        rw [length] at rest
        refine first.trans rest ?_
        rintro j before - mid after (rfl | ⟨rfl, served⟩) (rfl | ⟨later, served'⟩)
        · exact .inl rfl
        · exact .inr ⟨List.mem_cons_of_mem _ later, served'⟩
        · exact .inr ⟨List.mem_cons_self, served⟩
        · exact absurd later nodup.1
      · refine Pointwise.mono (foldl_changes (R := Eq) (fun _ => rfl) (fun _ _ _ => Eq.trans) ?_ _ _)
          fun _ _ _ _ same => .inl same.symm
        exact fun run i => Changes.refl (fun _ => rfl) run

/-- The terminals that the VBDC of a group serves are the ones on the group. -/
theorem computeDamaVbdcPerCarrier_volumes (run : Allocation) :
    Changes (fun before after => after = before ∨ before.carrierId = run.carriers.carriersId ∧
      ServedPackets run.ctrl.converter.packetLengthSym before after) run
        run.computeDamaVbdcPerCarrier := by
  have same : Changes (fun before after => after = before ∨
      before.carrierId = run.carriers.carriersId ∧
        ServedPackets run.ctrl.converter.packetLengthSym before after) run run :=
    Changes.refl (fun _ => .inl rfl) run
  unfold computeDamaVbdcPerCarrier
  dsimp only
  split
  · exact same
  · split
    · exact same
    · have sorted : List.Perm (run.start.sortBy TerminalContextDamaRcs.vbdcOrder (run.start.sortBy
          TerminalContextDamaRcs.vbdcOrder run.start.inCarriersGroup)) run.start.inCarriersGroup :=
        (List.mergeSort_perm _ _).trans (List.mergeSort_perm _ _)
      have nodup : run.start.inCarriersGroup.Nodup := List.nodup_range.filter _
      refine Pointwise.mono (vbdcTerminals_volumes (sorted.nodup_iff.mpr nodup) run.start) ?_
      rintro i before found after (rfl | ⟨mem, served⟩)
      · exact .inl rfl
      · obtain ⟨-, own⟩ := List.mem_filter.mp (sorted.mem_iff.mp mem)
        have found' : run.start.terminals[i]? = some before := found
        rw [found'] at own
        exact .inr ⟨of_decide_eq_true own, served⟩

end Allocation

/-- A reset leaves the volume requested, and takes back the one allocated. -/
theorem TerminalContextDamaRcs.reset_volume (converter : UnitConverterFixedSymbolLength)
    (terminal : TerminalContextDamaRcs) :
    (terminal.reset converter).2.talId = terminal.talId ∧
      (terminal.reset converter).2.maxVbdcKb = terminal.maxVbdcKb ∧
      (terminal.reset converter).2.vbdcRequestKb = terminal.vbdcRequestKb ∧
      (terminal.reset converter).2.vbdcAllocKb = 0 := by
  unfold reset
  rw [resetAllocations_eq]
  dsimp only
  split
  · cases terminal.fmt with
    | none => exact ⟨rfl, rfl, rfl, rfl⟩
    | some fmt => exact ⟨rfl, rfl, rfl, rfl⟩
  · exact ⟨rfl, rfl, rfl, rfl⟩

namespace DamaCtrlRcs2Legacy

variable {legacy legacy' : DamaCtrlRcs2Legacy}

/-- The groups on which the VBDC is computed. -/
def vbdcPositions (allocations : List GroupAllocation) : List (Nat × Nat) :=
  allocations.filterMap fun
    | .vbdc position => some position
    | _ => none

/-- The identifier of a group. -/
def carriersIdAt (legacy : DamaCtrlRcs2Legacy) (position : Nat × Nat) : Option Nat :=
  (legacy.layout[position.1]?).bind fun entry => entry.2[position.2]?

theorem carriersIdAt_of_group {position : Nat × Nat} {run : Allocation}
    (found : legacy.group position = some run) :
    legacy.carriersIdAt position = some run.carriers.carriersId := by
  obtain ⟨ids, entry, on⟩ := layout_getElem? found
  rw [carriersIdAt, entry]
  exact on

theorem WellFormed.carriersIdAt_inj (formed : legacy.WellFormed) {c g g' carrierId : Nat}
    (h : legacy.carriersIdAt (c, g) = some carrierId)
    (h' : legacy.carriersIdAt (c, g') = some carrierId) : g = g' := by
  obtain ⟨entry, row, on⟩ := Option.bind_eq_some_iff.mp h
  obtain ⟨entry', row', on'⟩ := Option.bind_eq_some_iff.mp h'
  obtain rfl : entry = entry' := Option.some.inj (row.symm.trans row')
  have nodup := formed.carriersIds entry (List.mem_of_getElem? row)
  exact (List.getElem?_inj (List.getElem?_eq_some_iff.mp on).1 nodup).mp (on.trans on'.symm)

/-- An allocation on a group keeps the layout and the length of the packets. -/
theorem allocateGroup_layout {allocation : GroupAllocation}
    (taken : legacy.allocateGroup allocation = some legacy') :
    legacy'.layout = legacy.layout ∧
      legacy'.ctrl.converter.packetLengthSym = legacy.ctrl.converter.packetLengthSym := by
  rcases allocateGroup_cases taken with
    ⟨rfl, -⟩ | ⟨position, run, run', granted, amount, found, charges, rfl, -⟩
  · exact ⟨rfl, rfl⟩
  · obtain ⟨remaining, carriers⟩ := charges.carriers
    refine ⟨layout_store found (by rw [carriers]; rfl), ?_⟩
    obtain ⟨category, -, _, -, rfl⟩ := group_eq_some_iff.mp found
    exact congrArg Prod.snd charges.packetFormat

theorem onGroup_vbdc_volumes (position : Nat × Nat) :
    Changes (fun c before after => after = before ∨
        c = position.1 ∧ legacy.carriersIdAt (c, position.2) = some before.carrierId ∧
          ServedPackets legacy.ctrl.converter.packetLengthSym before after) legacy
      (legacy.onGroup computeDamaVbdcPerCarrier position) := by
  refine (onGroup_changes (R := fun before after => after = before ∨
    legacy.carriersIdAt position = some before.carrierId ∧
      ServedPackets legacy.ctrl.converter.packetLengthSym before after) ?_).mono ?_
  · intro run found
    have length : run.ctrl.converter.packetLengthSym = legacy.ctrl.converter.packetLengthSym := by
      obtain ⟨category, -, carriers, -, rfl⟩ := group_eq_some_iff.mp found
      rfl
    refine Pointwise.mono (computeDamaVbdcPerCarrier_volumes run) fun _ before _ after served => ?_
    rw [carriersIdAt_of_group found, ← length]
    exact served.imp_right fun ⟨own, volume⟩ => ⟨congrArg some own.symm, volume⟩
  · rintro c before after (rfl | ⟨rfl, rfl | served⟩)
    · exact .inl rfl
    · exact .inl rfl
    · exact .inr ⟨rfl, served⟩

theorem vbdcPositions_sublist (allocation : GroupAllocation) (rest : List GroupAllocation) :
    List.Sublist (vbdcPositions rest) (vbdcPositions (allocation :: rest)) :=
  (List.sublist_cons_self allocation rest).filterMap _

theorem vbdcPositions_cons (position : Nat × Nat) (rest : List GroupAllocation) :
    vbdcPositions (.vbdc position :: rest) = position :: vbdcPositions rest :=
  rfl

/-- The allocations on the groups serve a terminal once at most, on its group. -/
theorem run_allocateGroup_volumes {allocations : List GroupAllocation}
    (nodup : (vbdcPositions allocations).Nodup) (formed : legacy.WellFormed)
    (ends : Run.run allocateGroup legacy allocations = some legacy') :
    Changes (fun c before after => SameVolume before after ∨
        (∃ g, (c, g) ∈ vbdcPositions allocations ∧
          legacy.carriersIdAt (c, g) = some before.carrierId) ∧
        ServedPackets legacy.ctrl.converter.packetLengthSym before after) legacy legacy' := by
  induction allocations generalizing legacy with
  | nil =>
      cases ends
      exact Changes.refl (fun _ terminal => .inl (.refl terminal)) _
  | cons allocation rest ih =>
      obtain ⟨mid, taken, ends'⟩ := Option.bind_eq_some_iff.mp ends
      obtain ⟨layout, length⟩ := allocateGroup_layout taken
      have formed' : mid.WellFormed := formed.of_layout layout
      have idAt : mid.carriersIdAt = legacy.carriersIdAt := by
        funext position
        rw [carriersIdAt, layout, carriersIdAt]
      have later := ih ((vbdcPositions_sublist _ _).nodup nodup) formed' ends'
      rw [idAt, length] at later
      by_cases vbdc : ∃ position, allocation = .vbdc position
      · obtain ⟨position, rfl⟩ := vbdc
        rw [vbdcPositions_cons, List.nodup_cons] at nodup
        cases taken
        refine (onGroup_vbdc_volumes position).trans later ?_
        rintro c before mid after (rfl | ⟨rfl, own, served⟩) rest
        · rcases rest with same | ⟨⟨g, mem, other⟩, served⟩
          · exact .inl same
          · exact .inr ⟨⟨g, List.mem_cons_of_mem _ mem, other⟩, served⟩
        · right
          rcases rest with same | ⟨⟨g, mem, other⟩, -⟩
          · exact ⟨⟨position.2, List.mem_cons_self, own⟩, served.same same⟩
          · -- another VBDC on the same group
            rw [served.carrierId] at other
            obtain rfl := formed.carriersIdAt_inj own other
            exact absurd mem nodup.1
      · have first := allocateGroup_changes SameVolume.refl SameVolume.trans
          (fun _ _ => ⟨rfl, rfl, rfl, rfl, rfl, rfl⟩) (fun _ _ => ⟨rfl, rfl, rfl, rfl, rfl, rfl⟩)
          (fun _ _ => ⟨rfl, rfl, rfl, rfl, rfl, rfl⟩) (fun isVbdc => absurd isVbdc vbdc)
          (fun _ _ => ⟨rfl, rfl, rfl, rfl, rfl, rfl⟩) taken
        refine first.trans later ?_
        rintro c before mid after same rest
        rcases rest with same' | ⟨⟨g, mem, own⟩, served⟩
        · exact .inl (same.trans _ _ _ same')
        · rw [same.carrierId] at own
          exact .inr ⟨⟨g, (vbdcPositions_sublist _ _).mem mem, own⟩, .of_same same served⟩

/-- A superframe computes the VBDC of a group once at most. -/
theorem vbdcPositions_superframe (fuel : Nat) (legacy : DamaCtrlRcs2Legacy) :
    (vbdcPositions (legacy.superframe fuel)).Nodup := by
  have cra : vbdcPositions (legacy.positions.map .cra) = [] := by
    simp [vbdcPositions]
  have rbdc : vbdcPositions (legacy.positions.map .rbdc) = [] := by
    simp [vbdcPositions]
  have vbdc : vbdcPositions (legacy.positions.map .vbdc) = legacy.positions := by
    simp [vbdcPositions, List.filterMap_map]
  have fca : vbdcPositions (legacy.positions.map (.fca fuel)) = [] := by
    simp [vbdcPositions]
  have append : ∀ first second, vbdcPositions (first ++ second) =
      vbdcPositions first ++ vbdcPositions second := fun _ _ => List.filterMap_append ..
  have none : vbdcPositions [] = [] := rfl
  have some : vbdcPositions (if legacy.enableVbdc then legacy.positions.map .vbdc else []) =
      if legacy.enableVbdc then legacy.positions else [] := by
    rw [apply_ite vbdcPositions, vbdc, none]
  unfold superframe
  rw [append, cra, apply_ite vbdcPositions, append, append, some, apply_ite vbdcPositions, rbdc,
    apply_ite vbdcPositions, fca, none, ite_self, ite_self, List.nil_append, List.nil_append,
    List.append_nil]
  split
  · split
    · exact positions_nodup legacy
    · exact List.nodup_nil
  · exact List.nodup_nil

/-! ### Requests and superframes -/

theorem layout_mapTerminals (f : TerminalContextDamaRcs → TerminalContextDamaRcs) :
    (legacy.mapTerminals f).layout = legacy.layout := by
  simp [layout, mapTerminals, Function.comp_def]

theorem layout_prepare (waveForms : Nat → Nat × Option FmtDefinition) :
    (legacy.prepare waveForms).2.layout = legacy.layout := by
  refine (layout_mapTerminals _).trans ((layout_mapTerminals _).trans ?_)
  exact layout_resetCarriersCapacity legacy

theorem packetLengthSym_prepare (waveForms : Nat → Nat × Option FmtDefinition) :
    (legacy.prepare waveForms).2.ctrl.converter.packetLengthSym =
      legacy.ctrl.converter.packetLengthSym := by
  have followed : ∀ (terminals : List TerminalContextDamaRcs)
      (converter : UnitConverterFixedSymbolLength),
      (terminals.foldl TerminalContextDamaRcs.resetConverter converter).packetLengthSym =
        converter.packetLengthSym := by
    intro terminals
    induction terminals with
    | nil => exact fun _ => rfl
    | cons terminal terminals ih =>
        intro converter
        refine (ih _).trans ?_
        unfold TerminalContextDamaRcs.resetConverter
        split
        · cases terminal.fmt <;> rfl
        · rfl
  refine (followed _ _).trans ?_
  exact congrArg _ (foldl_resetCategory_converter legacy.categories legacy.ctrl)

theorem run_allocateGroup_layout {allocations : List GroupAllocation}
    (ends : Run.run allocateGroup legacy allocations = some legacy') :
    legacy'.layout = legacy.layout := by
  induction allocations generalizing legacy with
  | nil =>
      cases ends
      rfl
  | cons allocation rest ih =>
      obtain ⟨mid, taken, ends'⟩ := Option.bind_eq_some_iff.mp ends
      exact (ih ends').trans (allocateGroup_layout taken).1

/-- A superframe keeps the layout and grants whole packets to the terminals. -/
theorem runOnSuperFrameChange_packets {waveForms : Nat → Nat × Option FmtDefinition} {fuel : Nat}
    (formed : legacy.WellFormed)
    (allocated : legacy.runOnSuperFrameChange waveForms fuel = some legacy') :
    legacy'.layout = legacy.layout ∧
      List.Forall₂ (GrantedPackets legacy.ctrl.converter.packetLengthSym)
        legacy.terminals legacy'.terminals := by
  have layout : (legacy.prepare waveForms).2.layout = legacy.layout := layout_prepare waveForms
  have prepared : Changes (fun _ before after => after.talId = before.talId ∧
      after.maxVbdcKb = before.maxVbdcKb ∧ after.vbdcRequestKb = before.vbdcRequestKb ∧
        after.vbdcAllocKb = 0) legacy (legacy.prepare waveForms).2 := by
    refine (prepare_changes waveForms).mono ?_
    rintro _ before after rfl
    exact TerminalContextDamaRcs.reset_volume _ _
  unfold runOnSuperFrameChange at allocated
  dsimp only at allocated
  split at allocated
  · have formed' := formed.of_layout layout
    have served := run_allocateGroup_volumes (vbdcPositions_superframe fuel _) formed' allocated
    rw [packetLengthSym_prepare] at served
    refine ⟨(run_allocateGroup_layout allocated).trans layout, ?_⟩
    refine (prepared.trans served ?_).terminals
    rintro _ before mid after ⟨talId, max, request, none⟩ (same | ⟨-, granted⟩)
    · have nothing := same.vbdcAllocKb.trans none
      refine ⟨⟨same.talId.trans talId, same.maxVbdcKb.trans max, ?_, fun some => ?_⟩,
        fun some => ?_, fun some => ?_⟩
      · rw [same.vbdcRequestKb, same.vbdcAllocKb, request, none, Nat.sub_zero]
      · exact absurd nothing some
      · exact absurd nothing some
      · exact absurd nothing some
    · refine ⟨⟨granted.talId.trans talId, granted.maxVbdcKb.trans max, ?_, ?_⟩, ?_, ?_⟩
      · rw [granted.lowered, request]
      · rw [← request]
        exact granted.within
      · rw [← request]
        exact granted.asked
      · rw [← request]
        exact granted.packets
  · cases allocated
    refine ⟨layout, (prepared.mono ?_).terminals⟩
    rintro _ before after ⟨talId, max, request, none⟩
    refine ⟨⟨talId, max, ?_, fun some => absurd none some⟩, fun some => absurd none some,
      fun some => absurd none some⟩
    rw [request, none, Nat.sub_zero]

/-- A superframe keeps the layout and grants volumes to the terminals. -/
theorem runOnSuperFrameChange_volumes {waveForms : Nat → Nat × Option FmtDefinition} {fuel : Nat}
    (formed : legacy.WellFormed)
    (allocated : legacy.runOnSuperFrameChange waveForms fuel = some legacy') :
    legacy'.layout = legacy.layout ∧
      List.Forall₂ (GrantedVolume legacy.ctrl.converter.packetLengthSym)
        legacy.terminals legacy'.terminals := by
  obtain ⟨layout, granted⟩ := runOnSuperFrameChange_packets formed allocated
  exact ⟨layout, granted.imp fun _ _ packets => packets.toGrantedVolume⟩

/-- A SAC changes the terminal it is from only. -/
theorem hereIsSAC_terminals {isGw : Nat → Bool} {talId : Nat} {requests : List DecodedCr}
    (received : legacy.hereIsSAC isGw talId requests = some legacy') :
    legacy'.layout = legacy.layout ∧
      List.Forall₂ (fun before after => after =
          if before.talId = talId then requests.foldl (·.hereIsRequest) before else before)
        legacy.terminals legacy'.terminals := by
  unfold hereIsSAC at received
  dsimp only at received
  split at received
  next known =>
    cases received
    refine ⟨layout_mapTerminals _, ?_⟩
    exact (mapTerminals_changes fun _ _ _ => rfl : Changes (fun _ before after => after =
      if before.talId = talId then requests.foldl (·.hereIsRequest) before else before)
        legacy _).terminals
  next unknown =>
    have other : ∀ terminal ∈ legacy.terminals, terminal.talId ≠ talId := by
      intro terminal mem same
      exact unknown (List.any_eq_true.mpr ⟨terminal, mem, decide_eq_true same⟩)
    split at received
    · cases received
    · cases received
      exact ⟨rfl, List.forall₂_same.mpr fun terminal mem => (if_neg (other terminal mem)).symm⟩

end DamaCtrlRcs2Legacy

namespace TerminalContextDamaRcs

variable (terminal : TerminalContextDamaRcs) (cr : DecodedCr)

/-- The volume that a request asks for. -/
def volumeKb (cr : DecodedCr) : Nat := if cr.type = some .damaVbdc then cr.value else 0

theorem hereIsRequest_maxVbdcKb : (terminal.hereIsRequest cr).maxVbdcKb = terminal.maxVbdcKb := by
  unfold hereIsRequest
  split <;> rfl

theorem hereIsRequest_of_vbdc (vbdc : cr.type = some .damaVbdc) :
    (terminal.hereIsRequest cr).vbdcRequestKb =
      min (addW 16 terminal.vbdcRequestKb (min (wrap 16 cr.value) terminal.maxVbdcKb))
        terminal.maxVbdcKb := by
  unfold hereIsRequest
  rw [vbdc]
  rfl

theorem hereIsRequest_of_other (other : cr.type ≠ some .damaVbdc) :
    (terminal.hereIsRequest cr).vbdcRequestKb = terminal.vbdcRequestKb := by
  unfold hereIsRequest
  split
  · exact absurd ‹cr.type = some .damaVbdc› other
  · rfl
  · rfl

/-- A request makes the outstanding volume grow by what it asks for at most. -/
theorem hereIsRequest_le : (terminal.hereIsRequest cr).vbdcRequestKb ≤
    terminal.vbdcRequestKb + volumeKb cr := by
  by_cases vbdc : cr.type = some .damaVbdc
  · rw [hereIsRequest_of_vbdc _ _ vbdc, volumeKb, if_pos vbdc]
    have sum := addW_le 16 terminal.vbdcRequestKb (min (wrap 16 cr.value) terminal.maxVbdcKb)
    have word := wrap_le 16 cr.value
    omega
  · rw [hereIsRequest_of_other _ _ vbdc]
    exact Nat.le_add_right _ _

theorem hereIsRequest_le_max (le : terminal.vbdcRequestKb ≤ terminal.maxVbdcKb) :
    (terminal.hereIsRequest cr).vbdcRequestKb ≤ terminal.maxVbdcKb := by
  by_cases vbdc : cr.type = some .damaVbdc
  · rw [hereIsRequest_of_vbdc _ _ vbdc]
    exact min_le_right _ _
  · rw [hereIsRequest_of_other _ _ vbdc]
    exact le

/-- It does not make it smaller when their sum is a 16-bit number. -/
theorem le_hereIsRequest (le : terminal.vbdcRequestKb ≤ terminal.maxVbdcKb)
    (fits : terminal.vbdcRequestKb + min (wrap 16 cr.value) terminal.maxVbdcKb < 2 ^ 16) :
    terminal.vbdcRequestKb ≤ (terminal.hereIsRequest cr).vbdcRequestKb := by
  by_cases vbdc : cr.type = some .damaVbdc
  · rw [hereIsRequest_of_vbdc _ _ vbdc, addW_of_lt fits]
    exact le_min (Nat.le_add_right _ _) le
  · exact (hereIsRequest_of_other _ _ vbdc).ge

/-- Several requests, one after the other. -/
theorem foldl_hereIsRequest_le (requests : List DecodedCr) :
    (requests.foldl hereIsRequest terminal).vbdcRequestKb ≤
      terminal.vbdcRequestKb + (requests.map volumeKb).sum := by
  induction requests generalizing terminal with
  | nil => exact Nat.le_add_right _ _
  | cons cr requests ih =>
      have volume := hereIsRequest_le terminal cr
      have later := ih (terminal.hereIsRequest cr)
      rw [List.map_cons, List.sum_cons, List.foldl_cons]
      omega

theorem foldl_hereIsRequest_volume (requests : List DecodedCr)
    (le : terminal.vbdcRequestKb ≤ terminal.maxVbdcKb) :
    (requests.foldl hereIsRequest terminal).maxVbdcKb = terminal.maxVbdcKb ∧
      (requests.foldl hereIsRequest terminal).vbdcRequestKb ≤ terminal.maxVbdcKb ∧
      (requests.foldl hereIsRequest terminal).vbdcRequestKb ≤
        terminal.vbdcRequestKb + (requests.map volumeKb).sum := by
  have max := foldl_hereIsRequest hereIsRequest_maxVbdcKb requests terminal
  refine ⟨max, ?_, foldl_hereIsRequest_le terminal requests⟩
  clear max
  induction requests generalizing terminal with
  | nil => exact le
  | cons cr requests ih =>
      have max := hereIsRequest_maxVbdcKb terminal cr
      exact max ▸ ih (terminal.hereIsRequest cr) (max ▸ hereIsRequest_le_max terminal cr le)

end TerminalContextDamaRcs

/-! ### Runs -/

/-- A terminal before and after the reception of requests: they are taken one by one, and
one whose sum with the outstanding volume is a 16-bit number does not make it smaller. -/
structure AskedVolume (talId : Nat) (requests : List DecodedCr)
    (before after : TerminalContextDamaRcs) : Prop where
  taken : after = if before.talId = talId then requests.foldl (·.hereIsRequest) before else before
  grows : ∀ earlier cr later, requests = earlier ++ cr :: later →
    (earlier.foldl (·.hereIsRequest) before).vbdcRequestKb +
      min (wrap 16 cr.value) before.maxVbdcKb < 2 ^ 16 →
    (earlier.foldl (·.hereIsRequest) before).vbdcRequestKb ≤
      ((earlier.foldl (·.hereIsRequest) before).hereIsRequest cr).vbdcRequestKb

/-- The controller with, for each terminal, the volume that it requested and the one that the
grants took off its outstanding volume. -/
structure VbdcWatch where
  legacy : DamaCtrlRcs2Legacy
  requestedKb : Nat → Nat
  servedKb : Nat → Nat

namespace VbdcWatch

variable {isGw : Nat → Bool} {watch watch' : VbdcWatch}

/-- A controller that has received no request. -/
def start (legacy : DamaCtrlRcs2Legacy) : VbdcWatch := ⟨legacy, fun _ => 0, fun _ => 0⟩

/-- What the grant of a superframe takes off the outstanding volume of a terminal. -/
def takenKb (legacy legacy' : DamaCtrlRcs2Legacy) (talId : Nat) : Nat :=
  ((legacy.terminals.zip legacy'.terminals).find? fun pair => pair.1.talId = talId).elim 0
    fun pair => min pair.2.vbdcAllocKb pair.1.vbdcRequestKb

def next (watch : VbdcWatch) (legacy : DamaCtrlRcs2Legacy) : DamaEvent → VbdcWatch
  | .sac talId requests =>
      { watch with
        legacy := legacy
        requestedKb := Function.update watch.requestedKb talId
          (watch.requestedKb talId + (requests.map TerminalContextDamaRcs.volumeKb).sum) }
  | .superframe _ _ =>
      { watch with
        legacy := legacy
        servedKb := fun talId => watch.servedKb talId + takenKb watch.legacy legacy talId }

def step (isGw : Nat → Bool) (watch : VbdcWatch) (event : DamaEvent) : Option VbdcWatch :=
  (watch.legacy.step isGw event).map fun legacy => watch.next legacy event

/-- The outstanding volumes are at most the maxima, and with what was served at most what was
requested. -/
def Conserved (watch : VbdcWatch) : Prop :=
  ∀ terminal ∈ watch.legacy.terminals, terminal.vbdcRequestKb ≤ terminal.maxVbdcKb ∧
    watch.servedKb terminal.talId + terminal.vbdcRequestKb ≤ watch.requestedKb terminal.talId

/-- What the requests and the grants do to the outstanding volumes. -/
def Moves (watch : VbdcWatch) (event : DamaEvent) (watch' : VbdcWatch) : Prop :=
  match event with
  | .sac talId requests =>
      List.Forall₂ (AskedVolume talId requests) watch.legacy.terminals watch'.legacy.terminals
  | .superframe _ _ =>
      List.Forall₂ (GrantedVolume watch.legacy.ctrl.converter.packetLengthSym)
        watch.legacy.terminals watch'.legacy.terminals

/-- The terminals have different identifiers and the groups of a category too. -/
structure Formed (legacy : DamaCtrlRcs2Legacy) : Prop where
  layout : legacy.WellFormed
  talIds : (legacy.terminals.map (·.talId)).Nodup

theorem Formed.of_forall₂ {R : TerminalContextDamaRcs → TerminalContextDamaRcs → Prop}
    {legacy legacy' : DamaCtrlRcs2Legacy} (formed : Formed legacy)
    (layout : legacy'.layout = legacy.layout)
    (changed : List.Forall₂ R legacy.terminals legacy'.terminals)
    (sameId : ∀ before after, R before after → after.talId = before.talId) : Formed legacy' where
  layout := formed.layout.of_layout layout
  talIds := by
    have ids : legacy'.terminals.map (·.talId) = legacy.terminals.map (·.talId) := by
      rw [← List.forall₂_eq_eq_eq, List.forall₂_map_left_iff, List.forall₂_map_right_iff]
      exact (changed.imp fun before after related => sameId before after related).flip
    rw [ids]
    exact formed.talIds

/-- What a reception does to the terminals. -/
theorem sac_moves {talId : Nat} {requests : List DecodedCr}
    (bounded : ∀ terminal ∈ watch.legacy.terminals, terminal.vbdcRequestKb ≤ terminal.maxVbdcKb)
    (taken : watch.step isGw (.sac talId requests) = some watch') :
    watch'.legacy.layout = watch.legacy.layout ∧ watch.Moves (.sac talId requests) watch' := by
  have grows : ∀ terminal ∈ watch.legacy.terminals, ∀ earlier cr later,
      requests = earlier ++ cr :: later →
      (earlier.foldl (·.hereIsRequest) terminal).vbdcRequestKb +
        min (wrap 16 cr.value) terminal.maxVbdcKb < 2 ^ 16 →
      (earlier.foldl (·.hereIsRequest) terminal).vbdcRequestKb ≤
        ((earlier.foldl (·.hereIsRequest) terminal).hereIsRequest cr).vbdcRequestKb := by
    intro terminal mem earlier cr later _ fits
    obtain ⟨max, le, -⟩ := TerminalContextDamaRcs.foldl_hereIsRequest_volume terminal earlier
      (bounded terminal mem)
    refine TerminalContextDamaRcs.le_hereIsRequest _ cr ?_ ?_
    · rw [max]
      exact le
    · rw [max]
      exact fits
  obtain ⟨legacy, received, rfl⟩ := Option.map_eq_some_iff.mp taken
  obtain ⟨layout, asked⟩ := DamaCtrlRcs2Legacy.hereIsSAC_terminals received
  refine ⟨layout, List.forall₂_iff_zip.mpr ⟨asked.length_eq, fun pair => ?_⟩⟩
  exact ⟨List.forall₂_zip asked pair, grows _ (List.of_mem_zip pair).1⟩

theorem sac_conserved {talId : Nat} {requests : List DecodedCr} (conserved : watch.Conserved)
    (taken : watch.step isGw (.sac talId requests) = some watch') : watch'.Conserved := by
  have bounded : ∀ terminal ∈ watch.legacy.terminals,
      terminal.vbdcRequestKb ≤ terminal.maxVbdcKb := fun terminal mem => (conserved terminal mem).1
  have moves := (sac_moves bounded taken).2
  obtain ⟨legacy, received, rfl⟩ := Option.map_eq_some_iff.mp taken
  intro after mem
  obtain ⟨before, pair, asked⟩ := exists_zip_of_forall₂ moves mem
  obtain ⟨le, total⟩ := conserved before (List.of_mem_zip pair).1
  have requested := asked.taken
  by_cases same : before.talId = talId
  · rw [if_pos same] at requested
    subst requested
    obtain ⟨max, le', volume⟩ :=
      TerminalContextDamaRcs.foldl_hereIsRequest_volume before requests le
    refine ⟨max ▸ le', ?_⟩
    rw [TerminalContextDamaRcs.foldl_hereIsRequest_talId, same]
    rw [same] at total
    simp only [next, Function.update_self]
    exact (Nat.add_le_add_left volume _).trans (by omega)
  · rw [if_neg same] at requested
    subst requested
    refine ⟨le, ?_⟩
    simp only [next, Function.update_of_ne same]
    exact total

/-- A grant takes off the outstanding volume what it is, or all of it. -/
theorem takenKb_eq {legacy legacy' : DamaCtrlRcs2Legacy} {packetLengthSym : Nat}
    (formed : Formed legacy) (formed' : Formed legacy')
    (granted : List.Forall₂ (GrantedVolume packetLengthSym) legacy.terminals legacy'.terminals)
    {before after : TerminalContextDamaRcs}
    (pair : (before, after) ∈ legacy.terminals.zip legacy'.terminals) :
    takenKb legacy legacy' before.talId = min after.vbdcAllocKb before.vbdcRequestKb := by
  obtain ⟨mem, mem'⟩ := List.of_mem_zip pair
  unfold takenKb
  cases found : (legacy.terminals.zip legacy'.terminals).find?
      fun pair => pair.1.talId = before.talId with
  | none =>
      have missed := List.find?_eq_none.mp found _ pair
      exact absurd (decide_eq_true rfl) missed
  | some first =>
      have same : first.1.talId = before.talId := by
        simpa using List.find?_some found
      have on := List.mem_of_find?_eq_some found
      obtain ⟨on', on''⟩ := List.of_mem_zip on
      have own := List.inj_on_of_nodup_map formed.talIds on' mem same
      have ids := (List.forall₂_zip granted on).talId.trans
        (same.trans (List.forall₂_zip granted pair).talId.symm)
      have own' := List.inj_on_of_nodup_map formed'.talIds on'' mem' ids
      show min first.2.vbdcAllocKb first.1.vbdcRequestKb = _
      rw [own, own']

theorem superframe_moves {waveForms : Nat → Nat × Option FmtDefinition} {fuel : Nat}
    (formed : Formed watch.legacy)
    (taken : watch.step isGw (.superframe waveForms fuel) = some watch') :
    watch'.legacy.layout = watch.legacy.layout ∧
      watch.Moves (.superframe waveForms fuel) watch' := by
  obtain ⟨legacy, allocated, rfl⟩ := Option.map_eq_some_iff.mp taken
  exact DamaCtrlRcs2Legacy.runOnSuperFrameChange_volumes formed.layout allocated

theorem superframe_conserved {waveForms : Nat → Nat × Option FmtDefinition} {fuel : Nat}
    (formed : Formed watch.legacy) (conserved : watch.Conserved)
    (taken : watch.step isGw (.superframe waveForms fuel) = some watch') :
    watch'.Conserved := by
  obtain ⟨layout, moves⟩ := superframe_moves formed taken
  have formed' := formed.of_forall₂ layout moves fun _ _ granted => granted.talId
  obtain ⟨legacy, allocated, rfl⟩ := Option.map_eq_some_iff.mp taken
  intro after mem
  obtain ⟨before, pair, granted⟩ := exists_zip_of_forall₂ moves mem
  obtain ⟨le, total⟩ := conserved before (List.of_mem_zip pair).1
  have lowered := granted.lowered
  refine ⟨by rw [granted.maxVbdcKb]; omega, ?_⟩
  have off := takenKb_eq formed formed' moves pair
  rw [granted.talId]
  show watch.servedKb before.talId + takenKb watch.legacy legacy before.talId +
    after.vbdcRequestKb ≤ watch.requestedKb before.talId
  have off' : takenKb watch.legacy legacy before.talId =
      min after.vbdcAllocKb before.vbdcRequestKb := off
  omega

/-- **Conservation of the VBDC volumes.** In every run, the outstanding volumes are at most
the maxima, the grants take off no more than what was requested, and every request and every
grant does to the outstanding volumes what it should. -/
theorem vbdc_conserved (isGw : Nat → Bool) (legacy : DamaCtrlRcs2Legacy)
    (formed : Formed legacy) (fresh : ∀ terminal ∈ legacy.terminals, terminal.vbdcRequestKb = 0)
    (events : List DamaEvent) :
    AllStates (step isGw) Conserved (start legacy) events ∧
      AllMoves (step isGw) Moves (start legacy) events := by
  have init : Formed (start legacy).legacy ∧ (start legacy).Conserved := by
    refine ⟨formed, fun terminal mem => ?_⟩
    rw [fresh terminal mem]
    exact ⟨Nat.zero_le _, le_rfl⟩
  have states : AllStates (step isGw) (fun watch => Formed watch.legacy ∧ watch.Conserved)
      (start legacy) events := by
    refine allStates_of_step init ?_
    rintro watch event watch' ⟨formed, conserved⟩ taken
    cases event with
    | sac talId requests =>
        obtain ⟨layout, moves⟩ := sac_moves (fun terminal mem => (conserved terminal mem).1) taken
        refine ⟨formed.of_forall₂ layout moves fun before after asked => ?_,
          sac_conserved conserved taken⟩
        rw [asked.taken]
        split
        · exact TerminalContextDamaRcs.foldl_hereIsRequest_talId requests before
        · rfl
    | superframe waveForms fuel =>
        obtain ⟨layout, moves⟩ := superframe_moves formed taken
        exact ⟨formed.of_forall₂ layout moves fun _ _ granted => granted.talId,
          superframe_conserved formed conserved taken⟩
  refine ⟨states.mono fun _ good => good.2, allMoves_of_allStates states ?_⟩
  rintro watch event watch' ⟨formed, conserved⟩ taken
  cases event with
  | sac talId requests =>
      exact (sac_moves (fun terminal mem => (conserved terminal mem).1) taken).2
  | superframe waveForms fuel => exact (superframe_moves formed taken).2

/-! ### A grant of whole packets -/

/-- The volume granted to a terminal is at most what it ever requested. -/
def GrantedWithin (watch : VbdcWatch) : Prop :=
  ∀ terminal ∈ watch.legacy.terminals, terminal.vbdcAllocKb ≤ watch.requestedKb terminal.talId

/-- A terminal that may ask for 100 kbits, with packets of 536 symbols. -/
def vbdcLegacy : DamaCtrlRcs2Legacy :=
  { DamaCtrlRcs2Legacy.wideLegacy 0 [] with
    ctrl := ⟨⟨53, 536, 2⟩, 0, 0, fun _ => 0, fun _ _ => 0⟩
    categories := [⟨"Standard", [{ DamaCtrlRcs2Legacy.askingTerminal 0 1 with maxVbdcKb := 100 }],
      [DamaCtrlRcs2Legacy.wideCarriers]⟩] }

/-- The terminals stay on the first group, in QPSK 1/2. -/
def sameWaveForms : Nat → Nat × Option FmtDefinition :=
  fun _ => (0, (DamaCtrlRcs2Legacy.askingTerminal 0 1).fmt)

def vbdcRequestOf (volKb : Nat) : DamaEvent := .sac 1 [⟨0, some .damaVbdc, volKb⟩]

theorem vbdcLegacy_formed : Formed vbdcLegacy where
  layout := ⟨List.nodup_singleton _, by decide⟩
  talIds := List.nodup_singleton _

/-- Two requests, the first of which is served before the second. -/
theorem vbdcLegacy_conserved :
    AllStates (step fun _ => false) Conserved (start vbdcLegacy)
        [vbdcRequestOf 60, .superframe sameWaveForms 0, vbdcRequestOf 10] ∧
      AllMoves (step fun _ => false) Moves (start vbdcLegacy)
        [vbdcRequestOf 60, .superframe sameWaveForms 0, vbdcRequestOf 10] :=
  vbdc_conserved (fun _ => false) vbdcLegacy vbdcLegacy_formed
    (fun terminal mem => by rw [List.mem_singleton.mp mem]; rfl) _

/-- Two packets are granted for 1 kbit, which are worth 2 kbits. -/
theorem vbdcLegacy_not_within :
    ¬ AllStates (step fun _ => false) GrantedWithin (start vbdcLegacy)
      [vbdcRequestOf 1, .superframe sameWaveForms 0] := by
  have served : (run (step fun _ => false) (start vbdcLegacy)
      [vbdcRequestOf 1, .superframe sameWaveForms 0]).map
        (fun watch => (watch.legacy.terminals.map fun terminal =>
          (terminal.talId, terminal.vbdcAllocKb), watch.requestedKb 1)) = some ([(1, 2)], 1) := by
    decide +kernel
  obtain ⟨watch, ends, seen⟩ := Option.map_eq_some_iff.mp served
  obtain ⟨granted, requested⟩ := Prod.mk.inj seen
  intro states
  have mem : (1, 2) ∈ watch.legacy.terminals.map fun terminal =>
      (terminal.talId, terminal.vbdcAllocKb) := by
    rw [granted]
    exact List.mem_singleton_self _
  obtain ⟨terminal, on, same⟩ := List.mem_map.mp mem
  obtain ⟨talId, alloc⟩ := Prod.mk.inj same
  have within := states.last ends terminal on
  rw [talId, alloc, requested] at within
  omega

end VbdcWatch

end OpenSand
