import OpenSand.Dama.DamaCtrlRcs2
import OpenSand.Dama.TerminalsChange

/-!
The terminals that the DAMA controller knows.

A terminal that logged on is in the map and in the list of one category, and the statistics
follow the map. Only the logons and the logoffs change the map and the lists; a command that
writes in the contexts leaves their identifiers and categories alone.
-/

namespace OpenSand

open OpenSand.Registry OpenSand.Run

theorem TerminalContextDamaRcs.reset_maxRbdc (converter : UnitConverterFixedSymbolLength)
    (terminal : TerminalContextDamaRcs) :
    (terminal.reset converter).2.talId = terminal.talId ∧
      (terminal.reset converter).2.maxRbdcKbps = terminal.maxRbdcKbps := by
  unfold reset
  rw [resetAllocations_eq]
  dsimp only
  split
  · cases terminal.fmt with
    | none => exact ⟨rfl, rfl⟩
    | some fmt => exact ⟨rfl, rfl⟩
  · exact ⟨rfl, rfl⟩

namespace DamaCtrlRcs2

variable {dama dama' : DamaCtrlRcs2}

/-! ### What the map and the lists designate -/

/-- The identifiers of the contexts and the labels of their categories. -/
def identities (dama : DamaCtrlRcs2) : List (Nat × String) :=
  dama.records.map fun record => (record.context.talId, record.currentCategory)

/-- The lists of the categories. -/
def lists (dama : DamaCtrlRcs2) : List (String × List Nat) :=
  dama.categories.map fun category => (category.label, category.terminals)

/-- The maximum RBDC of the contexts. -/
def maxRbdcs (dama : DamaCtrlRcs2) : List Nat :=
  dama.records.map (·.context.maxRbdcKbps)

def rate (rates : List Nat) (ref : Nat) : Int := (rates[ref]?.getD 0 : Nat)

/-- The map and the lists agree, and the statistics follow the map. -/
structure Booked (dama : DamaCtrlRcs2) : Prop where
  linked : Linked dama.identities dama.terminals dama.lists
  stNum : dama.gwStNum = dama.terminals.entries.length
  rbdcMax : dama.gwRbdcMaxKbps = total (rate dama.maxRbdcs) dama.terminals

/-- What the logons and the logoffs alone change; the rates are apart. -/
structure SameTerminals (dama dama' : DamaCtrlRcs2) : Prop where
  terminalAffectation : dama'.terminalAffectation = dama.terminalAffectation
  defaultCategory : dama'.defaultCategory = dama.defaultCategory
  identities : dama'.identities = dama.identities
  terminals : dama'.terminals = dama.terminals
  lists : dama'.lists = dama.lists
  gwStNum : dama'.gwStNum = dama.gwStNum

structure SameRates (dama dama' : DamaCtrlRcs2) : Prop where
  maxRbdcs : dama'.maxRbdcs = dama.maxRbdcs
  gwRbdcMaxKbps : dama'.gwRbdcMaxKbps = dama.gwRbdcMaxKbps

theorem SameTerminals.refl (dama : DamaCtrlRcs2) : SameTerminals dama dama :=
  ⟨rfl, rfl, rfl, rfl, rfl, rfl⟩

theorem SameTerminals.trans {first second third : DamaCtrlRcs2} (h : SameTerminals first second)
    (h' : SameTerminals second third) : SameTerminals first third where
  terminalAffectation := h'.terminalAffectation.trans h.terminalAffectation
  defaultCategory := h'.defaultCategory.trans h.defaultCategory
  identities := h'.identities.trans h.identities
  terminals := h'.terminals.trans h.terminals
  lists := h'.lists.trans h.lists
  gwStNum := h'.gwStNum.trans h.gwStNum

theorem SameRates.refl (dama : DamaCtrlRcs2) : SameRates dama dama := ⟨rfl, rfl⟩

theorem SameRates.trans {first second third : DamaCtrlRcs2} (h : SameRates first second)
    (h' : SameRates second third) : SameRates first third :=
  ⟨h'.maxRbdcs.trans h.maxRbdcs, h'.gwRbdcMaxKbps.trans h.gwRbdcMaxKbps⟩

theorem Booked.of_same (booked : dama.Booked) (same : SameTerminals dama dama')
    (rates : SameRates dama dama') : dama'.Booked where
  linked := by
    rw [same.identities, same.terminals, same.lists]
    exact booked.linked
  stNum := by
    rw [same.gwStNum, same.terminals]
    exact booked.stNum
  rbdcMax := by
    rw [rates.gwRbdcMaxKbps, rates.maxRbdcs, same.terminals]
    exact booked.rbdcMax

/-- A controller before the first logon. -/
structure Fresh (dama : DamaCtrlRcs2) : Prop where
  labels : (dama.categories.map (·.label)).Nodup
  noTerminal : dama.terminals = ∅
  noList : ∀ category ∈ dama.categories, category.terminals = []
  noCount : dama.gwStNum = 0 ∧ dama.gwRbdcMaxKbps = 0

theorem Fresh.booked (fresh : dama.Fresh) : dama.Booked := by
  refine ⟨?_, ?_, ?_⟩
  · rw [fresh.noTerminal]
    refine Linked.start ?_ fun entry mem => ?_
    · simpa [lists, Function.comp_def] using fresh.labels
    · obtain ⟨category, mem', rfl⟩ := List.mem_map.mp mem
      exact fresh.noList category mem'
  · rw [fresh.noTerminal, fresh.noCount.1]
    rfl
  · rw [fresh.noTerminal, fresh.noCount.2]
    rfl

/-! ### Writing in the contexts -/

variable {ref : Nat} {f : TerminalContextDamaRcs → TerminalContextDamaRcs}

/-- A list does not change when an element is replaced by one with the same image. -/
theorem map_modify_of_same {α β : Type*} {g : α → β} {l : List α} {i : Nat} {f : α → α}
    (same : ∀ a, l[i]? = some a → g (f a) = g a) : (l.modify i f).map g = l.map g := by
  apply List.ext_getElem?
  intro j
  rw [List.getElem?_map, List.getElem?_map, List.getElem?_modify]
  cases found : l[j]? with
  | none => rfl
  | some a =>
      by_cases own : i = j
      · subst own
        simp [same a found]
      · simp [own]

theorem modifyContext_same (dama : DamaCtrlRcs2) (ref : Nat)
    (f : TerminalContextDamaRcs → TerminalContextDamaRcs)
    (kept : ∀ record, dama.records[ref]? = some record →
    (f record.context).talId = record.context.talId) :
    SameTerminals dama (dama.modifyContext ref f) :=
  ⟨rfl, rfl, map_modify_of_same fun record found => by rw [kept record found], rfl, rfl, rfl⟩

theorem modifyContext_rates (dama : DamaCtrlRcs2) (ref : Nat)
    (f : TerminalContextDamaRcs → TerminalContextDamaRcs)
    (kept : ∀ record, dama.records[ref]? = some record →
    (f record.context).maxRbdcKbps = record.context.maxRbdcKbps) :
    SameRates dama (dama.modifyContext ref f) :=
  ⟨map_modify_of_same kept, rfl⟩

theorem setCarriersGroups_same (carriersGroups : Nat → List CarriersGroupDama) :
    SameTerminals dama (dama.setCarriersGroups carriersGroups) := by
  have lists : (dama.setCarriersGroups carriersGroups).lists = dama.lists := by
    apply List.ext_getElem?
    intro i
    simp [DamaCtrlRcs2.lists, setCarriersGroups, List.getElem?_mapIdx, Function.comp_def]
  exact ⟨rfl, rfl, rfl, rfl, lists, rfl⟩

theorem hereIsSAC_same {isGw : Nat → Bool} {talId : Nat} {requests : List DecodedCr} {status : Bool}
    (taken : dama.hereIsSAC isGw talId requests = some (status, dama')) :
    SameTerminals dama dama' ∧ SameRates dama dama' := by
  have rate : ∀ terminal : TerminalContextDamaRcs,
      (requests.foldl (·.hereIsRequest) terminal).maxRbdcKbps = terminal.maxRbdcKbps := by
    refine TerminalContextDamaRcs.foldl_hereIsRequest (fun terminal cr => ?_) requests
    unfold TerminalContextDamaRcs.hereIsRequest
    split <;> rfl
  unfold hereIsSAC at taken
  dsimp only at taken
  split at taken
  next =>
    split at taken
    · split at taken
      · cases taken
      · cases taken
        exact ⟨.refl dama, .refl dama⟩
    · cases taken
      exact ⟨.refl dama, .refl dama⟩
  next ref found =>
    obtain ⟨record, -, same⟩ := Option.map_eq_some_iff.mp taken
    cases same
    have contexts := modifyContext_same dama ref
      (requests.foldl (·.hereIsRequest))
      fun record _ => TerminalContextDamaRcs.foldl_hereIsRequest_talId requests record.context
    have rates := modifyContext_rates dama ref
      (requests.foldl (·.hereIsRequest)) fun record _ => rate record.context
    exact ⟨⟨contexts.1, contexts.2, contexts.3, contexts.4, contexts.5, contexts.6⟩,
      ⟨rates.1, rates.2⟩⟩

/-- What the superframe leaves in the contexts has their identifiers and maximum rates. -/
theorem foldl_modifyContext_same (written : List (Nat × TerminalContextDamaRcs))
    (own : ∀ pair ∈ written, (∃ label, dama.identities[pair.1]? = some (pair.2.talId, label)) ∧
      dama.maxRbdcs[pair.1]? = some pair.2.maxRbdcKbps) :
    SameTerminals dama (written.foldl (fun dama (ref, terminal) =>
        dama.modifyContext ref fun _ => terminal) dama) ∧
      SameRates dama (written.foldl (fun dama (ref, terminal) =>
        dama.modifyContext ref fun _ => terminal) dama) := by
  induction written generalizing dama with
  | nil => exact ⟨.refl dama, .refl dama⟩
  | cons pair written ih =>
      obtain ⟨⟨label, identity⟩, maxRbdc⟩ := own pair List.mem_cons_self
      rw [identities, List.getElem?_map, Option.map_eq_some_iff] at identity
      obtain ⟨record, found, identity⟩ := identity
      rw [maxRbdcs, List.getElem?_map, found] at maxRbdc
      have same := modifyContext_same dama pair.1 (fun _ => pair.2)
        fun record' found' => by
          obtain rfl : record = record' := Option.some.inj (found.symm.trans found')
          exact (Prod.mk.inj identity).1.symm
      have rates := modifyContext_rates dama pair.1 (fun _ => pair.2)
        fun record' found' => by
          obtain rfl : record = record' := Option.some.inj (found.symm.trans found')
          exact (Option.some.inj maxRbdc).symm
      obtain ⟨same', rates'⟩ := @ih (dama.modifyContext pair.1 fun _ => pair.2)
        fun pair' mem => by
          rw [same.identities, rates.maxRbdcs]
          exact own pair' (List.mem_cons_of_mem _ mem)
      exact ⟨same.trans same', rates.trans rates'⟩

/-- The contexts of the lists are the terminals of the superframe. -/
theorem forall₂_legacy (linked : Linked dama.identities dama.terminals dama.lists) :
    List.Forall₂ (fun ref terminal => (dama.records[ref]?).map (·.context) = some terminal)
      (dama.categories.flatMap (·.terminals)) dama.legacy.terminals := by
  have valid : ∀ category ∈ dama.categories, ∀ ref ∈ category.terminals,
      ∃ record, dama.records[ref]? = some record := by
    intro category mem ref on
    obtain ⟨talId, identity, -⟩ := linked.listed category.label category.terminals
      (List.mem_map.mpr ⟨category, mem, rfl⟩) ref on
    rw [identities, List.getElem?_map] at identity
    obtain ⟨record, found, -⟩ := Option.map_eq_some_iff.mp identity
    exact ⟨record, found⟩
  have contexts : ∀ refs : List Nat, (∀ ref ∈ refs, ∃ record, dama.records[ref]? = some record) →
      List.Forall₂ (fun ref terminal => (dama.records[ref]?).map (·.context) = some terminal)
        refs (dama.contexts refs) := by
    intro refs
    induction refs with
    | nil => exact fun _ => .nil
    | cons ref refs ih =>
        intro valid
        obtain ⟨record, found⟩ := valid ref List.mem_cons_self
        have own : (dama.records[ref]?).map (·.context) = some record.context := by rw [found]; rfl
        simp only [DamaCtrlRcs2.contexts, List.filterMap_cons, own]
        exact .cons own (ih fun ref mem => valid ref (List.mem_cons_of_mem _ mem))
  have terminals : dama.legacy.terminals =
      dama.categories.flatMap fun category => dama.contexts category.terminals :=
    List.flatMap_map ..
  rw [terminals]
  refine List.rel_flatMap (R := fun category category' => category = category' ∧
    category ∈ dama.categories) (List.forall₂_same.mpr fun category mem => ⟨rfl, mem⟩) ?_
  rintro category _ ⟨rfl, mem⟩
  exact contexts category.terminals (valid category mem)

theorem runOnSuperFrameChange_same (linked : Linked dama.identities dama.terminals dama.lists)
    {waveForms : Nat → Nat × Option FmtDefinition} {fuel : Nat}
    (taken : dama.runOnSuperFrameChange waveForms fuel = some dama') :
    SameTerminals dama dama' ∧ SameRates dama dama' := by
  obtain ⟨legacy, allocated, rfl⟩ := Option.map_eq_some_iff.mp taken
  have changed := (DamaCtrlRcs2Legacy.runOnSuperFrameChange_changes
    (R := fun before after => after.talId = before.talId ∧ after.maxRbdcKbps = before.maxRbdcKbps)
    (fun _ => ⟨rfl, rfl⟩)
    (fun _ _ _ first second => ⟨second.1.trans first.1, second.2.trans first.2⟩)
    (fun terminal carrierId fmt => TerminalContextDamaRcs.reset_maxRbdc _ _)
    (fun _ _ => ⟨rfl, rfl⟩) (fun _ _ => ⟨rfl, rfl⟩) (fun _ _ => ⟨rfl, rfl⟩)
    (fun _ _ => ⟨rfl, rfl⟩) (fun _ _ => ⟨rfl, rfl⟩) allocated).terminals
  have written := forall₂_comp (forall₂_legacy linked) changed
  obtain ⟨same, rates⟩ := @foldl_modifyContext_same dama
    ((dama.categories.flatMap (·.terminals)).zip legacy.terminals) fun pair mem => by
      obtain ⟨before, own, talId, maxRbdc⟩ := List.forall₂_zip written mem
      obtain ⟨record, found, rfl⟩ := Option.map_eq_some_iff.mp own
      rw [identities, maxRbdcs, List.getElem?_map, List.getElem?_map, found, talId, maxRbdc]
      exact ⟨⟨record.currentCategory, rfl⟩, rfl⟩
  have groups := @setCarriersGroups_same (((dama.categories.flatMap (·.terminals)).zip
    legacy.terminals).foldl (fun dama (ref, terminal) => dama.modifyContext ref fun _ => terminal)
      dama) fun i => ((legacy.categories[i]?).map (·.carriersGroups)).getD []
  have stored := same.trans groups
  exact ⟨⟨stored.1, stored.2, stored.3, stored.4, stored.5, stored.6⟩, ⟨rates.1, rates.2⟩⟩

/-! ### The commands of the PEP -/

theorem identities_getElem? {talId : Nat} (linked : Linked dama.identities dama.terminals dama.lists)
    (found : dama.terminals.lookup talId = some ref) : ∃ record, dama.records[ref]? = some record ∧
      record.context.talId = talId ∧
      dama.identities[ref]? = some (talId, record.currentCategory) := by
  obtain ⟨label, refs, identity, -⟩ := linked.indexed talId ref found
  have own := identity
  rw [identities, List.getElem?_map] at own
  obtain ⟨record, found', same⟩ := Option.map_eq_some_iff.mp own
  obtain ⟨rfl, rfl⟩ := Prod.mk.inj same
  exact ⟨record, found', rfl, identity⟩

/-- The change of the maximum RBDC of a terminal goes to the statistic. -/
theorem Booked.setMaxRbdc (booked : dama.Booked) {talId : Nat} {record : TerminalRecord}
    (found : dama.terminals.lookup talId = some ref) (own : dama.records[ref]? = some record)
    (valKbps : Nat) :
    Booked { dama.modifyContext ref (·.setMaxRbdc valKbps) with
      gwRbdcMaxKbps := dama.gwRbdcMaxKbps - record.context.maxRbdcKbps + valKbps } := by
  have same := modifyContext_same dama ref ((·.setMaxRbdc valKbps))
    fun _ _ => rfl
  refine ⟨?_, booked.stNum, ?_⟩
  · show Linked (dama.modifyContext ref (·.setMaxRbdc valKbps)).identities _ _
    rw [same.identities]
    exact booked.linked
  · show dama.gwRbdcMaxKbps - record.context.maxRbdcKbps + valKbps =
      total (rate (dama.modifyContext ref (·.setMaxRbdc valKbps)).maxRbdcs) dama.terminals
    have after : ∀ other, (dama.modifyContext ref (·.setMaxRbdc valKbps)).maxRbdcs[other]? =
        if other = ref then some valKbps else dama.maxRbdcs[other]? := by
      intro other
      simp only [maxRbdcs, modifyContext, List.getElem?_map, List.getElem?_modify]
      by_cases self : other = ref
      · subst self
        simp [own, TerminalContextDamaRcs.setMaxRbdc]
      · simp [self, Ne.symm self]
    have others : total (rate (dama.modifyContext ref (·.setMaxRbdc valKbps)).maxRbdcs)
        (dama.terminals.erase talId) = total (rate dama.maxRbdcs) (dama.terminals.erase talId) := by
      refine total_congr fun key other found' => ?_
      have ne : other ≠ ref := by
        rintro rfl
        have keyNe : key ≠ talId := by
          rintro rfl
          rw [AList.lookup_erase] at found'
          cases found'
        rw [AList.lookup_erase_ne keyNe] at found'
        obtain ⟨record', own', rfl, -⟩ := identities_getElem? booked.linked found'
        obtain ⟨record'', own'', rfl, -⟩ := identities_getElem? booked.linked found
        obtain rfl : record' = record'' := Option.some.inj (own'.symm.trans own'')
        exact keyNe rfl
      rw [rate, after, if_neg ne, rate]
    have before : rate dama.maxRbdcs ref = record.context.maxRbdcKbps := by
      rw [rate, maxRbdcs, List.getElem?_map, own]
      rfl
    have now : rate (dama.modifyContext ref (·.setMaxRbdc valKbps)).maxRbdcs ref = valKbps := by
      rw [rate, after, if_pos rfl]
      rfl
    rw [total_erase _ found, others, now, booked.rbdcMax, total_erase _ found, before]
    omega

theorem applyPepCommand_booked (booked : dama.Booked) {request : PepRequest} {status : Bool}
    (taken : dama.applyPepCommand request = some (status, dama')) :
    SameTerminals dama dama' ∧ dama'.Booked := by
  unfold applyPepCommand at taken
  split at taken
  next =>
    cases taken
    exact ⟨.refl dama, booked⟩
  next ref found =>
    obtain ⟨record, own, rest⟩ := Option.bind_eq_some_iff.mp taken
    obtain ⟨limited, limits, requested⟩ := Option.map_eq_some_iff.mp rest
    -- the CRA
    have cra : ∃ applied record', applied = (if request.cra = 0 then dama
          else dama.modifyContext ref (·.setRequiredCra request.cra)) ∧
        SameTerminals dama applied ∧ applied.Booked ∧ applied.records[ref]? = some record' ∧
        record'.context.maxRbdcKbps = record.context.maxRbdcKbps := by
      by_cases none : request.cra = 0
      · exact ⟨dama, record, by rw [if_pos none], .refl dama, booked, own, rfl⟩
      · have same := modifyContext_same dama ref
          ((·.setRequiredCra request.cra)) fun _ _ => rfl
        have rates := modifyContext_rates dama ref
          ((·.setRequiredCra request.cra)) fun _ _ => rfl
        refine ⟨_, { record with context := record.context.setRequiredCra request.cra },
          (if_neg none).symm, same, booked.of_same same rates, ?_, rfl⟩
        simp [modifyContext, own]
    obtain ⟨applied, record', eq, same, booked', own', rate⟩ := cra
    rw [← eq] at limits
    -- the maximum RBDC
    have max : SameTerminals dama limited ∧ limited.Booked := by
      split at limits
      · cases limits
        exact ⟨same, booked'⟩
      · split at limits
        · cases limits
        · cases limits
          rw [← same.terminals] at found
          rw [← rate]
          have modified := modifyContext_same applied ref
            ((·.setMaxRbdc request.rbdcMax)) fun _ _ => rfl
          exact ⟨same.trans ⟨modified.1, modified.2, modified.3, modified.4, modified.5, modified.6⟩,
            booked'.setMaxRbdc found own' request.rbdcMax⟩
    -- the RBDC
    obtain ⟨-, rfl⟩ := Prod.mk.inj requested
    split
    · exact max
    · have injected := modifyContext_same limited ref
        (dama.injectRbdc request.rbdc) fun _ _ => rfl
      have rates := modifyContext_rates limited ref
        (dama.injectRbdc request.rbdc) fun _ _ => rfl
      exact ⟨max.1.trans injected, max.2.of_same injected rates⟩

/-! ### The logons -/

/-- The terminal uses DAMA: its category is one of the controller. -/
def UsesDama (dama : DamaCtrlRcs2) (talId : Nat) : Prop :=
  ∃ label, dama.affectedCategory talId = some (some label) ∧
    label ∈ dama.categories.map (·.label)

theorem labels_eq (dama : DamaCtrlRcs2) :
    dama.categories.map (·.label) = dama.lists.map Prod.fst := by
  simp [lists, Function.comp_def]

theorem SameTerminals.usesDama (same : SameTerminals dama dama') (talId : Nat) :
    dama'.UsesDama talId ↔ dama.UsesDama talId := by
  rw [UsesDama, UsesDama, labels_eq, labels_eq, same.lists, affectedCategory, affectedCategory,
    same.terminalAffectation, same.defaultCategory]

theorem logOn_booked (booked : dama.Booked) {logon : LogonRequest} {label : String}
    (fresh : logon.mac ∉ dama.terminals) (known : label ∈ dama.categories.map (·.label)) :
    (dama.logOn logon label).Booked := by
  have identities : (dama.logOn logon label).identities =
      dama.identities ++ [(logon.mac, label)] := by
    simp [DamaCtrlRcs2.identities, logOn, createTerminal]
  have lists : (dama.logOn logon label).lists = dama.lists.map fun entry =>
      (entry.1, if entry.1 = label then entry.2 ++ [dama.identities.length] else entry.2) := by
    simp [DamaCtrlRcs2.lists, logOn, addTerminal, DamaCtrlRcs2.identities, Function.comp_def]
  have length : dama.records.length = dama.identities.length := by
    rw [DamaCtrlRcs2.identities, List.length_map]
  have maxRbdcs : (dama.logOn logon label).maxRbdcs = dama.maxRbdcs ++ [logon.maxRbdc] := by
    simp [DamaCtrlRcs2.maxRbdcs, logOn, createTerminal]
  refine ⟨?_, ?_, ?_⟩
  · rw [labels_eq] at known
    rw [identities, lists]
    show Linked _ (dama.terminals.insert logon.mac dama.records.length) _
    rw [length]
    exact booked.linked.add fresh known
  · show dama.gwStNum + 1 = (dama.terminals.insert logon.mac dama.records.length).entries.length
    rw [AList.entries_insert_of_notMem fresh, List.length_cons, booked.stNum]
    rfl
  · show dama.gwRbdcMaxKbps + logon.maxRbdc =
      total _ (dama.terminals.insert logon.mac dama.records.length)
    have own : rate (dama.logOn logon label).maxRbdcs dama.records.length = logon.maxRbdc := by
      rw [rate, maxRbdcs,
        ← (List.length_map _ : (dama.records.map (·.context.maxRbdcKbps)).length = _)]
      exact congrArg _ (by rw [← DamaCtrlRcs2.maxRbdcs, List.getElem?_concat_length]; rfl)
    have others : total (rate (dama.logOn logon label).maxRbdcs) dama.terminals =
        total (rate dama.maxRbdcs) dama.terminals := by
      refine total_congr fun talId ref found => ?_
      obtain ⟨record, object, -⟩ := identities_getElem? booked.linked found
      have bound := (List.getElem?_eq_some_iff.mp object).1
      rw [rate, rate, maxRbdcs, List.getElem?_append_left (by
        rw [DamaCtrlRcs2.maxRbdcs, List.length_map]
        exact bound)]
    rw [total_insert _ fresh, own, others, booked.rbdcMax]
    omega

/-- A logon that is refused changes nothing; one that is accepted adds the terminal if it uses
DAMA. -/
theorem hereIsLogon_booked (booked : dama.Booked) (logon : LogonRequest) :
    (dama.hereIsLogon logon).2.Booked ∧
      (∀ talId, (dama.hereIsLogon logon).2.UsesDama talId ↔ dama.UsesDama talId) ∧
      (∀ talId, talId ∈ (dama.hereIsLogon logon).2.terminals ↔
        talId ∈ dama.terminals ∨ talId = logon.mac ∧ dama.UsesDama logon.mac) ∧
      ((dama.hereIsLogon logon).1 = false ↔
        logon.mac ∉ dama.terminals ∧ dama.affectedCategory logon.mac = none) ∧
      ((dama.hereIsLogon logon).1 = false → (dama.hereIsLogon logon).2 = dama) := by
  unfold hereIsLogon
  split
  next known =>
    refine ⟨booked, fun _ => Iff.rfl, fun talId => ⟨.inl, ?_⟩, ?_, fun _ => rfl⟩
    · rintro (mem | ⟨rfl, -⟩)
      · exact mem
      · exact known
    · exact ⟨fun failed => (nomatch failed), fun unknown => absurd known unknown.1⟩
  next unknown =>
    -- a terminal without category of the controller does not use DAMA
    have unused (absent : ¬ dama.UsesDama logon.mac) (talId : Nat) : talId ∈ dama.terminals ↔
        talId ∈ dama.terminals ∨ talId = logon.mac ∧ dama.UsesDama logon.mac := by
      rw [or_iff_left fun uses => absent uses.2]
    split
    next none =>
      refine ⟨booked, fun _ => Iff.rfl, unused ?_, ?_, fun _ => rfl⟩
      · rintro ⟨label, category, -⟩
        rw [none] at category
        cases category
      · exact ⟨fun _ => ⟨unknown, none⟩, fun _ => rfl⟩
    next noDama =>
      refine ⟨booked, fun _ => Iff.rfl, unused ?_, ?_, fun _ => rfl⟩
      · rintro ⟨label, category, -⟩
        rw [noDama] at category
        cases category
      · refine ⟨fun failed => (nomatch failed), fun missing => ?_⟩
        rw [noDama] at missing
        exact nomatch missing.2
    next label affected =>
      have accepted : true = false ↔
          logon.mac ∉ dama.terminals ∧ dama.affectedCategory logon.mac = none := by
        rw [affected]
        simp
      split
      next known =>
        refine ⟨logOn_booked booked unknown known, fun talId => ?_, fun talId => ?_, accepted,
          fun failed => nomatch failed⟩
        · have labels : (dama.logOn logon label).categories.map (·.label) =
              dama.categories.map (·.label) := by
            simp [logOn, addTerminal, Function.comp_def]
          rw [UsesDama, UsesDama, labels]
          rfl
        · change talId ∈ dama.terminals.insert logon.mac _ ↔ _
          rw [AList.mem_insert, or_comm, and_iff_left]
          exact ⟨label, affected, known⟩
      next absent =>
        refine ⟨booked, fun _ => Iff.rfl, unused ?_, accepted, fun _ => rfl⟩
        rintro ⟨label', category, known⟩
        rw [affected] at category
        cases category
        exact absent known

/-! ### The logoffs -/

theorem hasTerminal_eq (talId : Nat) : dama.hasTerminal talId =
    fun ref => (dama.identities[ref]?).any (·.1 = talId) := by
  funext ref
  rw [hasTerminal, identities, List.getElem?_map, Option.any_map]

/-- The logoff of a terminal of the map succeeds. -/
theorem hereIsLogoff_booked (booked : dama.Booked) {talId : Nat} {status : Bool}
    (taken : dama.hereIsLogoff talId = some (status, dama')) :
    (status = false ∧ dama' = dama ∧ talId ∉ dama.terminals) ∨
      (status = true ∧ dama'.Booked ∧ dama'.terminals = dama.terminals.erase talId ∧
        ∀ talId, dama'.UsesDama talId ↔ dama.UsesDama talId) := by
  unfold hereIsLogoff at taken
  split at taken
  next missing =>
    cases taken
    exact .inl ⟨rfl, rfl, AList.lookup_eq_none.mp missing⟩
  next ref found =>
    right
    obtain ⟨record, own, removed⟩ := Option.map_eq_some_iff.mp taken
    obtain ⟨record', own', rfl, identity⟩ := identities_getElem? booked.linked found
    obtain rfl : record = record' := Option.some.inj (own.symm.trans own')
    obtain ⟨removal, rfl⟩ := Prod.mk.inj removed
    have lists : DamaCtrlRcs2.lists { dama with
        gwStNum := dama.gwStNum - 1
        gwRbdcMaxKbps := dama.gwRbdcMaxKbps - record.context.maxRbdcKbps
        terminals := dama.terminals.erase record.context.talId
        categories := dama.categories.map fun category =>
          dama.removeTerminal category record.currentCategory record.context.talId } =
        dama.lists.map fun entry => (entry.1, if entry.1 = record.currentCategory then
          entry.2.eraseP fun ref => (dama.identities[ref]?).any (·.1 = record.context.talId)
          else entry.2) := by
      simp [DamaCtrlRcs2.lists, removeTerminal, hasTerminal_eq, Function.comp_def]
    have weight : rate dama.maxRbdcs ref = record.context.maxRbdcKbps := by
      rw [rate, maxRbdcs, List.getElem?_map, own]
      rfl
    refine ⟨?_, ⟨?_, ?_, ?_⟩, rfl, ?_⟩
    · rw [← removal]
      cases category : dama.categories.find? (·.label = record.currentCategory) with
      | none => rfl
      | some category' =>
          have label : category'.label = record.currentCategory := by
            simpa using List.find?_some category
          have row : (record.currentCategory, category'.terminals) ∈ dama.lists :=
            List.mem_map.mpr ⟨category', List.mem_of_find?_eq_some category, by rw [label]⟩
          rw [Option.all_some, hasTerminal_eq]
          exact booked.linked.any_of_lookup found identity row
    · rw [lists]
      exact booked.linked.remove found identity
    · show dama.gwStNum - 1 = (dama.terminals.erase record.context.talId).entries.length
      have length := length_erase found
      rw [booked.stNum]
      omega
    · show dama.gwRbdcMaxKbps - record.context.maxRbdcKbps =
        total (rate dama.maxRbdcs) (dama.terminals.erase record.context.talId)
      rw [booked.rbdcMax, total_erase _ found, weight]
      omega
    · intro talId
      rw [UsesDama, UsesDama, labels_eq, labels_eq, lists, List.map_map]
      rfl

end DamaCtrlRcs2

/-! ### Runs -/

/-- The controller with the status of its last command and the terminals whose last logon or
logoff accepted was a logon. -/
structure DamaWatch where
  dama : DamaCtrlRcs2
  status : Bool
  loggedOn : Nat → Bool

namespace DamaWatch

variable {isGw : Nat → Bool} {watch watch' : DamaWatch}

/-- A controller without terminals. -/
def start (dama : DamaCtrlRcs2) : DamaWatch := ⟨dama, true, fun _ => false⟩

def next (watch : DamaWatch) (status : Bool) (dama : DamaCtrlRcs2) : DamaCommand → DamaWatch
  | .logon request =>
      ⟨dama, status, Function.update watch.loggedOn request.mac
        (watch.loggedOn request.mac || status)⟩
  | .logoff talId =>
      ⟨dama, status, Function.update watch.loggedOn talId (watch.loggedOn talId && !status)⟩
  | _ => ⟨dama, status, watch.loggedOn⟩

def step (isGw : Nat → Bool) (watch : DamaWatch) (command : DamaCommand) : Option DamaWatch :=
  (watch.dama.receive isGw command).map fun (status, dama) => watch.next status dama command

/-- The identifiers of the terminals that a category lists. -/
def talIds (dama : DamaCtrlRcs2) (category : CategoryTerminals) : List Nat :=
  (dama.contexts category.terminals).map (·.talId)

/-- The terminals logged on that use DAMA are in the map and in the list of exactly one
category, once; no other one is listed, and the statistics follow the map. -/
structure Bookkept (watch : DamaWatch) : Prop where
  mapped : ∀ talId, talId ∈ watch.dama.terminals ↔
    watch.loggedOn talId = true ∧ watch.dama.UsesDama talId
  listed : ∀ talId, watch.loggedOn talId = true → watch.dama.UsesDama talId →
    ∃! label, ∃ category ∈ watch.dama.categories,
      category.label = label ∧ talId ∈ talIds watch.dama category
  once : ∀ category ∈ watch.dama.categories, (talIds watch.dama category).Nodup
  loggedOn : ∀ category ∈ watch.dama.categories, ∀ talId ∈ talIds watch.dama category,
    watch.loggedOn talId = true
  stNum : watch.dama.gwStNum = watch.dama.terminals.entries.length
  rbdcMax : watch.dama.gwRbdcMaxKbps =
    ((watch.dama.contexts (watch.dama.terminals.entries.map (·.2))).map
      (·.maxRbdcKbps)).sum

/-- A logon or a logoff that fails changes nothing. -/
def Atomic (watch : DamaWatch) (command : DamaCommand) (watch' : DamaWatch) : Prop :=
  match command with
  | .logon _ | .logoff _ => watch'.status = false → watch'.dama = watch.dama
  | _ => True

/-- The terminals of the map are the ones logged on that use DAMA. -/
def Mapped (watch : DamaWatch) : Prop :=
  ∀ talId, talId ∈ watch.dama.terminals ↔
    watch.loggedOn talId = true ∧ watch.dama.UsesDama talId

theorem talIds_eq (dama : DamaCtrlRcs2) (category : CategoryTerminals) :
    talIds dama category =
      category.terminals.filterMap fun ref => (dama.identities[ref]?).map Prod.fst := by
  simp [talIds, DamaCtrlRcs2.contexts, DamaCtrlRcs2.identities, List.map_filterMap,
    Function.comp_def]

theorem mem_talIds {dama : DamaCtrlRcs2} {category : CategoryTerminals} {talId : Nat} :
    talId ∈ talIds dama category ↔
      ∃ ref ∈ category.terminals, ∃ label, dama.identities[ref]? = some (talId, label) := by
  rw [talIds_eq, List.mem_filterMap]
  refine exists_congr fun ref => and_congr_right fun _ => ?_
  rw [Option.map_eq_some_iff]
  constructor
  · rintro ⟨⟨_, label⟩, found, rfl⟩
    exact ⟨label, found⟩
  · rintro ⟨label, found⟩
    exact ⟨_, found, rfl⟩

theorem sum_maxRbdc {dama : DamaCtrlRcs2} (refs : List Nat)
    (valid : ∀ ref ∈ refs, ∃ record, dama.records[ref]? = some record) :
    (refs.map (DamaCtrlRcs2.rate dama.maxRbdcs)).sum =
      ((dama.contexts refs).map (·.maxRbdcKbps)).sum := by
  induction refs with
  | nil => rfl
  | cons ref refs ih =>
      obtain ⟨record, found⟩ := valid ref List.mem_cons_self
      have rest := ih fun ref mem => valid ref (List.mem_cons_of_mem _ mem)
      have weight : DamaCtrlRcs2.rate dama.maxRbdcs ref = record.context.maxRbdcKbps := by
        rw [DamaCtrlRcs2.rate, DamaCtrlRcs2.maxRbdcs, List.getElem?_map, found]
        rfl
      have contexts : dama.contexts (ref :: refs) = record.context :: dama.contexts refs := by
        simp [DamaCtrlRcs2.contexts, found]
      rw [List.map_cons, List.sum_cons, rest, contexts, List.map_cons, List.sum_cons, weight,
        Nat.cast_add]

theorem bookkept_of_booked (booked : watch.dama.Booked) (mapped : watch.Mapped) :
    watch.Bookkept where
  mapped := mapped
  listed := by
    intro talId logged uses
    obtain ⟨label, ⟨refs, row, own⟩, unique⟩ :=
      booked.linked.existsUnique ((mapped talId).mpr ⟨logged, uses⟩)
    obtain ⟨category, mem, same⟩ := List.mem_map.mp row
    obtain ⟨rfl, rfl⟩ := Prod.mk.inj same
    refine ⟨category.label, ⟨category, mem, rfl, mem_talIds.mpr own⟩, ?_⟩
    rintro _ ⟨other, mem', rfl, on⟩
    exact unique other.label
      ⟨other.terminals, List.mem_map.mpr ⟨other, mem', rfl⟩, mem_talIds.mp on⟩
  once := by
    intro category mem
    rw [talIds_eq]
    exact (booked.linked.keys (List.mem_map.mpr ⟨category, mem, rfl⟩)).2
  loggedOn := by
    intro category mem talId on
    rw [talIds_eq] at on
    have known := (booked.linked.keys (List.mem_map.mpr ⟨category, mem, rfl⟩)).1 talId on
    exact ((mapped talId).mp known).1
  stNum := booked.stNum
  rbdcMax := by
    rw [booked.rbdcMax, ← sum_maxRbdc, total, List.map_map]
    · rfl
    · intro ref mem
      obtain ⟨⟨talId, _⟩, entry, rfl⟩ := List.mem_map.mp mem
      obtain ⟨record, found, -⟩ := DamaCtrlRcs2.identities_getElem? booked.linked
        (AList.mem_lookup_iff.mpr entry)
      exact ⟨record, found⟩

theorem mapped_of_same (mapped : watch.Mapped) {dama : DamaCtrlRcs2} {status : Bool}
    (same : DamaCtrlRcs2.SameTerminals watch.dama dama) :
    Mapped ⟨dama, status, watch.loggedOn⟩ := by
  intro talId
  show talId ∈ dama.terminals ↔ _
  rw [same.terminals, same.usesDama]
  exact mapped talId

/-! ### One command -/

theorem logon_kept (booked : watch.dama.Booked) (mapped : watch.Mapped) {request : LogonRequest}
    (taken : watch.step isGw (.logon request) = some watch') :
    watch'.dama.Booked ∧ watch'.Mapped ∧ watch.Atomic (.logon request) watch' := by
  obtain ⟨⟨status, dama⟩, received, rfl⟩ := Option.map_eq_some_iff.mp taken
  obtain ⟨booked', uses, added, refused, kept⟩ :=
    DamaCtrlRcs2.hereIsLogon_booked booked request
  rw [Option.some.inj received] at booked' uses added refused kept
  dsimp only at booked' uses added refused kept
  refine ⟨booked', fun talId => ?_, kept⟩
  change talId ∈ dama.terminals ↔ _
  rw [added, mapped]
  simp only [next]
  rw [uses]
  by_cases same : talId = request.mac
  · subst same
    rw [Function.update_self, Bool.or_eq_true, or_and_right]
    refine or_congr_right ⟨fun own => ⟨?_, own.2⟩, fun own => ⟨rfl, own.2⟩⟩
    by_contra failed
    obtain ⟨-, none⟩ := refused.mp (Bool.eq_false_of_not_eq_true failed)
    obtain ⟨label, category, -⟩ := own.2
    rw [none] at category
    cases category
  · rw [Function.update_of_ne same, or_iff_left fun own => same own.1]

theorem logoff_kept (booked : watch.dama.Booked) (mapped : watch.Mapped) {talId : Nat}
    (taken : watch.step isGw (.logoff talId) = some watch') :
    watch'.dama.Booked ∧ watch'.Mapped ∧ watch.Atomic (.logoff talId) watch' := by
  obtain ⟨⟨status, dama⟩, received, rfl⟩ := Option.map_eq_some_iff.mp taken
  rcases DamaCtrlRcs2.hereIsLogoff_booked booked received with
    ⟨rfl, rfl, -⟩ | ⟨rfl, booked', erased, uses⟩
  · refine ⟨booked, fun other => ?_, fun _ => rfl⟩
    simp only [next, Bool.not_false, Bool.and_true, Function.update_eq_self]
    exact mapped other
  · refine ⟨booked', fun other => ?_, fun failed => nomatch failed⟩
    show other ∈ dama.terminals ↔ _
    rw [erased, AList.mem_erase]
    by_cases same : other = talId
    · subst same
      simp [next]
    · simp only [next, Function.update_of_ne same]
      rw [uses, ← mapped other]
      exact and_iff_right same

theorem step_kept (booked : watch.dama.Booked) (mapped : watch.Mapped) {command : DamaCommand}
    (taken : watch.step isGw command = some watch') :
    watch'.dama.Booked ∧ watch'.Mapped ∧ watch.Atomic command watch' := by
  cases command with
  | logon request => exact logon_kept booked mapped taken
  | logoff talId => exact logoff_kept booked mapped taken
  | sac talId requests =>
      obtain ⟨⟨status, dama⟩, received, rfl⟩ := Option.map_eq_some_iff.mp taken
      obtain ⟨same, rates⟩ := DamaCtrlRcs2.hereIsSAC_same received
      exact ⟨booked.of_same same rates, mapped_of_same mapped same, trivial⟩
  | pep request =>
      obtain ⟨⟨status, dama⟩, received, rfl⟩ := Option.map_eq_some_iff.mp taken
      obtain ⟨same, booked'⟩ := DamaCtrlRcs2.applyPepCommand_booked booked received
      exact ⟨booked', mapped_of_same mapped same, trivial⟩
  | svno carriersGroups =>
      obtain ⟨⟨status, dama⟩, received, rfl⟩ := Option.map_eq_some_iff.mp taken
      cases received
      have same := @DamaCtrlRcs2.setCarriersGroups_same watch.dama carriersGroups
      exact ⟨booked.of_same same ⟨rfl, rfl⟩, mapped_of_same mapped same, trivial⟩
  | superframe waveForms fuel =>
      obtain ⟨⟨status, dama⟩, received, rfl⟩ := Option.map_eq_some_iff.mp taken
      obtain ⟨dama', allocated, same⟩ := Option.map_eq_some_iff.mp received
      cases same
      obtain ⟨same, rates⟩ := DamaCtrlRcs2.runOnSuperFrameChange_same booked.linked allocated
      exact ⟨booked.of_same same rates, mapped_of_same mapped same, trivial⟩

/-- What every state of a run keeps, from a controller without terminals. -/
theorem allStates_booked (isGw : Nat → Bool) {dama : DamaCtrlRcs2}
    (labels : (dama.categories.map (·.label)).Nodup) (noTerminal : dama.terminals = ∅)
    (noList : ∀ category ∈ dama.categories, category.terminals = [])
    (noCount : dama.gwStNum = 0 ∧ dama.gwRbdcMaxKbps = 0) (commands : List DamaCommand) :
    AllStates (step isGw) (fun watch => watch.dama.Booked ∧ watch.Mapped) (start dama)
      commands := by
  have booked := DamaCtrlRcs2.Fresh.booked ⟨labels, noTerminal, noList, noCount⟩
  have mapped : Mapped (start dama) := by
    intro talId
    show talId ∈ dama.terminals ↔ _
    rw [noTerminal]
    refine ⟨fun mem => absurd mem (AList.notMem_empty talId), fun logged => ?_⟩
    exact nomatch logged.1
  refine allStates_of_step ⟨booked, mapped⟩ ?_
  rintro watch command watch' ⟨booked, mapped⟩ taken
  obtain ⟨booked', mapped', -⟩ := step_kept booked mapped taken
  exact ⟨booked', mapped'⟩

/-- **Terminal bookkeeping.** From a controller without terminals, every sequence of commands
keeps the map, the lists of the categories and the statistics in agreement with the logons
accepted, and the logons and the logoffs that fail change nothing. -/
theorem bookkept (isGw : Nat → Bool) (dama : DamaCtrlRcs2)
    (labels : (dama.categories.map (·.label)).Nodup) (noTerminal : dama.terminals = ∅)
    (noList : ∀ category ∈ dama.categories, category.terminals = [])
    (noCount : dama.gwStNum = 0 ∧ dama.gwRbdcMaxKbps = 0) (commands : List DamaCommand) :
    AllStates (step isGw) Bookkept (start dama) commands ∧
      AllMoves (step isGw) Atomic (start dama) commands := by
  have states := allStates_booked isGw labels noTerminal noList noCount commands
  refine ⟨states.mono fun watch good => bookkept_of_booked good.1 good.2,
    allMoves_of_allStates states ?_⟩
  rintro watch command watch' ⟨booked, mapped⟩ taken
  exact (step_kept booked mapped taken).2.2

/-! ### A terminal without DAMA -/

/-- The terminals use the only category, except the terminal 5, which does not use DAMA. -/
def standardDama : DamaCtrlRcs2 where
  ctrl := ⟨⟨53, 536, 2⟩, 0, 0, fun _ => 0, fun _ _ => 0⟩
  enableRbdc := false
  enableVbdc := false
  rbdcTimeoutSf := 2
  terminalAffectation := fun talId => if talId = 5 then some none else none
  defaultCategory := some "Standard"
  records := []
  terminals := ∅
  categories := [⟨"Standard", [], [DamaCtrlRcs2Legacy.wideCarriers]⟩]
  gwStNum := 0
  gwRbdcMaxKbps := 0

/-- A terminal logs on, has its maximum RBDC changed and logs off twice. -/
theorem standardDama_bookkept :
    AllStates (step fun _ => false) Bookkept (start standardDama)
        [.logon ⟨1, 100, 2000, 50⟩, .pep ⟨1, 0, 0, 3000⟩, .logoff 1, .logoff 1] ∧
      AllMoves (step fun _ => false) Atomic (start standardDama)
        [.logon ⟨1, 100, 2000, 50⟩, .pep ⟨1, 0, 0, 3000⟩, .logoff 1, .logoff 1] :=
  bookkept (fun _ => false) standardDama (List.nodup_singleton _) rfl
    (fun category mem => by rw [List.mem_singleton.mp mem]) ⟨rfl, rfl⟩ _

/-- The terminals whose logon was accepted are in the map. -/
def Registered (watch : DamaWatch) : Prop :=
  ∀ talId, watch.loggedOn talId = true → talId ∈ watch.dama.terminals

/-- The logon of a terminal that does not use DAMA is accepted, without adding it. -/
theorem standardDama_not_registered :
    ¬ AllStates (step fun _ => false) Registered (start standardDama)
      [.logon ⟨5, 100, 2000, 50⟩] := by
  intro states
  have registered := (states.2 _ rfl).head 5 (by decide)
  exact absurd registered (by decide)

end DamaWatch

end OpenSand
