import OpenSand.Dama.Bookkeeping
import OpenSand.Lib.Run
import OpenSand.Spot.GatewaySpot

/-!
The terminals of a gateway spot after logons and logoffs.

Five structures tell which terminals are logged on and how. A logon adds what is missing but
never changes the kind of a terminal, and a logoff leaves the list of the SCPC terminals, so
the structures agree exactly as long as no terminal changes its kind, no SCPC terminal logs
off, and no first logon is refused once the lists were changed.
-/

namespace OpenSand

open OpenSand.Run

/-- The table of the input link of a terminal. -/
def modcodDefOf (isScpc : Bool) : ModcodDef := if isScpc then .s2 else .rcs2

namespace GatewaySpot

variable {config : SpotConfig} {spot spot' : GatewaySpot} {mac : Nat} {isScpc : Bool}

def acceptedBySaloha (spot : GatewaySpot) (mac : Nat) : Bool :=
  spot.saloha.all fun saloha => (saloha.addTerminal mac).1

/-! ### What the structures tell of a terminal -/

/-- The table of the input link, the presence in the output list and in the SCPC list, and the
presence of a context, when there is a DAMA controller. -/
structure Seen where
  input : Option ModcodDef
  output : Bool
  scpc : Bool
  context : Option Bool

def seen (spot : GatewaySpot) (id : Nat) : Seen where
  input := (spot.inputSts.sts.lookup id).map (·.modcodDef)
  output := spot.outputSts.isStPresent id
  scpc := id ∈ spot.downwardScpc
  context := spot.damaCtrl.map fun dama => id ∈ dama.terminals

/-- The five structures agree with the last logons accepted: SCPC, not SCPC, or none since the
last logoff. -/
structure Members (spot : GatewaySpot) (loggedOn : Nat → Option Bool) : Prop where
  input : ∀ id, spot.inputSts.isStPresent id = (loggedOn id).isSome
  output : ∀ id, spot.outputSts.isStPresent id = (loggedOn id).isSome
  scpc : ∀ id, id ∈ spot.downwardScpc ↔ loggedOn id = some true
  table : ∀ id st, spot.inputSts.sts.lookup id = some st →
    some st.modcodDef = (loggedOn id).map modcodDefOf
  contexts : ∀ dama, spot.damaCtrl = some dama →
    ∀ id, id ∈ dama.terminals ↔ loggedOn id = some false

/-- What is told of a terminal whose last logon was of a kind. -/
def Seen.Fits (seen : Seen) (kind : Option Bool) : Prop :=
  seen.input = kind.map modcodDefOf ∧ seen.output = kind.isSome ∧
    (seen.scpc = true ↔ kind = some true) ∧
    ∀ has, seen.context = some has → (has = true ↔ kind = some false)

theorem members_iff {loggedOn : Nat → Option Bool} :
    spot.Members loggedOn ↔ ∀ id, (spot.seen id).Fits (loggedOn id) := by
  constructor
  · intro members id
    refine ⟨?_, members.output id, ?_, ?_⟩
    · have present := members.input id
      rw [StFmtSimuMap.isStPresent_eq] at present
      change (spot.inputSts.sts.lookup id).map _ = _
      cases found : spot.inputSts.sts.lookup id with
      | none =>
          rw [found] at present
          rw [Option.isSome_eq_false_iff.mp present.symm |> Option.isNone_iff_eq_none.mp]
          rfl
      | some st => exact members.table id st found
    · simp [seen, members.scpc id]
    · intro has found
      obtain ⟨dama, controller, rfl⟩ := Option.map_eq_some_iff.mp found
      simp [members.contexts dama controller id]
  · intro fits
    refine ⟨fun id => ?_, fun id => (fits id).2.1, fun id => ?_, fun id st found => ?_, ?_⟩
    · have input := congrArg Option.isSome (fits id).1
      rw [StFmtSimuMap.isStPresent_eq]
      simpa [seen] using input
    · simpa [seen] using (fits id).2.2.1
    · have input := (fits id).1
      rwa [seen, found] at input
    · intro dama controller id
      have context := (fits id).2.2.2 (decide (id ∈ dama.terminals))
      rw [seen, controller] at context
      simpa using context rfl

/-! ### What a handler changes -/

theorem onRcvLogonReq_of_gw (gw : config.isGw mac = true ∨ mac = config.macId) :
    spot.onRcvLogonReq config mac isScpc = (false, spot) := by
  unfold onRcvLogonReq
  rw [if_pos (by simpa using gw)]

/-- A terminal that was not in the lists is added to both. -/
structure LoggedOn (config : SpotConfig) (mac : Nat) (isScpc : Bool) (spot after : GatewaySpot) :
    Prop where
  inputSts : after.inputSts = if spot.inputSts.isStPresent mac then spot.inputSts else
    spot.inputSts.addTerminal mac (config.tables (modcodDefOf isScpc)).getMaxId
      (modcodDefOf isScpc)
  outputSts : after.outputSts = if spot.outputSts.isStPresent mac then spot.outputSts else
    spot.outputSts.addTerminal mac (config.tables .s2).getMaxId .s2
  downwardScpc : after.downwardScpc = spot.downwardScpc
  damaCtrl : after.damaCtrl = spot.damaCtrl

theorem outputLogon_spec (agree : spot.inputSts.isStPresent mac = spot.outputSts.isStPresent mac) :
    spot.outputLogon config mac = { spot with
      outputSts := if spot.outputSts.isStPresent mac then spot.outputSts else
        spot.outputSts.addTerminal mac (config.tables .s2).getMaxId .s2 } := by
  unfold outputLogon isRegistered
  rw [agree, Bool.and_self]
  split
  · rfl
  · rfl

/-- The output list has the terminal by now, so the input list alone counts. -/
theorem inputLogon_spec (present : spot.outputSts.isStPresent mac = true) :
    spot.inputLogon config mac isScpc = { spot with
      inputSts := if spot.inputSts.isStPresent mac then spot.inputSts else
        spot.inputSts.addTerminal mac (config.tables (modcodDefOf isScpc)).getMaxId
          (modcodDefOf isScpc)
      upwardScpc := if isScpc then spot.upwardScpc ++ [mac] else spot.upwardScpc } := by
  unfold inputLogon isRegistered
  dsimp only
  rw [present, Bool.and_true]
  cases isScpc <;> cases spot.inputSts.isStPresent mac <;> rfl

theorem salohaLogon_spec (spot : GatewaySpot) (mac : Nat) :
    (spot.salohaLogon mac).1 = spot.acceptedBySaloha mac ∧
      ∃ saloha, (spot.salohaLogon mac).2 = { spot with saloha := saloha } := by
  unfold salohaLogon acceptedBySaloha
  cases spot.saloha with
  | none => exact ⟨rfl, spot.saloha, rfl⟩
  | some saloha => exact ⟨rfl, _, rfl⟩

theorem onRcvLogonReq_spec (terminal : ¬ (config.isGw mac = true ∨ mac = config.macId))
    (agree : spot.inputSts.isStPresent mac = spot.outputSts.isStPresent mac) :
    (spot.onRcvLogonReq config mac isScpc).1 = spot.acceptedBySaloha mac ∧
      LoggedOn config mac isScpc spot (spot.onRcvLogonReq config mac isScpc).2 := by
  unfold onRcvLogonReq
  rw [if_neg (by simpa using terminal), outputLogon_spec agree]
  have present : StFmtSimuMap.isStPresent (if spot.outputSts.isStPresent mac then spot.outputSts
      else spot.outputSts.addTerminal mac (config.tables .s2).getMaxId .s2) mac = true := by
    split
    next here => exact here
    next => rw [StFmtSimuMap.isStPresent_eq, StFmtSimuMap.addTerminal_lookup, if_pos rfl]; rfl
  rw [inputLogon_spec present]
  obtain ⟨accepted, saloha, after⟩ :=
    salohaLogon_spec { spot with inputSts := _, outputSts := _, upwardScpc := _ } mac
  rw [accepted, after]
  exact ⟨rfl, rfl, rfl, rfl, rfl⟩

/-- What is told of a terminal once the upward channel accepted its logon. -/
theorem LoggedOn.seen_self (logged : LoggedOn config mac isScpc spot spot') :
    spot'.seen mac = { spot.seen mac with
      input := (spot.seen mac).input.or (some (modcodDefOf isScpc))
      output := true } := by
  have input : spot'.inputSts.sts.lookup mac = (spot.inputSts.sts.lookup mac).or
      (some (.new (config.tables (modcodDefOf isScpc)).getMaxId (modcodDefOf isScpc))) := by
    rw [logged.inputSts, StFmtSimuMap.isStPresent_eq]
    cases found : spot.inputSts.sts.lookup mac with
    | none => exact (StFmtSimuMap.addTerminal_lookup _ _ _ _).trans (if_pos rfl)
    | some st => exact found
  have output : spot'.outputSts.isStPresent mac = true := by
    rw [logged.outputSts]
    split
    next here => exact here
    next => rw [StFmtSimuMap.isStPresent_eq, StFmtSimuMap.addTerminal_lookup, if_pos rfl]; rfl
  unfold seen
  rw [input, output, logged.downwardScpc, logged.damaCtrl]
  cases spot.inputSts.sts.lookup mac with
  | none => rfl
  | some st => rfl

theorem LoggedOn.seen_of_ne (logged : LoggedOn config mac isScpc spot spot') {id : Nat}
    (ne : id ≠ mac) : spot'.seen id = spot.seen id := by
  have input : spot'.inputSts.sts.lookup id = spot.inputSts.sts.lookup id := by
    rw [logged.inputSts]
    split
    · rfl
    · rw [StFmtSimuMap.addTerminal_lookup, if_neg ne]
  have output : spot'.outputSts.isStPresent id = spot.outputSts.isStPresent id := by
    rw [logged.outputSts]
    split
    · rfl
    · rw [StFmtSimuMap.isStPresent_eq, StFmtSimuMap.isStPresent_eq,
        StFmtSimuMap.addTerminal_lookup, if_neg ne]
  unfold seen
  rw [input, output, logged.downwardScpc, logged.damaCtrl]

/-- The DAMA contexts are kept as the controller keeps them. -/
def Booked (spot : GatewaySpot) : Prop := ∀ dama, spot.damaCtrl = some dama → dama.Booked

/-- The DAMA controller refuses the terminals without category. -/
def RefusedByDama (spot : GatewaySpot) (mac : Nat) : Prop :=
  ∃ dama, spot.damaCtrl = some dama ∧ mac ∉ dama.terminals ∧ dama.affectedCategory mac = none

def UsesDama (spot : GatewaySpot) (mac : Nat) : Prop :=
  ∀ dama, spot.damaCtrl = some dama → dama.UsesDama mac

theorem handleLogonReq_scpc (request : LogonRequest) (id : Nat) :
    (spot.handleLogonReq request true).2.seen id = { spot.seen id with
      scpc := (spot.seen id).scpc || id = request.mac } := by
  unfold seen handleLogonReq
  simp

/-- What the DAMA controller makes of a logon. -/
structure DamaLogon (mac : Nat) (spot : GatewaySpot) (status : Bool) (after : GatewaySpot) :
    Prop where
  booked : after.Booked
  refused : status = false ↔ spot.RefusedByDama mac
  kept : status = false → after = spot
  others : ∀ id, id ≠ mac → after.seen id = spot.seen id
  context : ∀ has, (after.seen mac).context = some has →
    (has = true ↔ (spot.seen mac).context = some true ∨ spot.UsesDama mac)
  rest : after.seen mac = { spot.seen mac with context := (after.seen mac).context }
  controller : (after.seen mac).context.isSome = (spot.seen mac).context.isSome

theorem handleLogonReq_other (booked : spot.Booked) (request : LogonRequest) :
    DamaLogon request.mac spot (spot.handleLogonReq request false).1
      (spot.handleLogonReq request false).2 := by
  unfold handleLogonReq
  rw [if_neg Bool.false_ne_true]
  cases controller : spot.damaCtrl with
  | none =>
      have noContext : (spot.seen request.mac).context = none := by
        rw [seen, controller]
        rfl
      refine ⟨booked, ⟨fun failed => (nomatch failed), ?_⟩, fun _ => rfl, fun _ _ => rfl, ?_, rfl, rfl⟩
      · rintro ⟨dama, found, -⟩
        rw [controller] at found
        cases found
      · intro has found
        rw [noContext] at found
        cases found
  | some dama =>
      obtain ⟨booked', uses, added, refused, kept⟩ :=
        DamaCtrlRcs2.hereIsLogon_booked (booked dama controller) request
      dsimp only
      have context (id : Nat) : (spot.seen id).context = some (decide (id ∈ dama.terminals)) := by
        rw [seen, controller]
        rfl
      refine ⟨?_, ?_, ?_, ?_, ?_, rfl, ?_⟩
      · intro dama' found
        cases found
        exact booked'
      · rw [refused]
        constructor
        · rintro ⟨missing, none⟩
          exact ⟨dama, controller, missing, none⟩
        · rintro ⟨dama', found, missing, none⟩
          rw [controller] at found
          cases found
          exact ⟨missing, none⟩
      · intro failed
        rw [kept failed, ← controller]
      · intro id ne
        have same : id ∈ (dama.hereIsLogon request).2.terminals ↔ id ∈ dama.terminals := by
          rw [added, or_iff_left fun own => ne own.1]
        unfold seen
        rw [controller]
        simp [same]
      · intro has found
        rw [context]
        cases found
        rw [decide_eq_true_eq, added, Option.some.injEq, decide_eq_true_eq]
        refine or_congr_right ⟨fun own dama' found => ?_, fun uses => ⟨rfl, uses dama controller⟩⟩
        rw [controller] at found
        cases found
        exact own.2
      · rw [context]
        rfl

/-! ### Logons and logoffs -/

/-- The condition of a step: the logon of a terminal that is logged on keeps its kind, unless it
is refused; a first logon is accepted by Slotted Aloha and, without SCPC, by DAMA; and the
terminal that logs off is not SCPC. -/
def KeepsMembers (config : SpotConfig) (loggedOn : Nat → Option Bool) (spot : GatewaySpot) :
    SpotMessage → Prop
  | .logon request isScpc =>
      config.isGw request.mac = true ∨ request.mac = config.macId ∨
        match loggedOn request.mac with
        | some kind => kind = isScpc ∨ spot.acceptedBySaloha request.mac = false ∨
            isScpc = false ∧ spot.RefusedByDama request.mac
        | none => spot.acceptedBySaloha request.mac = true ∧
            (isScpc = false → spot.UsesDama request.mac)
  | .logoff mac => loggedOn mac ≠ some true

/-- The last logon accepted of each terminal, after a message. -/
def nextLoggedOn (loggedOn : Nat → Option Bool) (status : Bool) : SpotMessage → Nat → Option Bool
  | .logon request isScpc =>
      if status then Function.update loggedOn request.mac (some isScpc) else loggedOn
  | .logoff mac => if status then Function.update loggedOn mac none else loggedOn

variable {loggedOn : Nat → Option Bool}

/-- Only the terminal of the message counts when nothing else is told of the others. -/
theorem members_update_iff (members : spot.Members loggedOn)
    (others : ∀ id, id ≠ mac → spot'.seen id = spot.seen id) (kind : Option Bool) :
    spot'.Members (Function.update loggedOn mac kind) ↔ (spot'.seen mac).Fits kind := by
  rw [members_iff]
  constructor
  · intro fits
    have own := fits mac
    rwa [Function.update_self] at own
  · intro own id
    by_cases same : id = mac
    · subst same
      rwa [Function.update_self]
    · rw [Function.update_of_ne same, others id same]
      exact members_iff.mp members id

theorem members_same_iff (members : spot.Members loggedOn)
    (others : ∀ id, id ≠ mac → spot'.seen id = spot.seen id) :
    spot'.Members loggedOn ↔ (spot'.seen mac).Fits (loggedOn mac) := by
  have update := members_update_iff members others (loggedOn mac)
  rwa [Function.update_eq_self] at update

/-- The logon of a terminal that is logged on changes nothing in the lists. -/
theorem LoggedOn.seen_of_known (logged : LoggedOn config mac isScpc spot spot')
    (members : spot.Members loggedOn) {kind : Bool} (known : loggedOn mac = some kind) (id : Nat) :
    spot'.seen id = spot.seen id := by
  by_cases same : id = mac
  · subst same
    obtain ⟨input, output, -⟩ := members_iff.mp members id
    rw [known, Option.map_some] at input
    rw [known, Option.isSome_some] at output
    rw [logged.seen_self, input, Option.some_or, ← input, ← output]
  · exact logged.seen_of_ne same

/-- What is told of a terminal that was not logged on, after the upward channel. -/
theorem LoggedOn.seen_of_fresh (logged : LoggedOn config mac isScpc spot spot')
    (members : spot.Members loggedOn) (fresh : loggedOn mac = none) :
    spot'.seen mac = ⟨some (modcodDefOf isScpc), true, false, (spot.seen mac).context⟩ ∧
      (spot.seen mac).context ≠ some true := by
  obtain ⟨input, output, scpc, context⟩ := members_iff.mp members mac
  rw [fresh] at input scpc context
  constructor
  · rw [logged.seen_self, input]
    have notScpc : (spot.seen mac).scpc = false := by simpa using scpc
    rw [← notScpc]
    rfl
  · intro has
    simpa using context true has

/-- A SCPC logon keeps the agreement exactly when the terminal was not logged on otherwise. -/
theorem scpc_exact {after : GatewaySpot} (members : spot.Members loggedOn) (booked : after.Booked)
    {request : LogonRequest} {status : Bool}
    (logged : LoggedOn config request.mac true spot after)
    (received : after.handleLogonReq request true = (status, spot')) :
    spot'.Booked ∧ (spot'.Members (nextLoggedOn loggedOn status (.logon request true)) ↔
      loggedOn request.mac ≠ some false) := by
  have told := @handleLogonReq_scpc after request
  rw [received] at told
  cases received
  refine ⟨booked, (members_update_iff members (fun id ne => ?_) (some true)).trans ?_⟩
  · rw [told, ← logged.seen_of_ne ne, decide_eq_false ne, Bool.or_false]
  · rw [told]
    cases logon : loggedOn request.mac with
    | none =>
        obtain ⟨seen, noContext⟩ := logged.seen_of_fresh members logon
        rw [seen]
        simpa [Seen.Fits] using noContext
    | some kind =>
        obtain ⟨input, output, scpc, context⟩ := members_iff.mp members request.mac
        rw [logged.seen_of_known members logon]
        rw [logon] at input output scpc context
        cases kind with
        | true => simpa [Seen.Fits, input, output] using context
        | false => simp [Seen.Fits, input, modcodDefOf]

/-- A logon without SCPC keeps the agreement exactly when the terminal was not a SCPC one and has
a DAMA context. -/
theorem other_exact {after : GatewaySpot} (members : spot.Members loggedOn) (booked : after.Booked)
    {request : LogonRequest} {status : Bool}
    (logged : LoggedOn config request.mac false spot after)
    (received : after.handleLogonReq request false = (status, spot')) :
    spot'.Booked ∧ (spot'.Members (nextLoggedOn loggedOn status (.logon request false)) ↔
      (loggedOn request.mac = some true → spot.RefusedByDama request.mac) ∧
        (loggedOn request.mac = none → spot.UsesDama request.mac)) := by
  have dama : DamaLogon request.mac after status spot' := by
    simpa only [received] using handleLogonReq_other booked request
  have uses : after.UsesDama request.mac ↔ spot.UsesDama request.mac := by
    rw [UsesDama, UsesDama, logged.damaCtrl]
  have refuses : after.RefusedByDama request.mac ↔ spot.RefusedByDama request.mac := by
    rw [RefusedByDama, RefusedByDama, logged.damaCtrl]
  have others (id : Nat) (ne : id ≠ request.mac) : spot'.seen id = spot.seen id := by
    rw [dama.others id ne, logged.seen_of_ne ne]
  refine ⟨dama.booked, ?_⟩
  cases status with
  | false =>
      have refused := refuses.mp (dama.refused.mp rfl)
      have unused : ¬ spot.UsesDama request.mac := by
        intro uses
        obtain ⟨ctrl, controller, -, none⟩ := refused
        obtain ⟨label, category, -⟩ := uses ctrl controller
        rw [none] at category
        cases category
      rw [dama.kept rfl]
      refine (members_same_iff members fun id => logged.seen_of_ne).trans ?_
      cases logon : loggedOn request.mac with
      | none =>
          rw [(logged.seen_of_fresh members logon).1]
          simp [Seen.Fits, unused]
      | some kind =>
          have fits := members_iff.mp members request.mac
          rw [logon] at fits
          rw [logged.seen_of_known members logon]
          exact iff_of_true fits ⟨fun _ => refused, fun fresh => nomatch fresh⟩
  | true =>
      have accepted : ¬ spot.RefusedByDama request.mac := fun refused =>
        nomatch dama.refused.mpr (refuses.mpr refused)
      refine (members_update_iff members others (some false)).trans ?_
      have context := dama.context
      have controller := dama.controller
      rw [dama.rest]
      generalize (spot'.seen request.mac).context = has at context controller ⊢
      cases logon : loggedOn request.mac with
      | none =>
          obtain ⟨seen, noContext⟩ := logged.seen_of_fresh members logon
          rw [seen] at context controller ⊢
          have added : (∀ x, has = some x → x = true) ↔ spot.UsesDama request.mac := by
            constructor
            · intro all ctrl found
              have some : has.isSome = true := by
                rw [controller, GatewaySpot.seen, found]
                rfl
              obtain ⟨x, eq⟩ := Option.isSome_iff_exists.mp some
              exact uses.mp (((context x eq).mp (all x eq)).resolve_left noContext) ctrl found
            · exact fun known x eq => (context x eq).mpr (.inr (uses.mpr known))
          simpa [Seen.Fits, modcodDefOf] using added
      | some kind =>
          obtain ⟨input, output, scpc, context'⟩ := members_iff.mp members request.mac
          rw [logged.seen_of_known members logon] at context controller ⊢
          rw [logon] at input output scpc context'
          cases kind with
          | true => simp [Seen.Fits, scpc, accepted]
          | false =>
              -- the context of the first logon is still there
              have kept : ∀ x, has = some x → x = true := by
                intro x eq
                obtain ⟨former, held⟩ : ∃ former, (spot.seen request.mac).context = some former := by
                  rw [eq] at controller
                  exact Option.isSome_iff_exists.mp controller.symm
                refine (context x eq).mpr (.inl ?_)
                rw [held, (context' former held).mpr rfl]
              simpa [Seen.Fits, input, output, scpc] using kept

theorem logon_exact (members : spot.Members loggedOn) (booked : spot.Booked)
    {request : LogonRequest} {status : Bool}
    (received : spot.receive config (.logon request isScpc) = some (status, spot')) :
    spot'.Booked ∧ (spot'.Members (nextLoggedOn loggedOn status (.logon request isScpc)) ↔
      KeepsMembers config loggedOn spot (.logon request isScpc)) := by
  by_cases gw : config.isGw request.mac = true ∨ request.mac = config.macId
  · simp only [receive, onRcvLogonReq_of_gw gw, Option.some.injEq] at received
    cases received
    exact ⟨booked, iff_of_true members (or_assoc.mp (.inl gw))⟩
  · have agree :
        spot.inputSts.isStPresent request.mac = spot.outputSts.isStPresent request.mac := by
      rw [members.input, members.output]
    obtain ⟨accepted, logged⟩ := @onRcvLogonReq_spec config spot request.mac isScpc gw agree
    have terminal : KeepsMembers config loggedOn spot (.logon request isScpc) ↔
        match loggedOn request.mac with
        | some kind => kind = isScpc ∨ spot.acceptedBySaloha request.mac = false ∨
            isScpc = false ∧ spot.RefusedByDama request.mac
        | none => spot.acceptedBySaloha request.mac = true ∧
            (isScpc = false → spot.UsesDama request.mac) := by
      rw [KeepsMembers, ← or_assoc]
      exact or_iff_right gw
    rw [terminal]
    simp only [receive, accepted, Option.some.injEq] at received
    generalize (spot.onRcvLogonReq config request.mac isScpc).2 = after at received logged
    have booked' : after.Booked := by
      rw [Booked, logged.damaCtrl]
      exact booked
    cases saloha : spot.acceptedBySaloha request.mac with
    | false =>
        rw [saloha] at received
        cases received
        refine ⟨booked', (members_same_iff members fun id => logged.seen_of_ne).trans ?_⟩
        cases logon : loggedOn request.mac with
        | none =>
            rw [(logged.seen_of_fresh members logon).1]
            simp [Seen.Fits]
        | some kind =>
            have fits := members_iff.mp members request.mac
            rw [logon] at fits
            rw [logged.seen_of_known members logon]
            exact iff_of_true fits (.inr (.inl rfl))
    | true =>
        rw [saloha] at received
        cases isScpc with
        | true =>
            refine ⟨(scpc_exact members booked' logged received).1,
              (scpc_exact members booked' logged received).2.trans ?_⟩
            cases loggedOn request.mac <;> simp
        | false =>
            refine ⟨(other_exact members booked' logged received).1,
              (other_exact members booked' logged received).2.trans ?_⟩
            rcases loggedOn request.mac with _ | _ | _ <;> simp

/-- A logoff that succeeds removes the terminal from the lists and its context, and leaves the
SCPC list. -/
theorem handleLogoffReq_spec (members : spot.Members loggedOn) (booked : spot.Booked)
    {status : Bool}
    (received : spot.handleLogoffReq mac = some (status, spot')) :
    (status = false ∧ spot' = spot ∧ loggedOn mac = none) ∨
      (status = true ∧ spot'.Booked ∧ (∀ id, id ≠ mac → spot'.seen id = spot.seen id) ∧
        (spot'.seen mac).input = none ∧ (spot'.seen mac).output = false ∧
        (spot'.seen mac).scpc = (spot.seen mac).scpc ∧ (spot'.seen mac).context ≠ some true) := by
  unfold handleLogoffReq delInputTerminal delOutputTerminal at received
  simp only [StFmtSimuMap.delTerminal_fst, ← StFmtSimuMap.isStPresent_eq, members.input,
    members.output] at received
  cases logged : loggedOn mac with
  | none =>
      have missing : (spot.inputSts.delTerminal mac).2 = spot.inputSts := by
        apply StFmtSimuMap.delTerminal_of_missing
        rw [StFmtSimuMap.delTerminal_fst, ← StFmtSimuMap.isStPresent_eq, members.input, logged]
        rfl
      rw [logged, missing] at received
      cases received
      exact .inl ⟨rfl, rfl, rfl⟩
  | some kind =>
      right
      rw [logged] at received
      have input (id : Nat) : ((spot.inputSts.delTerminal mac).2.sts.lookup id) =
          if id = mac then none else spot.inputSts.sts.lookup id :=
        StFmtSimuMap.delTerminal_lookup mac id
      have output (id : Nat) : (spot.outputSts.delTerminal mac).2.isStPresent id =
          if id = mac then false else spot.outputSts.isStPresent id := by
        rw [StFmtSimuMap.isStPresent_eq, StFmtSimuMap.delTerminal_lookup,
          StFmtSimuMap.isStPresent_eq]
        split <;> rfl
      cases controller : spot.damaCtrl with
      | none =>
          rw [controller] at received
          cases received
          refine ⟨rfl, fun dama found => ?_, fun id ne => ?_, ?_, ?_, rfl, ?_⟩
          · cases found
          · simp [seen, input, output, ne, controller]
          · simp [seen, input]
          · simp [seen, output]
          · simp [seen]
      | some dama =>
          rw [controller] at received
          obtain ⟨⟨removed, dama'⟩, off, eq⟩ := Option.map_eq_some_iff.mp received
          cases eq
          have erased : dama'.Booked ∧
              ∀ id, id ∈ dama'.terminals ↔ id ≠ mac ∧ id ∈ dama.terminals := by
            rcases DamaCtrlRcs2.hereIsLogoff_booked (booked dama controller) off with
              ⟨-, rfl, missing⟩ | ⟨-, booked', erased, -⟩
            · refine ⟨booked dama' controller, fun id => ⟨fun mem => ⟨?_, mem⟩, fun mem => mem.2⟩⟩
              rintro rfl
              exact missing mem
            · refine ⟨booked', fun id => ?_⟩
              rw [erased, AList.mem_erase]
          refine ⟨rfl, fun other found => ?_, fun id ne => ?_, ?_, ?_, rfl, ?_⟩
          · cases found
            exact erased.1
          · simp [seen, input, output, ne, controller, erased.2]
          · simp [seen, input]
          · simp [seen, output]
          · simp [seen, erased.2]

theorem logoff_exact (members : spot.Members loggedOn) (booked : spot.Booked) {status : Bool}
    (received : spot.handleLogoffReq mac = some (status, spot')) :
    spot'.Booked ∧ (status = false → spot' = spot) ∧
      (spot'.Members (nextLoggedOn loggedOn status (.logoff mac)) ↔ loggedOn mac ≠ some true) := by
  rcases handleLogoffReq_spec members booked received with
    ⟨rfl, rfl, none⟩ | ⟨rfl, booked', others, input, output, scpc, context⟩
  · refine ⟨booked, fun _ => rfl, iff_of_true members ?_⟩
    rw [none]
    exact nofun
  · refine ⟨booked', fun failed => (nomatch failed), ?_⟩
    refine (members_update_iff members others none).trans ?_
    have former := (members_iff.mp members mac).2.2.1
    rw [Seen.Fits, input, output, scpc, ne_eq, ← former]
    simpa using fun _ => context

end GatewaySpot

/-! ### Runs -/

/-- The spot with the status of the last message and the last logons accepted. -/
structure SpotWatch where
  spot : GatewaySpot
  status : Bool
  loggedOn : Nat → Option Bool

namespace SpotWatch

variable {config : SpotConfig}

def start (spot : GatewaySpot) : SpotWatch := ⟨spot, true, fun _ => none⟩

def step (config : SpotConfig) (watch : SpotWatch) (message : SpotMessage) : Option SpotWatch :=
  (watch.spot.receive config message).map fun (status, spot) =>
    ⟨spot, status, GatewaySpot.nextLoggedOn watch.loggedOn status message⟩

def Members (watch : SpotWatch) : Prop := watch.spot.Members watch.loggedOn

/-- A logoff that fails changes nothing. -/
def LogoffKeeps (watch : SpotWatch) (message : SpotMessage) (watch' : SpotWatch) : Prop :=
  match message with
  | .logon _ _ => True
  | .logoff _ => watch'.status = false → watch'.spot = watch.spot

def KeepsMembers (config : SpotConfig) (watch : SpotWatch) (message : SpotMessage) : Prop :=
  watch.spot.KeepsMembers config watch.loggedOn message

theorem step_exact {watch watch' : SpotWatch} {message : SpotMessage} (members : watch.Members)
    (booked : watch.spot.Booked) (taken : watch.step config message = some watch') :
    watch'.spot.Booked ∧ watch.LogoffKeeps message watch' ∧
      (watch'.Members ↔ watch.KeepsMembers config message) := by
  obtain ⟨⟨status, spot'⟩, received, rfl⟩ := Option.map_eq_some_iff.mp taken
  cases message with
  | logon request isScpc =>
      obtain ⟨booked', exact⟩ := GatewaySpot.logon_exact members booked received
      exact ⟨booked', trivial, exact⟩
  | logoff mac => exact GatewaySpot.logoff_exact members booked received

/-- **Spot membership.** From a spot without terminals, the five structures agree with the last
logons accepted in every state of a run, and the logoffs that fail change nothing, exactly when
every message keeps the kinds of the terminals. -/
theorem allStates_members_iff (config : SpotConfig) (inputMarginDb outputMarginDb : ℚ)
    (saloha : Option SalohaTerminals) (damaCtrl : Option DamaCtrlRcs2)
    (fresh : ∀ dama, damaCtrl = some dama → dama.Fresh)
    (messages : List SpotMessage) :
    (AllStates (step config) Members
          (start (.start inputMarginDb outputMarginDb saloha damaCtrl)) messages ∧
        AllMoves (step config) LogoffKeeps
          (start (.start inputMarginDb outputMarginDb saloha damaCtrl)) messages) ↔
      AllSteps (step config) (KeepsMembers config)
        (start (.start inputMarginDb outputMarginDb saloha damaCtrl)) messages := by
  set watch := start (.start inputMarginDb outputMarginDb saloha damaCtrl) with initial
  have booked : watch.spot.Booked := fun dama found => (fresh dama found).booked
  have members : watch.Members := by
    refine ⟨fun _ => rfl, fun _ => rfl, fun id => ?_, fun id st found => ?_, ?_⟩
    · exact ⟨fun mem => (nomatch mem), fun logged => nomatch logged⟩
    · cases found
    · intro dama found id
      rw [(fresh dama found).noTerminal]
      exact ⟨fun mem => absurd mem (AList.notMem_empty id), fun logged => nomatch logged⟩
  have keep (s : SpotWatch) (i : SpotMessage) (s' : SpotWatch) (good : s.Members ∧ s.spot.Booked)
      (taken : s.step config i = some s') : s'.spot.Booked :=
    (step_exact good.1 good.2 taken).1
  have exact_states : AllStates (step config) (fun s => s.Members ∧ s.spot.Booked) watch messages ↔
      AllSteps (step config) (KeepsMembers config) watch messages := by
    refine allStates_iff_allSteps ⟨members, booked⟩ fun s i s' good taken => ?_
    rw [and_iff_left (keep s i s' good taken)]
    exact (step_exact good.1 good.2 taken).2.2
  constructor
  · rintro ⟨states, -⟩
    refine exact_states.mp (states.with_invariant booked ?_)
    exact fun s i s' booked good _ taken => keep s i s' ⟨good, booked⟩ taken
  · intro steps
    have states := exact_states.mpr steps
    refine ⟨states.mono fun s good => good.1, allMoves_of_allStates states ?_⟩
    exact fun s i s' good taken => (step_exact good.1 good.2 taken).2.1

/-! ### A terminal that changes its kind -/

/-- A spot whose controller has one category, with two empty tables. -/
def plainConfig : SpotConfig := ⟨fun _ => false, 0, fun _ => ∅⟩

def plainSpot : GatewaySpot := .start 0 0 none (some DamaWatch.standardDama)

theorem standardDama_fresh (dama : DamaCtrlRcs2)
    (found : some DamaWatch.standardDama = some dama) : dama.Fresh := by
  cases found
  exact ⟨List.nodup_singleton _, rfl, fun category mem => by rw [List.mem_singleton.mp mem],
    rfl, rfl⟩

/-- A SCPC terminal logs on twice, another one logs on and off. -/
theorem plainSpot_members_iff :
    (AllStates (step plainConfig) Members (start plainSpot)
          [.logon ⟨1, 100, 2000, 50⟩ true, .logon ⟨1, 100, 2000, 50⟩ true,
            .logon ⟨2, 100, 2000, 50⟩ false, .logoff 2] ∧
        AllMoves (step plainConfig) LogoffKeeps (start plainSpot)
          [.logon ⟨1, 100, 2000, 50⟩ true, .logon ⟨1, 100, 2000, 50⟩ true,
            .logon ⟨2, 100, 2000, 50⟩ false, .logoff 2]) ↔
      AllSteps (step plainConfig) (KeepsMembers plainConfig) (start plainSpot)
        [.logon ⟨1, 100, 2000, 50⟩ true, .logon ⟨1, 100, 2000, 50⟩ true,
          .logon ⟨2, 100, 2000, 50⟩ false, .logoff 2] :=
  allStates_members_iff plainConfig 0 0 none _ standardDama_fresh _

/-- The terminal 1 logs on as SCPC, then without SCPC: it is still in the SCPC list. -/
theorem plainSpot_not_members :
    ¬ (AllStates (step plainConfig) Members (start plainSpot)
          [.logon ⟨1, 100, 2000, 50⟩ true, .logon ⟨1, 100, 2000, 50⟩ false] ∧
        AllMoves (step plainConfig) LogoffKeeps (start plainSpot)
          [.logon ⟨1, 100, 2000, 50⟩ true, .logon ⟨1, 100, 2000, 50⟩ false]) := by
  rintro ⟨states, -⟩
  have members := ((states.2 _ rfl).2 _ rfl)
  have kind := (members.scpc 1).mp (by decide)
  exact absurd kind (by decide)

end SpotWatch

end OpenSand
