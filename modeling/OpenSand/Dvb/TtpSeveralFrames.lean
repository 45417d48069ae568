import OpenSand.Dvb.TtpRoundTrip
import Mathlib.Data.List.Perm.Subperm

/-!
Time plans over several frame numbers.

From the second frame number on, the plan count is written inside the plans of
the first frame and left to chance where it is read. Up to four frame numbers
that does not reach past the first plan, and a reader is sent three bytes too
early: it takes the true header of the second frame for the beginning of a plan,
of a terminal whose identifier is the frame number and the junk after it.
-/

namespace OpenSand

open OpenSand.Bytes Std

/-! ### What the writes leave alone -/

namespace Ttp

/-- The frames as they are appended, each with the junk of its plan count. -/
def parts (junk : Nat → UInt16) : Nat → List (Nat × List EmuTp) → Data
  | _, [] => []
  | count, (number, tpList) :: rest =>
      toLE 1 number ++ toLE 2 (junk count).toNat ++ tpList.flatMap EmuTp.bytes ++
        parts junk (count + 1) rest

/-- The frames after the first one write their counts in the nine bytes after
the first frame header. -/
theorem buildFrames_middle (junk : Nat → UInt16) {pre mid : Data} (hpre : pre.length = 11)
    (hmid : mid.length = 9) (frames : List (Nat × List EmuTp)) (count : Nat) (post : Data)
    (later : 1 ≤ count) (few : count + frames.length ≤ 4) :
    ∃ mid', mid'.length = 9 ∧ buildFrames junk count (pre ++ (mid ++ post)) frames =
      some (count + frames.length, pre ++ (mid' ++ (post ++ parts junk count frames))) := by
  induction frames generalizing count mid post with
  | nil => exact ⟨mid, hmid, by simp [buildFrames, parts]⟩
  | cons frame rest ih =>
      obtain ⟨number, tpList⟩ := frame
      simp only [List.length_cons] at few
      let part := toLE 1 number ++ toLE 2 (junk count).toNat ++ tpList.flatMap EmuTp.bytes
      obtain ⟨mid', hmid', patched⟩ := @patch_middle pre mid (post ++ part)
        (toLE 2 tpList.length) (headerLength + frameInfoLength * count + 1)
        (by simp only [headerLength, frameInfoLength]; omega)
        (by simp only [headerLength, frameInfoLength, toLE_length]; omega)
      obtain ⟨mid'', hmid'', built⟩ :=
        ih (hmid'.trans hmid) (count + 1) (post ++ part) (by omega) (by omega)
      refine ⟨mid'', hmid'', ?_⟩
      have appended : pre ++ (mid ++ post) ++
          (toLE 1 number ++ toLE 2 (junk count).toNat) ++ tpList.flatMap EmuTp.bytes =
          pre ++ (mid ++ (post ++ part)) := by
        simp [part]
      rw [buildFrames, appended, patched, Option.bind_some, built]
      simp only [parts, part, List.length_cons, List.append_assoc, Option.some.injEq,
        Prod.mk.injEq, and_true]
      omega

/-- The frame built for two to four frame numbers: behind the header of the first
one its plans may have changed, what follows them is as it was appended. -/
theorem build_several (groupId sfId : UInt16) (junk : Nat → UInt16) {ttp : Ttp} {number : Nat}
    {tpList : List EmuTp} {rest : List (Nat × List EmuTp)}
    (data : ttp.data = (new groupId sfId).data)
    (several : ttp.frames.toList = (number, tpList) :: rest) (some_plan : tpList ≠ [])
    (few : 1 + rest.length ≤ 4) :
    ∃ region, region.length = emuTpLength * tpList.length ∧
      ttp.build junk = some (header groupId sfId (length ttp.frames.toList) ++
        (toLE 1 (1 + rest.length) ++ (toLE 1 number ++ (toLE 2 tpList.length ++
          (region ++ parts junk 1 rest))))) := by
  let plans := tpList.flatMap EmuTp.bytes
  have hplans : plans.length = emuTpLength * tpList.length := EmuTp.length_flatMap_bytes tpList
  have long : 9 ≤ plans.length := by
    have := List.length_pos_of_ne_nil some_plan
    simp only [hplans, emuTpLength]
    omega
  have start : (new groupId sfId).data = header groupId sfId headerLength ++ toLE 1 0 := by
    simp [new, header, toLE]
  let pre := header groupId sfId headerLength ++ (toLE 1 0 ++ (toLE 1 number ++
    toLE 2 tpList.length))
  have hpre : pre.length = 11 := by simp [pre, frameLoopCountOffset]
  have first := @patch_append (header groupId sfId headerLength ++ (toLE 1 0 ++ toLE 1 number))
    (toLE 2 (junk 0).toNat) plans (toLE 2 tpList.length)
    (headerLength + frameInfoLength * 0 + 1) (by simp [headerLength, frameLoopCountOffset])
    (by simp)
  obtain ⟨mid, hmid, built⟩ := buildFrames_middle junk hpre
    (by rw [List.length_take]; omega : (plans.take 9).length = 9) rest 1 (plans.drop 9) le_rfl few
  let region := mid ++ plans.drop 9
  have frames := @patch_append (header groupId sfId headerLength) (toLE 1 0)
    (toLE 1 number ++ (toLE 2 tpList.length ++ (region ++ parts junk 1 rest)))
    (toLE 1 (1 + rest.length)) frameLoopCountOffset (by simp) (by simp)
  have message := @patch_append [] (toBE 2 headerLength)
    ([ttpMessageType] ++ toLE 2 groupId.toNat ++ toBE 2 sfId.toNat ++
      (toLE 1 (1 + rest.length) ++ (toLE 1 number ++ (toLE 2 tpList.length ++
        (region ++ parts junk 1 rest)))))
    (toBE 2 (length ((number, tpList) :: rest))) 0 rfl (by simp)
  refine ⟨region, by rw [List.length_append, hmid, List.length_drop]; omega, ?_⟩
  have whole : plans.take 9 ++ plans.drop 9 = plans := List.take_append_drop 9 plans
  simp only [List.append_assoc, List.nil_append, pre, region] at first built frames message
  rw [whole] at built
  have unfolded : tpList.flatMap EmuTp.bytes = plans := rfl
  simp only [build, several, data, start, buildFrames, unfolded, List.append_assoc, first,
    Option.bind_some, built, Nat.zero_add, frames]
  simp only [header, List.append_assoc, message, region]

/-! ### Reading past the first frame -/

/-- Any bytes of the right number are plans. -/
theorem exists_plans (count : Nat) (data : Data) (hlen : data.length = emuTpLength * count) :
    ∃ tpList : List EmuTp, tpList.length = count ∧ tpList.flatMap EmuTp.bytes = data := by
  induction count generalizing data with
  | zero => exact ⟨[], rfl, (List.length_eq_zero_iff.mp hlen).symm⟩
  | succ count ih =>
      simp only [emuTpLength] at hlen ih
      obtain ⟨rest, hrest, hbytes⟩ := ih (data.drop 10) (by rw [List.length_drop]; omega)
      let tp : EmuTp := {
        talId := data.take 2
        offset := (data.drop 2).take 4
        assignmentCount := (data.drop 6).take 2
        fmtId := data.get ⟨8, by omega⟩
        priority := data.get ⟨9, by omega⟩
        talId_length := by rw [List.length_take]; omega
        offset_length := by rw [List.length_take, List.length_drop]; omega
        assignmentCount_length := by rw [List.length_take, List.length_drop]; omega }
      have last : (data.drop 8).take 2 = [tp.fmtId, tp.priority] := by
        rw [List.drop_eq_getElem_cons (by omega), List.drop_eq_getElem_cons (by omega)]
        rfl
      have bytes : tp.bytes = data.take 10 := by
        rw [EmuTp.bytes, ← last, @List.take_add _ data 8 2, @List.take_add _ data 6 2,
          @List.take_add _ data 2 4]
      refine ⟨tp :: rest, by rw [List.length_cons, hrest], ?_⟩
      rw [List.flatMap_cons, hbytes, bytes, List.take_append_drop]

/-- A frame number once reported stays reported. -/
theorem mem_walkPlans {talId : UInt16} {number kept count off : Nat} {data data' : Data}
    {tps tps' : TreeMap Nat EmuTp}
    (walked : walkPlans talId number count off data tps = some (tps', data'))
    (mem : kept ∈ tps) : kept ∈ tps' := by
  induction count generalizing off data tps with
  | zero =>
      cases walked
      exact mem
  | succ count ih =>
      obtain ⟨tp, _, walked⟩ := Option.bind_eq_some_iff.mp walked
      split at walked
      · obtain ⟨data'', _, walked⟩ := Option.bind_eq_some_iff.mp walked
        exact ih walked (TreeMap.mem_insert.mpr (.inr mem))
      · exact ih walked mem

theorem mem_walkFrames {talId : UInt16} {kept count start length : Nat} {data data' : Data}
    {tps tps' : TreeMap Nat EmuTp} {status : Bool}
    (walked : walkFrames talId count start length data tps = some (status, tps', data'))
    (mem : kept ∈ tps) : kept ∈ tps' := by
  induction count generalizing start length data tps with
  | zero =>
      cases walked
      exact mem
  | succ count ih =>
      obtain ⟨number, _, walked⟩ := Option.bind_eq_some_iff.mp walked
      obtain ⟨tpLoopCount, _, walked⟩ := Option.bind_eq_some_iff.mp walked
      dsimp only at walked
      split at walked
      · cases walked
        exact mem
      · obtain ⟨mid, plans, walked⟩ := Option.bind_eq_some_iff.mp walked
        exact ih walked (mem_walkPlans plans mem)

/-- A frame header that counts no plan is read again and again. -/
theorem walkFrames_none {talId : UInt16} {count start length : Nat} {data data' loop : Data}
    {tps tps' : TreeMap Nat EmuTp} {status : Bool} (hloop : slice (start + 1) 2 data = some loop)
    (none : ofLE loop = 0)
    (walked : walkFrames talId count start length data tps = some (status, tps', data')) :
    tps' = tps := by
  induction count generalizing length with
  | zero =>
      cases walked
      rfl
  | succ count ih =>
      obtain ⟨number, _, walked⟩ := Option.bind_eq_some_iff.mp walked
      simp only [hloop, Option.bind_some, none, Nat.zero_mul, Nat.add_zero, walkPlans] at walked
      split at walked
      · cases walked
        rfl
      · exact ih walked

/-- A frame header that counts a plan, the first one of the terminal, makes the
terminal be reported one. -/
theorem walkFrames_mine {talId : UInt16} {count start length : Nat} {data data' loop : Data}
    {tp : EmuTp} {tps tps' : TreeMap Nat EmuTp} (hloop : slice (start + 1) 2 data = some loop)
    (plans : ofLE loop ≠ 0) (htp : EmuTp.read (start + frameInfoLength) data = some tp)
    (mine : tp.Mine talId)
    (walked : walkFrames talId (count + 1) start length data tps = some (true, tps', data')) :
    ∃ number, number ∈ tps' := by
  obtain ⟨number, _, walked⟩ := Option.bind_eq_some_iff.mp walked
  simp only [hloop, Option.bind_some] at walked
  split at walked
  · cases walked
  · obtain ⟨mid, hmid, walked⟩ := Option.bind_eq_some_iff.mp walked
    obtain ⟨more, hmore⟩ := Nat.exists_eq_succ_of_ne_zero plans
    rw [hmore, walkPlans, htp, Option.bind_some, if_pos mine] at hmid
    obtain ⟨patched, _, hmid⟩ := Option.bind_eq_some_iff.mp hmid
    have inserted : ofLE number ∈ tps.insert (ofLE number) tp.convert :=
      TreeMap.mem_insert.mpr (.inl (Nat.compare_eq_eq.mpr rfl))
    exact ⟨_, mem_walkFrames walked (mem_walkPlans hmid inserted)⟩

/-- The three bytes before the end of the last plan stand where the next frame
header is looked for. -/
theorem firstFrame_nextHeader (groupId sfId : UInt16) (messageLength frames number : Nat)
    (tpList : List EmuTp) (last : EmuTp) (post : Data) :
    ∃ before low, before.length = headerLength + (tpList ++ [last]).length * emuTpLength ∧
      firstFrame groupId sfId messageLength frames number (tpList ++ [last]) post =
        before ++ ([low] ++ ([last.fmtId, last.priority] ++ post)) := by
  obtain ⟨high, low, hcount⟩ := List.length_eq_two.mp last.assignmentCount_length
  refine ⟨header groupId sfId messageLength ++ (toLE 1 frames ++ (toLE 1 number ++
    (toLE 2 (tpList ++ [last]).length ++ (tpList.flatMap EmuTp.bytes ++
      (last.talId ++ (last.offset ++ [high])))))), low, ?_, ?_⟩
  · simp only [List.length_append, header_length, toLE_length, EmuTp.length_flatMap_bytes,
      last.talId_length, last.offset_length, List.length_singleton, headerLength,
      frameLoopCountOffset, emuTpLength]
    omega
  · simp [firstFrame, EmuTp.bytes, hcount]

/-- Whatever the terminal, reading goes on there after the plans of the first
frame. -/
theorem getTp_nextHeader (talId groupId sfId : UInt16) {messageLength frames number : Nat}
    (tpList : List EmuTp) (last : EmuTp) (post : Data) (hframes : frames + 1 < 256)
    (hnumber : number < 256) (fits : messageLength < 2 ^ 16)
    (long : oneFrameLength (tpList ++ [last]) ≤ messageLength) :
    ∃ before low length,
      slice (before.length + 1) 2 (before ++ ([low] ++ ([last.fmtId, last.priority] ++ post))) =
        some [last.fmtId, last.priority] ∧
      getTp talId
        (firstFrame groupId sfId messageLength (frames + 1) number (tpList ++ [last]) post) =
        walkFrames talId frames before.length length
          (before ++ ([low] ++ ([last.fmtId, last.priority] ++ post)))
          (handOut talId number (tpList ++ [last]) ∅) := by
  obtain ⟨before, low, hbefore, split⟩ := firstFrame_nextHeader groupId sfId messageLength
    (frames + 1) number (tpList.map (EmuTp.afterRead talId)) (last.afterRead talId) post
  have kept : (last.afterRead talId).fmtId = last.fmtId ∧
      (last.afterRead talId).priority = last.priority := by
    unfold EmuTp.afterRead
    split <;> exact ⟨rfl, rfl⟩
  have hlength : before.length = headerLength + (tpList ++ [last]).length * emuTpLength := by
    rw [hbefore]
    simp
  have loop : slice (before.length + 1) 2
      (before ++ ([low] ++ ([last.fmtId, last.priority] ++ post))) =
      some [last.fmtId, last.priority] := by
    simpa using @slice_append (before ++ [low]) [last.fmtId, last.priority] post
      (before.length + 1) 2 (by simp) rfl
  have read := getTp_firstFrame talId groupId sfId (tpList ++ [last]) post hframes hnumber fits long
  rw [← hlength, List.map_append, List.map_singleton, split, kept.1, kept.2] at read
  exact ⟨before, low, _, loop, read⟩

/-- A part of a frame, taken for plans from its start, begins with a plan of the
terminal made of its number and the low byte of the junk. -/
theorem exists_plan_of_parts (junk : Nat → UInt16) (count number : Nat) {tpList : List EmuTp}
    (rest : List (Nat × List EmuTp)) (some_plan : tpList ≠ []) :
    ∃ (tp : EmuTp) (post : Data), parts junk count ((number, tpList) :: rest) = tp.bytes ++ post ∧
      tp.talId = toLE 1 number ++ [UInt8.ofNat (junk count).toNat] := by
  let bytes := parts junk count ((number, tpList) :: rest)
  have long : 10 ≤ bytes.length := by
    have := List.length_pos_of_ne_nil some_plan
    simp only [bytes, parts, List.length_append, toLE_length, EmuTp.length_flatMap_bytes,
      emuTpLength]
    omega
  obtain ⟨tps, hlen, hbytes⟩ := exists_plans 1 (bytes.take 10)
    (by rw [List.length_take, emuTpLength]; omega)
  obtain ⟨tp, rfl⟩ := List.length_eq_one_iff.mp hlen
  rw [List.flatMap_singleton] at hbytes
  refine ⟨tp, bytes.drop 10, by rw [hbytes, List.take_append_drop], ?_⟩
  have talId : tp.talId = tp.bytes.take 2 := by
    simp [EmuTp.bytes, tp.talId_length]
  rw [talId, hbytes, List.take_take]
  rfl

end Ttp

/-! ### Plans for several frames -/

/-- Some terminal of every block of 256 identifiers has no plan. -/
def Sparse (plans : List TimePlan) : Prop :=
  ∀ high : UInt8, ∃ talId : UInt16,
    talId.toNat / 256 = high.toNat ∧ ∀ plan ∈ plans, plan.talId ≠ talId

theorem addedPlan_eq_none_iff {plans : List TimePlan} {frame : Nat} {talId : UInt16} :
    addedPlan plans frame talId = none ↔
      ∀ plan ∈ plans, plan.frameId.toNat = frame → plan.talId ≠ talId := by
  simp [addedPlan]

/-- A frame built for two to four frame numbers is not read back. -/
theorem not_roundTrips_of_several (groupId sfId : UInt16) {plans : List TimePlan}
    {first second : Nat × List EmuTp} {rest : List (Nat × List EmuTp)}
    (several : (Ttp.added groupId sfId plans).frames.toList = first :: second :: rest)
    (few : rest.length ≤ 2)
    (fits : Ttp.length (Ttp.added groupId sfId plans).frames.toList < 2 ^ 16)
    (sparse : Sparse plans) : ¬ RoundTrips groupId sfId plans := by
  intro roundTrips
  obtain ⟨number, tpList⟩ := first
  obtain ⟨next, nextList⟩ := second
  have entry := Ttp.mem_added_toList_iff groupId sfId plans
  rw [several] at entry
  obtain ⟨⟨plan, hplan, hnumber⟩, hlist⟩ := (entry number tpList).mp List.mem_cons_self
  obtain ⟨⟨other, hother, hnext⟩, hnextList⟩ :=
    (entry next nextList).mp (List.mem_cons_of_mem _ List.mem_cons_self)
  have some_plan : tpList ≠ [] := by
    rw [hlist, Ttp.plansOf, Ne, List.map_eq_nil_iff, List.filter_eq_nil_iff]
    exact fun none => none plan hplan (by simpa using hnumber)
  have some_next : nextList ≠ [] := by
    rw [hnextList, Ttp.plansOf, Ne, List.map_eq_nil_iff, List.filter_eq_nil_iff]
    exact fun none => none other hother (by simpa using hnext)
  have apart : next ≠ number := by
    have distinct := (Ttp.added groupId sfId plans).frames.distinct_keys_toList
    rw [several] at distinct
    have here := (List.pairwise_cons.mp distinct).1 (next, nextList) List.mem_cons_self
    exact fun h => here (Nat.compare_eq_eq.mpr h.symm)
  have number_lt : number < 256 := hnumber ▸ plan.frameId.toNat_lt
  obtain ⟨unused, hhigh, hunused⟩ := sparse other.frameId
  let junk : Nat → UInt16 := fun _ => unused % 256
  obtain ⟨region, hregion, built⟩ := Ttp.build_several groupId sfId junk
    (Ttp.added_data groupId sfId plans) several some_plan (by simp; omega)
  obtain ⟨found, hfound, rfl⟩ := Ttp.exists_plans tpList.length region hregion
  obtain ⟨init, last, rfl⟩ : ∃ init last, found = init ++ [last] := by
    apply (List.eq_nil_or_concat' found).resolve_left
    exact List.ne_nil_of_length_pos (hfound ▸ List.length_pos_of_ne_nil some_plan)
  obtain ⟨data, hdata, reads⟩ := roundTrips junk
  let messageLength := Ttp.length (Ttp.added groupId sfId plans).frames.toList
  let post := Ttp.parts junk 1 ((next, nextList) :: rest)
  have layout : data = Ttp.firstFrame groupId sfId messageLength (rest.length + 1 + 1) number
      (init ++ [last]) post := by
    have same := Option.some.inj (hdata.symm.trans built)
    rw [same, Ttp.firstFrame, hfound, List.length_cons, Nat.add_comm 1]
  have long : Ttp.oneFrameLength (init ++ [last]) ≤ messageLength := by
    simp only [messageLength, several, Ttp.oneFrameLength, Ttp.length, hfound, List.map_cons,
      List.sum_cons]
    omega
  have goesOn (talId : UInt16) := Ttp.getTp_nextHeader talId groupId sfId init last post
    (by omega : rest.length + 1 + 1 < 256) number_lt fits long
  rw [← layout] at goesOn
  by_cases none : ofLE [last.fmtId, last.priority] = 0
  · obtain ⟨tps, data', read, reports, _⟩ := reads other.talId
    obtain ⟨before, low, length, loop, walked⟩ := goesOn other.talId
    have unread := Ttp.walkFrames_none loop none (walked.symm.trans read)
    have reported : addedPlan plans next other.talId ≠ Option.none := by
      rw [Ne, addedPlan_eq_none_iff]
      exact fun h => h other hother hnext rfl
    obtain ⟨plan', hplan'⟩ := Option.ne_none_iff_exists'.mp reported
    obtain ⟨tp, htp, _⟩ := (reports next).1 plan' hplan'
    rw [unread, Ttp.handOut_getElem?, if_neg apart] at htp
    simp at htp
  · obtain ⟨tps, data', read, reports, _⟩ := reads unused
    obtain ⟨before, low, length, loop, walked⟩ := goesOn unused
    obtain ⟨tp, after, hpost, htal⟩ := Ttp.exists_plan_of_parts junk 1 next rest some_next
    have found : EmuTp.read (before.length + frameInfoLength)
        (before ++ ([low] ++ ([last.fmtId, last.priority] ++ post))) = some tp := by
      have at_plan := EmuTp.read_append (before ++ [low, last.fmtId, last.priority]) after tp
      rw [← hpost] at at_plan
      simpa [frameInfoLength] using at_plan
    have mine : tp.Mine unused := by
      have high := unused.toNat_lt
      simp [EmuTp.Mine, htal, junk, toLE, ofBE, ofLE]
      omega
    obtain ⟨frame, hframe⟩ := Ttp.walkFrames_mine loop none found mine (walked.symm.trans read)
    have absent := (reports frame).2 (addedPlan_eq_none_iff.mpr fun plan mem _ => hunused plan mem)
    rw [TreeMap.mem_iff_isSome_getElem?, absent] at hframe
    cases hframe

/-- Four frame numbers at most are used. -/
def FewFrames (plans : List TimePlan) : Prop :=
  ∃ numbers : List UInt8, numbers.length ≤ 4 ∧ ∀ plan ∈ plans, plan.frameId ∈ numbers

theorem FewFrames.length_le {plans : List TimePlan} (few : FewFrames plans)
    (groupId sfId : UInt16) : (Ttp.added groupId sfId plans).frames.toList.length ≤ 4 := by
  obtain ⟨numbers, hlen, hmem⟩ := few
  let keys := (Ttp.added groupId sfId plans).frames.toList.map Prod.fst
  have nodup : keys.Nodup := by
    rw [List.nodup_iff_pairwise_ne, List.pairwise_map]
    refine (Ttp.added groupId sfId plans).frames.distinct_keys_toList.imp fun apart same => ?_
    exact apart (Nat.compare_eq_eq.mpr same)
  have subset : keys ⊆ numbers.map UInt8.toNat := by
    intro number mem
    obtain ⟨entry, hentry, rfl⟩ := List.mem_map.mp mem
    obtain ⟨⟨plan, hplan, hnumber⟩, _⟩ :=
      (Ttp.mem_added_toList_iff groupId sfId plans entry.1 entry.2).mp hentry
    exact List.mem_map.mpr ⟨plan.frameId, hmem plan hplan, hnumber⟩
  have le := (List.subperm_of_subset nodup subset).length_le
  simp only [keys, List.length_map] at le
  exact le.trans hlen

/-- Plans that do not all have one frame number make two entries or more. -/
theorem exists_several (groupId sfId : UInt16) {plans : List TimePlan}
    (other : ¬ OneFrame plans) : ∃ first second rest,
      (Ttp.added groupId sfId plans).frames.toList = first :: second :: rest := by
  have entry := Ttp.mem_added_toList_iff groupId sfId plans
  match hlist : (Ttp.added groupId sfId plans).frames.toList with
  | first :: second :: rest => exact ⟨first, second, rest, rfl⟩
  | [] =>
      rw [hlist] at entry
      refine absurd (fun plan mem => ?_) other
      exact absurd ((entry _ _).mpr ⟨⟨plan, mem, rfl⟩, rfl⟩) List.not_mem_nil
  | [only] =>
      rw [hlist] at entry
      have same : ∀ plan ∈ plans, plan.frameId.toNat = only.1 := by
        intro plan mem
        have here := (entry _ _).mpr ⟨⟨plan, mem, rfl⟩, rfl⟩
        rw [← List.mem_singleton.mp here]
      refine absurd (fun plan hplan plan' hplan' => ?_) other
      exact UInt8.toNat_inj.mp ((same plan hplan).trans (same plan' hplan').symm)

/-- **Time plan round trip.** Plans for one frame number, and plans for at most
four of them that leave a terminal without plan in every block of 256, survive
the frame and a second read exactly when there is one frame number and the plans
handed out are the same in both byte orders. -/
theorem roundTrips_iff (groupId sfId : UInt16) {plans : List TimePlan}
    (fits : Ttp.length (Ttp.added groupId sfId plans).frames.toList < 2 ^ 16)
    (ordinary : OneFrame plans ∨ FewFrames plans ∧ Sparse plans) :
    RoundTrips groupId sfId plans ↔
      OneFrame plans ∧
        ∀ frame talId plan, addedPlan plans frame talId = some plan → plan.Symmetric := by
  by_cases one : OneFrame plans
  · cases plans with
    | nil => exact iff_of_true (roundTrips_nil groupId sfId) ⟨one, by simp [addedPlan]⟩
    | cons plan rest =>
        have single : ∀ other ∈ plan :: rest, other.frameId.toNat = plan.frameId.toNat :=
          fun other mem => by rw [one other mem plan List.mem_cons_self]
        have frames := Ttp.added_toList_of_single groupId sfId (List.cons_ne_nil _ _) single
        have short : Ttp.oneFrameLength ((plan :: rest).map TimePlan.emuTp) < 2 ^ 16 := by
          rw [frames] at fits
          exact fits
        rw [roundTrips_iff_of_single single groupId sfId (List.cons_ne_nil _ _)
          plan.frameId.toNat_lt short]
        constructor
        · refine fun symmetric => ⟨one, fun frame talId plan' hplan' => ?_⟩
          apply symmetric talId plan'
          rw [addedPlan_of_single single] at hplan' ⊢
          split at hplan'
          · rw [if_pos rfl, hplan']
          · cases hplan'
        · rintro ⟨_, symmetric⟩ talId plan' hplan'
          exact symmetric _ talId plan' hplan'
  · obtain ⟨few, sparse⟩ := ordinary.resolve_left one
    obtain ⟨first, second, rest, several⟩ := exists_several groupId sfId one
    have short := few.length_le groupId sfId
    rw [several, List.length_cons, List.length_cons] at short
    exact iff_of_false
      (not_roundTrips_of_several groupId sfId several (by omega) fits sparse)
      fun h => one h.1

/-- Two terminals with a symmetric plan in one frame. -/
theorem roundTrips_two_terminals :
    RoundTrips 1 0 [⟨0, 1, 0, 0, 3, 0⟩, ⟨0, 2, 0, 257, 5, 0⟩] ↔
      OneFrame [⟨0, 1, 0, 0, 3, 0⟩, ⟨0, 2, 0, 257, 5, 0⟩] ∧
        ∀ frame talId plan,
          addedPlan [⟨0, 1, 0, 0, 3, 0⟩, ⟨0, 2, 0, 257, 5, 0⟩] frame talId = some plan →
            plan.Symmetric :=
  roundTrips_iff 1 0 (by decide) (.inl (by unfold OneFrame; decide))

/-- A plan for terminal 1 in frame 0 and one for terminal 2 in frame 1 are not
read back. -/
theorem twoFrames_not_roundTrips :
    ¬ RoundTrips 1 0 [⟨0, 1, 0, 1, 3, 0⟩, ⟨1, 2, 0, 1, 3, 0⟩] := by
  intro roundTrips
  obtain ⟨data, built, reads⟩ := roundTrips fun _ => 0
  obtain ⟨tps, data', read, _⟩ := reads 1
  cases built
  cases read

end OpenSand
