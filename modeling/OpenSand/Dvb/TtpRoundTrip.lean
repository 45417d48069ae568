import OpenSand.Dvb.Ttp
import Mathlib.Data.List.Induction

/-!
Round trip of the time plans over one frame number.

A frame built for one frame number is laid out as it is read, so a read hands
out the plans of the terminal and leaves them converted; the next read of the
same terminal converts them back. `roundTrips_iff_of_single` says which
plans survive.
-/

namespace OpenSand

open OpenSand.Bytes Std

/-! ### Plans in place -/

namespace EmuTp

theorem read_append (pre post : Data) (tp : EmuTp) :
    read pre.length (pre ++ (tp.bytes ++ post)) = some tp := by
  have room : pre.length + emuTpLength ≤ (pre ++ (tp.bytes ++ post)).length := by simp
  obtain ⟨talId, offset, assignmentCount, fmtId, priority, htal, hoff, hcount⟩ := tp
  have past_pre : pre.drop (pre.length + 6) = [] := List.drop_of_length_le (Nat.le_add_right _ _)
  have past_tal : talId.drop 6 = [] := List.drop_of_length_le (by omega)
  rw [read, dif_pos room]
  simp [bytes, List.drop_append, List.take_append, List.getElem?_append, htal, hoff, hcount,
    past_pre, past_tal]

@[simp] theorem convert_convert (tp : EmuTp) : tp.convert.convert = tp := by
  simp [convert]

/-- What a read leaves in the place of a plan. -/
def afterRead (talId : UInt16) (tp : EmuTp) : EmuTp := if tp.Mine talId then tp.convert else tp

@[simp] theorem afterRead_mine (talId other : UInt16) (tp : EmuTp) :
    (tp.afterRead talId).Mine other ↔ tp.Mine other := by
  unfold afterRead
  split <;> rfl

end EmuTp

namespace Ttp

/-- The plans handed out of a frame, the last one of the terminal at the end. -/
def handOut (talId : UInt16) (number : Nat) (tpList : List EmuTp) (tps : TreeMap Nat EmuTp) :
    TreeMap Nat EmuTp :=
  tpList.foldl (fun tps tp => if tp.Mine talId then tps.insert number tp.convert else tps) tps

/-- Walking over plans laid out one after the other. -/
theorem walkPlans_append (talId : UInt16) (number : Nat) (tpList : List EmuTp) (pre post : Data)
    (tps : TreeMap Nat EmuTp) :
    walkPlans talId number tpList.length pre.length
        (pre ++ (tpList.flatMap EmuTp.bytes ++ post)) tps =
      some (handOut talId number tpList tps,
        pre ++ ((tpList.map (EmuTp.afterRead talId)).flatMap EmuTp.bytes ++ post)) := by
  induction tpList generalizing pre tps with
  | nil => rfl
  | cons tp rest ih =>
      have next (tp' : EmuTp) : pre.length + emuTpLength = (pre ++ tp'.bytes).length := by simp
      simp only [List.length_cons, List.flatMap_cons, walkPlans, List.append_assoc,
        EmuTp.read_append, Option.bind_some]
      by_cases mine : tp.Mine talId
      · have patched := @patch_append pre tp.bytes (rest.flatMap EmuTp.bytes ++ post)
          tp.convert.bytes pre.length rfl (by simp)
        rw [if_pos mine, patched, Option.bind_some, next tp.convert, ← List.append_assoc, ih]
        simp [handOut, EmuTp.afterRead, mine]
      · rw [if_neg mine, next tp, ← List.append_assoc, ih]
        simp [handOut, EmuTp.afterRead, mine]

/-- The last plan of the terminal is the one kept under the frame number. -/
theorem handOut_getElem? (talId : UInt16) (number frame : Nat) (tpList : List EmuTp)
    (tps : TreeMap Nat EmuTp) :
    (handOut talId number tpList tps)[frame]? =
      if frame = number then
        (((tpList.filter (EmuTp.Mine talId)).getLast?).map EmuTp.convert).or tps[frame]?
      else tps[frame]? := by
  induction tpList generalizing tps with
  | nil => simp [handOut]
  | cons tp rest ih =>
      have unfolded : handOut talId number (tp :: rest) tps = handOut talId number rest
          (if tp.Mine talId then tps.insert number tp.convert else tps) := rfl
      rw [unfolded, ih]
      by_cases mine : tp.Mine talId
      · by_cases here : frame = number
        · subst here
          cases hlast : (rest.filter (EmuTp.Mine talId)).getLast? with
          | none =>
              have none_left : rest.filter (EmuTp.Mine talId) = [] :=
                List.getLast?_eq_none_iff.mp hlast
              simp [mine, none_left]
          | some last => simp [mine, hlast, List.getLast?_cons]
        · have other : ¬ compare number frame = .eq := by
            rw [Nat.compare_eq_eq]
            exact fun h => here h.symm
          simp [mine, here, TreeMap.getElem?_insert, other]
      · simp [mine]

/-! ### Building -/

/-- The TTP after a list of additions. -/
def added (groupId sfId : UInt16) (plans : List TimePlan) : Ttp :=
  plans.foldl addTimePlan (new groupId sfId)

theorem added_data (groupId sfId : UInt16) (plans : List TimePlan) :
    (added groupId sfId plans).data = (new groupId sfId).data := by
  induction plans using List.reverseRecOn with
  | nil => rfl
  | append_singleton plans plan ih =>
      rw [← ih]
      simp [added, addTimePlan]

/-- A frame number has an entry as soon as a plan is added for it. -/
theorem mem_added_frames_iff (groupId sfId : UInt16) (plans : List TimePlan) (number : Nat) :
    number ∈ (added groupId sfId plans).frames ↔ ∃ plan ∈ plans, plan.frameId.toNat = number := by
  induction plans using List.reverseRecOn with
  | nil => simp [added, new]
  | append_singleton plans plan ih =>
      have step : (added groupId sfId (plans ++ [plan])).frames =
          (added groupId sfId plans).frames.insert plan.frameId.toNat
            ((added groupId sfId plans).frames.getD plan.frameId.toNat [] ++ [plan.emuTp]) := by
        simp [added, addTimePlan]
      rw [step, TreeMap.mem_insert, ih]
      simp [or_and_right, exists_or, or_comm]

/-- The entry of a frame number holds its plans in the order of addition. -/
theorem added_frames_getD (groupId sfId : UInt16) (plans : List TimePlan) (number : Nat) :
    (added groupId sfId plans).frames.getD number [] =
      (plans.filter fun plan => plan.frameId.toNat = number).map TimePlan.emuTp := by
  induction plans using List.reverseRecOn with
  | nil => simp [added, new]
  | append_singleton plans plan ih =>
      have step : (added groupId sfId (plans ++ [plan])).frames =
          (added groupId sfId plans).frames.insert plan.frameId.toNat
            ((added groupId sfId plans).frames.getD plan.frameId.toNat [] ++ [plan.emuTp]) := by
        simp [added, addTimePlan]
      rw [step, TreeMap.getD_insert]
      by_cases here : plan.frameId.toNat = number
      · subst here
        simp [ih]
      · simp [here, ih]

/-- The plans of a frame number, in network order. -/
def plansOf (plans : List TimePlan) (number : Nat) : List EmuTp :=
  (plans.filter fun plan => plan.frameId.toNat = number).map TimePlan.emuTp

theorem mem_added_toList_iff (groupId sfId : UInt16) (plans : List TimePlan) (number : Nat)
    (tpList : List EmuTp) :
    (number, tpList) ∈ (added groupId sfId plans).frames.toList ↔
      (∃ plan ∈ plans, plan.frameId.toNat = number) ∧ tpList = plansOf plans number := by
  rw [TreeMap.mem_toList_iff_getElem?_eq_some, ← mem_added_frames_iff groupId sfId]
  have entry := added_frames_getD groupId sfId plans number
  have kept (mem : number ∈ (added groupId sfId plans).frames) :
      (added groupId sfId plans).frames[number]? =
        some ((added groupId sfId plans).frames.getD number []) :=
    TreeMap.getElem?_eq_some_getD mem
  constructor
  · intro h
    have mem : number ∈ (added groupId sfId plans).frames := by
      rw [TreeMap.mem_iff_isSome_getElem?, h]
      rfl
    rw [kept mem, entry, Option.some.injEq] at h
    exact ⟨mem, h.symm⟩
  · rintro ⟨mem, rfl⟩
    rw [kept mem, entry]
    rfl

/-- With a single frame number there is a single entry. -/
theorem added_toList_of_single (groupId sfId : UInt16) {plans : List TimePlan}
    (some_plan : plans ≠ []) {number : Nat}
    (single : ∀ plan ∈ plans, plan.frameId.toNat = number) :
    (added groupId sfId plans).frames.toList = [(number, plans.map TimePlan.emuTp)] := by
  have all : plansOf plans number = plans.map TimePlan.emuTp := by
    rw [plansOf, List.filter_eq_self.mpr fun plan mem => by simpa using single plan mem]
  have member (entry : Nat × List EmuTp) :
      entry ∈ (added groupId sfId plans).frames.toList ↔
        entry = (number, plans.map TimePlan.emuTp) := by
    obtain ⟨frame, tpList⟩ := entry
    rw [mem_added_toList_iff, Prod.mk.injEq]
    constructor
    · rintro ⟨⟨plan, mem, rfl⟩, rfl⟩
      rw [single plan mem]
      exact ⟨rfl, all⟩
    · rintro ⟨rfl, rfl⟩
      obtain ⟨plan, mem⟩ := List.exists_mem_of_ne_nil _ some_plan
      exact ⟨⟨plan, mem, single plan mem⟩, all.symm⟩
  have distinct := (added groupId sfId plans).frames.distinct_keys_toList
  cases hlist : (added groupId sfId plans).frames.toList with
  | nil =>
      have here := (member (number, plans.map TimePlan.emuTp)).mpr rfl
      rw [hlist] at here
      exact absurd here List.not_mem_nil
  | cons first rest =>
      rw [hlist] at member distinct
      have hfirst := (member first).mp List.mem_cons_self
      have hrest : rest = [] := by
        apply List.eq_nil_iff_forall_not_mem.mpr
        intro entry mem
        have hentry := (member entry).mp (List.mem_cons_of_mem _ mem)
        have apart := (List.pairwise_cons.mp distinct).1 entry mem
        rw [hfirst, hentry] at apart
        exact apart (Nat.compare_eq_eq.mpr rfl)
      rw [hfirst, hrest]

/-! ### One frame -/

/-- The header before its frame count, with the length of the message. -/
def header (groupId sfId : UInt16) (messageLength : Nat) : Data :=
  toBE 2 messageLength ++ ([ttpMessageType] ++ toLE 2 groupId.toNat ++ toBE 2 sfId.toNat)

@[simp] theorem header_length (groupId sfId : UInt16) (messageLength : Nat) :
    (header groupId sfId messageLength).length = frameLoopCountOffset := by
  simp [header, frameLoopCountOffset]

/-- The layout of a TTP up to the plans of its first frame, and what follows. -/
def firstFrame (groupId sfId : UInt16) (messageLength frames number : Nat) (tpList : List EmuTp)
    (post : Data) : Data :=
  header groupId sfId messageLength ++ (toLE 1 frames ++ (toLE 1 number ++
    (toLE 2 tpList.length ++ (tpList.flatMap EmuTp.bytes ++ post))))

/-- The length of a TTP for one frame number. -/
def oneFrameLength (tpList : List EmuTp) : Nat :=
  headerLength + (frameInfoLength + emuTpLength * tpList.length)

/-- The layout of a TTP for one frame number. -/
def oneFrame (groupId sfId : UInt16) (number : Nat) (tpList : List EmuTp) : Data :=
  firstFrame groupId sfId (oneFrameLength tpList) 1 number tpList []

theorem build_single (groupId sfId : UInt16) (junk : Nat → UInt16) {ttp : Ttp} {number : Nat}
    {tpList : List EmuTp} (data : ttp.data = (new groupId sfId).data)
    (single : ttp.frames.toList = [(number, tpList)]) :
    ttp.build junk = some (oneFrame groupId sfId number tpList) := by
  have start : (new groupId sfId).data = header groupId sfId headerLength ++ toLE 1 0 := by
    simp [new, header, toLE]
  have count := @patch_append (header groupId sfId headerLength ++ (toLE 1 0 ++ toLE 1 number))
    (toLE 2 (junk 0).toNat) (tpList.flatMap EmuTp.bytes) (toLE 2 tpList.length)
    (headerLength + frameInfoLength * 0 + 1) (by simp [headerLength, frameLoopCountOffset])
    (by simp)
  have frames := @patch_append (header groupId sfId headerLength) (toLE 1 0)
    (toLE 1 number ++ (toLE 2 tpList.length ++ tpList.flatMap EmuTp.bytes)) (toLE 1 1)
    frameLoopCountOffset (by simp) (by simp)
  have length := @patch_append [] (toBE 2 headerLength)
    ([ttpMessageType] ++ toLE 2 groupId.toNat ++ toBE 2 sfId.toNat ++ (toLE 1 1 ++
      (toLE 1 number ++ (toLE 2 tpList.length ++ tpList.flatMap EmuTp.bytes))))
    (toBE 2 (oneFrameLength tpList)) 0 rfl (by simp)
  simp only [List.append_assoc, List.nil_append, oneFrameLength] at count length
  simp only [build, single, data, start, buildFrames, List.append_assoc, count, Option.bind_some,
    Nat.zero_add, frames]
  simp only [header, List.append_assoc, Ttp.length, List.map_cons, List.map_nil, List.sum_cons,
    List.sum_nil, Nat.add_zero, length, oneFrame, oneFrameLength, firstFrame, List.append_nil]

/-- Reading a terminal hands out its plans of the first frame, converts them in
place and goes on with the next frame. -/
theorem getTp_firstFrame (talId groupId sfId : UInt16) {messageLength frames number : Nat}
    (tpList : List EmuTp) (post : Data) (hframes : frames + 1 < 256) (hnumber : number < 256)
    (fits : messageLength < 2 ^ 16) (long : oneFrameLength tpList ≤ messageLength) :
    getTp talId (firstFrame groupId sfId messageLength (frames + 1) number tpList post) =
      walkFrames talId frames (headerLength + tpList.length * emuTpLength)
        (messageLength - headerLength - frameInfoLength - tpList.length * emuTpLength)
        (firstFrame groupId sfId messageLength (frames + 1) number
          (tpList.map (EmuTp.afterRead talId)) post)
        (handOut talId number tpList ∅) := by
  let data := firstFrame groupId sfId messageLength (frames + 1) number tpList post
  let head := header groupId sfId messageLength
  let plans := tpList.flatMap EmuTp.bytes ++ post
  have hlength : ofBE (toBE 2 messageLength) = messageLength := ofBE_toBE fits
  have hloop : ofLE (toLE 1 (frames + 1)) = frames + 1 := ofLE_toLE (by simpa using hframes)
  have hnum : ofLE (toLE 1 number) = number := ofLE_toLE (by simpa using hnumber)
  have hcount : ofLE (toLE 2 tpList.length) = tpList.length :=
    ofLE_toLE (by
      simp only [oneFrameLength, headerLength, frameInfoLength, emuTpLength] at long
      omega)
  have length : slice 0 2 data = some (toBE 2 messageLength) := by
    simpa [data, firstFrame, header] using @slice_append [] (toBE 2 messageLength)
      (([ttpMessageType] ++ toLE 2 groupId.toNat ++ toBE 2 sfId.toNat) ++
        (toLE 1 (frames + 1) ++ (toLE 1 number ++ (toLE 2 tpList.length ++ plans)))) 0 2 rfl
        (by simp)
  have loop : slice frameLoopCountOffset 1 data = some (toLE 1 (frames + 1)) :=
    slice_append (by simp) (by simp)
  have frameNumber : slice headerLength 1 data = some (toLE 1 number) := by
    simpa [data, firstFrame] using @slice_append (head ++ toLE 1 (frames + 1)) (toLE 1 number)
      (toLE 2 tpList.length ++ plans) headerLength 1
      (by simp [head, headerLength, frameLoopCountOffset]) (by simp)
  have count : slice (headerLength + 1) 2 data = some (toLE 2 tpList.length) := by
    simpa [data, firstFrame] using
      @slice_append (head ++ (toLE 1 (frames + 1) ++ toLE 1 number))
        (toLE 2 tpList.length) plans (headerLength + 1) 2
        (by simp [head, headerLength, frameLoopCountOffset]) (by simp)
  have walked : walkPlans talId number tpList.length (headerLength + frameInfoLength) data ∅ =
      some (handOut talId number tpList ∅,
        firstFrame groupId sfId messageLength (frames + 1) number
          (tpList.map (EmuTp.afterRead talId)) post) := by
    let pre := head ++ (toLE 1 (frames + 1) ++ (toLE 1 number ++ toLE 2 tpList.length))
    have at_plans := walkPlans_append talId number tpList pre post ∅
    have hpre : pre.length = headerLength + frameInfoLength := by
      simp [pre, head, headerLength, frameLoopCountOffset, frameInfoLength]
    rw [hpre] at at_plans
    simpa [data, firstFrame, pre] using at_plans
  simp only [oneFrameLength] at long
  have enough : ¬ messageLength < headerLength := by omega
  have room : ¬ messageLength - headerLength <
      frameInfoLength + tpList.length * emuTpLength := by
    rw [Nat.mul_comm]
    omega
  simp only [getTp, data, length, loop, Option.bind_some, hlength, hloop, if_neg enough,
    walkFrames, frameNumber, count, hcount, hnum, if_neg room, walked]

/-- With one frame number that is all there is to read. -/
theorem getTp_oneFrame (talId groupId sfId : UInt16) {number : Nat} (tpList : List EmuTp)
    (hnumber : number < 256) (fits : oneFrameLength tpList < 2 ^ 16) :
    getTp talId (oneFrame groupId sfId number tpList) =
      some (true, handOut talId number tpList ∅,
        oneFrame groupId sfId number (tpList.map (EmuTp.afterRead talId))) := by
  have same : oneFrameLength (tpList.map (EmuTp.afterRead talId)) = oneFrameLength tpList := by
    simp [oneFrameLength]
  rw [oneFrame, getTp_firstFrame talId groupId sfId tpList [] (by decide) hnumber fits le_rfl,
    oneFrame, same]
  rfl

end Ttp

/-! ### Plans that survive -/

/-- The offset and the assignment count are the same in both byte orders. -/
def TimePlan.Symmetric (plan : TimePlan) : Prop :=
  swapBytes 4 plan.offset.toUInt32.toNat = plan.offset.toUInt32.toNat ∧
    swapBytes 2 plan.assignmentCount.toNat = plan.assignmentCount.toNat

theorem TimePlan.emuTp_mine_iff (plan : TimePlan) (talId : UInt16) :
    plan.emuTp.Mine talId ↔ plan.talId = talId := by
  have number : ofBE (toBE 2 plan.talId.toNat) = plan.talId.toNat :=
    ofBE_toBE plan.talId.toNat_lt
  rw [EmuTp.Mine, TimePlan.emuTp, number, UInt16.toNat_inj]

/-- A plan is described by its conversion. -/
theorem TimePlan.describes_convert (plan : TimePlan) : plan.emuTp.convert.Describes plan where
  talId := ofBE_toBE plan.talId.toNat_lt
  offset := ofBE_toBE plan.offset.toUInt32.toNat_lt
  assignmentCount := ofBE_toBE plan.assignmentCount.toNat_lt
  fmtId := rfl
  priority := rfl

/-- Converted twice, a plan is described only if it is symmetric. -/
theorem TimePlan.describes_iff (plan : TimePlan) :
    plan.emuTp.Describes plan ↔ plan.Symmetric := by
  constructor
  · intro h
    exact ⟨h.offset, h.assignmentCount⟩
  · rintro ⟨offset, assignmentCount⟩
    exact ⟨ofBE_toBE plan.talId.toNat_lt, offset, assignmentCount, rfl, rfl⟩

/-- All plans are added for one frame number. -/
def OneFrame (plans : List TimePlan) : Prop :=
  ∀ plan ∈ plans, ∀ other ∈ plans, plan.frameId = other.frameId

theorem talId_of_addedPlan {plans : List TimePlan} {frame : Nat} {talId : UInt16} {plan : TimePlan}
    (h : addedPlan plans frame talId = some plan) : plan.talId = talId := by
  have mem := List.mem_of_getLast? h
  exact (of_decide_eq_true (List.mem_filter.mp mem).2).2

section Single

variable {plans : List TimePlan} {number : Nat}
  (single : ∀ plan ∈ plans, plan.frameId.toNat = number)
include single

theorem addedPlan_of_single (frame : Nat) (talId : UInt16) :
    addedPlan plans frame talId =
      if frame = number then (plans.filter fun plan => plan.talId = talId).getLast? else none := by
  unfold addedPlan
  by_cases here : frame = number
  · rw [if_pos here]
    congr 1
    apply List.filter_congr
    intro plan mem
    simp [single plan mem, here]
  · rw [if_neg here, List.getLast?_eq_none_iff, List.filter_eq_nil_iff]
    intro plan mem
    simp only [single plan mem, decide_eq_true_eq, not_and]
    exact fun h => absurd h.symm here

/-- The plans handed out when the last plan of the terminal was changed by `f`
since it was added. -/
theorem reports_iff_of_single (talId : UInt16) (f : EmuTp → EmuTp)
    (keeps : ∀ tp, (f tp).Mine talId ↔ tp.Mine talId) :
    Reports plans talId (Ttp.handOut talId number ((plans.map TimePlan.emuTp).map f) ∅) ↔
      ∀ plan, addedPlan plans number talId = some plan →
        (f plan.emuTp).convert.Describes plan := by
  have last : ((((plans.map TimePlan.emuTp).map f).filter (EmuTp.Mine talId)).getLast?) =
      ((plans.filter fun plan => plan.talId = talId).getLast?).map fun plan => f plan.emuTp := by
    rw [List.map_map, List.filter_map, List.getLast?_map]
    congr 2
    apply List.filter_congr
    intro plan _
    simp [keeps, plan.emuTp_mine_iff]
  have added := addedPlan_of_single single
  constructor
  · intro reports plan hplan
    obtain ⟨tp, htp, describes⟩ := (reports number).1 plan hplan
    rw [added, if_pos rfl] at hplan
    rw [Ttp.handOut_getElem?, if_pos rfl, last, hplan] at htp
    cases htp
    exact describes
  · intro describes frame
    rw [Ttp.handOut_getElem?, last]
    by_cases here : frame = number
    · subst here
      refine ⟨fun plan hplan => ⟨(f plan.emuTp).convert, ?_, describes plan hplan⟩, fun none => ?_⟩
      · rw [added, if_pos rfl] at hplan
        simp [hplan]
      · rw [added, if_pos rfl] at none
        simp [none]
    · simp [added, here]

/-- One frame is read back, and read back again, exactly when the plans handed
out are symmetric. -/
theorem roundTrips_iff_of_single (groupId sfId : UInt16) (some_plan : plans ≠ [])
    (byte : number < 256)
    (fits : Ttp.oneFrameLength (plans.map TimePlan.emuTp) < 2 ^ 16) :
    RoundTrips groupId sfId plans ↔
      ∀ talId plan, addedPlan plans number talId = some plan → plan.Symmetric := by
  let tpList := plans.map TimePlan.emuTp
  have built (junk : Nat → UInt16) : builtFrame groupId sfId junk plans =
      some (Ttp.oneFrame groupId sfId number tpList) :=
    Ttp.build_single groupId sfId junk (Ttp.added_data groupId sfId plans)
      (Ttp.added_toList_of_single groupId sfId some_plan single)
  have first (talId : UInt16) :=
    Ttp.getTp_oneFrame talId groupId sfId tpList byte fits
  have second (talId other : UInt16) := Ttp.getTp_oneFrame other groupId sfId
    (tpList.map (EmuTp.afterRead talId)) byte
    (by simpa [tpList, Ttp.oneFrameLength] using fits)
  have reported (talId : UInt16) : Reports plans talId (Ttp.handOut talId number tpList ∅) := by
    have unchanged := reports_iff_of_single single talId id fun _ => Iff.rfl
    rw [List.map_id] at unchanged
    exact unchanged.mpr fun plan _ => plan.describes_convert
  have again (talId : UInt16) := reports_iff_of_single single talId (EmuTp.afterRead talId)
    fun tp => tp.afterRead_mine talId talId
  constructor
  · intro roundTrips talId plan hplan
    obtain ⟨data, hdata, reads⟩ := roundTrips fun _ => 0
    rw [built, Option.some.injEq] at hdata
    subst hdata
    obtain ⟨tps, data', read, _, rereads⟩ := reads talId
    rw [first, Option.some.injEq] at read
    cases read
    obtain ⟨tps', data'', reread, reports⟩ := rereads talId
    rw [second, Option.some.injEq] at reread
    cases reread
    have describes := (again talId).mp reports plan hplan
    have mine := (plan.emuTp_mine_iff talId).mpr (talId_of_addedPlan hplan)
    rw [EmuTp.afterRead, if_pos mine, EmuTp.convert_convert] at describes
    exact plan.describes_iff.mp describes
  · intro symmetric junk
    refine ⟨_, built junk, fun talId => ⟨_, _, first talId, reported talId, fun other =>
      ⟨_, _, second talId other, ?_⟩⟩⟩
    apply (reports_iff_of_single single other (EmuTp.afterRead talId)
      fun tp => tp.afterRead_mine talId other).mpr
    intro plan hplan
    by_cases mine : plan.emuTp.Mine talId
    · rw [EmuTp.afterRead, if_pos mine, EmuTp.convert_convert]
      exact plan.describes_iff.mpr (symmetric other plan hplan)
    · rw [EmuTp.afterRead, if_neg mine]
      exact plan.describes_convert

end Single

/-- Without plans there is nothing to read. -/
theorem roundTrips_nil (groupId sfId : UInt16) : RoundTrips groupId sfId [] := by
  have none (talId : UInt16) : Reports [] talId ∅ := fun frame => by simp [addedPlan]
  intro junk
  exact ⟨(Ttp.new groupId sfId).data, rfl, fun talId => ⟨∅, _, rfl, none talId,
    fun other => ⟨∅, _, rfl, none other⟩⟩⟩

end OpenSand
