import OpenSand.Dvb.TtpRoundTrip

/-!
The plans that a TTP carries, and what a terminal reads of them.

`plans` follows the layout of the frame: each frame number starts behind the plans of the
former one. `getTp` steps over the plans but not over the header in front of them, so it
reads what is carried when there is one frame number at most; `getTp_oneFrame_reads` says
what it hands out then.
-/

namespace OpenSand

open OpenSand.Bytes Std

/-- A plan is read in the bytes from its offset on. -/
theorem EmuTp.read_congr {off : Nat} {data data' : Data} (same : data'.drop off = data.drop off) :
    EmuTp.read off data' = EmuTp.read off data := by
  have length := congrArg List.length same
  have behind (n : Nat) : data'.drop (off + n) = data.drop (off + n) := by
    rw [← List.drop_drop, same, List.drop_drop]
  have byte (n : Nat) : data'.getD (off + n) 0 = data.getD (off + n) 0 := by
    have one := congrArg (fun bytes => bytes.head?.getD 0) (behind n)
    simpa [List.head?_drop] using one
  simp only [List.length_drop] at length
  have room : off + emuTpLength ≤ data'.length ↔ off + emuTpLength ≤ data.length := by
    rw [emuTpLength]
    omega
  simp only [EmuTp.read, room, same, behind, byte]

namespace Ttp

/-! ### The plans of a frame -/

/-- Plans laid out one after the other. -/
def readPlans : Nat → Nat → Data → Option (List EmuTp)
  | 0, _, _ => some []
  | count + 1, off, data =>
      (EmuTp.read off data).bind fun tp =>
        (readPlans count (off + emuTpLength) data).map (tp :: ·)

/-- The frames laid out one after the other. -/
def readFrames : Nat → Nat → Nat → Data → Option (List EmuTp)
  | 0, _, _, _ => some []
  | count + 1, start, length, data =>
      (slice (start + 1) 2 data).bind fun tpLoopCount =>
        let tpCount := ofLE tpLoopCount
        if length < frameInfoLength + tpCount * emuTpLength then none
        else
          (readPlans tpCount (start + frameInfoLength) data).bind fun plans =>
            (readFrames count (start + frameInfoLength + tpCount * emuTpLength)
              (length - frameInfoLength - tpCount * emuTpLength) data).map (plans ++ ·)

/-- The plans of a TTP, unless it is shorter than what it announces. -/
def plans (data : Data) : Option (List EmuTp) :=
  (slice 0 2 data).bind fun messageLength =>
    let length := ofBE messageLength
    if length < headerLength then none
    else
      (slice frameLoopCountOffset 1 data).bind fun frameLoopCount =>
        readFrames (ofLE frameLoopCount) headerLength (length - headerLength) data

/-- The plans carried for a terminal. -/
def carried (talId : UInt16) (data : Data) : List EmuTp :=
  ((plans data).getD []).filter (EmuTp.Mine talId)

def getGroupId (data : Data) : Option Nat := (slice 3 2 data).map ofLE

/-- The TTP has one frame number at most. -/
def OneFrame (data : Data) : Prop :=
  ∀ frameLoopCount, slice frameLoopCountOffset 1 data = some frameLoopCount →
    ofLE frameLoopCount ≤ 1

/-! ### What is read of one frame -/

theorem readPlans_congr {count off : Nat} {data data' : Data}
    (same : data'.drop off = data.drop off) :
    readPlans count off data' = readPlans count off data := by
  induction count generalizing off with
  | zero => rfl
  | succ count ih =>
      have behind : data'.drop (off + emuTpLength) = data.drop (off + emuTpLength) := by
        rw [← List.drop_drop, same, List.drop_drop]
      simp only [readPlans, EmuTp.read_congr same, ih behind]

/-- The walk over plans reads them all, although it converts some on the way. -/
theorem walkPlans_reads {talId : UInt16} {number count off : Nat} {data data' : Data}
    {tps tps' : TreeMap Nat EmuTp}
    (walked : walkPlans talId number count off data tps = some (tps', data')) :
    ∃ tpList, readPlans count off data = some tpList ∧ tps' = handOut talId number tpList tps := by
  induction count generalizing off data tps with
  | zero =>
      cases walked
      exact ⟨[], rfl, rfl⟩
  | succ count ih =>
      obtain ⟨tp, read, rest⟩ := Option.bind_eq_some_iff.mp walked
      by_cases mine : tp.Mine talId
      · rw [if_pos mine] at rest
        obtain ⟨next, patched, rest'⟩ := Option.bind_eq_some_iff.mp rest
        obtain ⟨tpList, reads, out⟩ := ih rest'
        have behind := patch_drop patched
        rw [EmuTp.bytes_length] at behind
        rw [readPlans_congr behind] at reads
        refine ⟨tp :: tpList, by rw [readPlans, read, Option.bind_some, reads]; rfl, ?_⟩
        rw [out]
        simp [handOut, mine]
      · rw [if_neg mine] at rest
        obtain ⟨tpList, reads, out⟩ := ih rest
        refine ⟨tp :: tpList, by rw [readPlans, read, Option.bind_some, reads]; rfl, ?_⟩
        rw [out]
        simp [handOut, mine]

/-- A map with one key at most. -/
theorem toList_of_single {α : Type} {map : TreeMap Nat α} {number : Nat} {value : Option α}
    (single : ∀ key, map[key]? = if key = number then value else none) :
    map.toList = (value.map (number, ·)).toList := by
  have member (entry : Nat × α) : entry ∈ map.toList ↔ value.map (number, ·) = some entry := by
    obtain ⟨key, held⟩ := entry
    rw [TreeMap.mem_toList_iff_getElem?_eq_some, single]
    by_cases here : key = number
    · subst here
      simp
    · cases value <;> simp [here, Ne.symm here]
  have distinct := map.distinct_keys_toList
  cases hlist : map.toList with
  | nil =>
      cases hvalue : value with
      | none => rfl
      | some held =>
          have here := (member (number, held)).mpr (by rw [hvalue]; rfl)
          rw [hlist] at here
          cases here
  | cons first rest =>
      rw [hlist] at member distinct
      have hfirst := (member first).mp List.mem_cons_self
      have hrest : rest = [] := by
        apply List.eq_nil_iff_forall_not_mem.mpr
        intro entry mem
        have hentry := (member entry).mp (List.mem_cons_of_mem _ mem)
        have apart := (List.pairwise_cons.mp distinct).1 entry mem
        rw [hfirst] at hentry
        cases hentry
        exact apart (Nat.compare_eq_eq.mpr rfl)
      rw [hfirst, hrest]
      rfl

/-- Reading a TTP of one frame number hands out the last plan carried for the terminal; a
TTP that is refused carries none. -/
theorem getTp_oneFrame_reads {talId : UInt16} {data data' : Data} {ok : Bool}
    {tps : TreeMap Nat EmuTp} (one : OneFrame data)
    (read : getTp talId data = some (ok, tps, data')) :
    if ok then tps.toList.map Prod.snd = ((carried talId data).getLast?.map EmuTp.convert).toList
    else carried talId data = [] := by
  obtain ⟨messageLength, hlength, rest⟩ := Option.bind_eq_some_iff.mp read
  by_cases short : ofBE messageLength < headerLength
  · simp only [if_pos short] at rest
    cases rest
    simp [carried, plans, hlength, short]
  simp only [if_neg short] at rest
  obtain ⟨frameLoopCount, hcount, walked⟩ := Option.bind_eq_some_iff.mp rest
  have plans_eq : plans data =
      readFrames (ofLE frameLoopCount) headerLength (ofBE messageLength - headerLength) data := by
    simp [plans, hlength, short, hcount]
  have few := one frameLoopCount hcount
  rcases Nat.le_one_iff_eq_zero_or_eq_one.mp few with none | single
  · rw [none] at walked plans_eq
    cases walked
    simp only [carried, plans_eq, readFrames, if_true]
    rfl
  · rw [single] at walked plans_eq
    obtain ⟨number, hnumber, walked⟩ := Option.bind_eq_some_iff.mp walked
    obtain ⟨tpLoopCount, htp, walked⟩ := Option.bind_eq_some_iff.mp walked
    simp only [readFrames, htp, Option.bind_some] at plans_eq
    by_cases small : ofBE messageLength - headerLength <
        frameInfoLength + ofLE tpLoopCount * emuTpLength
    · simp only [if_pos small] at walked plans_eq
      cases walked
      simp [carried, plans_eq]
    · simp only [if_neg small] at walked plans_eq
      obtain ⟨⟨tps', _⟩, plansWalked, last⟩ := Option.bind_eq_some_iff.mp walked
      cases last
      obtain ⟨tpList, reads, rfl⟩ := walkPlans_reads plansWalked
      have list : carried talId data = tpList.filter (EmuTp.Mine talId) := by
        simp [carried, plans_eq, reads]
      have single (key : Nat) : (handOut talId (ofLE number) tpList ∅)[key]? =
          if key = ofLE number then
            ((tpList.filter (EmuTp.Mine talId)).getLast?).map EmuTp.convert
          else none := by
        rw [handOut_getElem?]
        simp
      rw [if_pos rfl, list, toList_of_single single]
      cases (tpList.filter (EmuTp.Mine talId)).getLast? <;> rfl

end Ttp

end OpenSand
