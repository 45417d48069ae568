import OpenSand.Dama.CapacitySafety

/-!
The first step of RBDC: every terminal gets the integer part of its fair share.

The shares are taken out of the total of the requests as it is kept, in 16 bits.
When it does not wrap they fit the remaining capacity; otherwise the ratio is too
low, and the grants may exceed the capacity.
-/

namespace OpenSand.Allocation

open OpenSand.Word OpenSand.FairShare Std

/-- The packets a terminal requests, when it can be served. -/
def rbdcPackets (format : Nat × Nat) (demand : Demand) : Option Nat :=
  demand.fmt.map fun fmt => packets format fmt demand.rbdcRequestKbps

theorem rbdcPackets_lt {format : Nat × Nat} {demand : Demand} {request : Nat}
    (h : rbdcPackets format demand = some request) : request < 2 ^ 16 := by
  rw [rbdcPackets, Option.map_eq_some_iff] at h
  obtain ⟨fmt, -, rfl⟩ := h
  exact UnitConverterFixedSymbolLength.kbpsToPktpf_lt _ _

/-! ### The requests -/

/-- The requests with the one of a terminal. -/
def RbdcRequests.add (format : Nat × Nat) (requests : RbdcRequests) (demand : Demand) :
    RbdcRequests :=
  match rbdcPackets format demand with
  | none => requests
  | some request =>
      { talRequestPktpf := requests.talRequestPktpf.insert demand.talId request
        totalRequestPktpf := addW 16 requests.totalRequestPktpf request }

theorem RbdcRequests.add_of_none {format : Nat × Nat} {demand : Demand}
    (h : rbdcPackets format demand = none) (requests : RbdcRequests) :
    requests.add format demand = requests := by
  rw [RbdcRequests.add, h]

theorem RbdcRequests.add_of_some {format : Nat × Nat} {demand : Demand} {request : Nat}
    (h : rbdcPackets format demand = some request) (requests : RbdcRequests) :
    requests.add format demand =
      ⟨requests.talRequestPktpf.insert demand.talId request,
        addW 16 requests.totalRequestPktpf request⟩ := by
  rw [RbdcRequests.add, h]

theorem rbdcRequest_spec (run : Allocation) (requests : RbdcRequests) (i : Nat) :
    Follows run (rbdcRequest (run, requests) i).1 [] ∧
      (rbdcRequest (run, requests) i).2 =
        ((run.demands[i]?).toList).foldl (RbdcRequests.add run.packetFormat) requests := by
  rw [demands, List.getElem?_map]
  unfold rbdcRequest
  cases run.terminals[i]? with
  | none => exact ⟨.refl run, rfl⟩
  | some terminal =>
      cases hfmt : terminal.fmt with
      | none =>
          have asked : rbdcPackets run.packetFormat terminal.demand = none :=
            congrArg (Option.map _) hfmt
          dsimp only
          rw [hfmt]
          exact ⟨.refl run, (RbdcRequests.add_of_none asked requests).symm⟩
      | some fmt =>
          have asked : rbdcPackets run.packetFormat terminal.demand =
              some (packets run.packetFormat fmt terminal.rbdcRequestKbps) :=
            congrArg (Option.map _) hfmt
          dsimp only
          rw [hfmt]
          exact ⟨.addRequest (.withEfficiency (.refl run) fmt),
            (RbdcRequests.add_of_some asked requests).symm⟩

theorem foldl_rbdcRequest (run : Allocation) (requests : RbdcRequests) (tal : List Nat) :
    Follows run (tal.foldl rbdcRequest (run, requests)).1 [] ∧
      (tal.foldl rbdcRequest (run, requests)).2 =
        (run.demandsAt tal).foldl (RbdcRequests.add run.packetFormat) requests := by
  induction tal generalizing run requests with
  | nil => exact ⟨.refl run, rfl⟩
  | cons i tal ih =>
      obtain ⟨follows, added⟩ := rbdcRequest_spec run requests i
      obtain ⟨follows', added'⟩ :=
        ih (rbdcRequest (run, requests) i).1 (rbdcRequest (run, requests) i).2
      refine ⟨follows.trans follows', ?_⟩
      rw [List.foldl_cons, added', added, follows.demandsAt, follows.packetFormat, demandsAt_cons,
        List.foldl_append]

/-- The total is the sum of the requests in 16 bits. -/
theorem foldl_add_totalRequestPktpf (format : Nat × Nat) (group : List Demand)
    {requests : RbdcRequests} (word : requests.totalRequestPktpf < 2 ^ 16) :
    (group.foldl (RbdcRequests.add format) requests).totalRequestPktpf =
      wrap 16 (requests.totalRequestPktpf + (group.filterMap (rbdcPackets format)).sum) := by
  induction group generalizing requests with
  | nil => exact (wrap_of_lt word).symm
  | cons demand group ih =>
      rw [List.foldl_cons, List.filterMap_cons]
      cases h : rbdcPackets format demand with
      | none => rw [RbdcRequests.add_of_none h, ih word]
      | some request =>
          rw [RbdcRequests.add_of_some h, ih (wrap_lt 16 _), List.sum_cons]
          simp only [addW, wrap, Nat.mod_add_mod, Nat.add_assoc]

theorem foldl_add_getD_of_notMem (format : Nat × Nat) {group : List Demand} {talId : Nat}
    (notMem : talId ∉ group.map (·.talId)) (requests : RbdcRequests) :
    (group.foldl (RbdcRequests.add format) requests).talRequestPktpf.getD talId 0 =
      requests.talRequestPktpf.getD talId 0 := by
  induction group generalizing requests with
  | nil => rfl
  | cons demand group ih =>
      rw [List.map_cons, List.mem_cons, not_or] at notMem
      rw [List.foldl_cons, ih notMem.2]
      cases h : rbdcPackets format demand with
      | none => rw [RbdcRequests.add_of_none h]
      | some request =>
          rw [RbdcRequests.add_of_some h]
          dsimp only
          rw [TreeMap.getD_insert, if_neg]
          intro same
          exact notMem.1 (Nat.compare_eq_eq.mp same).symm

/-- With one terminal for an identifier, the map gives its own request. -/
theorem foldl_add_getD {format : Nat × Nat} {group : List Demand}
    (nodup : (group.map (·.talId)).Nodup) (requests : RbdcRequests) {demand : Demand}
    (mem : demand ∈ group) {request : Nat} (h : rbdcPackets format demand = some request) :
    (group.foldl (RbdcRequests.add format) requests).talRequestPktpf.getD demand.talId 0 =
      request := by
  induction group generalizing requests with
  | nil => exact absurd mem List.not_mem_nil
  | cons first group ih =>
      rw [List.map_cons, List.nodup_cons] at nodup
      rw [List.foldl_cons]
      rcases List.mem_cons.mp mem with rfl | later
      · rw [foldl_add_getD_of_notMem format nodup.1, RbdcRequests.add_of_some h]
        exact TreeMap.getD_insert_self
      · exact ih nodup.2 _ later

/-! ### The integer shares -/

theorem rbdcInteger_of_none {requests : TreeMap Nat Nat} {ratio : ℚ} {run : Allocation} {i : Nat}
    (h : (run.demands[i]?).bind (rbdcPackets run.packetFormat) = none) :
    rbdcInteger requests ratio run i = run := by
  apply forServed_of_none
  cases hdemand : run.demands[i]? with
  | none => rfl
  | some demand =>
      rw [hdemand] at h
      exact Option.map_eq_none_iff.mp h

/-- A terminal is granted the integer part of its request divided by the ratio. -/
theorem rbdcInteger_of_some {requests : TreeMap Nat Nat} {ratio : ℚ} {run : Allocation} {i : Nat}
    {demand : Demand} {request : Nat} (hdemand : run.demands[i]? = some demand)
    (h : rbdcPackets run.packetFormat demand = some request) :
    Follows run (rbdcInteger requests ratio run i)
      [wrap 16 ⌊(requests.getD demand.talId 0 : ℚ) / ratio⌋₊] := by
  rw [rbdcPackets, Option.map_eq_some_iff] at h
  obtain ⟨fmt, hfmt, -⟩ := h
  obtain ⟨terminal, -, rfl, served⟩ := forServed_of_some hdemand hfmt
  rw [rbdcInteger, served]
  have follows := (Follows.refl run).withEfficiency fmt
  dsimp only
  split
  · exact .update (fun _ => rfl) (.charge (.grant (.addAlloc (.update (fun _ => rfl) follows))))
  · exact .charge (.grant (.addAlloc (.update (fun _ => rfl) follows)))

/-- The requests of a group at the positions of the loop. -/
def requestsAt (run : Allocation) (tal : List Nat) : List Nat :=
  (run.demandsAt tal).filterMap (rbdcPackets run.packetFormat)

/-- The first step grants the shares of the requests, in the order of the loop. -/
theorem foldl_rbdcInteger {requests : TreeMap Nat Nat} {total capacity : Nat}
    (hcapacity : 0 < capacity) (tal : List Nat) {run : Allocation}
    (recorded : ∀ demand ∈ run.demandsAt tal, ∀ request,
      rbdcPackets run.packetFormat demand = some request →
        requests.getD demand.talId 0 = request) :
    Follows run (tal.foldl (rbdcInteger requests (fairShare total capacity)) run)
      ((run.requestsAt tal).map (share total capacity)) := by
  induction tal generalizing run with
  | nil => exact .refl run
  | cons i tal ih =>
      rw [List.foldl_cons, requestsAt, demandsAt_cons, List.filterMap_append, List.map_append]
      rw [demandsAt_cons] at recorded
      have head : Follows run (rbdcInteger requests (fairShare total capacity) run i)
          (((run.demands[i]?).toList.filterMap (rbdcPackets run.packetFormat)).map
            (share total capacity)) := by
        cases hdemand : run.demands[i]? with
        | none =>
            rw [rbdcInteger_of_none (by rw [hdemand]; rfl)]
            exact .refl run
        | some demand =>
            rw [Option.toList_some, List.filterMap_cons, List.filterMap_nil]
            cases asked : rbdcPackets run.packetFormat demand with
            | none =>
                rw [rbdcInteger_of_none (by rw [hdemand]; exact asked)]
                exact .refl run
            | some request =>
                have follows := @rbdcInteger_of_some requests (fairShare total capacity) run i
                  demand request hdemand asked
                rw [recorded demand (by simp [hdemand]) request asked, fairShare,
                  floor_div_ratio request hcapacity, wrap_of_lt] at follows
                · exact follows
                · exact (share_le total capacity request).trans_lt (rbdcPackets_lt asked)
      refine head.trans ?_
      have rest := @ih (rbdcInteger requests (fairShare total capacity) run i)
      rw [requestsAt, head.demandsAt, head.packetFormat] at rest
      apply rest
      intro demand mem
      exact recorded demand (List.mem_append_right _ mem)

end OpenSand.Allocation
