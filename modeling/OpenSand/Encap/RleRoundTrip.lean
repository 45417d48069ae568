import OpenSand.Encap.SimpleRle
import OpenSand.Lib.Run
import OpenSand.Lib.Word

/-!
The RLE round trip.

At most one packet is sent partially, the next one, and the receiver of its source and
destination holds what was sent of it, the pieces in the frame under construction counted.
The frame is deencapsulated by the receiver that its label names: `nextFrame_linked` needs
that all its pieces come from packets of the source and destination of the label, and that
the packets it completes have the QoS of the label.
-/

namespace OpenSand.Rle

open Fragment

variable {lib : Librle}

/-! ### Labels -/

@[simp] theorem getLabel_length (packet : NetPacket) : (getLabel packet).length = LABEL_SIZE := rfl

theorem getLabel_ne_nil (packet : NetPacket) : getLabel packet ≠ [] := nofun

/-- The transmitter or the receiver of a packet. -/
def identifierOf (packet : NetPacket) : RleIdentifier := (packet.srcTalId, packet.dstTalId)

variable {documented : lib.Documented} {packet opener : NetPacket}

/-- The fields of a packet that can be carried pass the checks. -/
theorem Link.Carried.masked (carried : Link.Carried documented packet) :
    packet.srcTalId &&& 0x1F = packet.srcTalId ∧ packet.dstTalId &&& 0x1F = packet.dstTalId ∧
      packet.qos &&& 0x07 = packet.qos := by
  obtain ⟨src, dst, qos, _, _⟩ := carried
  refine ⟨?_, ?_, ?_⟩
  · exact (Word.and_mask_eq_iff (w := 5)).mpr (Nat.lt_succ_of_le src)
  · exact (Word.and_mask_eq_iff (w := 5)).mpr (Nat.lt_succ_of_le dst)
  · exact (Word.and_mask_eq_iff (w := 3)).mpr (Nat.lt_succ_of_le qos)

/-- The fields read in the label of a packet are its own. -/
theorem Link.Carried.read (carried : Link.Carried documented packet) (rest : List UInt8) :
    ((getLabel packet ++ rest).getD 0 0).toNat = packet.srcTalId ∧
    ((getLabel packet ++ rest).getD 1 0).toNat = packet.dstTalId ∧
    ((getLabel packet ++ rest).getD 2 0).toNat = packet.qos := by
  obtain ⟨src, dst, qos, _, _⟩ := carried
  exact ⟨Word.byte_of_five_bits src, Word.byte_of_five_bits dst,
    Word.byte_of_five_bits (by omega)⟩

theorem behindLabel_add {remainingLength : UInt64} {newBurst : Bool}
    (room : newBurst = true → LABEL_SIZE ≤ remainingLength.toNat) :
    (if newBurst then getLabel packet else []).length +
      (behindLabel remainingLength newBurst).toNat = remainingLength.toNat := by
  cases newBurst with
  | false => simp [behindLabel]
  | true =>
      have label : (UInt64.ofNat LABEL_SIZE).toNat = LABEL_SIZE := rfl
      have enough : UInt64.ofNat LABEL_SIZE ≤ remainingLength :=
        UInt64.le_iff_toNat_le.mpr (room rfl)
      rw [behindLabel, if_pos rfl, if_pos rfl, UInt64.toNat_sub_of_le _ _ enough, label,
        getLabel_length]
      exact Nat.add_sub_of_le (room rfl)

/-! ### Transmitters -/

@[simp] theorem PacketHandler.context_store (handler : PacketHandler lib)
    (identifier other : RleIdentifier) (context : lib.Transmitter × List Nat) :
    (handler.store identifier context).context other =
      if other = identifier then context else handler.context other := by
  by_cases same : other = identifier
  · subst same
    simp [PacketHandler.context, PacketHandler.store]
  · simp [PacketHandler.context, PacketHandler.store, same]

/-- What the transmitters have to send. -/
def PacketHandler.cuts (documented : lib.Documented) (handler : PacketHandler lib)
    (key : RleIdentifier × Nat) : Option (Cut UInt8) :=
  documented.cut (handler.context key.1).1 key.2

theorem PacketHandler.cuts_store {handler : PacketHandler lib} {identifier : RleIdentifier}
    {transmitter : lib.Transmitter} {fragId : Nat} {cut : Option (Cut UInt8)}
    (changed : documented.cut transmitter =
      Function.update (documented.cut (handler.context identifier).1) fragId cut)
    (sentPackets : List Nat) :
    (handler.store identifier (transmitter, sentPackets)).cuts documented =
      Function.update (handler.cuts documented) (identifier, fragId) cut := by
  funext ⟨other, otherId⟩
  by_cases same : other = identifier
  · subst same
    by_cases sameId : otherId = fragId
    · subst sameId
      simp [PacketHandler.cuts, changed]
    · simp [PacketHandler.cuts, changed, sameId]
  · simp [PacketHandler.cuts, same]

/-- A packet is all that was sent partially, or nothing was. -/
structure Begun (documented : lib.Documented) (handler : PacketHandler lib) (id : Nat)
    (packet : NetPacket) (position : Option (Cut UInt8)) : Prop where
  cuts : handler.cuts documented =
    Function.update (fun _ => none) (identifierOf packet, packet.qos) position
  sent : ∀ identifier, (handler.context identifier).2 =
    if identifier = identifierOf packet ∧ position.isSome then [id] else []
  whole : ∀ cut ∈ position, cut.sofar ++ cut.left = packet.data

variable {handler : PacketHandler lib} {id : Nat} {position : Option (Cut UInt8)}

/-- When nothing was sent partially, any packet may be the next one. -/
theorem Begun.other (begun : Begun documented handler id packet none) (id' : Nat)
    (packet' : NetPacket) : Begun documented handler id' packet' none where
  cuts := by rw [begun.cuts, Function.update_eq_self_iff.mpr rfl, Function.update_eq_self_iff.mpr rfl]
  sent identifier := by simpa using begun.sent identifier
  whole := nofun

/-- A packet of which nothing was cut. -/
def fresh (packet : NetPacket) : Cut UInt8 := .ofWhole packet.data

theorem Begun.getD_whole (begun : Begun documented handler id packet position) :
    (position.getD (fresh packet)).sofar ++ (position.getD (fresh packet)).left = packet.data := by
  cases position with
  | none => rfl
  | some cut => exact begun.whole cut rfl

/-- The transmitter of the next packet has it to send. -/
theorem Begun.encapsulated (begun : Begun documented handler id packet position)
    (carried : Link.Carried documented packet) :
    ∃ transmitter, handler.encapsulated id packet = some transmitter ∧
      documented.cut transmitter =
        Function.update (documented.cut (handler.context (identifierOf packet)).1) packet.qos
          (some (position.getD (fresh packet))) := by
  have here := congrFun begun.cuts (identifierOf packet, packet.qos)
  have sent := begun.sent (identifierOf packet)
  rw [Function.update_self] at here
  rw [PacketHandler.encapsulated]
  cases position with
  | none =>
      have unsent : id ∉ (handler.context (identifierOf packet)).2 := by simp [sent]
      obtain ⟨transmitter, encapsulated, cut⟩ := documented.encapsulate
        (handler.context (identifierOf packet)).1 packet.data packet.qos
        (Nat.lt_succ_of_le carried.qos) here carried.some_data carried.short
      exact ⟨transmitter, (if_neg unsent).trans encapsulated, cut⟩
  | some cut =>
      have partly : id ∈ (handler.context (identifierOf packet)).2 := by simp [sent]
      refine ⟨(handler.context (identifierOf packet)).1, if_pos partly, ?_⟩
      exact (Function.update_eq_self_iff.mpr here.symm).symm

theorem updateSent_begun (id : Nat) (begun partialEncap : Bool) :
    updateSent (if begun then [id] else []) id partialEncap = if partialEncap then [id] else [] := by
  cases begun <;> cases partialEncap <;> simp [updateSent]

/-- The next packet is sent up to a new position. -/
theorem Begun.store (begun : Begun documented handler id packet position)
    {transmitter : lib.Transmitter} {position' : Option (Cut UInt8)}
    (changed : documented.cut transmitter = Function.update
      (documented.cut (handler.context (identifierOf packet)).1) packet.qos position')
    (whole : ∀ cut ∈ position', cut.sofar ++ cut.left = packet.data) :
    Begun documented (handler.store (identifierOf packet) (transmitter,
      updateSent (handler.context (identifierOf packet)).2 id position'.isSome)) id packet
      position' where
  cuts := by rw [PacketHandler.cuts_store changed, begun.cuts, Function.update_idem]
  sent identifier := by
    have before := begun.sent (identifierOf packet)
    rw [PacketHandler.context_store]
    by_cases same : identifier = identifierOf packet
    · simp only [same, true_and, if_true] at before ⊢
      rw [before, updateSent_begun]
    · simp only [same, false_and, if_false]
      rw [begun.sent, if_neg (fun both => same both.1)]
  whole := whole

/-- What an encapsulation of the next packet gives: nothing where there is no room, or a
piece of what is left of the packet, behind the label in a new burst. -/
inductive Piece (documented : lib.Documented) (id : Nat) (packet : NetPacket) (cut : Cut UInt8)
    (remainingLength : UInt64) (newBurst : Bool) : EncapResult lib → Prop where
  | noRoom {handler' : PacketHandler lib} :
      Begun documented handler' id packet (some cut) →
      Piece documented id packet cut remainingLength newBurst ⟨true, handler', none, true⟩
  | piece {handler' : PacketHandler lib} {ppdu data left : List UInt8} {last : Bool} :
      ppdu.length ≤ (behindLabel remainingLength newBurst).toNat → 3 ≤ ppdu.length →
      cut.left = data ++ left → (last = true → left = []) →
      documented.Reads ppdu ⟨packet.qos, !cut.started, last, data⟩ →
      Begun documented handler' id packet
        (if last then none else some (.begun (cut.sofar ++ data) left)) →
      Piece documented id packet cut remainingLength newBurst
        ⟨true, handler', some ((if newBurst then getLabel packet else []) ++ ppdu), !last⟩

theorem encapNextPacket_begun (begun : Begun documented handler id packet position)
    (carried : Link.Carried documented packet) (remainingLength : UInt64) (newBurst : Bool) :
    Piece documented id packet (position.getD (fresh packet)) remainingLength newBurst
      (encapNextPacket handler id packet remainingLength newBurst) := by
  obtain ⟨transmitter, encapsulated, queued⟩ := begun.encapsulated carried
  have here : documented.cut transmitter packet.qos = some (position.getD (fresh packet)) := by
    rw [queued, Function.update_self]
  have whole := begun.getD_whole
  have masks : ¬ (packet.srcTalId &&& 0x1F ≠ packet.srcTalId ∨
      packet.dstTalId &&& 0x1F ≠ packet.dstTalId ∨ packet.qos &&& 0x07 ≠ packet.qos) := by
    rw [carried.masked.1, carried.masked.2.1, carried.masked.2.2]
    simp
  generalize position.getD (fresh packet) = cut at here queued whole ⊢
  rw [encapNextPacket, if_neg masks]
  simp only [encapsulated]
  rcases documented.fragment transmitter packet.qos
      (behindLabel remainingLength newBurst).toNat cut (Nat.lt_succ_of_le carried.qos) here with
    ⟨transmitter', noRoom, same⟩ | ⟨ppdu, transmitter', data, left, last, cutOff, short, long,
      split, ends, reads, after⟩
  · have stored := @Begun.store _ documented packet handler id position begun transmitter'
      (some cut) (same.trans queued) (fun _ is => by cases is; exact whole)
    rw [noRoom]
    exact .noRoom stored
  · rw [queued, Function.update_idem] at after
    have pending : decide (0 < lib.queueSize transmitter' packet.qos) = !last := by
      have queue := documented.queueSize transmitter' packet.qos (Nat.lt_succ_of_le carried.qos)
      rw [after, Function.update_self] at queue
      cases last with
      | false => simpa using queue
      | true => simpa using queue
    have rest : ∀ next ∈ (if last then none else some (.begun (cut.sofar ++ data) left) :
        Option (Cut UInt8)), next.sofar ++ next.left = packet.data := by
      intro next is
      cases last with
      | false =>
          cases is
          rw [Cut.begun_whole, List.append_assoc, ← split, whole]
      | true => cases is
    have stored := begun.store after rest
    rw [cutOff]
    simp only [documented.pack, pending]
    refine .piece short long split ends reads ?_
    cases last with
    | false => exact stored
    | true => exact stored

/-- Where there is no room, nothing is put in the frame. -/
theorem encapNextPacket_noRoom {remainingLength : UInt64} {newBurst : Bool}
    {transmitter : lib.Transmitter}
    (encapsulated : handler.encapsulated id packet = some transmitter)
    (noRoom : (lib.fragment transmitter packet.qos
      (behindLabel remainingLength newBurst).toNat).isBurstTooSmall) :
    (encapNextPacket handler id packet remainingLength newBurst).encapPacket = none := by
  rw [encapNextPacket]
  split
  · rfl
  · simp only [encapsulated]
    split
    · rfl
    · rfl
    · rename_i ppdu _ found
      rw [found] at noRoom
      cases noRoom

/-! ### Receivers -/

/-- What the receivers hold. -/
def Context.held (documented : lib.Documented) (context : Context lib)
    (key : RleIdentifier × Nat) : Option (List UInt8) :=
  documented.held (context.receiver key.1) key.2

/-- A frame under construction: PPDUs behind the label of the packet that opened it. The
receiver of that packet will make `inFrame` of them and then hold `mid`. -/
structure Opened (documented : lib.Documented) (context : Context lib) (opener : NetPacket)
    (ppdus : List (List UInt8)) (inFrame : List NetPacket) (mid : Held Nat UInt8) : Prop where
  carried : Link.Carried documented opener
  long : ∀ ppdu ∈ ppdus, 3 ≤ ppdu.length
  own : ∀ packet ∈ inFrame, identifierOf packet = identifierOf opener ∧ packet.data ≠ []
  read : ∃ fragments, List.Forall₂ documented.Reads ppdus fragments ∧
    acceptAll (documented.held (context.receiver (identifierOf opener))) fragments =
      some (inFrame.map NetPacket.data, mid)

/-- What all the receivers will hold once the one of `opener` holds `mid`. -/
def Context.heldAfter (documented : lib.Documented) (context : Context lib) (opener : NetPacket)
    (mid : Held Nat UInt8) (key : RleIdentifier × Nat) : Option (List UInt8) :=
  if key.1 = identifierOf opener then mid key.2 else context.held documented key

variable {context : Context lib} {ppdus : List (List UInt8)} {inFrame : List NetPacket}
  {mid : Held Nat UInt8}

/-- A packet opens a frame. -/
theorem Opened.open (carried : Link.Carried documented packet) :
    Opened documented context packet [] []
      (documented.held (context.receiver (identifierOf packet))) where
  carried := carried
  long := nofun
  own := nofun
  read := ⟨[], .nil, rfl⟩

/-- A piece of a packet of the same source and destination is put in the frame. -/
theorem Opened.push (opened : Opened documented context opener ppdus inFrame mid)
    (same : identifierOf packet = identifierOf opener)
    (carried : Link.Carried documented packet) {cut : Cut UInt8} {ppdu data left : List UInt8}
    {last : Bool} (here : mid packet.qos = cut.held)
    (whole : cut.sofar ++ cut.left = packet.data) (split : cut.left = data ++ left)
    (ends : last = true → left = []) (long : 3 ≤ ppdu.length)
    (reads : documented.Reads ppdu ⟨packet.qos, !cut.started, last, data⟩) :
    Opened documented context opener (ppdus ++ [ppdu])
      (inFrame ++ if last then [packet] else [])
      (Function.update mid packet.qos (if last then none else some (cut.sofar ++ data))) where
  carried := opened.carried
  long := by
    intro other mem
    rcases List.mem_append.mp mem with before | new
    · exact opened.long other before
    · rw [List.mem_singleton.mp new]
      exact long
  own := by
    intro other mem
    rcases List.mem_append.mp mem with before | new
    · exact opened.own other before
    · cases last with
      | false => cases new
      | true =>
          rw [List.mem_singleton.mp new]
          exact ⟨same, carried.some_data⟩
  read := by
    obtain ⟨fragments, read, accepted⟩ := opened.read
    refine ⟨fragments ++ [⟨packet.qos, !cut.started, last, data⟩],
      List.rel_append read (.cons reads .nil), ?_⟩
    have next := acceptAll_single (accept_next here split last ends)
    have both := acceptAll_append accepted next
    rw [both]
    cases last with
    | false => simp
    | true => simp [whole]

theorem buildPackets_eq {src dst qos : Nat} {packets : List NetPacket}
    (own : ∀ packet ∈ packets, packet.srcTalId = src ∧ packet.dstTalId = dst ∧
      packet.qos = qos ∧ packet.data ≠ []) :
    buildPackets src dst qos (packets.map NetPacket.data) = packets := by
  induction packets with
  | nil => rfl
  | cons packet packets ih =>
      obtain ⟨rfl, rfl, rfl, some_data⟩ := own packet List.mem_cons_self
      have rest := ih fun other mem => own other (List.mem_cons_of_mem _ mem)
      rw [buildPackets] at rest ⊢
      rw [List.map_cons, List.takeWhile_cons_of_pos (by simpa using some_data), List.map_cons, rest]

theorem mul_length_le_flatten (long : ∀ ppdu ∈ ppdus, 3 ≤ ppdu.length) :
    3 * ppdus.length ≤ ppdus.flatten.length := by
  induction ppdus with
  | nil => exact Nat.le_refl _
  | cons ppdu ppdus ih =>
      have first := long ppdu List.mem_cons_self
      have others := ih fun other mem => long other (List.mem_cons_of_mem _ mem)
      rw [List.flatten_cons, List.length_append, List.length_cons]
      omega

/-- A frame long enough, whose packets have the QoS of its label, gives its packets. -/
theorem Opened.decap (opened : Opened documented context opener ppdus inFrame mid)
    (some_ppdu : LABEL_SIZE + ALPDU_HEADER_SIZE < (getLabel opener ++ ppdus.flatten).length)
    (qos : ∀ packet ∈ inFrame, opener.qos = packet.qos) :
    ∃ context', decapNextPacket context (getLabel opener ++ ppdus.flatten) = (inFrame, context') ∧
      context'.held documented = context.heldAfter documented opener mid := by
  obtain ⟨fragments, read, accepted⟩ := opened.read
  obtain ⟨src, dst, label_qos⟩ := opened.carried.read ppdus.flatten
  have few : (inFrame.map NetPacket.data).length ≤
      (getLabel opener ++ ppdus.flatten).length / LABEL_SIZE := by
    have units := acceptAll_length accepted
    have pieces := mul_length_le_flatten opened.long
    rw [← read.length_eq] at units
    rw [List.length_append, getLabel_length, Nat.le_div_iff_mul_le (by decide), LABEL_SIZE]
    omega
  obtain ⟨receiver, decapsulated, held⟩ := documented.decapsulate
    (context.receiver (identifierOf opener)) (getLabel opener) ppdus fragments _ _ _ rfl read
    accepted few
  have masks : ¬ (opener.srcTalId &&& 0x1F ≠ opener.srcTalId ∨
      opener.dstTalId &&& 0x1F ≠ opener.dstTalId ∨ opener.qos &&& 0x07 ≠ opener.qos) := by
    rw [opened.carried.masked.1, opened.carried.masked.2.1, opened.carried.masked.2.2]
    simp
  have built : buildPackets opener.srcTalId opener.dstTalId opener.qos
      (inFrame.map NetPacket.data) = inFrame := by
    refine buildPackets_eq fun packet mem => ?_
    obtain ⟨same, some_data⟩ := opened.own packet mem
    obtain ⟨same_src, same_dst⟩ := Prod.mk.inj same
    exact ⟨same_src, same_dst, (qos packet mem).symm, some_data⟩
  rw [identifierOf] at decapsulated
  refine ⟨⟨Function.update context.receivers (identifierOf opener) (some receiver)⟩, ?_, ?_⟩
  · rw [decapNextPacket, if_neg (Nat.not_le.mpr some_ppdu)]
    rw [src, dst, label_qos, if_neg masks, decapsulated]
    simp only [Option.getD_some, built]
    rfl
  · funext ⟨identifier, fragId⟩
    rw [Context.heldAfter]
    by_cases here : identifier = identifierOf opener
    · subst here
      simp [Context.held, Context.receiver, held]
    · simp [Context.held, Context.receiver, here]

/-! ### From a terminal to the gateway -/

/-- The receivers hold this once the frame under construction is deencapsulated. -/
inductive Framed (documented : lib.Documented) (context : Context lib) :
    List UInt8 → List NetPacket → (RleIdentifier × Nat → Option (List UInt8)) → Prop where
  | empty : Framed documented context [] [] (context.held documented)
  | opened {opener : NetPacket} {ppdus : List (List UInt8)} {inFrame : List NetPacket}
      {mid : Held Nat UInt8} :
      Opened documented context opener ppdus inFrame mid →
      Framed documented context (getLabel opener ++ ppdus.flatten) inFrame
        (context.heldAfter documented opener mid)

/-- A frame that is empty, or labelled with the source and destination of a packet, is
opened by a packet of them; an empty one by this packet. -/
theorem Framed.open {frame : List UInt8} {held : RleIdentifier × Nat → Option (List UInt8)}
    (framed : Framed documented context frame inFrame held)
    (carried : Link.Carried documented packet)
    (labelled : frame ≠ [] → (frame.getD 0 0).toNat = packet.srcTalId ∧
      (frame.getD 1 0).toNat = packet.dstTalId) :
    ∃ opener ppdus mid, Opened documented context opener ppdus inFrame mid ∧
      identifierOf packet = identifierOf opener ∧
      frame ++ (if frame = [] then getLabel packet else []) = getLabel opener ++ ppdus.flatten ∧
      held = context.heldAfter documented opener mid := by
  cases framed with
  | empty =>
      refine ⟨packet, [], _, .open carried, rfl, rfl, funext fun ⟨identifier, fragId⟩ => ?_⟩
      rw [Context.heldAfter]
      split
      · rename_i same
        cases same
        rfl
      · rfl
  | @opened opener ppdus _ mid opened =>
      have some_frame : getLabel opener ++ ppdus.flatten ≠ [] :=
        List.append_ne_nil_of_left_ne_nil (getLabel_ne_nil opener) _
      obtain ⟨src, dst, _⟩ := opened.carried.read ppdus.flatten
      obtain ⟨same_src, same_dst⟩ := labelled some_frame
      refine ⟨opener, ppdus, mid, opened, ?_, ?_, rfl⟩
      · rw [identifierOf, identifierOf, ← same_src, ← same_dst, src, dst]
      · rw [if_neg some_frame, List.append_nil]

theorem Context.heldAfter_update (same : identifierOf packet = identifierOf opener) (fragId : Nat)
    (unit : Option (List UInt8)) :
    context.heldAfter documented opener (Function.update mid fragId unit) =
      Function.update (context.heldAfter documented opener mid) (identifierOf packet, fragId) unit := by
  funext ⟨identifier, other⟩
  by_cases here : identifier = identifierOf packet
  · subst here
    by_cases sameId : other = fragId
    · subst sameId
      simp [Context.heldAfter, same]
    · simp [Context.heldAfter, same, sameId]
  · simp [Context.heldAfter, here, ← same]

/-- A piece is put in a frame that is empty or labelled with the source and destination of
its packet, the only one sent partially. -/
theorem Framed.push {frame : List UInt8} {cut : Cut UInt8}
    (framed : Framed documented context frame inFrame
      (Function.update (fun _ => none) (identifierOf packet, packet.qos) cut.held))
    (carried : Link.Carried documented packet)
    (labelled : frame ≠ [] → (frame.getD 0 0).toNat = packet.srcTalId ∧
      (frame.getD 1 0).toNat = packet.dstTalId)
    {ppdu data left : List UInt8} {last : Bool} (whole : cut.sofar ++ cut.left = packet.data)
    (split : cut.left = data ++ left) (ends : last = true → left = []) (long : 3 ≤ ppdu.length)
    (reads : documented.Reads ppdu ⟨packet.qos, !cut.started, last, data⟩) :
    Framed documented context (frame ++ ((if frame = [] then getLabel packet else []) ++ ppdu))
      (inFrame ++ if last then [packet] else [])
      (Function.update (fun _ => none) (identifierOf packet, packet.qos)
        (if last then none else some (cut.sofar ++ data))) := by
  obtain ⟨opener, ppdus, mid, opened, same, bytes, after⟩ := framed.open carried labelled
  have here : mid packet.qos = cut.held := by
    have there := congrFun after (identifierOf packet, packet.qos)
    rw [Function.update_self, Context.heldAfter, if_pos same] at there
    exact there.symm
  have pushed := Framed.opened (opened.push same carried here whole split ends long reads)
  rw [Context.heldAfter_update same, ← after, Function.update_idem, List.flatten_append,
    List.flatten_singleton, ← List.append_assoc, ← bytes, List.append_assoc] at pushed
  exact pushed

namespace Link

variable {packets : List NetPacket} {link : Link lib}

/-- The packet sent partially is the next one, and its receiver will hold what was sent. -/
structure Linked (documented : lib.Documented) (packets : List NetPacket) (link : Link lib) :
    Prop where
  roundTripped : link.RoundTripped packets
  sending : ∃ packet position, Begun documented link.handler link.index packet position ∧
    (position.isSome → link.left.head? = some packet) ∧
    Framed documented link.context link.frame link.inFrame
      (Function.update (fun _ => none) (identifierOf packet, packet.qos) (position.bind Cut.held))

theorem start_linked (documented : lib.Documented) (packets : List NetPacket) :
    Linked documented packets (start lib packets) where
  roundTripped := rfl
  sending := by
    refine ⟨⟨[], 0, 0, 0⟩, none, ⟨?_, fun _ => by simp [start, PacketHandler.context], nofun⟩, nofun, ?_⟩
    · rw [Function.update_eq_self_iff.mpr rfl]
      exact funext fun key => documented.cut_new key.2
    · rw [Option.bind_none, Function.update_eq_self_iff.mpr rfl]
      have nothing : (start lib packets).context.held documented = fun _ => none :=
        funext fun key => documented.held_new key.2
      rw [← nothing]
      exact .empty

/-- What was sent of the next packet, if anything, is all that was sent partially. -/
theorem Linked.next (linked : Linked documented packets link) {rest : List NetPacket}
    (left : link.left = packet :: rest) :
    ∃ position, Begun documented link.handler link.index packet position ∧
      Framed documented link.context link.frame link.inFrame
        (Function.update (fun _ => none) (identifierOf packet, packet.qos)
          (position.bind Cut.held)) := by
  obtain ⟨partly, position, begun, first, framed⟩ := linked.sending
  cases position with
  | none =>
      refine ⟨none, begun.other link.index packet, ?_⟩
      rw [Option.bind_none, Function.update_eq_self_iff.mpr rfl] at framed ⊢
      exact framed
  | some cut =>
      have same := first rfl
      rw [left] at same
      cases same
      exact ⟨some cut, begun, framed⟩

/-- A piece of the next packet leaves the link as it must be, and fits. -/
theorem encap_linked (linked : Linked documented packets link) (remainingLength : UInt64)
    (meets : Meets documented link (.encap remainingLength)) :
    Linked documented packets (link.encap remainingLength) ∧
      (link.encap remainingLength).frame.length ≤ link.frame.length + remainingLength.toNat := by
  rw [encap]
  split
  · exact ⟨linked, Nat.le_add_right _ _⟩
  · rename_i packet rest left
    obtain ⟨carried, allowed⟩ := meets packet (by rw [left]; rfl)
    obtain ⟨position, begun, framed⟩ := linked.next left
    have held : position.bind Cut.held = (position.getD (fresh packet)).held := by
      cases position <;> rfl
    have whole := begun.getD_whole
    have piece := encapNextPacket_begun begun carried remainingLength (link.frame = [])
    have silent := @encapNextPacket_noRoom _ packet link.handler link.index remainingLength
      (link.frame = [])
    have kept := linked.roundTripped
    rw [RoundTripped, left] at kept
    rw [held] at framed
    generalize position.getD (fresh packet) = cut at piece framed whole
    generalize encapNextPacket link.handler link.index packet remainingLength
      (link.frame = []) = result at piece silent ⊢
    cases piece with
    | @noRoom handler' begun' =>
        refine ⟨⟨by simpa [RoundTripped, left] using kept, packet, some cut, begun', ?_, ?_⟩, ?_⟩
        · intro _
          simp [left]
        · simpa using framed
        · simp
    | @piece handler' ppdu data tail last short long split ends reads begun' =>
        have place : if link.frame = [] then LABEL_SIZE ≤ remainingLength.toNat
            else link.Labelled packet.srcTalId packet.dstTalId := by
          rcases allowed with ⟨transmitter, encapsulated, noRoom⟩ | place
          · cases silent encapsulated noRoom
          · exact place
        have pushed := framed.push carried (fun some_frame => by
          simpa [some_frame, Labelled] using place) whole split ends long reads
        have label := @behindLabel_add packet remainingLength (link.frame = [])
          fun empty => by simpa [of_decide_eq_true empty] using place
        refine ⟨?_, ?_⟩
        · cases last with
          | false =>
              refine ⟨?_, packet, _, begun', fun _ => ?_, ?_⟩
              · simpa [RoundTripped, left] using kept
              · simp [left]
              · simpa using pushed
          | true =>
              refine ⟨?_, packet, _, begun'.other _ packet, nofun, ?_⟩
              · simpa [RoundTripped] using kept
              · simpa using pushed
        · simp only [decide_eq_true_eq] at label
          cases last with
          | false =>
              simp
              omega
          | true =>
              simp
              omega

/-- A frame closed as it must be gives the packets it completes. -/
theorem nextFrame_linked (linked : Linked documented packets link)
    (meets : Meets documented link .nextFrame) : Linked documented packets link.nextFrame := by
  rw [nextFrame]
  split
  · exact linked
  · rename_i some_frame
    obtain ⟨long, own⟩ := meets some_frame
    obtain ⟨packet, position, begun, first, framed⟩ := linked.sending
    have kept := linked.roundTripped
    rw [RoundTripped] at kept
    generalize link.frame = frame at *
    generalize link.inFrame = inFrame at *
    generalize heldEq : Function.update (fun _ => none) (identifierOf packet, packet.qos)
      (position.bind Cut.held) = held at framed
    cases framed with
    | empty => exact absurd rfl some_frame
    | @opened opener ppdus _ mid opened =>
        obtain ⟨_, _, label_qos⟩ := opened.carried.read ppdus.flatten
        rw [label_qos] at own
        obtain ⟨context', decapped, held'⟩ := opened.decap long own
        rw [decapped]
        refine ⟨by simpa [RoundTripped] using kept, packet, position, begun, first, ?_⟩
        rw [heldEq, ← held']
        exact .empty

theorem step_linked {event : LinkEvent} {link' : Link lib} (linked : Linked documented packets link)
    (meets : Meets documented link event) (taken : link.step event = some link') :
    Linked documented packets link' ∧ Fits link event link' := by
  cases event with
  | encap remainingLength =>
      cases taken
      obtain ⟨linked', fits⟩ := encap_linked linked remainingLength meets
      refine ⟨linked', fun _ is => ?_⟩
      cases is
      exact fits
  | nextFrame =>
      cases taken
      exact ⟨nextFrame_linked linked meets, nofun⟩

/-- In a run whose steps are all as they must be, the packets come out as they went in, and
each piece fits. -/
theorem round_tripped_of_meets (lib : Librle) (documented : lib.Documented)
    (packets : List NetPacket) (events : List LinkEvent)
    (steps : Run.AllSteps step (Meets documented) (start lib packets) events) :
    Run.AllStates step (RoundTripped packets) (start lib packets) events ∧
      Run.AllMoves step Fits (start lib packets) events := by
  have init := start_linked documented packets
  constructor
  · refine Run.AllStates.mono (P := Linked documented packets) ?_ fun _ linked => linked.roundTripped
    exact Run.allStates_of_allSteps init
      (fun _ _ _ linked meets taken => (step_linked linked meets taken).1) steps
  · exact Run.allMoves_of_allSteps init
      (fun _ _ _ linked meets taken => (step_linked linked meets taken).1)
      (fun _ _ _ linked meets taken => (step_linked linked meets taken).2) steps

/-- A packet in three pieces, the last one in a frame with a packet of another QoS that is not
completed there. -/
theorem round_tripped_pieces :
    let packets : List NetPacket :=
      [⟨[1, 2, 3, 4, 5, 6, 7], 0, 1, 2⟩, ⟨[8, 9], 5, 1, 2⟩, ⟨[10], 5, 1, 3⟩]
    let events : List LinkEvent := [.encap 9, .nextFrame, .encap 8, .encap 2, .nextFrame,
      .encap 20, .encap 4, .nextFrame, .encap 10, .encap 3, .nextFrame, .encap 10, .nextFrame]
    Run.AllStates step (RoundTripped packets) (start Simple.librle packets) events ∧
      Run.AllMoves step Fits (start Simple.librle packets) events :=
  round_tripped_of_meets Simple.librle Simple.documented _ _ (by decide +kernel)

/-- Two packets of one terminal in one frame, for two destinations: the label is the one of
the first, and both come out with its destination. -/
theorem other_destination_not_round_tripped :
    ¬ ∀ (lib : Librle), lib.Documented → ∀ (src : Nat) (packets : List NetPacket)
      (events : List LinkEvent),
      (∀ packet ∈ packets, packet.srcTalId = src ∧ packet.dstTalId ≤ 0x1F ∧ packet.qos ≤ 7) →
      Run.AllStates step (RoundTripped packets) (start lib packets) events ∧
        Run.AllMoves step Fits (start lib packets) events := by
  intro all
  have states := (all Simple.librle Simple.documented 1 [⟨[1, 2], 0, 1, 2⟩, ⟨[3], 0, 1, 3⟩]
    [.encap 100, .encap 100, .nextFrame] (by decide)).1
  have out : (Run.run step (start Simple.librle [⟨[1, 2], 0, 1, 2⟩, ⟨[3], 0, 1, 3⟩])
      [.encap 100, .encap 100, .nextFrame]).map (fun link => link.delivered ++ link.inFrame ++
        link.left) = some [⟨[1, 2], 0, 1, 2⟩, ⟨[3], 0, 1, 2⟩] := by
    decide +kernel
  obtain ⟨link, ends, delivered⟩ := Option.map_eq_some_iff.mp out
  have kept := states.last ends
  rw [RoundTripped, delivered] at kept
  exact absurd kept (by decide)

end Link

end OpenSand.Rle
