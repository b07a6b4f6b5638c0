import PeerStreamer.NetHelper.AtMostOnce
import PeerStreamer.NetHelper.CountedReceiving

/-!
# A transfer, with the references counted

The two nodes of a transfer are two processes: each has node structures of its own, which its
network manager shares with its surroundings.  As long as the references to one of them never reach
`2 ^ 16`, every packet is handed out at most once and as it was sent (`at_most_once_counted`).  A
packet of 65533 fragments is too much for a receiver whose surroundings keep three references to its
node (`not_at_most_once`).
-/

namespace PeerStreamer

/-- The node structures of the sender and of the receiver. -/
abbrev PeerNode := NodeID ⊕ NodeID

variable (ic : IntCoding) (l : Link)

/-! ## Operations on the counters -/

/-- What an action does to the counters of the node that takes it. -/
def Transfer.refs (s : Transfer) : Action → List (RefOp PeerNode)
  | .enqueue data tSweep tCreate =>
      (NmOp.refs s.sender (.enqueuePacket l.senderNode l.receiverNode data tSweep tCreate)).map
        (RefOp.map .inl)
  | .deliver datagram tSweep tCreate =>
      if s.toReceiver.contains datagram then
        (handleDatagramRefs ic l.receiverNode l.senderNode s.receiver datagram tSweep tCreate).map
          (RefOp.map .inr)
      else []
  | .answer datagram tSweep tCreate =>
      if s.toSender.contains datagram then
        (handleDatagramRefs ic l.senderNode l.receiverNode s.sender datagram tSweep tCreate).map
          (RefOp.map .inl)
      else []
  | .pop pid tSweep =>
      if s.ready.contains pid then
        (NmOp.refs s.receiver (.popPacket l.senderNode pid l.bufferSize tSweep)).map
          (RefOp.map .inr)
      else []
  | .transmit | .request _ => []
  | .lose _ | .loseRequest _ => []

/-- The references of the message that is next to be popped, if that hands it over. -/
def NetworkManager.nextHanded (nm : NetworkManager) : Multiset NodeID :=
  match networkManagerPopOutgoingNetMsg nm with
  | .ok (_, m) => messageReferences (NmAnswer.message m).handed
  | .error _ => 0

/-- A transfer as a program that shares nodes: each side is passed the node structures it has for
the two nodes, and hands over the references of the requests it pops. -/
def transferProgram : SharedProgram Transfer Action (Option Handout) PeerNode where
  run := Transfer.step ic l
  live s := s.sender.references.map .inl + s.receiver.references.map .inr
  refs := Transfer.refs ic l
  passed _ := [.inl l.senderNode, .inl l.receiverNode, .inr l.senderNode, .inr l.receiverNode]
  created _ := []
  handed s a _ :=
    match a with
    | .transmit => s.sender.nextHanded.map .inl
    | .request _ => s.receiver.nextHanded.map .inr
    | _ => 0

/-- What happens to a transfer: an action, or what the surroundings do with nodes. -/
abbrev TransferHappening := Happening Action PeerNode

/-- One step with counters of 16 bits. -/
abbrev countedTransfer := (transferProgram ic l).countedStep (2 ^ 16)

/-- A transfer that has not begun, in surroundings without nodes. -/
abbrev startedTransfer : WithCounters (Surrounded Transfer PeerNode) PeerNode :=
  Surrounded.start (Transfer.init l)

lemma startedTransfer_counted :
    (transferProgram ic l).sharing.Counted (2 ^ 16) (startedTransfer l) :=
  SharedProgram.start_counted (by norm_num) rfl

/-! ## References -/

section Moving

variable {ic l} {nm nm' : NetworkManager} {L R H K : Multiset NodeID} {ops : List (RefOp NodeID)}

/-- References moved at the sender. -/
lemma Moves.sender (h : Moves (L + nm.references) ops (L + H + nm'.references)) :
    Moves (L.map Sum.inl + R.map Sum.inr + (nm.references.map Sum.inl + K.map Sum.inr))
      (ops.map (RefOp.map Sum.inl))
      (L.map Sum.inl + R.map Sum.inr + H.map Sum.inl
        + (nm'.references.map Sum.inl + K.map Sum.inr)) := by
  refine (h.map Sum.inl_injective (N := (R + K).map Sum.inr) (by simp)).of_eq ?_ ?_
  · simp only [Multiset.map_add]
    abel
  · simp only [Multiset.map_add]
    abel

/-- References moved at the receiver. -/
lemma Moves.receiver (h : Moves (R + nm.references) ops (R + H + nm'.references)) :
    Moves (L.map Sum.inl + R.map Sum.inr + (K.map Sum.inl + nm.references.map Sum.inr))
      (ops.map (RefOp.map Sum.inr))
      (L.map Sum.inl + R.map Sum.inr + H.map Sum.inr
        + (K.map Sum.inl + nm'.references.map Sum.inr)) := by
  refine (h.map Sum.inr_injective (N := (L + K).map Sum.inl) (by simp)).of_eq ?_ ?_
  · simp only [Multiset.map_add]
    abel
  · simp only [Multiset.map_add]
    abel

/-- References moved at the sender, none of which is handed over. -/
lemma Moves.sender_zero (h : Moves (L + nm.references) ops (L + nm'.references)) :
    Moves (L.map Sum.inl + R.map Sum.inr + (nm.references.map Sum.inl + K.map Sum.inr))
      (ops.map (RefOp.map Sum.inl))
      (L.map Sum.inl + R.map Sum.inr + 0 + (nm'.references.map Sum.inl + K.map Sum.inr)) :=
  Moves.sender (H := 0) (h.of_eq rfl (by rw [add_zero]))

/-- The same at the receiver. -/
lemma Moves.receiver_zero (h : Moves (R + nm.references) ops (R + nm'.references)) :
    Moves (L.map Sum.inl + R.map Sum.inr + (K.map Sum.inl + nm.references.map Sum.inr))
      (ops.map (RefOp.map Sum.inr))
      (L.map Sum.inl + R.map Sum.inr + 0 + (K.map Sum.inl + nm'.references.map Sum.inr)) :=
  Moves.receiver (H := 0) (h.of_eq rfl (by rw [add_zero]))

/-- A message that is popped. -/
lemma NetworkManager.OutqueueInv.pop_moves (h : nm.OutqueueInv) {m : Option NetMessage}
    (hpop : networkManagerPopOutgoingNetMsg nm = .ok (nm', m)) :
    Moves (L + nm.references) [] (L + nm.nextHanded + nm'.references) ∧ nm'.OutqueueInv := by
  have hstep : networkManagerStep nm .popMsg = .ok (nm', .message m) := by
    rw [networkManagerStep, hpop]
    rfl
  refine ⟨(h.step_moves (M := L) hstep (by simp [NmOp.nodes])).of_eq rfl ?_, h.step hstep⟩
  rw [NetworkManager.nextHanded, hpop]
  exact add_right_comm _ _ _

end Moving

lemma transferProgram_respects :
    (transferProgram ic l).Respects (fun s => s.sender.OutqueueInv ∧ s.receiver.OutqueueInv)
      fun _ _ => True := by
  rintro s a s' o M ⟨hsender, hreceiver⟩ - hs hpassed -
  obtain ⟨L, R, rfl⟩ := exists_map_inl_add_map_inr M
  have hL : l.senderNode ∈ L ∧ l.receiverNode ∈ L := by
    simpa [transferProgram] using
      And.intro (hpassed (.inl l.senderNode) (by simp [transferProgram]))
        (hpassed (.inl l.receiverNode) (by simp [transferProgram]))
  have hR : l.senderNode ∈ R ∧ l.receiverNode ∈ R := by
    simpa [transferProgram] using
      And.intro (hpassed (.inr l.senderNode) (by simp [transferProgram]))
        (hpassed (.inr l.receiverNode) (by simp [transferProgram]))
  have hsame : Moves (L.map .inl + R.map .inr + (transferProgram ic l).live s) []
      (L.map .inl + R.map .inr + 0 + (transferProgram ic l).live s) :=
    Moves.nil.of_eq rfl (congrArg (· + _) (add_zero _))
  cases a with
  | enqueue data tSweep tCreate =>
      obtain ⟨⟨nm, res⟩, hcall, he⟩ := Eval.bind_eq_ok.mp hs
      cases he
      have hstep : networkManagerStep s.sender
          (.enqueuePacket l.senderNode l.receiverNode data tSweep tCreate)
          = .ok (nm, .code res) := by
        rw [networkManagerStep, hcall]
        rfl
      exact ⟨⟨hsender.step hstep, hreceiver⟩,
        (hsender.call_moves hstep rfl (by simpa [NmOp.nodes] using hL)).sender_zero⟩
  | transmit =>
      obtain ⟨⟨nm, m⟩, hcall, he⟩ := Eval.bind_eq_ok.mp hs
      cases he
      obtain ⟨hmoves, hinv⟩ := hsender.pop_moves (L := L) hcall
      exact ⟨⟨hinv, hreceiver⟩, hmoves.sender⟩
  | deliver datagram tSweep tCreate =>
      have hrefs : (transferProgram ic l).refs s (.deliver datagram tSweep tCreate)
          = if s.toReceiver.contains datagram then _ else [] := rfl
      simp only [hrefs, List.contains_iff_mem]
      simp only [transferProgram, Transfer.step] at hs
      split_ifs at hs with hd
      · obtain ⟨⟨nm, arrived⟩, hcall, he⟩ := Eval.bind_eq_ok.mp hs
        cases he
        obtain ⟨hmoves, hinv⟩ := hreceiver.handleDatagram_moves hR.2 hR.1 hcall
        rw [if_pos hd]
        exact ⟨⟨hsender, hinv⟩, hmoves.receiver_zero⟩
      · cases hs
        rw [if_neg hd]
        exact ⟨⟨hsender, hreceiver⟩, hsame⟩
  | lose datagram =>
      cases hs
      exact ⟨⟨hsender, hreceiver⟩, hsame⟩
  | request forwarded =>
      obtain ⟨⟨nm, m⟩, hcall, he⟩ := Eval.bind_eq_ok.mp hs
      cases he
      obtain ⟨hmoves, hinv⟩ := hreceiver.pop_moves (L := R) hcall
      exact ⟨⟨hsender, hinv⟩, hmoves.receiver⟩
  | answer datagram tSweep tCreate =>
      have hrefs : (transferProgram ic l).refs s (.answer datagram tSweep tCreate)
          = if s.toSender.contains datagram then _ else [] := rfl
      simp only [hrefs, List.contains_iff_mem]
      simp only [transferProgram, Transfer.step] at hs
      split_ifs at hs with hd
      · obtain ⟨⟨nm, arrived⟩, hcall, he⟩ := Eval.bind_eq_ok.mp hs
        cases he
        obtain ⟨hmoves, hinv⟩ := hsender.handleDatagram_moves hL.1 hL.2 hcall
        rw [if_pos hd]
        exact ⟨⟨hinv, hreceiver⟩, hmoves.sender_zero⟩
      · cases hs
        rw [if_neg hd]
        exact ⟨⟨hsender, hreceiver⟩, hsame⟩
  | loseRequest datagram =>
      cases hs
      exact ⟨⟨hsender, hreceiver⟩, hsame⟩
  | pop pid tSweep =>
      have hrefs : (transferProgram ic l).refs s (.pop pid tSweep)
          = if s.ready.contains pid then _ else [] := rfl
      simp only [hrefs, List.contains_iff_mem]
      simp only [transferProgram, Transfer.step] at hs
      by_cases hpid : pid ∈ s.ready
      · rw [if_pos hpid] at hs ⊢
        simp only [hreceiver.popPacket] at hs
        cases hs
        exact ⟨⟨hsender, hreceiver.popped _ _ _⟩,
          (hreceiver.wf.popped_moves l.senderNode pid l.bufferSize tSweep R).receiver_zero⟩
      · rw [if_neg hpid] at hs ⊢
        cases hs
        exact ⟨⟨hsender, hreceiver⟩, hsame⟩

section Runs

variable {ic l} {is : List TransferHappening}

/-- **A run with the counters** goes through, and is one without. -/
lemma transferProgram_run (hic : ic.Inverse (2 ^ 31))
    (hids : (enqueued (Happening.calls is)).length < 65536)
    (hpackets : ∀ data ∈ enqueued (Happening.calls is),
      (data.length + l.fragSize - 1) / l.fragSize ≤ 65535 ∧ data.length < l.bufferSize)
    (hcareful : Along (countedTransfer ic l) ((transferProgram ic l).Careful (2 ^ 16))
      (startedTransfer l) is) :
    ∃ s outs, exec (countedTransfer ic l) (startedTransfer l) is = .ok (s, outs)
      ∧ exec (Transfer.step ic l) (Transfer.init l) (Happening.calls is)
        = .ok (s.state.program, outs.reduceOption)
      ∧ (s.state.program.sender.OutqueueInv ∧ s.state.program.receiver.OutqueueInv)
      ∧ (transferProgram ic l).sharing.Counted (2 ^ 16) s := by
  obtain ⟨t, bs, hrun, -⟩ := at_most_once ic hic l (Happening.calls is) hids hpackets
  exact (transferProgram_respects ic l).carries (s := startedTransfer l)
    ⟨networkManagerCreate_outqueueInv _, networkManagerCreate_outqueueInv _⟩
    (startedTransfer_counted ic l) (hcareful.mono fun s i hi => ⟨hi, by cases i <;> trivial⟩)
    (Q := fun t bs => exec (Transfer.step ic l) (Transfer.init l) (Happening.calls is)
      = .ok (t, bs)) fun _ => ⟨t, bs, hrun, hrun⟩

end Runs

/-! ## At most once -/

/-- Whatever has happened to a transfer: every action could be taken, no packet has been handed out
twice, and what was handed out under an id is the packet enqueued under it. -/
def HandedOnce (is : List TransferHappening) : Prop :=
  ∃ s outs, exec (countedTransfer ic l) (startedTransfer l) is = .ok (s, outs)
    ∧ ((handouts outs.reduceOption).map Prod.fst).Nodup
    ∧ ∀ h ∈ handouts outs.reduceOption, ∃ data, (enqueued (Happening.calls is))[h.1]? = some data
      ∧ h.2 = (0, data, data.length)

/-- **At-most-once delivery**, in every run in which the references to one node structure never
reach `2 ^ 16`.  Let the receiver ask again for fragments it misses, and the sender answer, in any
order with everything else that happens.  As long as the packets have distinct ids, not too many
fragments and fit the buffer, every action can be taken, no packet is handed out twice, and what is
handed out under an id is the packet enqueued under it. -/
theorem at_most_once_counted (ic : IntCoding) (hic : ic.Inverse (2 ^ 31)) (l : Link)
    (is : List TransferHappening) (hids : (enqueued (Happening.calls is)).length < 65536)
    (hpackets : ∀ data ∈ enqueued (Happening.calls is),
      (data.length + l.fragSize - 1) / l.fragSize ≤ 65535 ∧ data.length < l.bufferSize)
    (hcareful : Along (countedTransfer ic l) ((transferProgram ic l).Careful (2 ^ 16))
      (startedTransfer l) is) :
    HandedOnce ic l is := by
  obtain ⟨s, outs, hexec, hplain, -⟩ := transferProgram_run hic hids hpackets hcareful
  obtain ⟨t, bs, hrun, hhanded⟩ := at_most_once ic hic l (Happening.calls is) hids hpackets
  obtain ⟨rfl, rfl⟩ := ok_unique hplain hrun
  exact ⟨s, outs, hexec, hhanded⟩

/-- The node structures of two peers are made, in both processes. -/
def bothNodes (l : Link) : List (RefOp PeerNode) :=
  [.inl l.senderNode, .inl l.receiverNode, .inr l.senderNode, .inr l.receiverNode].map .create

theorem at_most_once_counted_overtaken :
    HandedOnce bigEndian threeByteLink
      ((bothNodes threeByteLink).map .other ++ overtaken.map .call) :=
  at_most_once_counted bigEndian (bigEndian_inverse.mono (by decide)) threeByteLink _ (by decide)
    (by decide) (by decide +kernel)

/-! ## A long packet -/

/-- A link with fragments of one byte. -/
def oneByteLink : Link where
  senderNode := ⟨[66], 6001, 3⟩
  receiverNode := ⟨[65], 6000, 3⟩
  senderConfig := oneByteFragments
  receiverConfig := ⟨none, none⟩
  bufferSize := 65536
  senderFrags := oneByteFragments_fragSize
  receiverFrags := threeByteLink.receiverFrags

/-- What the sender pops after the packet is a piece of it, for the receiver. -/
lemma first_pop_piece {data : Bytes} (hdata : data.length = 65533) :
    ∃ nm₁ nm₂ f, networkManagerStep (networkManagerCreate oneByteLink.senderConfig)
        (.enqueuePacket oneByteLink.senderNode oneByteLink.receiverNode data 0 0)
        = .ok (nm₁, .code 0)
      ∧ networkManagerStep nm₁ .popMsg = .ok (nm₂, .message (some (.fragment f)))
      ∧ nm₁.fragSize = oneByteLink.fragSize ∧ SentPiece [data] oneByteLink.fragSize f
      ∧ (NetMessage.fragment f).Goes oneByteLink.senderNode oneByteLink.receiverNode = true := by
  obtain ⟨nm₂, f, hexec, -⟩ := exec_first_pop oneByteLink.senderNode oneByteLink.receiverNode
    data (by omega) (by omega)
  obtain ⟨nm₁, a, as, henqueue, hrest, hanswers⟩ := exec_cons_eq_ok.mp hexec
  obtain ⟨nm₂', b, bs, hpop, hnil, rfl⟩ := exec_cons_eq_ok.mp hrest
  cases hnil
  obtain ⟨rfl, hb⟩ := List.cons.inj hanswers
  obtain ⟨rfl, -⟩ := List.cons.inj hb
  have hone : payloads oneByteLink.receiverNode ([] ++ [.enqueuePacket oneByteLink.senderNode
      oneByteLink.receiverNode data 0 0]) = [data] := by
    simp [payloads, NmOp.payloadTo, nodeidEqual_self, hdata]
  have htwo : payloads oneByteLink.receiverNode (([] ++ [.enqueuePacket oneByteLink.senderNode
      oneByteLink.receiverNode data 0 0]) ++ [.popMsg]) = [data] := by
    rw [payloads_append, hone]
    rfl
  have hsend : NmOp.SenderCall oneByteLink (.enqueuePacket oneByteLink.senderNode
      oneByteLink.receiverNode data 0 0) := ⟨rfl, rfl⟩
  have hserve : NmOp.SenderCall oneByteLink .popMsg := trivial
  obtain ⟨nm', a', hs, hside, -⟩ := (networkManagerCreate_senderSide oneByteLink).step hsend
    (by rw [hone]; exact one_lt_two.trans (by norm_num))
  obtain ⟨rfl, -⟩ := ok_unique hs henqueue
  obtain ⟨nm', a', hs', -, -, hpiece⟩ := hside.step hserve
    (by rw [htwo]; exact one_lt_two.trans (by norm_num))
  obtain ⟨rfl, rfl⟩ := ok_unique hs' hpop
  obtain ⟨hpiece, hgoes⟩ := hpiece f rfl
  rw [htwo] at hpiece
  exact ⟨_, _, f, henqueue, hpop, hside.pieces.fragSize, hpiece, hgoes⟩

/-- A packet is enqueued, and its first fragment is under way. -/
lemma exec_first_transmit {ic : IntCoding} (hic : ic.Inverse (2 ^ 31)) {data : Bytes}
    (hdata : data.length = 65533) :
    ∃ s₁ s₂ d f, Transfer.step ic oneByteLink (Transfer.init oneByteLink) (.enqueue data 0 0)
        = .ok (s₁, none)
      ∧ Transfer.step ic oneByteLink s₁ .transmit = .ok (s₂, none)
      ∧ s₂.receiver = networkManagerCreate oneByteLink.receiverConfig ∧ d ∈ s₂.toReceiver
      ∧ netMsgDecode ic oneByteLink.receiverNode oneByteLink.senderNode d
        = .ok (some (.fragment f))
      ∧ f.id < f.fragNum ∧ f.fragNum = 65533 := by
  obtain ⟨nm₁, nm₂, f, henqueue, hpop, hsize, hpiece, hgoes⟩ := first_pop_piece hdata
  have hdecode := hpiece.decode_link hic (one_lt_two.trans (by norm_num))
  obtain ⟨d, hd, hcut⟩ := hpiece
  obtain rfl : d = data := List.mem_singleton.mp (List.mem_of_getElem? hd)
  have hnum : f.fragNum = 65533 := by
    rw [hcut.fragNum, hdata]
    decide
  obtain ⟨⟨nm, res⟩, hcall, he⟩ := Eval.bind_eq_ok.mp henqueue
  obtain ⟨rfl, -⟩ := Prod.mk.inj (Except.ok.inj he)
  obtain ⟨⟨nm₃, m⟩, hcall', he'⟩ := Eval.bind_eq_ok.mp hpop
  obtain ⟨rfl, hm⟩ := Prod.mk.inj (Except.ok.inj he')
  cases hm
  refine ⟨{ Transfer.init oneByteLink with sender := nm }, _,
    fragmentDatagram ic oneByteLink.fragSize f, f.received _ _, by
      rw [Transfer.step]
      exact Eval.bind_eq_ok.mpr ⟨_, hcall, rfl⟩, by
      rw [Transfer.step]
      exact Eval.bind_eq_ok.mpr ⟨_, hcall', rfl⟩, rfl, ?_, hdecode, hcut.id, hnum⟩
  simp only [Option.filter_some, hgoes, if_true, Option.map_some, Option.toList_some,
    messageDatagram, hsize]
  exact List.mem_append_right _ (List.mem_singleton_self _)

/-- The node structures of the link of one-byte fragments, with two more references to that of the
receiver. -/
def longPacketNodes : List (RefOp PeerNode) :=
  bothNodes oneByteLink
    ++ [.dup (.inr oneByteLink.receiverNode), .dup (.inr oneByteLink.receiverNode)]

/-- What the sender and the receiver own of the node structures, before the packet is sent. -/
def senderNodes : Multiset NodeID := {oneByteLink.receiverNode, oneByteLink.senderNode}

def receiverNodes : Multiset NodeID :=
  {oneByteLink.receiverNode, oneByteLink.receiverNode, oneByteLink.receiverNode,
    oneByteLink.senderNode}

/-- What both own together. -/
def longPacketOwned : Multiset PeerNode := senderNodes.map .inl + receiverNodes.map .inr

lemma longPacketNodes_moves : Moves 0 longPacketNodes longPacketOwned :=
  ⟨by decide, by decide, by decide, by decide, by decide, by decide, by
    change (_ : Multiset PeerNode) = _
    decide⟩

/-- Who owns that can make any call. -/
lemma allowed_of_owned {ic : IntCoding} {s : Surrounded Transfer PeerNode}
    (hs : longPacketOwned ≤ s.owned) (a : Action) :
    (transferProgram ic oneByteLink).Allowed s (.call a) := by
  have hmem : ∀ a, ∀ p ∈ (transferProgram ic oneByteLink).passed a, p ∈ longPacketOwned := by
    change ∀ a : Action, ∀ p ∈ [_, _, _, _], p ∈ longPacketOwned
    intro _
    decide
  exact ⟨fun p hp => Multiset.mem_of_le hs (hmem a p hp), by simp [transferProgram]⟩

lemma transferInit_live (ic : IntCoding) (l : Link) :
    (transferProgram ic l).live (Transfer.init l) = 0 := rfl

/-- The references that the packet takes fit. -/
lemma longPacket_enqueue_fits (ic : IntCoding) {data : Bytes} (hdata : data.length = 65533) :
    (transferProgram ic oneByteLink).sharing.Fits (2 ^ 16)
      ⟨Transfer.init oneByteLink, longPacketOwned⟩ (.call (.enqueue data 0 0)) := by
  change Fits (2 ^ 16)
    (longPacketOwned + (transferProgram ic oneByteLink).live (Transfer.init oneByteLink))
    ((NmOp.refs (networkManagerCreate oneByteFragments) (.enqueuePacket oneByteLink.senderNode
      oneByteLink.receiverNode data 0 0)).map (RefOp.map .inl))
  rw [transferInit_live, add_zero]
  obtain ⟨nm, f, hexec, -⟩ := exec_first_pop oneByteLink.senderNode oneByteLink.receiverNode
    data (by omega) (by omega)
  obtain ⟨nm₁, a, as, hs, -, hanswers⟩ := exec_cons_eq_ok.mp hexec
  obtain ⟨rfl, -⟩ := List.cons.inj hanswers
  refine Fits.map Sum.inl_injective (by simp) (fun p => ?_)
    ((networkManagerCreate_outqueueInv oneByteFragments).call_moves (M := senderNodes) hs rfl
      (by simp [NmOp.nodes, senderNodes])) ?_
  · exact (Multiset.count_le_card p _).trans_lt (by decide)
  · exact longPacket_fits (by decide) hdata

/-- As long as the receiver's network manager is as it was created, its counters are those of its
surroundings. -/
lemma receiverNodes_counts {ic : IntCoding} {s : Transfer} {L : Multiset NodeID}
    {c : Counters PeerNode}
    (hreceiver : s.receiver = networkManagerCreate oneByteLink.receiverConfig)
    (hcounts : (transferProgram ic oneByteLink).sharing.Counted (2 ^ 16)
      ⟨⟨s, longPacketOwned + 0 + L.map .inl⟩, c⟩) :
    Counts (2 ^ 16) (c ∘ Sum.inr) receiverNodes := by
  have hall : longPacketOwned + 0 + L.map .inl + (transferProgram ic oneByteLink).live s
      = receiverNodes.map .inr + (senderNodes + L + s.sender.references).map .inl := by
    change longPacketOwned + 0 + L.map .inl
      + (s.sender.references.map .inl + s.receiver.references.map .inr) = _
    have hnone : (networkManagerCreate oneByteLink.receiverConfig).references = 0 := rfl
    simp only [hreceiver, hnone, longPacketOwned, Multiset.map_add, Multiset.map_zero]
    abel
  have hcounts' : Counts (2 ^ 16) c (receiverNodes.map .inr
      + (senderNodes + L + s.sender.references).map .inl) := hall ▸ hcounts
  exact hcounts'.comp Sum.inr_injective (by simp)

/-- A long packet can be sent, and then its first fragment is under way and the receiver's counters
are those of its surroundings. -/
lemma longPacket_transmitted {ic : IntCoding} (hic : ic.Inverse (2 ^ 31)) {data : Bytes}
    (hdata : data.length = 65533) :
    ∃ s outs d f, Along (countedTransfer ic oneByteLink)
        (fun s i => (transferProgram ic oneByteLink).Allowed s.state i)
        (startedTransfer oneByteLink)
        (longPacketNodes.map .other ++ [.call (.enqueue data 0 0), .call .transmit])
      ∧ exec (countedTransfer ic oneByteLink) (startedTransfer oneByteLink)
        (longPacketNodes.map .other ++ [.call (.enqueue data 0 0), .call .transmit])
        = .ok (s, outs)
      ∧ longPacketOwned ≤ s.state.owned
      ∧ Counts (2 ^ 16) (s.counters ∘ Sum.inr) receiverNodes
      ∧ s.state.program.receiver = networkManagerCreate oneByteLink.receiverConfig
      ∧ d ∈ s.state.program.toReceiver
      ∧ netMsgDecode ic oneByteLink.receiverNode oneByteLink.senderNode d
        = .ok (some (.fragment f))
      ∧ f.id < f.fragNum ∧ f.fragNum = 65533 := by
  obtain ⟨s₁, s₂, d, f, henqueue, htransmit, hreceiver, hunder⟩ :=
    exec_first_transmit hic hdata
  have hrespects := transferProgram_respects ic oneByteLink
  obtain ⟨halong, c, outs, hpre, hcounts⟩ := SharedProgram.exec_others
    (P := fun _ _ => True) (startedTransfer_counted ic oneByteLink) rfl longPacketNodes_moves
    (fits_of_card (by decide))
  have hcounted : (transferProgram ic oneByteLink).sharing.Counted (2 ^ 16)
      ⟨⟨Transfer.init oneByteLink, longPacketOwned⟩, c⟩ := by
    change Counts (2 ^ 16) c
      (longPacketOwned + (transferProgram ic oneByteLink).live (Transfer.init oneByteLink))
    rwa [transferInit_live, add_zero]
  -- the packet is enqueued
  obtain ⟨c₁, hstep₁, hinv₁, hcounted₁⟩ := hrespects.call
    ⟨networkManagerCreate_outqueueInv _, networkManagerCreate_outqueueInv _⟩ hcounted
    (allowed_of_owned le_rfl _) trivial (longPacket_enqueue_fits ic hdata) henqueue
  -- its first fragment is transmitted
  obtain ⟨c₂, hstep₂, hinv₂, hcounted₂⟩ := hrespects.call hinv₁ hcounted₁
    (allowed_of_owned (add_zero _).ge _) trivial (a := .transmit)
    (show Fits (2 ^ 16) _ [] from trivial) htransmit
  have howned : longPacketOwned ≤ longPacketOwned + 0 + s₁.sender.nextHanded.map .inl := by
    rw [add_zero]
    exact Multiset.le_add_right _ _
  refine ⟨_, _, d, f, along_append.mpr ⟨halong.mono fun _ _ h => h.1.1, fun s' outs' hexec => ?_⟩,
    exec_append_eq_ok.mpr ⟨_, _, _, hpre, exec_cons_eq_ok.mpr ⟨_, _, _, hstep₁,
      exec_cons_eq_ok.mpr ⟨_, _, [], hstep₂, rfl, rfl⟩, rfl⟩, rfl⟩, howned,
    receiverNodes_counts hreceiver hcounted₂, hreceiver, hunder⟩
  obtain ⟨rfl, -⟩ := ok_unique hpre hexec
  exact (along_cons_of_ok hstep₁).mpr ⟨allowed_of_owned le_rfl _, (along_cons_of_ok hstep₂).mpr
    ⟨allowed_of_owned (add_zero _).ge _, trivial⟩⟩

/-- A packet of 65533 bytes, each in a fragment of its own, is sent to a node to which there are
three references, and its first fragment is delivered. -/
theorem not_at_most_once :
    ¬ ∀ (ic : IntCoding) (l : Link) (is : List TransferHappening), ic.Inverse (2 ^ 32) →
      (enqueued (Happening.calls is)).length < 65536 →
      (∀ data ∈ enqueued (Happening.calls is),
        (data.length + l.fragSize - 1) / l.fragSize ≤ 65535 ∧ data.length < l.bufferSize) →
      Along (countedTransfer ic l) (fun s i => (transferProgram ic l).Allowed s.state i)
        (startedTransfer l) is →
      HandedOnce ic l is := by
  intro hall
  obtain ⟨data, hdata⟩ : ∃ data : Bytes, data.length = 65533 :=
    ⟨List.replicate 65533 0, List.length_replicate⟩
  obtain ⟨s, outs, d, f, halong, hpre, howned, hcounts, hreceiver, hd, hdecode, hid, hnum⟩ :=
    longPacket_transmitted (bigEndian_inverse.mono (by decide)) hdata
  have henqueued : enqueued (Happening.calls ((longPacketNodes.map .other
      ++ [.call (.enqueue data 0 0), .call .transmit])
      ++ [.call (.deliver d 0 0)])) = [data] := by
    change enqueued [.enqueue data 0 0, .transmit, .deliver d 0 0] = _
    simp [enqueued, Action.packet, hdata]
  obtain ⟨s', outs', hexec, -⟩ := hall bigEndian oneByteLink
    ((longPacketNodes.map .other ++ [.call (.enqueue data 0 0),
      .call .transmit]) ++ [.call (.deliver d 0 0)]) bigEndian_inverse
    (by rw [henqueued]; exact one_lt_two.trans (by norm_num)) (by
      rw [henqueued]
      intro d hmem
      rw [List.mem_singleton.mp hmem, hdata]
      decide)
    (along_concat halong hpre (allowed_of_owned howned _))
  have hcount := SharedProgram.counted_last_call hpre hexec
  have hoverflow := datagramRefs_overflow oneByteLink.receiverConfig hdecode hid (by decide)
    hcounts (by decide) (by decide) (by decide) (by rw [hnum]; decide) 0 0 fun _ => []
  have hrefs : (transferProgram bigEndian oneByteLink).refs s.state.program (.deliver d 0 0)
      = (handleDatagramRefs bigEndian oneByteLink.receiverNode oneByteLink.senderNode
        (networkManagerCreate oneByteLink.receiverConfig) d 0 0).map (RefOp.map .inr) := by
    change (if s.state.program.toReceiver.contains d then _ else _) = _
    rw [if_pos (List.contains_iff_mem.mpr hd), hreceiver]
  have hmap := countAll_map (m := 2 ^ 16) (c := s.counters) Sum.inr_injective
    (handleDatagramRefs bigEndian oneByteLink.receiverNode oneByteLink.senderNode
      (networkManagerCreate oneByteLink.receiverConfig) d 0 0)
  rw [← hrefs, hcount, handleDatagramRefs, hoverflow] at hmap
  cases hmap

end PeerStreamer
