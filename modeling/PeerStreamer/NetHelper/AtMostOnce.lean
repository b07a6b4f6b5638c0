import PeerStreamer.NetHelper.TransferSides

/-!
# At-most-once delivery under retransmission

A packet is handed out when all its fragments have arrived, and after that the receiver knows
nothing about it, so that fragments which are sent again make it start afresh.  What keeps it from
being handed out twice is its last fragment, which is never asked for.  So at any time the last
fragment of a packet is in one place — queued at the sender, under way, in its slot at the receiver,
or handed out with the packet — or lost.

`places` counts those places, `TransferInv` says that there is at most one (`once`), and every
action keeps it (`TransferInv.step`).
-/

namespace PeerStreamer

variable {ic : IntCoding} {l : Link} {packets : List Bytes} {s : Transfer} {hs : List Handout}

/-! ## Datagrams under way -/

/-- The packet id and position of the fragment in a datagram. -/
def datagramId (ic : IntCoding) (l : Link) (d : Bytes) : Option (ℕ × ℕ) :=
  match netMsgDecode ic l.receiverNode l.senderNode d with
  | .ok (some (.fragment f)) => some (f.pid, f.id)
  | _ => none

/-- The datagram of a piece of one of the packets. -/
def PieceDatagram (ic : IntCoding) (l : Link) (packets : List Bytes) (d : Bytes) : Prop :=
  ∃ f, SentPiece packets l.fragSize f ∧ d = fragmentDatagram ic l.fragSize f

/-- A datagram that asks for a fragment that is not the last of its packet. -/
def RequestDatagram (ic : IntCoding) (l : Link) (packets : List Bytes) (d : Bytes) : Prop :=
  ∃ fr, Askable packets l.fragSize fr.pid fr.id
    ∧ netMsgDecode ic l.senderNode l.receiverNode d = .ok (some (.fragRequest fr))

lemma PieceDatagram.append {d : Bytes} (h : PieceDatagram ic l packets d) (more : List Bytes) :
    PieceDatagram ic l (packets ++ more) d := by
  obtain ⟨f, hf, rfl⟩ := h
  exact ⟨f, hf.append more, rfl⟩

lemma RequestDatagram.append {d : Bytes} (h : RequestDatagram ic l packets d)
    (more : List Bytes) : RequestDatagram ic l (packets ++ more) d := by
  obtain ⟨fr, hask, hdec⟩ := h
  exact ⟨fr, hask.append more, hdec⟩

lemma Askable.lt {fragSize pid id : ℕ} (h : Askable packets fragSize pid id) :
    pid < packets.length ∧ id < 2 ^ 16 := by
  obtain ⟨data, hdata, hlt⟩ := h
  have := cutCount_lt data.length fragSize
  exact ⟨(List.getElem?_eq_some_iff.mp hdata).1, by omega⟩

section Datagrams

variable (hic : ic.Inverse (2 ^ 31)) (hids : packets.length < 65536)

include hic hids

/-- A request popped by the receiver becomes a datagram that asks for the same fragment. -/
lemma Askable.requestDatagram {fr : FragRequest} (h : Askable packets l.fragSize fr.pid fr.id)
    (fragSize : ℕ) :
    RequestDatagram ic l packets (messageDatagram ic fragSize (.fragRequest fr)) := by
  obtain ⟨hpid, hid⟩ := h.lt
  have hheader : FRAG_REQUEST_HEADER_LEN = 5 := rfl
  obtain ⟨buff, henc, hdec⟩ := hic.decode_encode_request_append (fragSize + 100)
    (by omega) hid (by omega) [] l.senderNode l.receiverNode
  rw [List.append_nil] at hdec
  refine ⟨_, ?_, by rw [messageDatagram, henc]; exact hdec⟩
  exact h

lemma SentPiece.decode_link {f : Fragment} (h : SentPiece packets l.fragSize f) :
    netMsgDecode ic l.receiverNode l.senderNode (fragmentDatagram ic l.fragSize f)
      = .ok (some (.fragment (f.received l.receiverNode l.senderNode))) :=
  h.decode hic (by omega) l.fragSize_lt _ _

lemma SentPiece.datagramId {f : Fragment} (h : SentPiece packets l.fragSize f) :
    datagramId ic l (fragmentDatagram ic l.fragSize f) = some (f.pid, f.id) := by
  rw [PeerStreamer.datagramId, h.decode_link hic hids]
  rfl

end Datagrams

/-! ## The places of a fragment -/

/-- In how many places a fragment is: on the queue of the sender, under way, in its slot at the
receiver, and with a packet handed out. -/
def places (ic : IntCoding) (l : Link) (s : Transfer) (hs : List Handout) (x : ℕ × ℕ) : ℕ :=
  (queuedIds s.sender.outqueue).count x + (s.toReceiver.filterMap (datagramId ic l)).count x
    + (s.receiver.holdsSlot l.senderNode x).toNat + (hs.map Prod.fst).count x.1

/-- `x` is the last fragment of its packet, or of a packet still to come. -/
def IsLast (packets : List Bytes) (fragSize : ℕ) (x : ℕ × ℕ) : Prop :=
  ∀ data, packets[x.1]? = some data → x.2 + 1 = cutCount data.length fragSize

lemma IsLast.of_append {fragSize : ℕ} {x : ℕ × ℕ} {more : List Bytes}
    (h : IsLast (packets ++ more) fragSize x) : IsLast packets fragSize x :=
  fun data hdata => h data (getElem?_packets_append hdata more)

lemma IsLast.not_askable {fragSize : ℕ} {x : ℕ × ℕ} (h : IsLast packets fragSize x) :
    ¬ Askable packets fragSize x.1 x.2 := by
  rintro ⟨data, hdata, hlt⟩
  have := h data hdata
  omega

/-- A packet handed out is the one that was sent under its id. -/
def Faithful (packets : List Bytes) (h : Handout) : Prop :=
  ∃ data, packets[h.1]? = some data ∧ h.2 = (0, data, data.length)

/-- The transfer after `packets` have been enqueued and `hs` handed out. -/
structure TransferInv (ic : IntCoding) (l : Link) (packets : List Bytes) (hs : List Handout)
    (s : Transfer) : Prop where
  sender : ∃ ops, SenderSide l ops s.sender ∧ payloads l.receiverNode ops = packets
  toReceiver : ∀ d ∈ s.toReceiver, PieceDatagram ic l packets d
  toSender : ∀ d ∈ s.toSender, RequestDatagram ic l packets d
  receiver : ReceiverSide l packets s.receiver s.ready
  handed : ∀ h ∈ hs, Faithful packets h
  once : ∀ x, IsLast packets l.fragSize x →
    places ic l s hs x ≤ if x.1 < packets.length then 1 else 0

lemma Transfer.init_inv (ic : IntCoding) (l : Link) :
    TransferInv ic l [] [] (Transfer.init l) where
  sender := ⟨[], networkManagerCreate_senderSide l, rfl⟩
  toReceiver d hd := by simp [Transfer.init] at hd
  toSender d hd := by simp [Transfer.init] at hd
  receiver := networkManagerCreate_receiverSide l []
  handed h hh := by simp at hh
  once x _ := by
    have hholds : (networkManagerCreate l.receiverConfig).holdsSlot l.senderNode x = false := by
      rw [NetworkManager.holdsSlot,
        NetworkManager.endpointFor_of_none (networkManagerCreate_endpoint _ _)]
      rfl
    simp [places, Transfer.init, hholds, queuedIds]

/-! ## One action -/

section Steps

variable (h : TransferInv ic l packets hs s)

include h

/-- A packet is enqueued. -/
lemma TransferInv.enqueue {data : Bytes} {tSweep tCreate : ℤ}
    (hids : (packets ++ (Action.enqueue data tSweep tCreate).packet.toList).length < 65536) :
    ∃ s', Transfer.step ic l s (.enqueue data tSweep tCreate) = .ok (s', none)
      ∧ TransferInv ic l (packets ++ (Action.enqueue data tSweep tCreate).packet.toList) hs s' := by
  obtain ⟨ops, hside, rfl⟩ := h.sender
  have hmore : payloads l.receiverNode
      [.enqueuePacket l.senderNode l.receiverNode data tSweep tCreate]
      = (Action.enqueue data tSweep tCreate).packet.toList := by
    simp only [payloads, filterMap_singleton, NmOp.payloadTo, nodeidEqual_self, true_and,
      Action.packet]
  rw [← hmore, ← payloads_append] at hids ⊢
  have hop : (NmOp.enqueuePacket l.senderNode l.receiverNode data tSweep tCreate).SenderCall l :=
    ⟨rfl, rfl⟩
  obtain ⟨nm, a, hstep, hside', hq, -⟩ := hside.step hop hids
  have hcall : ∃ res, networkManagerEnqueueOutgoingPacket s.sender l.senderNode l.receiverNode
      data tSweep tCreate = .ok (nm, res) := by
    simp only [networkManagerStep, Eval.bind_eq_ok, Eval.pure_eq_ok, Except.ok.injEq,
      Prod.mk.injEq] at hstep
    obtain ⟨⟨nm₁, res⟩, hcall, rfl, -⟩ := hstep
    exact ⟨res, hcall⟩
  obtain ⟨res, hcall⟩ := hcall
  refine ⟨{ s with sender := nm }, by rw [Transfer.step, hcall]; rfl, ⟨_, hside', rfl⟩, ?_, ?_, ?_,
    ?_, ?_⟩
  · rw [payloads_append]
    exact fun d hd => (h.toReceiver d hd).append _
  · rw [payloads_append]
    exact fun d hd => (h.toSender d hd).append _
  · rw [payloads_append]
    exact h.receiver.append _
  · rintro ho hmem
    obtain ⟨data', hdata', heq⟩ := h.handed ho hmem
    exact ⟨data', by rw [payloads_append]; exact getElem?_packets_append hdata' _, heq⟩
  · intro x hx
    rw [payloads_append] at hx
    have hold := h.once x hx.of_append
    have hcount := hside.count_enqueue hq x
    rw [payloads_append, List.length_append, hmore]
    simp only [places, Action.packet] at hold hcount ⊢
    by_cases hdata : data = []
    · simp only [hdata, ne_eq, not_true_eq_false, false_and, if_false, List.length_nil, lt_irrefl,
        Option.toList_none, Nat.add_zero] at hcount ⊢
      omega
    · have hlen := List.length_pos_iff.mpr hdata
      simp only [ne_eq, hdata, not_false_eq_true, true_and, hlen, if_true, Option.toList_some,
        List.length_singleton] at hcount ⊢
      split_ifs at hold hcount ⊢ <;> omega

/-- A message of the sender is put on the network. -/
lemma TransferInv.transmit (hic : ic.Inverse (2 ^ 31))
    (hids : packets.length < 65536) :
    ∃ s', Transfer.step ic l s .transmit = .ok (s', none) ∧ TransferInv ic l packets hs s' := by
  obtain ⟨ops, hside, rfl⟩ := h.sender
  have hsame : payloads l.receiverNode (ops ++ [.popMsg]) = payloads l.receiverNode ops := by
    simp [payloads, NmOp.payloadTo]
  have hop : NmOp.popMsg.SenderCall l := trivial
  obtain ⟨nm, a, hstep, hside', -, hpiece⟩ := hside.step hop (by rw [hsame]; exact hids)
  simp only [networkManagerStep, Eval.bind_eq_ok, Eval.pure_eq_ok, Except.ok.injEq,
    Prod.mk.injEq] at hstep
  obtain ⟨⟨nm₁, m⟩, hcall, rfl, rfl⟩ := hstep
  refine ⟨_, by rw [Transfer.step, hcall]; rfl, ?_⟩
  rcases hside.popMsg_ids hcall with ⟨rfl, hqueue⟩ | ⟨f, rfl, hqueue⟩
  · simp only [Option.filter_none, Option.map_none, Option.toList_none, List.append_nil]
    exact ⟨⟨_, hside', hsame⟩, h.toReceiver, h.toSender, h.receiver, h.handed, fun x hx => by
      rw [places, hqueue]
      exact h.once x hx⟩
  · obtain ⟨hf, hgoes⟩ := hpiece f rfl
    rw [hsame] at hf
    simp only [Option.filter_some, hgoes, if_true, Option.map_some, Option.toList_some,
      messageDatagram, hside.pieces.fragSize]
    refine ⟨⟨_, hside', hsame⟩, ?_, h.toSender, h.receiver, h.handed, fun x hx => ?_⟩
    · intro d hd
      rcases List.mem_append.mp hd with hd | hd
      · exact h.toReceiver d hd
      · obtain rfl := List.mem_singleton.mp hd
        exact ⟨f, hf, rfl⟩
    · have hold := h.once x hx
      simp only [places, hqueue, List.filterMap_append, filterMap_singleton,
        hf.datagramId hic hids, Option.toList_some, List.count_append, List.count_cons,
        List.count_nil] at hold ⊢
      omega

/-- A datagram reaches the receiver. -/
lemma TransferInv.deliver (hic : ic.Inverse (2 ^ 31))
    (hids : packets.length < 65536) (d : Bytes) (tSweep tCreate : ℤ) :
    ∃ s', Transfer.step ic l s (.deliver d tSweep tCreate) = .ok (s', none)
      ∧ TransferInv ic l packets hs s' := by
  rw [Transfer.step]
  split_ifs with hd
  · obtain ⟨f, hf, rfl⟩ := h.toReceiver d hd
    have hfrom : (f.received l.receiverNode l.senderNode).fromNode = l.senderNode := rfl
    have hside := h.receiver.arrived (hf.received _ _) hfrom tSweep tCreate
    rw [handleDatagram, hf.decode_link hic hids]
    simp only [Eval.ok_bind, Eval.pure_eq_ok, h.receiver.inv.addFragment]
    refine ⟨_, rfl, h.sender, ?_, h.toSender, hside, h.handed, fun x hx => ?_⟩
    · exact fun d hd => h.toReceiver d (List.mem_of_mem_erase hd)
    · have hold := h.once x hx
      have hcount := count_filterMap_erase (datagramId ic l) hd x
      rw [hf.datagramId hic hids, Option.toList_some, List.count_singleton] at hcount
      have hslot : (s.receiver.arrived (f.received l.receiverNode l.senderNode) tSweep
          tCreate).holdsSlot l.senderNode x = true →
          s.receiver.holdsSlot l.senderNode x = true ∨ x = (f.pid, f.id) :=
        h.receiver.inv.wf.holdsSlot_arrived
      simp only [places] at hold ⊢
      cases hnew : (s.receiver.arrived (f.received l.receiverNode l.senderNode) tSweep
          tCreate).holdsSlot l.senderNode x with
      | false =>
          rw [Bool.toNat_false]
          omega
      | true =>
          rcases hslot hnew with hheld | rfl
          · rw [hheld] at hold
            omega
          · simp only [beq_self_eq_true, if_true] at hcount
            have := Bool.toNat_le (s.receiver.holdsSlot l.senderNode (f.pid, f.id))
            rw [Bool.toNat_true]
            omega
  · exact ⟨s, rfl, h⟩

/-- A datagram for the receiver is lost. -/
lemma TransferInv.lose (d : Bytes) :
    TransferInv ic l packets hs { s with toReceiver := s.toReceiver.erase d } where
  sender := h.sender
  toReceiver d' hd := h.toReceiver d' (List.mem_of_mem_erase hd)
  toSender := h.toSender
  receiver := h.receiver
  handed := h.handed
  once x hx := by
    have hold := h.once x hx
    have hle : ((s.toReceiver.erase d).filterMap (datagramId ic l)).count x
        ≤ (s.toReceiver.filterMap (datagramId ic l)).count x :=
      (List.erase_sublist.filterMap _).count_le x
    simp only [places] at hold ⊢
    omega

/-- A request is lost. -/
lemma TransferInv.loseRequest (d : Bytes) :
    TransferInv ic l packets hs { s with toSender := s.toSender.erase d } where
  sender := h.sender
  toReceiver := h.toReceiver
  toSender d' hd := h.toSender d' (List.mem_of_mem_erase hd)
  receiver := h.receiver
  handed := h.handed
  once := h.once

/-- A request of the receiver is put on the network. -/
lemma TransferInv.request (hic : ic.Inverse (2 ^ 31)) (hids : packets.length < 65536)
    (forwarded : Bool) :
    ∃ s', Transfer.step ic l s (.request forwarded) = .ok (s', none)
      ∧ TransferInv ic l packets hs s' := by
  obtain ⟨nm, m, hcall, hside, hholds, hm⟩ := h.receiver.popMsg
  refine ⟨{ s with
    receiver := nm
    toSender := s.toSender ++ ((m.filter fun msg => forwarded
      || msg.Goes l.receiverNode l.senderNode).map (messageDatagram ic _)).toList },
    by rw [Transfer.step, hcall]; rfl, h.sender, h.toReceiver, ?_, hside, h.handed, fun x hx => ?_⟩
  · intro d hd
    rcases List.mem_append.mp hd with hd | hd
    · exact h.toSender d hd
    · obtain ⟨msg, hmsg, rfl⟩ := by simpa using hd
      obtain ⟨fr, rfl, hask⟩ := hm msg hmsg.1
      exact hask.requestDatagram hic hids _
  · simp only [places, hholds]
    exact h.once x hx

/-- A request is answered by the sender. -/
lemma TransferInv.answer (hids : packets.length < 65536) (d : Bytes) (tSweep tCreate : ℤ) :
    ∃ s', Transfer.step ic l s (.answer d tSweep tCreate) = .ok (s', none)
      ∧ TransferInv ic l packets hs s' := by
  rw [Transfer.step]
  split_ifs with hd
  · obtain ⟨fr, hask, hdec⟩ := h.toSender d hd
    obtain ⟨ops, hside, rfl⟩ := h.sender
    have hsame : payloads l.receiverNode
        (ops ++ [.enqueueFragment l.receiverNode fr.pid fr.id tSweep])
        = payloads l.receiverNode ops := by
      simp [payloads, NmOp.payloadTo]
    have hop : (NmOp.enqueueFragment l.receiverNode fr.pid fr.id tSweep).SenderCall l := trivial
    obtain ⟨nm, a, hstep, hside', hq, -⟩ := hside.step hop (by rw [hsame]; exact hids)
    simp only [networkManagerStep, Except.ok.injEq, Prod.mk.injEq] at hstep
    obtain ⟨rfl, -⟩ := hstep
    rw [handleDatagram, hdec]
    refine ⟨{ s with
      sender := (networkManagerEnqueueOutgoingFragment s.sender _ fr.pid fr.id tSweep).1,
      toSender := s.toSender.erase d }, rfl, ⟨_, hside', hsame⟩, h.toReceiver, ?_, h.receiver,
      h.handed, fun x hx => ?_⟩
    · exact fun d hd => h.toSender d (List.mem_of_mem_erase hd)
    · have hold := h.once x hx
      have hcount := count_enqueueFragment hside.served.inv hq x
      have hne : x ≠ (fr.pid, fr.id) := by
        rintro rfl
        exact hx.not_askable hask
      rw [if_neg hne] at hcount
      simp only [places] at hold ⊢
      omega
  · exact ⟨s, rfl, h⟩

/-- A packet is popped. -/
lemma TransferInv.pop
    (hpackets : ∀ data ∈ packets, (data.length + l.fragSize - 1) / l.fragSize ≤ 65535
      ∧ data.length < l.bufferSize) (pid : ℕ) (t : ℤ) :
    ∃ s' o, Transfer.step ic l s (.pop pid t) = .ok (s', o)
      ∧ TransferInv ic l packets (hs ++ o.toList) s' := by
  rw [Transfer.step]
  split_ifs with hpid
  · have hside := h.receiver.popped pid t
    have hslot : ∀ x, ((s.receiver.popped l.senderNode pid t).holdsSlot l.senderNode x).toNat
        ≤ (s.receiver.holdsSlot l.senderNode x).toNat
        ∧ (x.1 = pid → ((s.receiver.popped l.senderNode pid t).holdsSlot l.senderNode x) = false)
        := by
      intro x
      cases hnew : (s.receiver.popped l.senderNode pid t).holdsSlot l.senderNode x with
      | false => exact ⟨Nat.zero_le _, fun _ => rfl⟩
      | true =>
          obtain ⟨hne, hheld⟩ := h.receiver.inv.wf.holdsSlot_popped hnew
          rw [hheld]
          exact ⟨le_rfl, fun he => absurd he.symm hne⟩
    simp only [h.receiver.inv.popPacket]
    rcases h.receiver.popAnswer hpid t hpackets with hans | ⟨data, hdata, hans, hfull⟩
    · rw [hans]
      refine ⟨_, _, rfl, h.sender, h.toReceiver, h.toSender, hside, ?_, fun x hx => ?_⟩
      · simpa using h.handed
      · have hold := h.once x hx
        have := (hslot x).1
        simp only [places, if_true, Option.toList_none, List.append_nil] at hold ⊢
        omega
    · rw [hans]
      refine ⟨_, _, rfl, h.sender, h.toReceiver, h.toSender, hside, ?_, fun x hx => ?_⟩
      · intro ho hmem
        rcases List.mem_append.mp hmem with hmem | hmem
        · exact h.handed ho hmem
        · obtain rfl : ho = (pid, 0, data, data.length) := by simpa using hmem
          exact ⟨data, hdata, rfl⟩
      · have hold := h.once x hx
        obtain ⟨hle, hgone⟩ := hslot x
        simp only [places] at hold ⊢
        by_cases hx₁ : x.1 = pid
        · have hlast := hx data (by rw [hx₁]; exact hdata)
          have hheld := hfull x.2 (by omega)
          rw [← hx₁] at hheld
          rw [hgone hx₁]
          rw [hheld] at hold
          simp [hx₁] at hold ⊢
          omega
        · simp [Ne.symm hx₁] at hold ⊢
          omega
  · exact ⟨s, none, rfl, by simpa using h⟩

/-- **Every action can be taken**, and keeps the invariant. -/
theorem TransferInv.step (hic : ic.Inverse (2 ^ 31)) {a : Action}
    (hids : (packets ++ a.packet.toList).length < 65536)
    (hpackets : ∀ data ∈ packets ++ a.packet.toList,
      (data.length + l.fragSize - 1) / l.fragSize ≤ 65535 ∧ data.length < l.bufferSize) :
    ∃ s' o, Transfer.step ic l s a = .ok (s', o)
      ∧ TransferInv ic l (packets ++ a.packet.toList) (hs ++ o.toList) s' := by
  have hlt : packets.length < 65536 := by
    rw [List.length_append] at hids
    omega
  have hsilent : ∀ {s'}, Transfer.step ic l s a = .ok (s', none) ∧ TransferInv ic l packets hs s' →
      a.packet = none → ∃ s' o, Transfer.step ic l s a = .ok (s', o)
        ∧ TransferInv ic l (packets ++ a.packet.toList) (hs ++ o.toList) s' := by
    rintro s' ⟨hstep, hinv⟩ ha
    exact ⟨s', none, hstep, by simpa [ha] using hinv⟩
  cases a with
  | enqueue data tSweep tCreate =>
      obtain ⟨s', hstep, hinv⟩ := h.enqueue hids
      exact ⟨s', none, hstep, by simpa using hinv⟩
  | transmit =>
      obtain ⟨s', hs'⟩ := h.transmit hic hlt
      exact hsilent hs' rfl
  | deliver d tSweep tCreate =>
      obtain ⟨s', hs'⟩ := h.deliver hic hlt d tSweep tCreate
      exact hsilent hs' rfl
  | lose d => exact hsilent ⟨rfl, h.lose d⟩ rfl
  | request forwarded =>
      obtain ⟨s', hs'⟩ := h.request hic hlt forwarded
      exact hsilent hs' rfl
  | answer d tSweep tCreate =>
      obtain ⟨s', hs'⟩ := h.answer hlt d tSweep tCreate
      exact hsilent hs' rfl
  | loseRequest d => exact hsilent ⟨rfl, h.loseRequest d⟩ rfl
  | pop pid tSweep =>
      have hnone : (Action.pop pid tSweep).packet = none := rfl
      simp only [hnone, Option.toList_none, List.append_nil] at hpackets ⊢
      exact h.pop hpackets pid tSweep

end Steps

/-! ## Runs -/

/-- No packet has been handed out twice. -/
lemma TransferInv.nodup (h : TransferInv ic l packets hs s)
    (hpos : ∀ data ∈ packets, 0 < cutCount data.length l.fragSize) :
    (hs.map Prod.fst).Nodup := by
  refine List.nodup_iff_count_le_one.mpr fun pid => ?_
  by_cases hmem : pid ∈ hs.map Prod.fst
  · obtain ⟨ho, hho, rfl⟩ := List.mem_map.mp hmem
    obtain ⟨data, hdata, -⟩ := h.handed ho hho
    have hcut := hpos data (List.mem_of_getElem? hdata)
    have hlast : IsLast packets l.fragSize (ho.1, cutCount data.length l.fragSize - 1) := by
      intro data' hdata'
      obtain rfl := Option.some.inj (hdata.symm.trans hdata')
      exact Nat.sub_add_cancel hcut
    have hone := h.once _ hlast
    simp only [places] at hone
    split_ifs at hone <;> omega
  · rw [List.count_eq_zero.mpr hmem]
    exact Nat.zero_le 1

/-- **At-most-once delivery.**  Let the receiver ask again for fragments it misses, and the sender
answer, in any order with everything else that happens.  As long as the packets have distinct ids,
not too many fragments and fit the buffer, every action can be taken, no packet is handed out
twice, and what is handed out under an id is the packet enqueued under it. -/
theorem at_most_once (ic : IntCoding) (hic : ic.Inverse (2 ^ 31)) (l : Link) (as : List Action)
    (hids : (enqueued as).length < 65536)
    (hpackets : ∀ data ∈ enqueued as,
      (data.length + l.fragSize - 1) / l.fragSize ≤ 65535 ∧ data.length < l.bufferSize) :
    ∃ s outs, exec (Transfer.step ic l) (Transfer.init l) as = .ok (s, outs)
      ∧ ((handouts outs).map Prod.fst).Nodup
      ∧ ∀ h ∈ handouts outs, ∃ data, (enqueued as)[h.1]? = some data
        ∧ h.2 = (0, data, data.length) := by
  have htotal : ∃ s outs, exec (Transfer.step ic l) (Transfer.init l) as = .ok (s, outs)
      ∧ TransferInv ic l (enqueued as) (handouts outs) s := by
    refine exec_total (J := fun as outs s => TransferInv ic l (enqueued as) (handouts outs) s)
      (Transfer.init_inv ic l) fun pre a post outs s has hinv => ?_
    have hpre : enqueued (pre ++ [a]) = enqueued pre ++ a.packet.toList := by
      rw [enqueued_append, enqueued, enqueued, filterMap_singleton]
    have hall : enqueued as = (enqueued pre ++ a.packet.toList) ++ enqueued post := by
      rw [has, ← List.singleton_append, ← List.append_assoc, enqueued_append, hpre]
    rw [hall, List.length_append] at hids
    obtain ⟨s', o, hstep, hinv'⟩ := hinv.step hic (Nat.lt_of_add_right_lt hids) fun data hdata =>
      hpackets data (by rw [hall]; exact List.mem_append_left _ hdata)
    refine ⟨s', o, hstep, ?_⟩
    rw [hpre, handouts_append, handouts, handouts, filterMap_singleton]
    exact hinv'
  obtain ⟨s, outs, hexec, hinv⟩ := htotal
  refine ⟨s, outs, hexec, hinv.nodup fun data hdata => ?_, hinv.handed⟩
  have hpos := enqueued_pos hdata
  rw [cutCount_eq l.fragSize_pos (hpackets data hdata).1]
  exact Nat.div_pos (by omega) l.fragSize_pos

/-- A link with fragments of three bytes. -/
def threeByteLink : Link where
  senderNode := ⟨[66], 6001, 3⟩
  receiverNode := ⟨[65], 6000, 4⟩
  senderConfig := ⟨some ⟨3, by decide, by decide⟩, none⟩
  receiverConfig := ⟨none, none⟩
  bufferSize := 10
  senderFrags := by decide
  receiverFrags := by decide

/-- The second fragment of a packet overtakes the first, which is asked for; both arrive, and the
packet is popped before the request is answered, so that the first fragment arrives once more. -/
def overtaken : List Action :=
  [.enqueue [1, 2, 3, 4] 0 0, .transmit, .transmit,
    .deliver [0, 0, 0, 0, 2, 0, 1, 0, 0, 0, 1, 4] 1 1, .request true,
    .deliver [0, 0, 0, 0, 2, 0, 0, 0, 0, 0, 3, 1, 2, 3] 1 1, .pop 0 1,
    .answer [1, 0, 0, 0, 0] 1 1, .transmit,
    .deliver [0, 0, 0, 0, 2, 0, 0, 0, 0, 0, 3, 1, 2, 3] 1 1, .pop 0 1]

example : (exec (Transfer.step bigEndian threeByteLink) (Transfer.init threeByteLink) overtaken).map
    (fun r => handouts r.2) = .ok [(0, 0, [1, 2, 3, 4], 4)] := by decide

end PeerStreamer
