import PeerStreamer.NetHelper.Integrity
import PeerStreamer.NetHelper.Outgoing

/-!
# Whom the messages on the queue are from

A node sends a message through the socket of its `from` field, so everything on the outgoing queue
has to be from the local node.  The packets `send_to_peer` cuts are.  The requests for lost
fragments are not: `fragmented_packet_write_fragment` hands the `from` and `to` of the *received*
fragment on to `frag_request_create`, so that they claim to come from the remote node, which has no
socket here, and to be for the local one.

`addressing_iff` says that a run is free of this exactly as long as no fragment received leaves a
gap in its packet.
-/

namespace PeerStreamer

/-! ## Runs of a node -/

/-- What a node does with its network manager. -/
inductive NodeOp
  | sendToPeer (dst : NodeID) (data : Bytes) (tSweep tCreate : ℤ)
  | recvFromPeer (r : Reception)
  | sendMsg

/-- What comes of it: the value returned, or the message handed to the socket. -/
inductive NodeAnswer
  | returned (n : ℤ)
  | sent (m : Option NetMessage)
  deriving DecidableEq

/-- One operation of the node `localNode`; `sendMsg` is the pop of `net_helper_send_attempt`. -/
def nodeStep (ic : IntCoding) (localNode : NodeID) (nm : NetworkManager) :
    NodeOp → Eval (NetworkManager × NodeAnswer)
  | .sendToPeer dst data tSweep tCreate => do
      let (nm, n) ← sendToPeer localNode nm dst data tSweep tCreate
      return (nm, .returned n)
  | .recvFromPeer r => do
      let (nm, n, _) ← recvFromPeer ic localNode nm r
      return (nm, .returned n)
  | .sendMsg => do
      let (nm, m) ← networkManagerPopOutgoingNetMsg nm
      return (nm, .sent m)

/-- The `from` field of what a queue element refers to. -/
def NetworkManager.origin (nm : NetworkManager) : QueueElem → Option NodeID
  | .fragment dst pid i => (nm.slot dst pid i).map fun f => f.fromNode
  | .request r => some r.fromNode

/-- The elements a received fragment has put in front of the queue. -/
def caused (nm nm' : NetworkManager) : MsgList :=
  nm'.outqueue.take (nm'.outqueue.length - nm.outqueue.length)

/-- After the operation everything on the queue is from the local node, the message sent if any
was, and the requests caused by a fragment are addressed to the node it came from. -/
def Addressed (ic : IntCoding) (localNode : NodeID) (nm : NetworkManager) (op : NodeOp) : Prop :=
  ∀ nm' a, nodeStep ic localNode nm op = .ok (nm', a) →
    (∀ el ∈ nm'.outqueue, nm'.origin el = some localNode)
    ∧ (∀ m, a = .sent (some m) → m.netMsg.fromNode = localNode)
    ∧ ∀ r datagram, op = .recvFromPeer r → r.received = some datagram → Decodable ic datagram →
      datagram.head? = some NET_FRAGMENT → ∀ fr, QueueElem.request fr ∈ caused nm nm' →
      fr.fromNode = localNode ∧ fr.toNode = r.remote

/-- A fragment received leaves no gap: no slot below a filled one, nor the first, is left empty. -/
def NoGap (ic : IntCoding) (localNode : NodeID) (nm : NetworkManager) : NodeOp → Prop
  | .recvFromPeer r => ∀ datagram ∈ r.received, Decodable ic datagram →
      datagram.head? = some NET_FRAGMENT →
      missingIds (nm.target (decodedFragment ic localNode r.remote datagram) r.tSweep r.tCreate)
        (decodedFragment ic localNode r.remote datagram) = []
  | _ => True

instance (ic : IntCoding) (localNode : NodeID) (nm : NetworkManager) :
    ∀ op, Decidable (NoGap ic localNode nm op)
  | .sendToPeer _ _ _ _ => isTrue trivial
  | .recvFromPeer _ => inferInstanceAs (Decidable (∀ datagram ∈ _, _))
  | .sendMsg => isTrue trivial

/-! ## The invariant -/

/-- Every stored outgoing fragment and every queued request is from `localNode`. -/
structure AllFrom (localNode : NodeID) (nm : NetworkManager) : Prop where
  inv : nm.OutqueueInv
  outgoing : nm.EveryOutgoing fun f => f.fromNode = localNode
  requests : ∀ fr, QueueElem.request fr ∈ nm.outqueue → fr.fromNode = localNode

section Steps

variable {ic : IntCoding} {localNode : NodeID} {nm nm' : NetworkManager} {a : NodeAnswer}

lemma networkManagerCreate_allFrom (localNode : NodeID) (config : NetworkConfig) :
    AllFrom localNode (networkManagerCreate config) where
  inv := networkManagerCreate_outqueueInv config
  outgoing := networkManagerCreate_everyOutgoing config _
  requests fr hfr := by simp at hfr

lemma linkBlind_fromNode : LinkBlind fun f => f.fromNode = localNode := fun _ _ h => h

lemma AllFrom.origin (h : AllFrom localNode nm) {el : QueueElem} (hm : el ∈ nm.outqueue) :
    nm.origin el = some localNode := by
  cases el with
  | request r => exact congrArg some (h.requests r hm)
  | fragment dst pid i =>
      obtain ⟨f, hf⟩ := Option.isSome_iff_exists.mp (h.inv.holds _ hm)
      rw [NetworkManager.origin, hf, Option.map_some, h.outgoing.slot hf]

/-- Sending from the local node. -/
lemma AllFrom.sendToPeer (h : AllFrom localNode nm) {dst : NodeID} {data : Bytes}
    {tSweep tCreate : ℤ} {n : ℤ}
    (hs : sendToPeer localNode nm dst data tSweep tCreate = .ok (nm', n)) :
    AllFrom localNode nm' := by
  rw [PeerStreamer.sendToPeer] at hs
  by_cases hdata : 0 < data.length
  · by_cases hgood : 0 < nm.fragSize ∧ nm.IdFree dst tSweep
    · rw [if_pos hdata, networkManagerEnqueueOutgoingPacket_eq h.inv.wf localNode _ hdata hgood.1
        hgood.2] at hs
      simp only [Eval.ok_bind, Eval.pure_eq_ok, Except.ok.injEq, Prod.mk.injEq] at hs
      have hinv : (nm.enqueued localNode dst data tSweep tCreate).OutqueueInv :=
        h.inv.enqueued hgood.2
      have hout : (nm.enqueued localNode dst data tSweep tCreate).EveryOutgoing
          fun f => f.fromNode = localNode :=
        h.outgoing.enqueued h.inv.wf hgood.2 fun f hf => by
          obtain ⟨i, -, rfl⟩ := List.mem_map.mp hf
          rfl
      rw [← hs.1]
      refine ⟨hinv, hout, fun fr hfr => h.requests fr ?_⟩
      rw [NetworkManager.put_outqueue, List.mem_append,
        (h.inv.owns_endpointFor dst).sweptQueue_eq] at hfr
      rcases hfr with hfr | hfr
      · obtain ⟨j, -, he⟩ := (Endpoint.Owns.cut_named (nm.endpointFor dst) localNode data
          0).mem_elements.mp hfr
        cases he
      · exact (List.mem_filter.mp hfr).1
    · obtain ⟨u, hu⟩ := networkManagerEnqueueOutgoingPacket_error h.inv.wf localNode tCreate
        hdata hgood
      rw [if_pos hdata, hu] at hs
      cases hs
  · rw [if_neg hdata] at hs
    cases hs
    exact h

/-- Handing the first message to the socket. -/
lemma AllFrom.sendMsg (h : AllFrom localNode nm) {m : Option NetMessage}
    (hs : networkManagerPopOutgoingNetMsg nm = .ok (nm', m)) :
    AllFrom localNode nm' ∧ ∀ m', m = some m' → m'.netMsg.fromNode = localNode := by
  obtain ⟨nm₁, m₁, hpop, hinv, hq⟩ := h.inv.popMsg
  rw [hs, Except.ok.injEq, Prod.mk.injEq] at hpop
  obtain ⟨rfl, rfl⟩ := hpop
  obtain ⟨hout, hfrag⟩ := h.outgoing.popMsg linkBlind_fromNode h.inv hs
  refine ⟨⟨hinv, hout, fun fr hfr => h.requests fr (List.mem_of_mem_tail (hq ▸ hfr))⟩, ?_⟩
  rintro m' rfl
  cases m' with
  | fragment f => exact hfrag f rfl
  | fragRequest r =>
      -- only the front of the queue can have been popped
      rw [networkManagerPopOutgoingNetMsg] at hs
      split at hs
      · cases hs
      · next r' q hq' =>
          cases hs
          exact h.requests r' (by rw [hq']; exact List.mem_cons_self)
      · split at hs
        · cases hs
        · cases hs

/-- Answering a request for a fragment. -/
lemma AllFrom.enqueueFragment (h : AllFrom localNode nm) (dst : NodeID) (pid fid : ℕ) (t : ℤ) :
    AllFrom localNode (networkManagerEnqueueOutgoingFragment nm dst pid fid t).1 := by
  refine ⟨h.inv.enqueueFragment dst pid fid t,
    h.outgoing.enqueueFragment linkBlind_fromNode h.inv dst pid fid t, fun fr hfr => ?_⟩
  have hrefr : ∀ el, el ∈ (nm.refreshed dst t).outqueue → el ∈ nm.outqueue := fun el hm => by
    rw [h.inv.refreshed_outqueue] at hm
    exact (List.mem_filter.mp hm).1
  rcases networkManagerEnqueueOutgoingFragment_cases h.inv dst pid fid t with
    ⟨-, heq⟩ | ⟨e, fp, f, -, -, -, -, heq⟩
  · rw [heq] at hfr
    exact h.requests fr (hrefr _ hfr)
  · rw [heq] at hfr
    split_ifs at hfr
    · exact h.requests fr (hrefr _ hfr)
    · rcases List.mem_append.mp hfr with hfr | hfr
      · exact h.requests fr (hrefr _ hfr)
      · simp [fragmentListElement] at hfr

/-- A fragment that causes no request. -/
lemma AllFrom.arrived (h : AllFrom localNode nm) {f : Fragment} {tSweep tCreate : ℤ}
    (hno : missingIds (nm.target f tSweep tCreate) f = []) :
    AllFrom localNode (nm.arrived f tSweep tCreate) := by
  refine ⟨h.inv.arrived, h.outgoing.arrived h.inv.wf f tSweep tCreate, fun fr hfr => ?_⟩
  rw [NetworkManager.arrived_outqueue, arrivalRequests, hno] at hfr
  exact h.requests fr hfr

lemma AllFrom.popped (h : AllFrom localNode nm) (src : NodeID) (pid : ℕ) (t : ℤ) :
    AllFrom localNode (nm.popped src pid t) := by
  refine ⟨h.inv.popped src pid t, h.outgoing.popped h.inv.wf src pid t, fun fr hfr => ?_⟩
  rw [NetworkManager.popped_outqueue] at hfr
  exact h.requests fr hfr

/-- Receiving a fragment, as far as the state goes. -/
lemma nodeStep_fragment (h : nm.OutqueueInv) {r : Reception} {datagram : Bytes}
    (hr : r.received = some datagram) (hd : Decodable ic datagram)
    (htype : datagram.head? = some NET_FRAGMENT) {f : Fragment}
    (hf : f = decodedFragment ic localNode r.remote datagram)
    (hs : nodeStep ic localNode nm (.recvFromPeer r) = .ok (nm', a)) :
    nm' = nm.arrived f r.tSweep r.tCreate
      ∨ nm' = (nm.arrived f r.tSweep r.tCreate).popped r.remote f.pid r.tPop := by
  rw [nodeStep, recvFromPeer_fragment _ h hr hd htype hf] at hs
  simp only [Eval.ok_bind, Eval.pure_eq_ok, Except.ok.injEq, Prod.mk.injEq] at hs
  rw [← hs.1]
  split_ifs
  · exact Or.inr rfl
  · exact Or.inl rfl

/-- Receiving a request, as far as the state goes. -/
lemma nodeStep_request {r : Reception} {datagram : Bytes} (hr : r.received = some datagram)
    (hne : 0 < datagram.length) (hd : Decodable ic datagram)
    (htype : datagram.head? ≠ some NET_FRAGMENT) {fr : FragRequest}
    (hfr : fr = decodedRequest ic localNode r.remote datagram)
    (hs : nodeStep ic localNode nm (.recvFromPeer r) = .ok (nm', a)) :
    nm' = (networkManagerEnqueueOutgoingFragment nm r.remote fr.pid fr.id r.tSweep).1 := by
  rw [nodeStep, recvFromPeer, recvFromPeerAs, hr] at hs
  simp only [gt_iff_lt, hne, if_true, netMsgDecode_of_decodable hd, decodedMessage, if_neg htype,
    ← hfr, Eval.ok_bind, Eval.pure_eq_ok, Except.ok.injEq, Prod.mk.injEq] at hs
  exact hs.1.symm

/-- A fragment with a gap below it puts a request of the remote node on the queue. -/
lemma not_addressed_of_gap (ic : IntCoding) (localNode : NodeID) (hfd : localNode.fd ≠ -1)
    (h : nm.OutqueueInv) {r : Reception}
    {datagram : Bytes} (hr : r.received = some datagram) (hd : Decodable ic datagram)
    (htype : datagram.head? = some NET_FRAGMENT) {f : Fragment}
    (hf : f = decodedFragment ic localNode r.remote datagram)
    (hgap : missingIds (nm.target f r.tSweep r.tCreate) f ≠ []) :
    ¬ Addressed ic localNode nm (.recvFromPeer r) := by
  intro hadd
  have hne : 0 < datagram.length := by
    cases datagram with
    | nil => simp at htype
    | cons b datagram => simp
  obtain ⟨⟨nm', n, buffer⟩, hok⟩ :=
    recvFromPeer_of_decodable localNode nm hr hne hd
  have hs : nodeStep ic localNode nm (.recvFromPeer r) = .ok (nm', .returned n) := by
    rw [nodeStep, hok]
    rfl
  obtain ⟨i, ids, hids⟩ := List.exists_cons_of_ne_nil hgap
  have hqueue : nm'.outqueue
      = arrivalRequests (nm.target f r.tSweep r.tCreate) f ++ nm.outqueue := by
    rcases nodeStep_fragment h hr hd htype hf hs with rfl | rfl
    · rfl
    · rw [NetworkManager.popped_outqueue]
      rfl
  have hmem : QueueElem.request (fragRequestCreate f.fromNode f.toNode
      (nm.target f r.tSweep r.tCreate).packetId i true) ∈ nm'.outqueue := by
    rw [hqueue, arrivalRequests, hids]
    exact List.mem_append_left _ List.mem_cons_self
  have horigin := (hadd nm' _ hs).1 _ hmem
  simp only [NetworkManager.origin, Option.some.injEq, fragRequestCreate] at horigin
  have hfrom : f.fromNode.fd = -1 := by rw [hf]; rfl
  rw [horigin] at hfrom
  exact hfd hfrom

lemma nodeStep_recv_returned {r : Reception}
    (hs : nodeStep ic localNode nm (.recvFromPeer r) = .ok (nm', a)) : ∃ n, a = .returned n := by
  simp only [nodeStep, Eval.bind_eq_ok, Eval.pure_eq_ok, Except.ok.injEq, Prod.mk.injEq] at hs
  obtain ⟨⟨nm₁, n, buffer⟩, -, -, rfl⟩ := hs
  exact ⟨n, rfl⟩

/-- A fragment without a gap leaves the queue as it is. -/
lemma AllFrom.recv_fragment (h : AllFrom localNode nm) {r : Reception} {datagram : Bytes}
    (hr : r.received = some datagram) (hd : Decodable ic datagram)
    (htype : datagram.head? = some NET_FRAGMENT) {f : Fragment}
    (hf : f = decodedFragment ic localNode r.remote datagram)
    (hno : missingIds (nm.target f r.tSweep r.tCreate) f = [])
    (hs : nodeStep ic localNode nm (.recvFromPeer r) = .ok (nm', a)) :
    AllFrom localNode nm' ∧ nm'.outqueue = nm.outqueue := by
  have hqueue : (nm.arrived f r.tSweep r.tCreate).outqueue = nm.outqueue := by
    rw [NetworkManager.arrived_outqueue, arrivalRequests, hno]
    rfl
  rcases nodeStep_fragment h.inv hr hd htype hf hs with rfl | rfl
  · exact ⟨h.arrived hno, hqueue⟩
  · exact ⟨(h.arrived hno).popped _ _ _, by rw [NetworkManager.popped_outqueue, hqueue]⟩

/-- Anything else that is received causes no request. -/
lemma AllFrom.recv_other (h : AllFrom localNode nm) {r : Reception}
    (hother : ∀ datagram ∈ r.received, Decodable ic datagram →
      datagram.head? ≠ some NET_FRAGMENT)
    (hs : nodeStep ic localNode nm (.recvFromPeer r) = .ok (nm', a)) : AllFrom localNode nm' := by
  cases hr : r.received with
  | none =>
      rw [nodeStep, recvFromPeer, recvFromPeerAs, hr] at hs
      cases hs
      exact h
  | some datagram =>
      by_cases hne : 0 < datagram.length
      · by_cases hd : Decodable ic datagram
        · rw [nodeStep_request hr hne hd (hother datagram hr hd) rfl hs]
          exact h.enqueueFragment _ _ _ _
        · obtain ⟨u, hu⟩ := recvFromPeer_of_not_decodable localNode nm hr hne hd
          rw [nodeStep, hu] at hs
          cases hs
      · rw [nodeStep, recvFromPeer, recvFromPeerAs, hr] at hs
        simp only [gt_iff_lt, hne, if_false] at hs
        cases hs
        exact h

/-- **One step.**  From a queue that is all from the local node, a step is addressed as it should be
if and only if it leaves no gap, and then the queue stays so. -/
theorem AllFrom.step (h : AllFrom localNode nm) (ic : IntCoding) (hfd : localNode.fd ≠ -1)
    (op : NodeOp) :
    (Addressed ic localNode nm op ↔ NoGap ic localNode nm op)
      ∧ (NoGap ic localNode nm op → ∀ nm' a, nodeStep ic localNode nm op = .ok (nm', a) →
        AllFrom localNode nm') := by
  cases op with
  | sendToPeer dst data tSweep tCreate =>
      have hkeep : ∀ nm' a, nodeStep ic localNode nm (.sendToPeer dst data tSweep tCreate)
          = .ok (nm', a) → AllFrom localNode nm' ∧ ∃ n, a = .returned n := by
        intro nm' a hs
        simp only [nodeStep, Eval.bind_eq_ok, Eval.pure_eq_ok, Except.ok.injEq, Prod.mk.injEq] at hs
        obtain ⟨⟨nm₁, n⟩, hs, rfl, rfl⟩ := hs
        exact ⟨h.sendToPeer hs, n, rfl⟩
      refine ⟨iff_of_true (fun nm' a hs => ?_) trivial, fun _ nm' a hs => (hkeep nm' a hs).1⟩
      obtain ⟨hall, n, rfl⟩ := hkeep nm' a hs
      exact ⟨fun el hm => hall.origin hm, by simp, by simp⟩
  | sendMsg =>
      have hkeep : ∀ nm' a, nodeStep ic localNode nm .sendMsg = .ok (nm', a) →
          AllFrom localNode nm' ∧ ∀ m, a = .sent (some m) → m.netMsg.fromNode = localNode := by
        intro nm' a hs
        simp only [nodeStep, Eval.bind_eq_ok, Eval.pure_eq_ok, Except.ok.injEq, Prod.mk.injEq] at hs
        obtain ⟨⟨nm₁, m⟩, hs, rfl, rfl⟩ := hs
        obtain ⟨hall, hm⟩ := h.sendMsg hs
        exact ⟨hall, fun m' hm' => hm m' (by simpa using hm')⟩
      refine ⟨iff_of_true (fun nm' a hs => ?_) trivial, fun _ nm' a hs => (hkeep nm' a hs).1⟩
      obtain ⟨hall, hm⟩ := hkeep nm' a hs
      exact ⟨fun el hm => hall.origin hm, hm, by simp⟩
  | recvFromPeer r =>
      by_cases hfrag : ∃ datagram, r.received = some datagram ∧ Decodable ic datagram
          ∧ datagram.head? = some NET_FRAGMENT
      · obtain ⟨datagram, hr, hd, htype⟩ := hfrag
        have hgap : NoGap ic localNode nm (.recvFromPeer r) ↔ missingIds
            (nm.target (decodedFragment ic localNode r.remote datagram) r.tSweep r.tCreate)
            (decodedFragment ic localNode r.remote datagram) = [] := by
          refine ⟨fun hno => hno datagram hr hd htype, fun hno d hd' _ _ => ?_⟩
          obtain rfl : datagram = d := Option.some.inj (hr.symm.trans hd')
          exact hno
        by_cases hno : missingIds
            (nm.target (decodedFragment ic localNode r.remote datagram) r.tSweep r.tCreate)
            (decodedFragment ic localNode r.remote datagram) = []
        · refine ⟨iff_of_true (fun nm' a hs => ?_) (hgap.mpr hno), fun _ nm' a hs =>
            (h.recv_fragment hr hd htype rfl hno hs).1⟩
          obtain ⟨hall, hqueue⟩ := h.recv_fragment hr hd htype rfl hno hs
          obtain ⟨n, rfl⟩ := nodeStep_recv_returned hs
          refine ⟨fun el hm => hall.origin hm, by simp, fun _ _ _ _ _ _ fr hfr => ?_⟩
          rw [caused, hqueue, Nat.sub_self, List.take_zero] at hfr
          exact absurd hfr List.not_mem_nil
        · exact ⟨iff_of_false (not_addressed_of_gap ic localNode hfd h.inv hr hd htype rfl hno)
            (mt hgap.mp hno), fun hg => absurd (hgap.mp hg) hno⟩
      · have hother : ∀ datagram ∈ r.received, Decodable ic datagram →
            datagram.head? ≠ some NET_FRAGMENT :=
          fun datagram hr hd htype => hfrag ⟨datagram, hr, hd, htype⟩
        refine ⟨iff_of_true (fun nm' a hs => ?_) fun d hr hd htype =>
          absurd htype (hother d hr hd), fun _ nm' a hs => h.recv_other hother hs⟩
        have hall := h.recv_other hother hs
        obtain ⟨n, rfl⟩ := nodeStep_recv_returned hs
        refine ⟨fun el hm => hall.origin hm, by simp, fun r' d hr' hrec hd htype => ?_⟩
        cases hr'
        exact absurd htype (hother d hrec hd)

end Steps

/-! ## Every run -/

/-- **When the queue is addressed as it should be.**  In every run of a node with a socket: all
steps are `Addressed` if and only if no fragment received leaves a gap. -/
theorem addressing_iff (ic : IntCoding) (localNode : NodeID) (hfd : localNode.fd ≠ -1)
    (config : NetworkConfig) (ops : List NodeOp) :
    Along (nodeStep ic localNode) (Addressed ic localNode) (networkManagerCreate config) ops
      ↔ Along (nodeStep ic localNode) (NoGap ic localNode) (networkManagerCreate config) ops := by
  have h := networkManagerCreate_allFrom localNode config
  generalize networkManagerCreate config = nm at h ⊢
  induction ops generalizing nm with
  | nil => exact Iff.rfl
  | cons op ops ih =>
      obtain ⟨hiff, hkeep⟩ := h.step ic hfd op
      rw [along_cons, along_cons, hiff]
      exact and_congr_right fun hno => forall_congr' fun nm' => forall_congr' fun a =>
        forall_congr' fun hs => ih nm' (hkeep hno nm' a hs)

/-- The two fragments of a packet received in order. -/
theorem addressing_iff_in_order :
    Along (nodeStep bigEndian ⟨[65], 6000, 3⟩) (Addressed bigEndian ⟨[65], 6000, 3⟩)
      (networkManagerCreate ⟨none, none⟩)
      [.recvFromPeer ⟨[66], 6001, some [0, 0, 0, 0, 2, 0, 0, 0, 0, 0, 1, 42],
        List.replicate 20 0, 0, 0, 0, by decide⟩,
       .recvFromPeer ⟨[66], 6001, some [0, 0, 0, 0, 2, 0, 1, 0, 0, 0, 1, 43],
        List.replicate 20 0, 0, 0, 0, by decide⟩] :=
  (addressing_iff _ _ (by decide) _ _).mpr (by decide)

/-- The second of two fragments, received first, requests the first one of the wrong node. -/
theorem not_addressing :
    ¬ ∀ (ic : IntCoding) (localNode : NodeID) (nm : NetworkManager) (op : NodeOp),
      ic.Inverse (2 ^ 32) → 0 ≤ localNode.fd → AllFrom localNode nm →
      Addressed ic localNode nm op := by
  intro h
  have hall := networkManagerCreate_allFrom ⟨[65], 6000, 3⟩ ⟨none, none⟩
  exact not_addressed_of_gap bigEndian ⟨[65], 6000, 3⟩ (by decide) hall.inv
    (r := ⟨[66], 6001, some [0, 0, 0, 0, 2, 0, 1, 0, 0, 0, 1, 43], List.replicate 20 0, 0, 0, 0,
      by decide⟩) rfl (by decide) (by decide) rfl (by decide)
    (h bigEndian ⟨[65], 6000, 3⟩ (networkManagerCreate ⟨none, none⟩) _ bigEndian_inverse (by decide)
      hall)

end PeerStreamer
