import PeerStreamer.NetHelper.Receiving

/-!
# Peers do not disturb each other

A node talks to many peers at once, and all of them share its network manager.  What
`recv_from_peer` makes of the datagrams of one peer depends on these datagrams alone: with all that
other peers send, that is sent to anyone and that leaves the outgoing queue in between left out, it
returns the same (`isolation`).

What it depends on is the incoming bucket of the peer's endpoint, and no other operation touches it.
-/

namespace PeerStreamer

/-- A call a node makes: it receives a datagram, sends a packet, or takes a message off the outgoing
queue.  A datagram comes with the address of the node made for its sender. -/
inductive PeerCall
  | recv (r : Reception) (address : ℤ)
  | send (dst : NodeID) (data : Bytes) (tSweep tCreate : ℤ)
  | transmit

/-- What comes of it: what `recv_from_peer` or `send_to_peer` returns, with the buffer afterwards,
or the message taken off. -/
inductive PeerAnswer
  | returned (n : ℤ) (buffer : Bytes)
  | sent (m : Option NetMessage)
  deriving DecidableEq

/-- One call of the node `localNode`. -/
def peerStep (ic : IntCoding) (localNode : NodeID) (nm : NetworkManager) :
    PeerCall → Eval (NetworkManager × PeerAnswer)
  | .recv r address => do
      let (nm, n, buffer) ← recvFromPeerAs ic localNode (r.remoteAt address) nm r
      return (nm, .returned n buffer)
  | .send dst data tSweep tCreate => do
      let (nm, n) ← sendToPeer localNode nm dst data tSweep tCreate
      return (nm, .returned n [])
  | .transmit => do
      let (nm, m) ← networkManagerPopOutgoingNetMsg nm
      return (nm, .sent m)

/-- The call receives a datagram of the node. -/
def PeerCall.isFrom (n : NodeID) : PeerCall → Bool
  | .recv r _ => nodeidEqual r.remote n
  | _ => false

/-! ## The incoming bucket of a peer -/

namespace NetworkManager

variable {nm : NetworkManager} {node n dst : NodeID} {e : Endpoint} {q : MsgList}

/-- What has been received from a node and is not complete. -/
def incomingFrom (nm : NetworkManager) (n : NodeID) : PacketBucket := (nm.endpointFor n).incoming

/-- Equal nodes have the same bucket. -/
lemma Wf.incomingFrom_congr (h : nm.Wf) (hn : nodeidEqual node n) :
    nm.incomingFrom node = nm.incomingFrom n := by
  rw [incomingFrom, incomingFrom, endpointFor, endpointFor, h.endpoint_congr hn]
  cases nm.endpoint n with
  | none => rfl
  | some e => rfl

/-- A store that leaves the incoming bucket alone. -/
lemma Wf.incomingFrom_put (h : nm.Wf) (hnode : nodeidEqual e.node node)
    (he : e.incoming = nm.incomingFrom node) (n : NodeID) :
    (nm.put node e q).incomingFrom n = nm.incomingFrom n := by
  rw [incomingFrom, h.endpointFor_put hnode]
  split_ifs with hn
  · rw [he]
    exact h.incomingFrom_congr hn
  · rfl

/-- The bucket after an arrival. -/
lemma Wf.incomingFrom_arrived (h : nm.Wf) (f : Fragment) (tSweep tCreate : ℤ) (n : NodeID) :
    (nm.arrived f tSweep tCreate).incomingFrom n
      = if nodeidEqual f.fromNode n then (nm.incomingFrom n).arrived f tSweep tCreate
        else nm.incomingFrom n := by
  rw [incomingFrom, h.incoming_arrived]
  split_ifs with hn
  · rw [← h.incomingFrom_congr hn]
    rfl
  · rfl

/-- The bucket after a pop. -/
lemma Wf.incomingFrom_popped (h : nm.Wf) {src : NodeID} (he : nm.endpoint src = some e) (pid : ℕ)
    (t : ℤ) (n : NodeID) :
    (nm.popped src pid t).incomingFrom n
      = if nodeidEqual src n then (nm.incomingFrom n).popped pid t else nm.incomingFrom n := by
  rw [incomingFrom, h.incoming_popped he]
  split_ifs with hn
  · rw [← h.incomingFrom_congr hn, incomingFrom, endpointFor_of_some he]
  · rfl

/-- What a fragment is written into is in the bucket. -/
lemma target_eq (f : Fragment) (tSweep tCreate : ℤ) :
    nm.target f tSweep tCreate = (nm.incomingFrom f.fromNode).target f tSweep tCreate := rfl

lemma popAnswer_eq (he : nm.endpoint node = some e) (pid size : ℕ) (t : ℤ) :
    nm.popAnswer node pid size t = (nm.incomingFrom node).popAnswer pid size t := by
  rw [popAnswer, he, incomingFrom, endpointFor_of_some he]

lemma Wf.incomingFrom_link (h : nm.Wf) (he : nm.endpoint dst = some e) {out : PacketBucket}
    (fp : FragmentedPacket) (id : ℕ) (b : Bool) (n : NodeID) :
    (nm.link { e with outgoing := out } fp id b q).incomingFrom n = nm.incomingFrom n := by
  have hnode := h.nodeidEqual_of_endpoint he
  rw [NetworkManager.link, ← put_of_some he]
  refine h.incomingFrom_put (by exact hnode) ?_ n
  rw [incomingFrom, endpointFor_of_some he]

lemma Wf.incomingFrom_refreshed (h : nm.Wf) (dst : NodeID) (t : ℤ) (n : NodeID) :
    (nm.refreshed dst t).incomingFrom n = nm.incomingFrom n := by
  cases he : nm.endpoint dst with
  | none => rw [NetworkManager.refreshed, he]
  | some e =>
      have hnode := h.nodeidEqual_of_endpoint he
      rw [refreshed_of_some he]
      refine h.incomingFrom_put (e := e.refreshed t) hnode ?_ n
      rw [incomingFrom, endpointFor_of_some he]
      rfl

/-- **Answering a request** leaves the incoming buckets alone. -/
lemma OutqueueInv.incomingFrom_enqueueFragment (h : nm.OutqueueInv) (dst : NodeID) (pid fid : ℕ)
    (t : ℤ) (n : NodeID) :
    (networkManagerEnqueueOutgoingFragment nm dst pid fid t).1.incomingFrom n
      = nm.incomingFrom n := by
  have hrefr := h.wf.incomingFrom_refreshed dst t n
  rcases networkManagerEnqueueOutgoingFragment_cases h dst pid fid t with
    ⟨-, heq⟩ | ⟨e, fp, f, he, -, -, -, heq⟩
  · rw [heq]
    exact hrefr
  · rw [heq]
    split_ifs
    · exact hrefr
    · exact h.wf.incomingFrom_link he fp fid true n

/-- So does taking a message off the queue. -/
lemma OutqueueInv.incomingFrom_popMsg (h : nm.OutqueueInv) {nm' : NetworkManager}
    {m : Option NetMessage} (hpop : networkManagerPopOutgoingNetMsg nm = .ok (nm', m))
    (n : NodeID) : nm'.incomingFrom n = nm.incomingFrom n := by
  cases hq : nm.outqueue with
  | nil =>
      rw [networkManagerPopOutgoingNetMsg, hq] at hpop
      cases hpop
      rfl
  | cons el q =>
      cases el with
      | request r =>
          rw [networkManagerPopOutgoingNetMsg, hq] at hpop
          cases hpop
          rfl
      | fragment d pid i =>
          obtain ⟨e, fp, f, he, -, -, -, hpop', -⟩ := h.pop_fragment hq
          rw [hpop'] at hpop
          cases hpop
          exact h.wf.incomingFrom_link he fp i false n

/-- And so does sending a packet. -/
lemma Wf.incomingFrom_enqueued (h : nm.Wf) (src dst : NodeID) (data : Bytes) (tSweep tCreate : ℤ)
    (n : NodeID) : (nm.enqueued src dst data tSweep tCreate).incomingFrom n = nm.incomingFrom n :=
  h.incomingFrom_put (e := (nm.endpointFor dst).enqueued src data tSweep tCreate)
    (h.endpointFor_node dst) rfl n

end NetworkManager

/-! ## Receiving -/

section Receiving

variable {ic : IntCoding} {localNode remote n : NodeID} {nm nm₁ nm' : NetworkManager}
  {r : Reception} {answer : ℤ × Bytes} {a : PeerAnswer}

/-- The reception of a fragment. -/
lemma recvFromPeerAs_of_fragment (h : nm.OutqueueInv) {datagram : Bytes}
    (hr : r.received = some datagram) (hpos : datagram.length > 0) {f : Fragment}
    (hdec : netMsgDecode ic localNode remote datagram = .ok (some (.fragment f))) :
    recvFromPeerAs ic localNode remote nm r
      = .ok (if arrivalState (nm.target f r.tSweep r.tCreate) f = .ready then
          let a := nm.arrived f r.tSweep r.tCreate
          let buffer := datagram ++ r.buffer.drop datagram.length
          let p := a.popAnswer remote f.pid buffer.length r.tPop
          (a.popped remote f.pid r.tPop, p.2.2, p.2.1 ++ buffer.drop p.2.1.length)
        else (nm.arrived f r.tSweep r.tCreate, 0, datagram ++ r.buffer.drop datagram.length)) := by
  rw [recvFromPeerAs, hr]
  simp only [hpos, if_true, hdec, Eval.ok_bind, h.addFragment, h.arrived.popPacket, Eval.pure_eq_ok]
  split_ifs <;> rfl

/-- The reception of a request. -/
lemma recvFromPeerAs_of_request {datagram : Bytes} (hr : r.received = some datagram)
    (hpos : datagram.length > 0) {fr : FragRequest}
    (hdec : netMsgDecode ic localNode remote datagram = .ok (some (.fragRequest fr))) :
    recvFromPeerAs ic localNode remote nm r
      = .ok ((networkManagerEnqueueOutgoingFragment nm remote fr.pid fr.id r.tSweep).1, 0,
          datagram ++ r.buffer.drop datagram.length) := by
  rw [recvFromPeerAs, hr]
  simp only [hpos, if_true, hdec, Eval.ok_bind, Eval.pure_eq_ok]

/-- A reception in cases: nothing is there, a fragment, or a request. -/
lemma recvFromPeerAs_cases (hok : recvFromPeerAs ic localNode remote nm r = .ok (nm₁, answer)) :
    (nm₁ = nm ∧ ∀ nm', recvFromPeerAs ic localNode remote nm' r = .ok (nm', answer))
      ∨ ∃ datagram, r.received = some datagram ∧ datagram.length > 0
        ∧ ((∃ f, netMsgDecode ic localNode remote datagram = .ok (some (.fragment f)))
          ∨ ∃ fr, netMsgDecode ic localNode remote datagram = .ok (some (.fragRequest fr))) := by
  cases hr : r.received with
  | none =>
      rw [recvFromPeerAs, hr] at hok
      cases hok
      exact Or.inl ⟨rfl, fun nm' => by rw [recvFromPeerAs, hr]; rfl⟩
  | some datagram =>
      by_cases hpos : datagram.length > 0
      · refine Or.inr ⟨datagram, rfl, hpos, ?_⟩
        simp only [recvFromPeerAs, hr, hpos, if_true, Eval.bind_eq_ok] at hok
        obtain ⟨msg, hdec, hok⟩ := hok
        cases msg with
        | none => cases hok
        | some msg =>
            cases msg with
            | fragment f => exact Or.inl ⟨f, hdec⟩
            | fragRequest fr => exact Or.inr ⟨fr, hdec⟩
      · simp only [recvFromPeerAs, hr, hpos, if_false] at hok
        cases hok
        exact Or.inl ⟨rfl, fun nm' => by simp only [recvFromPeerAs, hr, hpos, if_false]; rfl⟩

/-- **A reception from another peer** leaves the bucket as it is. -/
lemma recvFromPeerAs_hidden (h : nm.OutqueueInv) (hn : nodeidEqual remote n = false)
    (hok : recvFromPeerAs ic localNode remote nm r = .ok (nm₁, answer)) :
    nm₁.OutqueueInv ∧ nm₁.incomingFrom n = nm.incomingFrom n := by
  rcases recvFromPeerAs_cases hok with
    ⟨rfl, -⟩ | ⟨datagram, hr, hpos, ⟨f, hdec⟩ | ⟨fr, hdec⟩⟩
  · exact ⟨h, rfl⟩
  · have hfrom : f.fromNode = remote := (netMsgDecode_nodes hdec).1
    have hone := h.wf.incomingFrom_arrived f r.tSweep r.tCreate n
    rw [hfrom, if_neg (by simp [hn])] at hone
    rw [recvFromPeerAs_of_fragment h hr hpos hdec] at hok
    split_ifs at hok
    · cases hok
      have hend := h.wf.endpoint_arrived_self f r.tSweep r.tCreate
      rw [hfrom] at hend
      refine ⟨h.arrived.popped _ _ _, ?_⟩
      rw [h.arrived.wf.incomingFrom_popped hend, if_neg (by simp [hn]), hone]
    · cases hok
      exact ⟨h.arrived, hone⟩
  · rw [recvFromPeerAs_of_request hr hpos hdec] at hok
    cases hok
    exact ⟨h.enqueueFragment _ _ _ _, h.incomingFrom_enqueueFragment _ _ _ _ n⟩

/-- What is known of two managers that have received the same from a node. -/
structure Alike (n : NodeID) (nm nm' : NetworkManager) : Prop where
  left : nm.OutqueueInv
  right : nm'.OutqueueInv
  bucket : nm.incomingFrom n = nm'.incomingFrom n

/-- **A reception from the peer** depends on its bucket only. -/
lemma recvFromPeerAs_visible (h : Alike n nm nm') (hn : nodeidEqual remote n = true)
    (hok : recvFromPeerAs ic localNode remote nm r = .ok (nm₁, answer)) :
    ∃ nm₁', recvFromPeerAs ic localNode remote nm' r = .ok (nm₁', answer) ∧ Alike n nm₁ nm₁' := by
  rcases recvFromPeerAs_cases hok with
    ⟨rfl, hidle⟩ | ⟨datagram, hr, hpos, ⟨f, hdec⟩ | ⟨fr, hdec⟩⟩
  · exact ⟨nm', hidle nm', h⟩
  · have hfrom : f.fromNode = remote := (netMsgDecode_nodes hdec).1
    have hremote : nm.incomingFrom remote = nm'.incomingFrom remote := by
      rw [h.left.wf.incomingFrom_congr hn, h.right.wf.incomingFrom_congr hn, h.bucket]
    have htarget : nm.target f r.tSweep r.tCreate = nm'.target f r.tSweep r.tCreate := by
      rw [NetworkManager.target_eq, NetworkManager.target_eq, hfrom, hremote]
    have harrived : ∀ m, nodeidEqual remote m = true →
        (nm.arrived f r.tSweep r.tCreate).incomingFrom m
          = (nm'.arrived f r.tSweep r.tCreate).incomingFrom m := by
      intro m hm
      rw [h.left.wf.incomingFrom_arrived, h.right.wf.incomingFrom_arrived, hfrom, if_pos hm,
        if_pos hm, ← h.left.wf.incomingFrom_congr hm, ← h.right.wf.incomingFrom_congr hm, hremote]
    have hend := h.left.wf.endpoint_arrived_self f r.tSweep r.tCreate
    have hend' := h.right.wf.endpoint_arrived_self f r.tSweep r.tCreate
    rw [hfrom] at hend hend'
    have hself := harrived remote (nodeidEqual_self _)
    rw [recvFromPeerAs_of_fragment h.left hr hpos hdec] at hok
    rw [recvFromPeerAs_of_fragment h.right hr hpos hdec, ← htarget]
    split_ifs at hok ⊢
    · cases hok
      simp only [NetworkManager.popAnswer_eq hend, NetworkManager.popAnswer_eq hend', hself]
      refine ⟨_, rfl, h.left.arrived.popped _ _ _, h.right.arrived.popped _ _ _, ?_⟩
      rw [h.left.arrived.wf.incomingFrom_popped hend, h.right.arrived.wf.incomingFrom_popped hend',
        if_pos hn, if_pos hn, harrived n hn]
    · cases hok
      exact ⟨_, rfl, h.left.arrived, h.right.arrived, harrived n hn⟩
  · rw [recvFromPeerAs_of_request hr hpos hdec] at hok ⊢
    cases hok
    refine ⟨_, rfl, h.left.enqueueFragment _ _ _ _, h.right.enqueueFragment _ _ _ _, ?_⟩
    rw [h.left.incomingFrom_enqueueFragment, h.right.incomingFrom_enqueueFragment, h.bucket]

/-- **A call that is not about the peer** leaves its bucket as it is. -/
lemma peerStep_hidden {call : PeerCall} (h : nm.OutqueueInv) (hn : call.isFrom n = false)
    (hok : peerStep ic localNode nm call = .ok (nm₁, a)) :
    nm₁.OutqueueInv ∧ nm₁.incomingFrom n = nm.incomingFrom n := by
  cases call with
  | recv r address =>
      obtain ⟨⟨nm₂, answer⟩, hrecv, he⟩ := Eval.bind_eq_ok.mp hok
      cases he
      have hremote : nodeidEqual (r.remoteAt address) n = false := hn
      exact recvFromPeerAs_hidden h hremote hrecv
  | send dst data tSweep tCreate =>
      simp only [peerStep, Eval.bind_eq_ok, Eval.pure_eq_ok, Except.ok.injEq, Prod.mk.injEq] at hok
      obtain ⟨⟨nm₂, res⟩, hsend, rfl, -⟩ := hok
      rw [sendToPeer] at hsend
      split_ifs at hsend with hpos
      · simp only [Eval.bind_eq_ok, Eval.pure_eq_ok, Except.ok.injEq, Prod.mk.injEq] at hsend
        obtain ⟨⟨nm₃, res₃⟩, hcall, rfl, -⟩ := hsend
        have hs : networkManagerStep nm (.enqueuePacket localNode dst data tSweep tCreate)
            = .ok (nm₃, .code res₃) := by
          rw [networkManagerStep, hcall]
          rfl
        refine ⟨h.step hs, ?_⟩
        rcases networkManagerStep_enqueuePacket h.wf hs with ⟨-, rfl, -⟩ | ⟨-, -, -, rfl, -⟩
        · rfl
        · exact h.wf.incomingFrom_enqueued localNode dst data tSweep tCreate n
      · cases hsend
        exact ⟨h, rfl⟩
  | transmit =>
      simp only [peerStep, Eval.bind_eq_ok, Eval.pure_eq_ok, Except.ok.injEq, Prod.mk.injEq] at hok
      obtain ⟨⟨nm₂, m⟩, hpop, rfl, -⟩ := hok
      obtain ⟨nm₃, m₃, hpop', hinv, -⟩ := h.popMsg
      obtain ⟨rfl, rfl⟩ := ok_unique hpop hpop'
      exact ⟨hinv, h.incomingFrom_popMsg hpop n⟩

end Receiving

/-- **Peers do not disturb each other.**  Whatever a node receives from others and sends in between,
what `recv_from_peer` returns for the datagrams of the peer `n`, and what it leaves in the buffer,
is what it does for these datagrams alone. -/
theorem isolation {ic : IntCoding} {localNode : NodeID} {config : NetworkConfig}
    {calls : List PeerCall} {answers : List PeerAnswer} {nm : NetworkManager}
    (h : exec (peerStep ic localNode) (networkManagerCreate config) calls = .ok (nm, answers))
    (n : NodeID) :
    ∃ nm', exec (peerStep ic localNode) (networkManagerCreate config)
        (calls.filter (PeerCall.isFrom n))
          = .ok (nm', ((calls.zip answers).filter fun x => x.1.isFrom n).map Prod.snd)
      ∧ nm.incomingFrom n = nm'.incomingFrom n := by
  have hstart := networkManagerCreate_outqueueInv config
  obtain ⟨nm', hexec, halike⟩ := exec_unwinds (PeerCall.isFrom n) (Alike n)
    (fun nm nm' call nm₁ answer hn halike hok => by
      obtain ⟨hinv, hsame⟩ := peerStep_hidden halike.left hn hok
      exact ⟨hinv, halike.right, hsame.trans halike.bucket⟩)
    (fun nm nm' call nm₁ answer hn halike hok => by
      cases call with
      | recv r address =>
          obtain ⟨⟨nm₂, returned⟩, hrecv, he⟩ := Eval.bind_eq_ok.mp hok
          cases he
          have hremote : nodeidEqual (r.remoteAt address) n = true := hn
          obtain ⟨nm₃, hrecv', halike'⟩ := recvFromPeerAs_visible halike hremote hrecv
          exact ⟨nm₃, by rw [peerStep, hrecv']; rfl, halike'⟩
      | send dst data tSweep tCreate => cases hn
      | transmit => cases hn) h ⟨hstart, hstart, rfl⟩
  exact ⟨nm', hexec, halike.bucket⟩

end PeerStreamer
