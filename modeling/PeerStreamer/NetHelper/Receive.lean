import PeerStreamer.NetHelper.Runs

/-!
# Sending to and receiving from a peer

`send_to_peer` and `recv_from_peer` of `net_helper-x.c`, around the network manager of the local
node.  The socket is an argument: what `recvfrom` delivered is an optional datagram, with the
address it came from.

The first result about `recv_from_peer` is about datagrams that are no message: it follows the
pointer `net_msg_decode` returns without a test, so its behaviour is defined exactly when the
datagram is `Decodable` (`recvFromPeer_robust_iff`).
-/

namespace PeerStreamer

/-- `empty_node`, with the address `recvfrom` writes into it. -/
def emptyNode (ip : List UInt8) (port : ℤ) : NodeID := { ip, port, fd := -1 }

/-- `send_to_peer` as far as the network manager is concerned. -/
def sendToPeer (fromNode : NodeID) (nm : NetworkManager) (dst : NodeID) (data : Bytes)
    (tSweep tCreate : ℤ) : Eval (NetworkManager × ℤ) :=
  if data.length > 0 then do
    let (nm, res) ← networkManagerEnqueueOutgoingPacket nm fromNode dst data tSweep tCreate
    return (nm, if res ≥ 0 then data.length else res)
  else return (nm, -1)

/-- One call of `recv_from_peer`: the address the datagram came from, what `recvfrom` delivered
(`none` for an error, and never more than the buffer holds), what the caller's buffer held before,
and the readings of the clock. -/
structure Reception where
  ip : List UInt8
  port : ℤ
  received : Option Bytes
  buffer : Bytes
  tSweep : ℤ
  tCreate : ℤ
  tPop : ℤ
  fits : ∀ datagram ∈ received, datagram.length ≤ buffer.length

/-- `*remote`, as long as it is not freed. -/
def Reception.remote (r : Reception) : NodeID := emptyNode r.ip r.port

/-- The same node, at the address `malloc` answers. -/
def Reception.remoteAt (r : Reception) (address : ℤ) : NodeID := { r.remote with fd := address }

/-- `recv_from_peer`, whose `empty_node` is `remote`: the return value and the contents of the
buffer. -/
def recvFromPeerAs (ic : IntCoding) (localNode remote : NodeID) (nm : NetworkManager)
    (r : Reception) : Eval (NetworkManager × ℤ × Bytes) :=
  match r.received with
  | none => return (nm, -1, r.buffer)
  | some datagram =>
      if datagram.length > 0 then do
        let buffer := datagram ++ r.buffer.drop datagram.length
        let msg ← netMsgDecode ic localNode remote datagram
        match msg with
        -- the switch reads the type behind the pointer
        | none => .error .nullDereference
        | some (.fragment f) =>
            let (nm, pstate) := networkManagerAddIncomingFragment nm f r.tSweep r.tCreate
            if pstate = .ready then
              let (nm, _, bytes, dataLen) :=
                networkManagerPopIncomingPacket nm remote f.pid buffer.length r.tPop
              return (nm, dataLen, bytes ++ buffer.drop bytes.length)
            else return (nm, 0, buffer)
        | some (.fragRequest fr) =>
            let (nm, _) := networkManagerEnqueueOutgoingFragment nm remote fr.pid fr.id r.tSweep
            return (nm, 0, buffer)
      else return (nm, 0, r.buffer)

/-- `recv_from_peer`, where it does not matter which node is told apart by its address. -/
def recvFromPeer (ic : IntCoding) (localNode : NodeID) (nm : NetworkManager) (r : Reception) :
    Eval (NetworkManager × ℤ × Bytes) :=
  recvFromPeerAs ic localNode r.remote nm r

/-! ## Decoding -/

section Decoding

variable {ic : IntCoding} {dst src : NodeID} {buff : Bytes}

/-- A datagram that holds a whole message is decoded into it. -/
lemma netMsgDecode_of_decodable (h : Decodable ic buff) :
    netMsgDecode ic dst src buff = .ok (some (decodedMessage ic dst src buff)) := by
  cases buff with
  | nil => simp [Decodable] at h
  | cons type rest =>
      have htype : (type :: rest).head? = some type := rfl
      rw [netMsgDecode, decodedMessage, htype]
      simp only [Decodable, htype, Option.some.injEq] at h
      rcases h with ⟨hty, hlen, hhead⟩ | ⟨hty, hhead⟩
      · have hwrap : sizeT (FRAGMENT_HEADER_LEN + declaredLen ic (type :: rest))
            ≤ (type :: rest).length := (Nat.mod_le _ _).trans hlen
        have hcopy : declaredLen ic (type :: rest)
            ≤ ((type :: rest).drop FRAGMENT_HEADER_LEN).length := by
          rw [List.length_drop]
          omega
        rw [if_pos hty, if_pos (congrArg some hty), fragmentDecode, if_pos hhead, if_pos hwrap,
          if_pos hcopy]
        rfl
      · have hne : type ≠ NET_FRAGMENT := by rw [hty]; decide
        rw [if_neg hne, if_pos hty, if_neg (by simpa using hne), fragRequestDecode, if_pos hhead]
        rfl

/-- A datagram that does not is decoded into NULL, or not at all. -/
lemma netMsgDecode_of_not_decodable (dst src : NodeID) (h : ¬ Decodable ic buff) :
    netMsgDecode ic dst src buff = .ok none ∨ ∃ u, netMsgDecode ic dst src buff = .error u := by
  cases buff with
  | nil => exact Or.inr ⟨_, rfl⟩
  | cons type rest =>
      have htype : (type :: rest).head? = some type := rfl
      rw [netMsgDecode]
      simp only [Decodable, htype, Option.some.injEq, not_or, not_and] at h
      by_cases hf : type = NET_FRAGMENT
      · rw [if_pos hf, fragmentDecode]
        by_cases hhead : (type :: rest).length ≥ FRAGMENT_HEADER_LEN
        · rw [if_pos hhead]
          by_cases hwrap : (type :: rest).length
              ≥ sizeT (FRAGMENT_HEADER_LEN + declaredLen ic (type :: rest))
          · have hcopy : ¬ declaredLen ic (type :: rest)
                ≤ ((type :: rest).drop FRAGMENT_HEADER_LEN).length := by
              intro hle
              rw [List.length_drop] at hle
              exact h.1 hf (by omega) hhead
            rw [if_pos hwrap, if_neg hcopy]
            exact Or.inr ⟨_, rfl⟩
          · rw [if_neg hwrap]
            exact Or.inl rfl
        · rw [if_neg hhead]
          exact Or.inl rfl
      · rw [if_neg hf]
        by_cases hr : type = NET_FRAGMENT_REQ
        · rw [if_pos hr, fragRequestDecode, if_neg (h.2 hr)]
          exact Or.inr ⟨_, rfl⟩
        · rw [if_neg hr]
          exact Or.inl rfl

/-- A message comes out of a datagram that holds one. -/
lemma decodable_of_netMsgDecode {msg : NetMessage}
    (hd : netMsgDecode ic dst src buff = .ok (some msg)) : Decodable ic buff := by
  by_contra hnot
  rcases netMsgDecode_of_not_decodable dst src hnot with h | ⟨u, h⟩
  · rw [h] at hd
    cases hd
  · rw [h] at hd
    cases hd

/-- A message that is decoded goes from the one node to the other. -/
lemma netMsgDecode_nodes {msg : NetMessage}
    (hd : netMsgDecode ic dst src buff = .ok (some msg)) :
    msg.netMsg.fromNode = src ∧ msg.netMsg.toNode = dst := by
  rw [netMsgDecode_of_decodable (decodable_of_netMsgDecode hd)] at hd
  cases hd
  rw [decodedMessage]
  split_ifs <;> exact ⟨rfl, rfl⟩

end Decoding

/-! ## Datagrams that are no message -/

section Robustness

variable {ic : IntCoding} {localNode : NodeID} {nm : NetworkManager} {r : Reception}
  {datagram : Bytes}

/-- A datagram that holds no whole message makes `recv_from_peer` follow a pointer it must not. -/
lemma recvFromPeer_of_not_decodable (localNode : NodeID) (nm : NetworkManager)
    (hr : r.received = some datagram) (hne : 0 < datagram.length) (h : ¬ Decodable ic datagram) :
    ∃ u, recvFromPeer ic localNode nm r = .error u := by
  rw [recvFromPeer, recvFromPeerAs, hr]
  simp only [gt_iff_lt, hne, if_true]
  rcases netMsgDecode_of_not_decodable localNode r.remote h with hd | ⟨u, hd⟩
  · rw [hd]
    exact ⟨_, rfl⟩
  · rw [hd]
    exact ⟨u, rfl⟩

/-- Otherwise it returns. -/
lemma recvFromPeer_of_decodable (localNode : NodeID) (nm : NetworkManager)
    (hr : r.received = some datagram) (hne : 0 < datagram.length) (h : Decodable ic datagram) :
    ∃ res, recvFromPeer ic localNode nm r = .ok res := by
  rw [recvFromPeer, recvFromPeerAs, hr]
  simp only [gt_iff_lt, hne, if_true, netMsgDecode_of_decodable h, Eval.ok_bind]
  cases decodedMessage ic localNode r.remote datagram with
  | fragment f =>
      simp only
      split_ifs
      · exact ⟨_, rfl⟩
      · exact ⟨_, rfl⟩
  | fragRequest fr => exact ⟨_, rfl⟩

/-- What receiver robustness asks of one datagram: it is decoded into NULL or into the message its
bytes hold, NULL exactly when they hold none; `recv_from_peer` does nothing undefined, and without
a message it returns nothing positive and changes nothing. -/
structure RobustReception (ic : IntCoding) (localNode : NodeID) (nm : NetworkManager)
    (r : Reception) (datagram : Bytes) : Prop where
  decode : netMsgDecode ic localNode r.remote datagram
    = .ok (if Decodable ic datagram then some (decodedMessage ic localNode r.remote datagram)
      else none)
  returns : ∃ nm' n buffer, recvFromPeer ic localNode nm r = .ok (nm', n, buffer)
    ∧ (¬ Decodable ic datagram → n ≤ 0 ∧ nm' = nm)

/-- **When the receiver is robust.**  For every coder, every network manager and every datagram of
at least one byte: the reception is robust if and only if the datagram holds a whole message. -/
theorem recvFromPeer_robust_iff (ic : IntCoding) (localNode : NodeID) (nm : NetworkManager)
    (r : Reception) (datagram : Bytes) (hr : r.received = some datagram)
    (hne : 0 < datagram.length) :
    RobustReception ic localNode nm r datagram ↔ Decodable ic datagram := by
  constructor
  · intro h
    by_contra hd
    obtain ⟨nm', n, buffer, hok, -⟩ := h.returns
    obtain ⟨u, herr⟩ := recvFromPeer_of_not_decodable localNode nm hr hne hd
    rw [herr] at hok
    cases hok
  · intro hd
    refine ⟨by rw [netMsgDecode_of_decodable hd, if_pos hd], ?_⟩
    obtain ⟨⟨nm', n, buffer⟩, hok⟩ :=
      recvFromPeer_of_decodable localNode nm hr hne hd
    exact ⟨nm', n, buffer, hok, fun hnd => absurd hd hnd⟩

/-- A whole request is received robustly. -/
theorem recvFromPeer_robust_iff_request :
    RobustReception bigEndian ⟨[65], 6000, 3⟩ (networkManagerCreate ⟨none, none⟩)
      ⟨[66], 6001, some [1, 0, 0, 0, 0], [0, 0, 0, 0, 0], 0, 0, 0, by simp⟩ [1, 0, 0, 0, 0]
      ↔ Decodable bigEndian [1, 0, 0, 0, 0] :=
  recvFromPeer_robust_iff _ _ _ _ _ rfl (by decide)

/-- The one byte of a request without its header is enough to bring the receiver down. -/
theorem not_recvFromPeer_robust :
    ¬ ∀ (ic : IntCoding) (localNode : NodeID) (nm : NetworkManager) (r : Reception)
      (datagram : Bytes), ic.Inverse (2 ^ 32) → r.received = some datagram → 0 < datagram.length →
      RobustReception ic localNode nm r datagram := by
  intro h
  obtain ⟨nm', n, buffer, hok, -⟩ := (h bigEndian ⟨[65], 6000, 3⟩
    (networkManagerCreate ⟨none, none⟩) ⟨[66], 6001, some [1], [0], 0, 0, 0, by simp⟩ [1]
    bigEndian_inverse rfl (by decide)).returns
  cases hok

end Robustness

end PeerStreamer
