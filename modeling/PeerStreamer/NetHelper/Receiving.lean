import PeerStreamer.NetHelper.Receive
import PeerStreamer.NetHelper.Sending

/-!
# What a network manager receives

The receiving side of a transfer: `handleDatagram` is what `recv_from_peer` does with a datagram
before it pops anything, and `receiveDatagram` all it does behind the socket.  The datagram of a
fragment that was sent is decoded into the same fragment (`SentPiece.decode`), an arriving piece is
gathered by its packet, and the packet is reported ready when that completes it
(`arrivalState_of_gathers`).
-/

namespace PeerStreamer

/-! ## Handling a datagram -/

/-- What a node does with a datagram before anything is popped: a fragment is added to the packet
it belongs to, and the state of that packet reported; a request is answered. -/
def handleDatagram (ic : IntCoding) (localNode remote : NodeID) (nm : NetworkManager)
    (datagram : Bytes) (tSweep tCreate : ℤ) : Eval (NetworkManager × Option (ℕ × PacketState)) := do
  match ← netMsgDecode ic localNode remote datagram with
  | none => .error .nullDereference
  | some (.fragment f) =>
      let (nm, state) := networkManagerAddIncomingFragment nm f tSweep tCreate
      return (nm, some (f.pid, state))
  | some (.fragRequest fr) =>
      let (nm, _) := networkManagerEnqueueOutgoingFragment nm remote fr.pid fr.id tSweep
      return (nm, none)

/-! ## Receiving as `recv_from_peer` does -/

/-- What the arrival of a fragment led to: the state reported and, when that was `PKT_READY`, what
popping the packet answered. -/
structure Receipt where
  state : PacketState
  packet : Option (ℤ × Bytes × ℕ)
  deriving DecidableEq

/-- The part of `recv_from_peer` behind the socket: the datagram is handled, and a packet that is
reported ready is popped into a buffer of `size` bytes. -/
def receiveDatagram (ic : IntCoding) (localNode remote : NodeID) (nm : NetworkManager)
    (datagram : Bytes) (size : ℕ) (tSweep tCreate tPop : ℤ) :
    Eval (NetworkManager × Option Receipt) := do
  match ← handleDatagram ic localNode remote nm datagram tSweep tCreate with
  | (nm, none) => return (nm, none)
  | (nm, some (pid, state)) =>
      if state = .ready then
        let (nm, packet) := networkManagerPopIncomingPacket nm remote pid size tPop
        return (nm, some ⟨state, some packet⟩)
      else return (nm, some ⟨state, none⟩)

/-- The value `recv_from_peer` returns for a receipt, and the bytes it has put into the buffer. -/
def Receipt.returned : Option Receipt → ℕ × Bytes
  | some ⟨_, some (_, bytes, dataLen)⟩ => (dataLen, bytes)
  | _ => (0, [])

/-- **`recv_from_peer` is `receiveDatagram`** around the socket. -/
theorem recvFromPeerAs_eq_receiveDatagram (ic : IntCoding) (localNode remote : NodeID)
    (nm : NetworkManager) {r : Reception} {datagram : Bytes} (hr : r.received = some datagram)
    (hne : 0 < datagram.length) :
    recvFromPeerAs ic localNode remote nm r
      = (do
          let (nm, receipt) ← receiveDatagram ic localNode remote nm datagram r.buffer.length
            r.tSweep r.tCreate r.tPop
          let (n, bytes) := Receipt.returned receipt
          return (nm, n,
            bytes ++ (datagram ++ r.buffer.drop datagram.length).drop bytes.length)) := by
  have hlen : (datagram ++ r.buffer.drop datagram.length).length = r.buffer.length := by
    have := r.fits datagram hr
    rw [List.length_append, List.length_drop]
    omega
  rw [recvFromPeerAs, hr, receiveDatagram, handleDatagram]
  simp only [gt_iff_lt, hne, if_true, hlen]
  cases netMsgDecode ic localNode remote datagram with
  | error u => rfl
  | ok m =>
      cases m with
      | none => rfl
      | some m =>
          cases m with
          | fragment f =>
              simp only [Eval.ok_bind, Eval.pure_eq_ok]
              split_ifs <;> rfl
          | fragRequest fr => rfl

/-! ## Datagrams of pieces -/

/-- The datagram of a fragment in a sending buffer of `frag_size + 100` bytes, empty if it cannot
be encoded. -/
def fragmentDatagram (ic : IntCoding) (fragSize : ℕ) (f : Fragment) : Bytes :=
  (fragmentEncode ic f (fragSize + 100)).getD []

/-- A fragment as the receiver sees it. -/
def Fragment.received (f : Fragment) (localNode remote : NodeID) : Fragment :=
  { f with fromNode := remote, toNode := localNode, linked := false }

lemma PieceOf.received {data : Bytes} {fragSize : ℕ} {f : Fragment} (h : PieceOf data fragSize f)
    (localNode remote : NodeID) : PieceOf data fragSize (f.received localNode remote) :=
  ⟨h.fragNum, h.id, h.data⟩

lemma SentPiece.received {packets : List Bytes} {fragSize : ℕ} {f : Fragment}
    (h : SentPiece packets fragSize f) (localNode remote : NodeID) :
    SentPiece packets fragSize (f.received localNode remote) := by
  obtain ⟨data, hdata, hpiece⟩ := h
  exact ⟨data, hdata, hpiece.received localNode remote⟩

/-- **A fragment sent is received** as it was. -/
theorem SentPiece.decode {ic : IntCoding} (hic : ic.Inverse (2 ^ 31)) {packets : List Bytes}
    {fragSize : ℕ} {f : Fragment} (h : SentPiece packets fragSize f)
    (hids : packets.length ≤ 2 ^ 16) (hsize : fragSize < 2 ^ 31) (localNode remote : NodeID) :
    netMsgDecode ic localNode remote (fragmentDatagram ic fragSize f)
      = .ok (some (.fragment (f.received localNode remote))) := by
  have hpid := h.pid_lt
  obtain ⟨data, -, hpiece⟩ := h
  have hnum : f.fragNum < 2 ^ 16 := hpiece.fragNum ▸ cutCount_lt _ _
  have hid := hpiece.id
  have hlen := length_cutPiece_le data fragSize f.id
  have hheader : FRAGMENT_HEADER_LEN = 11 := rfl
  obtain ⟨buff, henc, hdec⟩ := hic.decode_encode (fragSize + 100) (by omega) hnum
    (by omega) hpiece.data (by omega) (by omega) localNode remote
  rw [fragmentDatagram, henc]
  exact hdec

/-! ## Young buckets -/

/-- The bucket has no packet from before `t₀`. -/
def PacketBucket.Since (pb : PacketBucket) (t₀ : ℤ) : Prop :=
  ∀ pid fp, pb.lookup pid = some fp → t₀ ≤ fp.creationTimestamp

namespace PacketBucket

variable {pb : PacketBucket} {t₀ t : ℤ}

lemma Since.swept (h : pb.Since t₀) (ht : t < t₀ + pb.maxPktAge) : pb.swept t = [] := by
  rw [PacketBucket.swept, List.takeWhile_eq_nil_iff]
  intro hl hexp
  obtain ⟨fp, hfp, hage⟩ := (Option.any_eq_true _ _).mp hexp
  have hsince := h _ fp hfp
  simp only [decide_eq_true_eq] at hage
  omega

/-- **An early sweep drops nothing.** -/
lemma Since.fresh (h : pb.Since t₀) (ht : t < t₀ + pb.maxPktAge) : pb.fresh t = pb := by
  rw [PacketBucket.fresh, h.swept ht, without_nil]

end PacketBucket

/-! ## Incoming buckets -/

namespace NetworkManager

variable {nm : NetworkManager} {f : Fragment} {tSweep tCreate : ℤ}

/-- Equal nodes have the same incoming bucket. -/
lemma Wf.incoming_congr (h : nm.Wf) {node n : NodeID} (hn : nodeidEqual node n) :
    (nm.endpointFor node).incoming = (nm.endpointFor n).incoming := by
  rw [endpointFor, endpointFor, h.endpoint_congr hn]
  cases nm.endpoint n <;> rfl

/-- An arrival changes the bucket of the node it came from. -/
lemma Wf.incoming_arrived (h : nm.Wf) (n : NodeID) :
    ((nm.arrived f tSweep tCreate).endpointFor n).incoming
      = if nodeidEqual f.fromNode n then
          (nm.endpointFor f.fromNode).incoming.arrived f tSweep tCreate
        else (nm.endpointFor n).incoming := by
  rw [endpointFor, h.endpoint_arrived]
  split_ifs
  · rfl
  · rw [endpointFor, arrived_fragSize, arrived, put_maxPktAge]

/-- A pop changes the bucket of its node. -/
lemma Wf.incoming_popped (h : nm.Wf) {src : NodeID} {e : Endpoint} (he : nm.endpoint src = some e)
    (pid : ℕ) (t : ℤ) (n : NodeID) :
    ((nm.popped src pid t).endpointFor n).incoming
      = if nodeidEqual src n then e.incoming.popped pid t else (nm.endpointFor n).incoming := by
  have hnode : nodeidEqual e.node src := h.nodeidEqual_of_endpoint he
  have hput := h.endpointFor_put (e := { e with incoming := e.incoming.popped pid t })
    (q := nm.outqueue) (n := n) hnode
  rw [popped, he]
  simp only [hput]
  split_ifs <;> rfl

/-- A node that something arrived from has an endpoint. -/
lemma Wf.endpoint_arrived_self (h : nm.Wf) (f : Fragment) (tSweep tCreate : ℤ) :
    (nm.arrived f tSweep tCreate).endpoint f.fromNode
      = some ((nm.arrived f tSweep tCreate).endpointFor f.fromNode) := by
  rw [endpointFor, h.endpoint_arrived, if_pos (nodeidEqual_self _)]
  rfl

end NetworkManager

/-! ## Pieces arriving -/

section Arriving

variable {pb : PacketBucket} {data : Bytes} {fragSize : ℕ} {ids : Finset ℕ} {f : Fragment}
  {fp : FragmentedPacket}

/-- The packet under an id has gathered `ids`; if there is none, nothing has been gathered. -/
def HasGathered (data : Bytes) (fragSize : ℕ) (ids : Finset ℕ) :
    Option FragmentedPacket → Prop
  | none => ids = ∅
  | some fp => fp.Gathers data fragSize ids

/-- What has been gathered before is in the target of the next piece. -/
lemma HasGathered.target {tSweep tCreate : ℤ}
    (h : HasGathered data fragSize ids ((pb.fresh tSweep).lookup f.pid))
    (hf : PieceOf data fragSize f) : (pb.target f tSweep tCreate).Gathers data fragSize ids := by
  rw [PacketBucket.target]
  cases hl : (pb.fresh tSweep).lookup f.pid with
  | some fp =>
      rw [hl] at h
      exact h
  | none =>
      rw [hl] at h
      obtain rfl : ids = ∅ := h
      exact FragmentedPacket.gathers_empty _ _ _ _ hf

/-- **What an arriving piece answers**: ready if it completes the ids, loading otherwise. -/
theorem arrivalState_of_gathers (h : fp.Gathers data fragSize ids) (hf : PieceOf data fragSize f)
    (hids : ids ⊆ Finset.range (cutCount data.length fragSize)) :
    arrivalState fp f = if insert f.id ids = Finset.range (cutCount data.length fragSize)
      then .ready else .loading := by
  have hid : f.id < cutCount data.length fragSize := hf.fragNum ▸ hf.id
  have hput := h.put hf
  have hsub : insert f.id ids ⊆ Finset.range (fp.put f).fragNum := by
    rw [hput.fragNum]
    exact Finset.insert_subset (Finset.mem_range.mpr hid) hids
  have hcomplete := hput.complete_iff hsub
  rw [hput.fragNum] at hcomplete
  rw [arrivalState, if_pos (by rw [h.fragNum]; exact hid)]
  exact if_congr hcomplete rfl rfl

end Arriving

end PeerStreamer
