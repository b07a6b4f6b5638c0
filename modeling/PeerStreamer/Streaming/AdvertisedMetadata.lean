import PeerStreamer.NetHelper.NetMsg
import PeerStreamer.Streaming.NeighbourMetadata

/-!
# Advertised metadata

What a node tells about itself: `update_metadata` notes the size of its chunk buffer and of its
neighbourhood, `neighbourhood_send_msg` lays them out in the five bytes of a neighbourhood message,
and `topology_message_parse` gives them to the peer object of the sender, where `peer_cb_size` and
`peer_neigh_size` find them.

The two sizes are of type `int` where they come from, but there are 16 bits for the first and 8 for
the second in `struct metadata`, so they arrive exactly if they fit there (`advertised_iff`).

`MSG_TYPE_NEIGHBOURHOOD` and the integer coders come from GRAPES and are parameters.
-/

namespace PeerStreamer

/-- `sizeof(struct metadata)`; the structure is packed. -/
def METADATA_SIZE : ℕ := 2 + 1

def DEFAULT_PEER_CBSIZE : ℕ := 50
def DEFAULT_PEER_NEIGH_SIZE : ℕ := 30

/-- The byte for a kind of message. -/
def NeighbourhoodMsg.code : NeighbourhoodMsg → UInt8
  | .add => 0
  | .remove => 1
  | .quit => 2

/-! ## The bytes of a message -/

section Bytes

variable (ic : IntCoding) (msgType : UInt8)

/-- What `neighbourhood_send_msg` writes, with `msgType` for `MSG_TYPE_NEIGHBOURHOOD`. -/
def neighbourhoodMsgBytes (kind : NeighbourhoodMsg) (m : Metadata) : Bytes :=
  msgType :: kind.code :: (ic.int16Cpy m.cbSize ++ [UInt8.ofNat m.neighSize])

/-- Reading a byte. -/
def byteAt (buff : Bytes) (n : ℕ) : Eval UInt8 :=
  match buff[n]? with
  | none => .error .outOfBounds
  | some b => return b

/-- Reading a `uint16_t`. -/
def int16At (buff : Bytes) (n : ℕ) : Eval ℕ := do
  let b₁ ← byteAt buff n
  let b₂ ← byteAt buff (n + 1)
  return ic.int16Rcpy [b₁, b₂] % 2 ^ 16

/-- What `neighbourhood_message_parse` reads of a message of length `len` in `buff`: the type byte,
and for `NEIGHBOURHOOD_ADD` the metadata if the length allows for them. -/
def readNeighbourhoodMsg (buff : Bytes) (len : ℕ) : Eval (UInt8 × Option Metadata) := do
  let type ← byteAt buff 0
  if type = NeighbourhoodMsg.add.code ∧ len ≥ METADATA_SIZE + 1 then
    let cbSize ← int16At ic buff 1
    let neighSize ← byteAt buff 3
    return (type, some ⟨cbSize, neighSize.toNat⟩)
  else return (type, none)

lemma head?_of_byteAt {buff : Bytes} {b : UInt8} (h : byteAt buff 0 = .ok b) :
    buff.head? = some b := by
  rw [byteAt, ← List.head?_eq_getElem?] at h
  cases hb : buff.head? with
  | none =>
      rw [hb] at h
      cases h
  | some b' =>
      rw [hb] at h
      cases h
      rfl

/-- What is read is the type byte, and metadata exactly if there are some. -/
lemma readNeighbourhoodMsg_ok {ic : IntCoding} {buff : Bytes} {len : ℕ} {type : UInt8}
    {m : Option Metadata} (h : readNeighbourhoodMsg ic buff len = .ok (type, m)) :
    buff.head? = some type ∧ (m ≠ none ↔ type = 0 ∧ len ≥ METADATA_SIZE + 1) := by
  simp only [readNeighbourhoodMsg, Eval.bind_eq_ok] at h
  obtain ⟨b, hb, h⟩ := h
  split_ifs at h with hadd
  · simp only [Eval.bind_eq_ok, Eval.pure_eq_ok, Except.ok.injEq, Prod.mk.injEq] at h
    obtain ⟨-, -, -, -, rfl, rfl⟩ := h
    exact ⟨head?_of_byteAt hb, iff_of_true (by simp) hadd⟩
  · cases h
    exact ⟨head?_of_byteAt hb, iff_of_false (by simp) hadd⟩

/-- **There and back.**  Metadata that fit their fields are read as they were written. -/
lemma readNeighbourhoodMsg_bytes {ic : IntCoding} {bound : ℕ} (hic : ic.Inverse bound)
    {m : Metadata} (hcb : m.cbSize < 2 ^ 16) (hneigh : m.neighSize < 2 ^ 8) {len : ℕ}
    (hlen : len ≥ METADATA_SIZE + 1) :
    readNeighbourhoodMsg ic (neighbourhoodMsgBytes ic msgType .add m).tail len
      = .ok (0, some m) := by
  obtain ⟨x, y, hxy⟩ := List.length_eq_two.mp (hic.int16_length m.cbSize)
  have hread : ic.int16Rcpy [x, y] = m.cbSize := hxy ▸ hic.int16_inv _ hcb
  have hcb' : ic.int16Rcpy [x, y] % 65536 = m.cbSize := by
    rw [hread]
    exact Nat.mod_eq_of_lt hcb
  have hneigh' : (UInt8.ofNat m.neighSize).toNat = m.neighSize := UInt8.toNat_ofNat_of_lt' hneigh
  simp [readNeighbourhoodMsg, neighbourhoodMsgBytes, int16At, byteAt, NeighbourhoodMsg.code, hxy,
    hlen, hcb', hneigh']

end Bytes

namespace Topology

variable {ID S : Type}

/-! ## Metadata of peers -/

/-- `peer_cb_size` -/
def peerCbSize (t : Topology S) (p : Peer ID) : Eval ℕ := do
  let d ← t.heap.read p.ref
  match d.metadata with
  | none => return DEFAULT_PEER_CBSIZE
  | some m => return m.cbSize

/-- `peer_neigh_size` -/
def peerNeighSize (t : Topology S) (p : Peer ID) : Eval ℕ := do
  let d ← t.heap.read p.ref
  match d.metadata with
  | none => return DEFAULT_PEER_NEIGH_SIZE
  | some m => return m.neighSize

variable [DecidableEq ID] [PeerSet ID S]

/-! ## Parsing -/

/-- `topology_message_parse` of a message of length `len` in `buff`.  The length is passed on as it
is, although the first byte is left out. -/
def topologyMessageParse (ic : IntCoding) (msgType : UInt8) (t : Topology S) (source : ID)
    (buff : Bytes) (len : ℕ) (now : ℤ) : Eval (Topology S × List (TopologyMessage ID)) := do
  let b ← byteAt buff 0
  if b = msgType ∧ t.topoIn then
    let (type, m) ← readNeighbourhoodMsg ic buff.tail len
    t.neighbourhoodMessageParse source type m now
  else return (t, [])

/-- **A message is an operation.**  What a message does, whatever its length, is nothing or what the
operation for its type byte does, with metadata if and only if the length allows for them. -/
theorem topologyMessageParse_step {ic : IntCoding} {msgType : UInt8} {t : Topology S} {source : ID}
    {buff : Bytes} {len : ℕ} {now : ℤ} {r : Topology S × List (TopologyMessage ID)}
    (h : t.topologyMessageParse ic msgType source buff len now = .ok r) :
    r = (t, []) ∨ ∃ type m, buff.head? = some msgType ∧ buff.tail.head? = some type
      ∧ (m ≠ none ↔ type = 0 ∧ len ≥ METADATA_SIZE + 1)
      ∧ t.topologyStep (.message source type m now) = .ok r := by
  simp only [topologyMessageParse, Eval.bind_eq_ok] at h
  obtain ⟨b, hb, h⟩ := h
  split_ifs at h with hmsg
  · simp only [Eval.bind_eq_ok] at h
    obtain ⟨⟨type, m⟩, hread, h⟩ := h
    obtain ⟨hhead, hm⟩ := readNeighbourhoodMsg_ok hread
    obtain ⟨rfl, hin⟩ := hmsg
    refine Or.inr ⟨type, m, head?_of_byteAt hb, hhead, hm, ?_⟩
    rwa [topologyStep, handleNeighbourhoodMessage, if_pos hin]
  · cases h
    exact Or.inl rfl

/-- The bytes of an introduction, parsed as they were sent. -/
lemma topologyMessageParse_bytes {ic : IntCoding} {bound : ℕ} (hic : ic.Inverse bound)
    (msgType : UInt8) {t : Topology S} (hin : t.topoIn = true) (source : ID) {m : Metadata}
    (hcb : m.cbSize < 2 ^ 16) (hneigh : m.neighSize < 2 ^ 8) (now : ℤ) :
    t.topologyMessageParse ic msgType source (neighbourhoodMsgBytes ic msgType .add m)
        (neighbourhoodMsgBytes ic msgType .add m).length now
      = t.handleNeighbourhoodMessage source 0 (some m) now := by
  have hlen : (neighbourhoodMsgBytes ic msgType .add m).length ≥ METADATA_SIZE + 1 := by
    simp [neighbourhoodMsgBytes, hic.int16_length, METADATA_SIZE]
  have hhead : byteAt (neighbourhoodMsgBytes ic msgType .add m) 0 = .ok msgType := rfl
  simp [topologyMessageParse, handleNeighbourhoodMessage, hhead, hin,
    readNeighbourhoodMsg_bytes msgType hic hcb hneigh hlen]

/-! ## From one node to another -/

/-- The size of the chunk buffer as `update_metadata` has it: 0 for a source, and what the trader
has been configured with for the others. -/
def ownCbSize (isSource : Bool) (cbSize : ℤ) : ℤ := if isSource then 0 else cbSize

/-- `update_metadata`, for a trader with a buffer of size `cbSize`; the `int` is converted to the
`uint16_t` that `metadata_update` takes. -/
def instanceUpdateMetadata (t : Topology S) (isSource : Bool) (cbSize : ℤ) : Topology S :=
  t.updateMetadata (ownCbSize isSource cbSize % 2 ^ 16).toNat

/-- What `sender` says about itself to `p` is what `receiver` finds in the peer object of the
sender, the node `i`, after it has parsed exactly the bytes it was sent. -/
def AdvertisesTo (ic : IntCoding) (msgType : UInt8) (sender : Topology S) (isSource : Bool)
    (cbSize : ℤ) (p : Peer ID) (receiver : Topology S) (i : ID) (now : ℤ) : Prop :=
  ∃ dst m receiver' sent q,
    (sender.instanceUpdateMetadata isSource cbSize).neighbourhoodSendMsg p .add
      = .ok (.neighbourhood dst .add m)
    ∧ receiver.topologyMessageParse ic msgType i (neighbourhoodMsgBytes ic msgType .add m)
      (neighbourhoodMsgBytes ic msgType .add m).length now = .ok (receiver', sent)
    ∧ receiver'.topologyGetPeer i = some q
    ∧ (∃ n, peerCbSize receiver' q = .ok n ∧ (n : ℤ) = ownCbSize isSource cbSize)
    ∧ peerNeighSize receiver' q = .ok (peersetSize sender.neighbourhood)

variable [LawfulPeerSet ID S] {t : Topology S} {i : ID} {now : ℤ}

/-- A message with metadata makes its sender a neighbour that has them. -/
lemma handleNeighbourhoodMessage_add (h : TopologyInv t) (hin : t.topoIn = true) (source : ID)
    (m : Metadata) (now : ℤ) :
    ∃ t' sent p d, t.handleNeighbourhoodMessage source 0 (some m) now = .ok (t', sent)
      ∧ t'.topologyGetPeer source = some p ∧ t'.heap.read p.ref = .ok d ∧ d.metadata = some m := by
  obtain ⟨t₁, p, hadd, hinv₁, hp, rfl⟩ := neighbourhoodAddPeer_inv h source now
  obtain ⟨d, hread⟩ := hinv₁.placed.read (Or.inl hp)
  obtain ⟨heap, hset, hinv⟩ := peerSetMetadata_inv hinv₁ (Or.inl hp) m
  refine ⟨{ t₁ with heap }, [.bufferMap p.id], p, { d with metadata := some m }, ?_, ?_, ?_, rfl⟩
  · simp [handleNeighbourhoodMessage, hin, neighbourhoodMessageParse, hadd, hset]
  · exact (topologyGetPeer_eq_some hinv).mpr ⟨Or.inl hp, rfl⟩
  · simp only [peerSetMetadata, hread, Eval.ok_bind, Eval.bind_eq_ok, Eval.pure_eq_ok,
      Except.ok.injEq] at hset
    obtain ⟨heap', hwrite, heq⟩ := hset
    obtain rfl : heap' = heap := congrArg Topology.heap heq
    exact PeerHeap.read_of_write hwrite

/-- **Sent and parsed.**  Between a node that sends what it has noted about itself and one that
accepts neighbours, the sizes arrive exactly if they fit their fields. -/
lemma advertisesTo_iff {ic : IntCoding} {bound : ℕ} (hic : ic.Inverse bound) (msgType : UInt8)
    {sender receiver : Topology S} {p : Peer ID} {d : PeerData}
    (hp : sender.heap.read p.ref = .ok d) (h : TopologyInv receiver)
    (hin : receiver.topoIn = true) (isSource : Bool) (cbSize : ℤ) (i : ID) (now : ℤ) :
    AdvertisesTo ic msgType sender isSource cbSize p receiver i now
      ↔ (0 ≤ ownCbSize isSource cbSize ∧ ownCbSize isSource cbSize < 2 ^ 16)
        ∧ peersetSize sender.neighbourhood < 2 ^ 8 := by
  let cb := (ownCbSize isSource cbSize % 2 ^ 16).toNat
  have hcb : (cb : ℤ) = ownCbSize isSource cbSize % 2 ^ 16 :=
    Int.toNat_of_nonneg (Int.emod_nonneg _ (by norm_num))
  have hcb_lt : cb < 2 ^ 16 := by omega
  -- what the sender notes fits, whatever its sizes are
  let m : Metadata := ⟨cb % 2 ^ 16, peersetSize sender.neighbourhood % 2 ^ 8⟩
  have hsend : (sender.instanceUpdateMetadata isSource cbSize).neighbourhoodSendMsg p .add
      = .ok (.neighbourhood p.id .add m) := by
    have hread : (sender.instanceUpdateMetadata isSource cbSize).heap.read p.ref = .ok d := hp
    rw [neighbourhoodSendMsg, hread]
    rfl
  obtain ⟨t', sent, q, d', hmsg, hq, hread, hm⟩ := handleNeighbourhoodMessage_add h hin i m now
  have hparse : receiver.topologyMessageParse ic msgType i (neighbourhoodMsgBytes ic msgType .add m)
      (neighbourhoodMsgBytes ic msgType .add m).length now = .ok (t', sent) := by
    rw [topologyMessageParse_bytes hic msgType hin i (Nat.mod_lt _ (by norm_num))
      (Nat.mod_lt _ (by norm_num)) now, hmsg]
  have hcbSize : peerCbSize t' q = .ok (cb % 2 ^ 16) := by
    simp [peerCbSize, hread, hm, m]
  have hneighSize : peerNeighSize t' q = .ok (peersetSize sender.neighbourhood % 2 ^ 8) := by
    simp [peerNeighSize, hread, hm, m]
  constructor
  · rintro ⟨dst, m', receiver', sent', q', hsend', hparse', hq', ⟨n, hn, hcb'⟩, hneigh'⟩
    obtain ⟨rfl, rfl⟩ : p.id = dst ∧ m = m' := by simpa using hsend.symm.trans hsend'
    obtain ⟨rfl, rfl⟩ : t' = receiver' ∧ sent = sent' := by simpa using hparse.symm.trans hparse'
    obtain rfl := Option.some.inj (hq.symm.trans hq')
    have hn := Except.ok.inj (hcbSize.symm.trans hn)
    have hneigh := Except.ok.inj (hneighSize.symm.trans hneigh')
    omega
  · rintro ⟨hown, hsize⟩
    refine ⟨p.id, m, t', sent, q, hsend, hparse, hq, ⟨_, hcbSize, by omega⟩, ?_⟩
    rw [hneighSize, Nat.mod_eq_of_lt hsize]

/-! ## Runs -/

/-- **Advertised metadata.**  What a node sends about itself arrives at any node, whatever happened
there before, exactly if the size of its chunk buffer fits 16 bits and that of its neighbourhood 8
bits. -/
theorem advertised_iff {ic : IntCoding} {bound : ℕ} (hic : ic.Inverse bound) (msgType : UInt8)
    {sender receiver : Topology S} {p : Peer ID} {d : PeerData}
    (hp : sender.heap.read p.ref = .ok d) {neighbourhoodSize peerTimeout : ℤ} {cb : ℕ}
    {ops : List (TopologyOp ID)} {outs : List (List (TopologyMessage ID))}
    (hreceiver : exec topologyStep (topologyInit neighbourhoodSize peerTimeout cb) ops
      = .ok (receiver, outs)) (isSource : Bool) (cbSize : ℤ) (i : ID) (now : ℤ) :
    AdvertisesTo ic msgType sender isSource cbSize p receiver i now
      ↔ (0 ≤ ownCbSize isSource cbSize ∧ ownCbSize isSource cbSize < 2 ^ 16)
        ∧ peersetSize sender.neighbourhood < 2 ^ 8 := by
  obtain ⟨hinv, hconf⟩ := topologyInv_of_run hreceiver
  have hin : receiver.topoIn = true := congrArg (fun c => c.2.2.1) hconf
  exact advertisesTo_iff hic msgType hp hinv hin isSource cbSize i now

/-- A node that has been told about another one. -/
def acquainted (i : ℕ) : Topology (PeerList ℕ) := (topologyInit 30 10 50).topologyNodeInsert i 0

/-- A node with a buffer of 50 chunks introduces itself to one that has been told about it. -/
theorem advertised_iff_acquainted :
    AdvertisesTo bigEndian 0x10 (acquainted 7) false 50 ⟨0, 7⟩ (acquainted 3) 3 1 := by
  have hreceiver : exec topologyStep (topologyInit 30 10 50) [.nodeInsert 3 0]
      = .ok (acquainted 3, [[]]) := rfl
  exact (advertised_iff bigEndian_inverse 0x10 rfl hreceiver false 50 3 1).mpr
    ⟨by decide, by decide⟩

/-! ## Growing neighbourhoods -/

/-- Nodes introduce themselves one after the other, without metadata. -/
def introductions (n : ℕ) : List (TopologyOp ℕ) :=
  (List.range n).map fun i => .message i 0 none 0

/-- **A neighbourhood grows** with every node that introduces itself. -/
lemma exec_introductions {S : Type} [PeerSet ℕ S] [LawfulPeerSet ℕ S]
    (neighbourhoodSize peerTimeout : ℤ) (cbSize n : ℕ) :
    ∃ (t : Topology S) (outs : List (List (TopologyMessage ℕ))),
      exec topologyStep (topologyInit neighbourhoodSize peerTimeout cbSize) (introductions n)
        = .ok (t, outs) ∧ ∀ i, i ∈ peerIds t.neighbourhood ↔ i < n := by
  induction n with
  | zero => exact ⟨_, [], rfl, by simp [peerIds, topologyInit, updateMetadata]⟩
  | succ n ih =>
      obtain ⟨t, outs, hrun, hids⟩ := ih
      obtain ⟨hinv, hconf⟩ := topologyInv_of_run hrun
      have hin : t.topoIn = true := congrArg (fun c => c.2.2.1) hconf
      obtain ⟨t', p, hadd, -, -, hid⟩ := neighbourhoodAddPeer_inv hinv n 0
      have hstep : t.topologyStep (.message n 0 none 0) = .ok (t', [.bufferMap n]) := by
        simp [topologyStep, handleNeighbourhoodMessage, hin, neighbourhoodMessageParse, hadd]
      obtain ⟨hmem, -⟩ := neighbourhoodAddPeer_described hinv hadd
      refine ⟨t', outs ++ [[.bufferMap n]], ?_, fun i => ?_⟩
      · rw [introductions, List.range_succ, List.map_append]
        exact exec_append_eq_ok.mpr ⟨t, outs, [[.bufferMap n]], hrun,
          exec_cons_eq_ok.mpr ⟨t', _, [], hstep, exec_nil t', rfl⟩, rfl⟩
      · have hids' : i ∈ peerIds t'.neighbourhood ↔ i ∈ peerIds t.neighbourhood ∨ i = n := by
          simp [peerIds, hmem, or_and_right, exists_or, hid, eq_comm]
        rw [hids', hids]
        omega

/-- There is no bound on the size of a neighbourhood. -/
lemma exists_neighbourhood {S : Type} [PeerSet ℕ S] [LawfulPeerSet ℕ S]
    (neighbourhoodSize peerTimeout : ℤ) (cbSize n : ℕ) :
    ∃ (ops : List (TopologyOp ℕ)) (t : Topology S) (outs : List (List (TopologyMessage ℕ))),
      exec topologyStep (topologyInit neighbourhoodSize peerTimeout cbSize) ops = .ok (t, outs)
      ∧ peersetSize t.neighbourhood = n := by
  obtain ⟨t, outs, hrun, hids⟩ := exec_introductions (S := S) neighbourhoodSize peerTimeout cbSize n
  have hnodup : (peerIds t.neighbourhood).Nodup := LawfulPeerSet.keyed _
  have hperm : (peerIds t.neighbourhood).Perm (List.range n) :=
    (List.perm_ext_iff_of_nodup hnodup List.nodup_range).mpr fun i => by
      rw [hids, List.mem_range]
  have hlen := hperm.length_eq
  rw [peerIds, List.length_map, List.length_range] at hlen
  exact ⟨introductions n, t, outs, hrun, hlen⟩

/-- A node with 256 neighbours, as many as introduced themselves, tells them that it has none. -/
theorem not_advertised :
    ¬∀ (msgType : UInt8) (isSource : Bool) (cbSize : ℤ)
      (senderOps receiverOps : List (TopologyOp ℕ)) (sender receiver : Topology (PeerList ℕ))
      (outs₁ outs₂ : List (List (TopologyMessage ℕ))),
      exec topologyStep (topologyInit 30 10 50) senderOps = .ok (sender, outs₁) →
      exec topologyStep (topologyInit 30 10 50) receiverOps = .ok (receiver, outs₂) →
      ∀ p ∈ getPeers sender.neighbourhood, ∀ i now,
        AdvertisesTo bigEndian msgType sender isSource cbSize p receiver i now := by
  intro h
  obtain ⟨ops, sender, outs, hrun, hsize⟩ :=
    exists_neighbourhood (S := PeerList ℕ) 30 10 50 256
  obtain ⟨hinv, -⟩ := topologyInv_of_run hrun
  have hpos : 0 < (getPeers sender.neighbourhood).length := by
    rw [peersetSize] at hsize
    omega
  obtain ⟨p, hp⟩ := List.exists_mem_of_length_pos hpos
  obtain ⟨d, hread⟩ := hinv.placed.read (Or.inl hp)
  have hadv := h 0x10 false 50 ops [] sender _ outs [] hrun (exec_nil _) p hp 0 0
  have hfits := ((advertisesTo_iff bigEndian_inverse 0x10 hread
    (topologyInit_inv 30 10 50) rfl false 50 0 0).mp hadv).2
  omega

end Topology

end PeerStreamer
