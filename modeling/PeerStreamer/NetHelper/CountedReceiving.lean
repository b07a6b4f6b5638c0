import PeerStreamer.NetHelper.CountedCalls
import PeerStreamer.NetHelper.Receiving

/-!
# Receiving, with the references counted

What the handling of a datagram does to the counters: the message decoded from it takes a reference
to each of its two nodes, the network manager takes those it keeps, and the message is dropped.
-/

namespace PeerStreamer

variable (ic : IntCoding) (localNode remote : NodeID) (nm : NetworkManager) (datagram : Bytes)
  (tSweep tCreate : ℤ)

/-! ## Operations on the counters -/

/-- What is done while there is a message: it is made before, and dropped afterwards. -/
def withMessageRefs (msg : NetMsg) (ops : List (RefOp NodeID)) : List (RefOp NodeID) :=
  netMsgInitRefs msg ++ ops ++ netMsgDeinitRefs msg

/-- The handling of a datagram, with `pop` after a fragment has been added. -/
def datagramRefs (pop : Fragment → List (RefOp NodeID)) : List (RefOp NodeID) :=
  match netMsgDecode ic localNode remote datagram with
  | .ok (some (.fragment f)) =>
      withMessageRefs f.toNetMsg (NmOp.refs nm (.addFragment f tSweep tCreate) ++ pop f)
  | .ok (some (.fragRequest fr)) =>
      withMessageRefs fr.toNetMsg (NmOp.refs nm (.enqueueFragment remote fr.pid fr.id tSweep))
  | _ => []

/-- `handleDatagram` -/
def handleDatagramRefs : List (RefOp NodeID) :=
  datagramRefs ic localNode remote nm datagram tSweep tCreate fun _ => []

/-- `receiveDatagram` -/
def receiveDatagramRefs (size : ℕ) (tPop : ℤ) : List (RefOp NodeID) :=
  datagramRefs ic localNode remote nm datagram tSweep tCreate fun f =>
    if (networkManagerAddIncomingFragment nm f tSweep tCreate).2 = .ready then
      NmOp.refs (networkManagerAddIncomingFragment nm f tSweep tCreate).1
        (.popPacket remote f.pid size tPop)
    else []

/-! ## References -/

section Moving

variable {ic localNode remote nm datagram tSweep tCreate} {nm' : NetworkManager}
  {M N N' : Multiset NodeID} {ops : List (RefOp NodeID)}

/-- A message keeps the nodes it goes between alive, and leaves nothing behind. -/
lemma withMessage_moves {msg : NetMsg} (hfrom : msg.fromNode ∈ M) (hto : msg.toNode ∈ M)
    (h : Moves (M + msg.references + N) ops (M + msg.references + N')) :
    Moves (M + N) (withMessageRefs msg ops) (M + N') := by
  have hinit : Moves (M + N) (netMsgInitRefs msg) (M + msg.references + N) :=
    (netMsgInit_moves (Multiset.mem_add.mpr (Or.inl hfrom))
      (Multiset.mem_add.mpr (Or.inl hto))).of_eq rfl (add_right_comm M N msg.references).symm
  have hdeinit : Moves (M + msg.references + N') (netMsgDeinitRefs msg) (M + N') :=
    (netMsgDeinit_moves msg (M + N')).of_eq (add_right_comm M msg.references N') rfl
  exact (hinit.append h).append hdeinit

/-- A call that hands nothing over. -/
lemma NetworkManager.OutqueueInv.call_moves (h : nm.OutqueueInv) {op : NmOp} {a : NmAnswer}
    (hs : networkManagerStep nm op = .ok (nm', a)) (ha : a.handed = [])
    (hnodes : ∀ n ∈ op.nodes, n ∈ M) :
    Moves (M + nm.references) (op.refs nm) (M + nm'.references) := by
  have hmoves := h.step_moves hs hnodes
  rwa [ha, messageReferences, List.map_nil, List.sum_nil, add_zero] at hmoves

variable (hlocal : localNode ∈ M) (hremote : remote ∈ M)

include hlocal hremote

/-- A request that is answered. -/
lemma NetworkManager.OutqueueInv.answer_moves (h : nm.OutqueueInv) {fr : FragRequest}
    (hd : netMsgDecode ic localNode remote datagram = .ok (some (.fragRequest fr)))
    (pop : Fragment → List (RefOp NodeID)) :
    Moves (M + nm.references) (datagramRefs ic localNode remote nm datagram tSweep tCreate pop)
        (M + (networkManagerEnqueueOutgoingFragment nm remote fr.pid fr.id tSweep).1.references)
      ∧ (networkManagerEnqueueOutgoingFragment nm remote fr.pid fr.id tSweep).1.OutqueueInv := by
  obtain ⟨hfrom, hto⟩ := netMsgDecode_nodes hd
  have hstep : networkManagerStep nm (.enqueueFragment remote fr.pid fr.id tSweep) = .ok
      ((networkManagerEnqueueOutgoingFragment nm remote fr.pid fr.id tSweep).1,
        .code (networkManagerEnqueueOutgoingFragment nm remote fr.pid fr.id tSweep).2) := rfl
  rw [datagramRefs, hd]
  refine ⟨withMessage_moves (hfrom ▸ hremote) (hto ▸ hlocal) (h.call_moves hstep rfl ?_),
    h.step hstep⟩
  intro n hn
  obtain rfl := List.mem_singleton.mp hn
  exact Multiset.mem_add.mpr (Or.inl hremote)

/-- A fragment that is added, with a pop after it. -/
lemma NetworkManager.OutqueueInv.add_moves (h : nm.OutqueueInv) {f : Fragment}
    (hd : netMsgDecode ic localNode remote datagram = .ok (some (.fragment f)))
    {pop : Fragment → List (RefOp NodeID)}
    (hpop : ∀ M, Moves (M + (nm.arrived f tSweep tCreate).references) (pop f)
      (M + nm'.references)) :
    Moves (M + nm.references) (datagramRefs ic localNode remote nm datagram tSweep tCreate pop)
      (M + nm'.references) := by
  obtain ⟨hfrom, hto⟩ := netMsgDecode_nodes hd
  have hfrom' : f.fromNode ∈ M := hfrom ▸ hremote
  have hto' : f.toNode ∈ M := hto ▸ hlocal
  rw [datagramRefs, hd]
  exact withMessage_moves hfrom' hto' ((h.wf.arrived_moves (Multiset.mem_add.mpr (Or.inl hfrom'))
    (Multiset.mem_add.mpr (Or.inl hto'))).append (hpop _))

/-- **A datagram handled** moves the references as its operations on the counters say. -/
theorem NetworkManager.OutqueueInv.handleDatagram_moves (h : nm.OutqueueInv)
    {arrived : Option (ℕ × PacketState)}
    (hs : handleDatagram ic localNode remote nm datagram tSweep tCreate = .ok (nm', arrived)) :
    Moves (M + nm.references)
        (handleDatagramRefs ic localNode remote nm datagram tSweep tCreate) (M + nm'.references)
      ∧ nm'.OutqueueInv := by
  obtain ⟨msg, hd, hs⟩ := Eval.bind_eq_ok.mp hs
  match msg with
  | none => cases hs
  | some (.fragment f) =>
      simp only [h.addFragment, Eval.pure_eq_ok, Except.ok.injEq, Prod.mk.injEq] at hs
      obtain ⟨rfl, -⟩ := hs
      exact ⟨h.add_moves hlocal hremote hd fun M => Moves.nil, h.arrived⟩
  | some (.fragRequest fr) =>
      simp only [Eval.pure_eq_ok, Except.ok.injEq, Prod.mk.injEq] at hs
      obtain ⟨rfl, -⟩ := hs
      exact h.answer_moves hlocal hremote hd _

/-- **A datagram received**, the same. -/
theorem NetworkManager.OutqueueInv.receiveDatagram_moves (h : nm.OutqueueInv) {size : ℕ} {tPop : ℤ}
    {receipt : Option Receipt}
    (hs : receiveDatagram ic localNode remote nm datagram size tSweep tCreate tPop
      = .ok (nm', receipt)) :
    Moves (M + nm.references)
        (receiveDatagramRefs ic localNode remote nm datagram tSweep tCreate size tPop)
        (M + nm'.references)
      ∧ nm'.OutqueueInv := by
  obtain ⟨⟨nm₁, arrived⟩, hhandle, hs⟩ := Eval.bind_eq_ok.mp hs
  obtain ⟨msg, hd, hhandle⟩ := Eval.bind_eq_ok.mp hhandle
  match msg with
  | none => cases hhandle
  | some (.fragRequest fr) =>
      simp only [Eval.pure_eq_ok, Except.ok.injEq, Prod.mk.injEq] at hhandle
      obtain ⟨rfl, rfl⟩ := hhandle
      simp only [Eval.pure_eq_ok, Except.ok.injEq, Prod.mk.injEq] at hs
      obtain ⟨rfl, -⟩ := hs
      exact h.answer_moves hlocal hremote hd _
  | some (.fragment f) =>
      simp only [h.addFragment, Eval.pure_eq_ok, Except.ok.injEq, Prod.mk.injEq] at hhandle
      obtain ⟨rfl, rfl⟩ := hhandle
      have hpop : ∀ M : Multiset NodeID,
          Moves (M + (nm.arrived f tSweep tCreate).references)
            (NmOp.refs (nm.arrived f tSweep tCreate) (.popPacket remote f.pid size tPop))
            (M + ((nm.arrived f tSweep tCreate).popped remote f.pid tPop).references) :=
        h.arrived.wf.popped_moves remote f.pid size tPop
      simp only [h.arrived.popPacket] at hs
      split_ifs at hs with hready
      · simp only [Eval.pure_eq_ok, Except.ok.injEq, Prod.mk.injEq] at hs
        obtain ⟨rfl, -⟩ := hs
        refine ⟨h.add_moves hlocal hremote hd fun M => ?_, h.arrived.popped _ _ _⟩
        simp only [h.addFragment, hready, if_true]
        exact hpop M
      · simp only [Eval.pure_eq_ok, Except.ok.injEq, Prod.mk.injEq] at hs
        obtain ⟨rfl, -⟩ := hs
        refine ⟨h.add_moves hlocal hremote hd fun M => ?_, h.arrived⟩
        simp only [h.addFragment, hready, if_false]
        exact Moves.nil

end Moving

/-! ## A datagram too many -/

/-- **A fragment whose slots bring the counter round to 1** makes a node that has received nothing
before use its local node after it has been released. -/
theorem datagramRefs_overflow {ic : IntCoding} {localNode remote : NodeID} (config : NetworkConfig)
    {datagram : Bytes} {f : Fragment}
    (hd : netMsgDecode ic localNode remote datagram = .ok (some (.fragment f)))
    (hid : f.id < f.fragNum) (hne : remote ≠ localNode) {c : Counters NodeID} {M : Multiset NodeID}
    (hcounts : Counts (2 ^ 16) c M) (hcard : M.card + 2 < 2 ^ 16) (hlocal : localNode ∈ M)
    (hremote : remote ∈ M) (hround : (M.count localNode + 1 + f.fragNum) % 2 ^ 16 = 1)
    (tSweep tCreate : ℤ) (pop : Fragment → List (RefOp NodeID)) :
    countAll (2 ^ 16) c (datagramRefs ic localNode remote (networkManagerCreate config) datagram
      tSweep tCreate pop) = .error .useAfterFree := by
  obtain ⟨hfrom, hto⟩ := netMsgDecode_nodes hd
  have hfrom : f.fromNode = remote := hfrom
  have hto : f.toNode = localNode := hto
  subst hfrom hto
  obtain ⟨c₁, hc₁, hcounts₁⟩ := hcounts.countAll (netMsgInit_moves hremote hlocal)
    (fits_of_card (by simpa [netMsgInitRefs] using hcard))
  have hcount : (M + f.toNetMsg.references).count f.toNode = M.count f.toNode + 1 := by
    rw [f.toNetMsg.add_references, Multiset.count_cons_of_ne (Ne.symm hne),
      Multiset.count_cons_self]
  simp only [datagramRefs, hd, withMessageRefs, List.append_assoc]
  rw [countAll_append, hc₁, Eval.ok_bind]
  exact addFragment_overflow config hid hne tSweep tCreate hcounts₁
    (Multiset.mem_add.mpr (Or.inl hremote)) (Multiset.mem_add.mpr (Or.inl hlocal))
    (by rwa [hcount]) _

/-! ## A packet that just fits -/

/-- Fragments of one byte. -/
def oneByteFragments : NetworkConfig := ⟨some ⟨1, by decide, by decide⟩, none⟩

lemma oneByteFragments_fragSize : 1 ≤ oneByteFragments.fragSizeInt := by decide

/-- A packet is cut, and its first fragment popped. -/
lemma exec_first_pop (src dst : NodeID) (data : Bytes) (hdata : 0 < data.length)
    (hcount : data.length < 2 ^ 16) :
    ∃ nm f, exec networkManagerStep (networkManagerCreate oneByteFragments)
        [.enqueuePacket src dst data 0 0, .popMsg]
        = .ok (nm, [.code 0, .message (some (.fragment f))])
      ∧ nodeidEqual f.toNode dst := by
  set nm := networkManagerCreate oneByteFragments with hnm
  have hinv : nm.OutqueueInv := networkManagerCreate_outqueueInv oneByteFragments
  have hend : nm.endpointFor dst = endpointCreate dst nm.fragSize nm.maxPktAge :=
    NetworkManager.endpointFor_of_none (networkManagerCreate_endpoint oneByteFragments dst)
  have hfree : nm.IdFree dst 0 := by
    rw [NetworkManager.IdFree, hend]
    rfl
  have henqueue : networkManagerStep nm (.enqueuePacket src dst data 0 0)
      = .ok (nm.enqueued src dst data 0 0, .code 0) := by
    rw [networkManagerStep, networkManagerEnqueueOutgoingPacket_eq hinv.wf src 0 hdata
      (by decide : 0 < nm.fragSize) hfree]
    rfl
  -- the queue begins with a fragment
  have hlen : ((nm.endpointFor dst).cut src data).length = data.length := by
    rw [hend, Endpoint.cut, cutFragments, List.length_map, List.length_range]
    exact (cutCount_eq one_pos (by omega)).trans (by omega)
  obtain ⟨f₀, fs, hcut⟩ := List.exists_cons_of_length_pos (hlen ▸ hdata)
  have hq : (nm.enqueued src dst data 0 0).outqueue = .fragment f₀.toNode f₀.pid f₀.id
      :: (fs.map fragmentListElement ++ (nm.endpointFor dst).sweptQueue 0 nm.outqueue) := by
    rw [NetworkManager.enqueued, NetworkManager.put_outqueue, hcut]
    rfl
  have hf₀ : f₀ ∈ (nm.endpointFor dst).cut src data := hcut ▸ List.mem_cons_self
  have hdst : f₀.toNode = dst := by
    rw [(cutFragments_pieceOf hf₀).2.1, hend]
    rfl
  obtain ⟨e, fp, f, he, hd, hl, hf, hpop, -⟩ := (hinv.enqueued hfree).pop_fragment hq
  have hto := (((hinv.enqueued hfree).owns _ e he).named _ fp hl _ f hf).1
  refine ⟨_, _, exec_cons_eq_ok.mpr ⟨_, _, _, henqueue, exec_cons_eq_ok.mpr ⟨_, _, [],
    by rw [networkManagerStep, hpop]; rfl, rfl, rfl⟩, rfl⟩, ?_⟩
  change nodeidEqual f.toNode dst
  rw [hto, ← hd, hdst]
  exact nodeidEqual_self dst

/-- What enqueueing the first packet does to the counters. -/
lemma enqueue_first_refs (src dst : NodeID) {data : Bytes} (hdata : 0 < data.length)
    (hcount : data.length < 2 ^ 16) :
    NmOp.refs (networkManagerCreate oneByteFragments) (.enqueuePacket src dst data 0 0)
      = (dst :: (List.range data.length).flatMap fun _ => [dst, src]).map .dup := by
  have hnone := networkManagerCreate_endpoint oneByteFragments dst
  have hcut : cutCount data.length 1 = data.length :=
    (cutCount_eq one_pos (by omega)).trans (by omega)
  rw [NmOp.refs, if_pos hdata, NetworkManager.obtainEndpoint_snd,
    NetworkManager.endpointFor_of_none hnone, NetworkManager.obtainEndpointRefs, hnone]
  dsimp only [endpointCreate]
  rw [packetBucketAddPacketRefs, cutFragments]
  have hone : (packetBucketCreate (networkManagerCreate oneByteFragments).fragSize
      (networkManagerCreate oneByteFragments).maxPktAge).fragSize = 1 := by decide
  rw [hone, hcut, List.flatMap_map, List.map_cons, List.map_flatMap]
  rfl

/-- A packet of 65533 fragments takes all the references that can still be counted. -/
lemma longPacket_fits {src dst : NodeID} (hne : src ≠ dst) {data : Bytes}
    (hdata : data.length = 65533) :
    Fits (2 ^ 16) ({dst, src} : Multiset NodeID)
      (NmOp.refs (networkManagerCreate oneByteFragments) (.enqueuePacket src dst data 0 0)) := by
  obtain ⟨hcsrc, hcdst⟩ := count_slots hne 65533
  rw [enqueue_first_refs src dst (by omega) (by omega), hdata]
  refine fits_dups fun n => ?_
  by_cases hn : n = dst
  · rw [hn, List.count_cons_self, hcdst]
    simp [Ne.symm hne]
  · rw [List.count_cons_of_ne (Ne.symm hn)]
    by_cases hn' : n = src
    · rw [hn', hcsrc]
      simp [hne]
    · have hnone : ((List.range 65533).flatMap fun _ => [dst, src]).count n = 0 :=
        List.count_eq_zero.mpr fun hmem => (mem_slots n hmem).elim hn' hn
      rw [hnone]
      simp [hn, hn']

end PeerStreamer
