import PeerStreamer.NetHelper.CountedReceiving
import PeerStreamer.NetHelper.Flush

/-!
# A node, with the references counted

A node that receives from many peers and sends to them shares its node structures with whoever uses
it: a reception makes a node for the sender and hands it over, and a request that is taken off the
queue keeps its two.  In every run in which the references to one node never reach `2 ^ 16`, peers
do not disturb each other (`isolation_counted`), and everything that is sent or left on the queue is
legible (`everything_legible_counted`).
-/

namespace PeerStreamer

variable (ic : IntCoding) (localNode : NodeID)

/-! ## Operations on the counters -/

/-- A reception: the remote node is made, and given back at once if no datagram has come. -/
def receptionRefs (remote : NodeID) (nm : NetworkManager) (r : Reception) : List (RefOp NodeID) :=
  .create remote :: match r.received with
    | some datagram =>
        if datagram.length > 0 then
          receiveDatagramRefs ic localNode remote nm datagram r.tSweep r.tCreate r.buffer.length
            r.tPop
        else [.free remote]
    | none => [.free remote]

/-- What a call does to the counters. -/
def PeerCall.refs (nm : NetworkManager) : PeerCall → List (RefOp NodeID)
  | .recv r address => receptionRefs ic localNode (r.remoteAt address) nm r
  | .send dst data tSweep tCreate =>
      if data.length > 0 then NmOp.refs nm (.enqueuePacket localNode dst data tSweep tCreate)
      else []
  | .transmit => NmOp.refs nm .popMsg

/-- The nodes a call is passed. -/
def PeerCall.nodes : PeerCall → List NodeID
  | .recv _ _ => [localNode]
  | .send dst _ _ _ => [localNode, dst]
  | .transmit => []

/-- The nodes a call makes. -/
def PeerCall.made : PeerCall → List NodeID
  | .recv r address => [r.remoteAt address]
  | _ => []

/-- The references a call hands over: the one to the remote node, or those of a request. -/
def PeerCall.handed : PeerCall → PeerAnswer → Multiset NodeID
  | .recv r address, _ => if r.received.any (·.length > 0) then {r.remoteAt address} else 0
  | .transmit, .sent m => messageReferences (NmAnswer.message m).handed
  | _, _ => 0

/-- The node as a program that shares nodes. -/
def nodeProgram : SharedProgram NetworkManager PeerCall PeerAnswer NodeID where
  run := peerStep ic localNode
  live := NetworkManager.references
  refs := PeerCall.refs ic localNode
  passed := PeerCall.nodes localNode
  created := PeerCall.made
  handed _ := PeerCall.handed

/-- What happens to a node: a call, or what its surroundings do with node structures. -/
abbrev NodeHappening := Happening PeerCall NodeID

/-- One step with counters of 16 bits. -/
abbrev countedNode := (nodeProgram ic localNode).countedStep (2 ^ 16)

/-- A call that does nothing else undefined. -/
def Defined (nm : NetworkManager) (call : PeerCall) : Prop :=
  (peerStep ic localNode nm call).isOk = true

instance (nm : NetworkManager) (call : PeerCall) : Decidable (Defined ic localNode nm call) :=
  inferInstanceAs (Decidable (_ = true))

/-! ## References -/

section Moving

variable {ic localNode} {nm nm' : NetworkManager} {M : Multiset NodeID}

/-- **A reception** moves the references as its operations on the counters say. -/
lemma NetworkManager.OutqueueInv.reception_moves (h : nm.OutqueueInv) {remote : NodeID}
    {r : Reception} {answer : ℤ × Bytes} (hlocal : localNode ∈ M)
    (hnew : remote ∉ M + nm.references)
    (hs : recvFromPeerAs ic localNode remote nm r = .ok (nm', answer)) :
    Moves (M + nm.references) (receptionRefs ic localNode remote nm r)
        (M + (if r.received.any (·.length > 0) then {remote} else 0) + nm'.references)
      ∧ nm'.OutqueueInv := by
  have hcreate : Moves (M + nm.references) [.create remote] (remote ::ₘ (M + nm.references)) :=
    Moves.create hnew
  have hreturned : Moves (M + nm.references) [.create remote, .free remote]
      (M + 0 + nm.references) :=
    (hcreate.append Moves.free).of_eq rfl (by rw [add_zero])
  rw [receptionRefs]
  cases hr : r.received with
  | none =>
      rw [recvFromPeerAs, hr] at hs
      cases hs
      exact ⟨hreturned, h⟩
  | some datagram =>
      by_cases hlen : datagram.length > 0
      · rw [recvFromPeerAs_eq_receiveDatagram ic localNode remote nm hr hlen] at hs
        obtain ⟨⟨nm₁, receipt⟩, hreceive, hs⟩ := Eval.bind_eq_ok.mp hs
        obtain ⟨rfl, -⟩ := Prod.mk.inj (Except.ok.inj hs)
        obtain ⟨hmoves, hinv⟩ := h.receiveDatagram_moves (Multiset.mem_cons_of_mem hlocal)
          (Multiset.mem_cons_self remote M) hreceive
        simp only [hlen, if_true, Option.any_some, decide_true]
        refine ⟨hcreate.append (hmoves.of_eq (Multiset.cons_add remote M _).symm ?_), hinv⟩
        rw [← Multiset.singleton_add, add_comm {remote} M]
      · rw [recvFromPeerAs, hr] at hs
        simp only [hlen, if_false] at hs
        cases hs
        simp only [hlen, if_false, Option.any_some, decide_false]
        exact ⟨hreturned, h⟩

lemma nodeProgram_respects (P : NetworkManager → PeerCall → Prop) :
    (nodeProgram ic localNode).Respects NetworkManager.OutqueueInv P := by
  intro nm call nm' a M hinv _ hs hpassed hcreated
  have hnone : M + 0 + nm'.references = M + nm'.references := by rw [add_zero]
  cases call with
  | recv r address =>
      obtain ⟨⟨nm₁, answer⟩, hrecv, he⟩ := Eval.bind_eq_ok.mp hs
      obtain ⟨rfl, -⟩ := Prod.mk.inj (Except.ok.inj he)
      obtain ⟨hmoves, hinv'⟩ := hinv.reception_moves (hpassed localNode List.mem_cons_self)
        (hcreated (r.remoteAt address) List.mem_cons_self) hrecv
      exact ⟨hinv', hmoves⟩
  | send dst data tSweep tCreate =>
      obtain ⟨⟨nm₁, n⟩, hsend, he⟩ := Eval.bind_eq_ok.mp hs
      obtain ⟨rfl, rfl⟩ := Prod.mk.inj (Except.ok.inj he)
      have hrefs : (nodeProgram ic localNode).refs nm (.send dst data tSweep tCreate)
          = if data.length > 0 then NmOp.refs nm (.enqueuePacket localNode dst data tSweep tCreate)
            else [] := rfl
      rw [hrefs]
      rw [sendToPeer] at hsend
      split_ifs at hsend ⊢ with hlen
      · obtain ⟨⟨nm₂, res⟩, hcall, he⟩ := Eval.bind_eq_ok.mp hsend
        obtain ⟨rfl, -⟩ := Prod.mk.inj (Except.ok.inj he)
        have hstep : networkManagerStep nm (.enqueuePacket localNode dst data tSweep tCreate)
            = .ok (nm₂, .code res) := by
          rw [networkManagerStep, hcall]
          rfl
        exact ⟨hinv.step hstep, (hinv.call_moves hstep rfl hpassed).of_eq rfl hnone⟩
      · cases hsend
        exact ⟨hinv, Moves.nil.of_eq rfl hnone⟩
  | transmit =>
      obtain ⟨⟨nm₁, m⟩, hpop, he⟩ := Eval.bind_eq_ok.mp hs
      obtain ⟨rfl, rfl⟩ := Prod.mk.inj (Except.ok.inj he)
      have hstep : networkManagerStep nm .popMsg = .ok (nm₁, .message m) := by
        rw [networkManagerStep, hpop]
        rfl
      refine ⟨hinv.step hstep, (hinv.step_moves (M := M) hstep (by simp [NmOp.nodes])).of_eq rfl ?_⟩
      exact add_right_comm _ _ _

/-- A run of calls that do nothing undefined goes through. -/
lemma exec_of_defined {calls : List PeerCall}
    (h : Along (peerStep ic localNode) (Defined ic localNode) nm calls) :
    ∃ nm' answers, exec (peerStep ic localNode) nm calls = .ok (nm', answers) := by
  obtain ⟨nm', answers, hexec, -⟩ := exec_along_total (J := fun _ => True)
    (fun nm call _ hcall => by
      obtain ⟨⟨nm', a⟩, hs⟩ := Eval.exists_ok hcall
      exact ⟨nm', a, hs, trivial⟩) trivial h
  exact ⟨nm', answers, hexec⟩

end Moving

/-! ## Peers among each other -/

section Isolation

variable (config : NetworkConfig)

/-- A node that has just been started, in surroundings without nodes. -/
abbrev startedNode : WithCounters (Surrounded NetworkManager NodeID) NodeID :=
  Surrounded.start (networkManagerCreate config)

lemma startedNode_counted :
    (nodeProgram ic localNode).sharing.Counted (2 ^ 16) (startedNode config) :=
  SharedProgram.start_counted (by norm_num) rfl

/-- All that happens in `is`, and what happens in `js` alone to the peer `n`, is answered the same,
and leaves the same packets of this peer to be completed. -/
def HeardAlone (n : NodeID) (is js : List NodeHappening) : Prop :=
  ∃ s outs s' outs', exec (countedNode ic localNode) (startedNode config) is = .ok (s, outs)
    ∧ exec (countedNode ic localNode) (startedNode config) js = .ok (s', outs')
    ∧ outs'.reduceOption
      = (((Happening.calls is).zip outs.reduceOption).filter fun x => x.1.isFrom n).map Prod.snd
    ∧ s.state.program.incomingFrom n = s'.state.program.incomingFrom n

variable {ic localNode config}

/-- **Peers do not disturb each other**, as long as the references to one node never reach `2 ^ 16`.
Let `js` have the datagrams of the peer `n` that are received in `is`, and no other calls.  What is
returned for them, and left in the buffer, is the same in both. -/
theorem isolation_counted (ic : IntCoding) (localNode : NodeID) (config : NetworkConfig)
    (n : NodeID) (is js : List NodeHappening)
    (his : Along (countedNode ic localNode)
      (fun s i => (nodeProgram ic localNode).Careful (2 ^ 16) s i
        ∧ SharedProgram.OnCalls (Defined ic localNode) s.state i) (startedNode config) is)
    (hjs : Along (countedNode ic localNode) ((nodeProgram ic localNode).Careful (2 ^ 16))
      (startedNode config) js)
    (hcalls : Happening.calls js = (Happening.calls is).filter (PeerCall.isFrom n)) :
    HeardAlone ic localNode config n is js := by
  have hinv := networkManagerCreate_outqueueInv config
  have hcounted := startedNode_counted ic localNode config
  obtain ⟨s, outs, hexec, hplain, -⟩ := (nodeProgram_respects _).carries
    (s := startedNode config) hinv hcounted his (Q := fun nm answers =>
      exec (peerStep ic localNode) (networkManagerCreate config) (Happening.calls is)
        = .ok (nm, answers)) fun hdefined => by
      obtain ⟨nm, answers, hrun⟩ := exec_of_defined hdefined
      exact ⟨nm, answers, hrun, hrun⟩
  obtain ⟨nm', halone, hbucket⟩ := isolation hplain n
  rw [← hcalls] at halone
  obtain ⟨s', outs', hexec', ⟨hsame, hanswers⟩, -⟩ :=
    (nodeProgram_respects fun _ _ => True).carries (s := startedNode config) hinv hcounted
      (hjs.mono fun s i hi => ⟨hi, by cases i <;> trivial⟩)
      (Q := fun nm answers => nm = nm' ∧ answers = (((Happening.calls is).zip
        outs.reduceOption).filter fun x => x.1.isFrom n).map Prod.snd)
      fun _ => ⟨nm', _, halone, rfl, rfl⟩
  exact ⟨s, outs, s', outs', hexec, hexec', hanswers, hsame ▸ hbucket⟩

/-- One of two fragments, of one byte, from the peer at the port. -/
def halfPacket (port : ℤ) (id b : UInt8) : Reception where
  ip := [66]
  port := port
  received := some [0, 0, 0, 0, 2, 0, id, 0, 0, 0, 1, b]
  buffer := List.replicate 12 0
  tSweep := 0
  tCreate := 0
  tPop := 0
  fits := by simp

/-- The packets of two peers arrive mixed, under the same id. -/
def mixedPackets : List NodeHappening :=
  [.other (.create localPeer), .call (.recv (halfPacket 6001 0 1) (-1)),
    .call (.recv (halfPacket 6002 1 8) (-2)), .call .transmit,
    .call (.recv (halfPacket 6002 0 9) (-3)), .call (.send ⟨[66], 6002, -3⟩ [3] 0 0),
    .other (.free ⟨[66], 6001, -1⟩), .call (.recv (halfPacket 6001 1 2) (-4))]

/-- Only the packet of the first. -/
def oneOfTwo : List NodeHappening :=
  [.other (.create localPeer), .call (.recv (halfPacket 6001 0 1) (-1)),
    .call (.recv (halfPacket 6001 1 2) (-4))]

theorem isolation_counted_mixed :
    HeardAlone bigEndian localPeer ⟨none, none⟩ ⟨[66], 6001, -1⟩ mixedPackets oneOfTwo :=
  isolation_counted _ _ _ _ _ _ (by decide +kernel) (by decide +kernel) rfl

end Isolation

/-! ## What is sent -/

section Legible

variable {ic} {config : NetworkConfig}

/-- **Nothing is dropped for want of room**, as long as the references to one node never reach
`2 ^ 16`.  Every message a node takes off the queue in a run is legible; and the flush at its end
encodes what is left on the queue, in order, until the queue is empty, all of it legible. -/
theorem everything_legible_counted (hic : ic.Unsigned) (localNode : NodeID) {fd : Descriptor}
    {byterate byterateMultiplyer : Option ℚ} {tUpdate tNext : Timeval} {s : LocalNode}
    (hinit : netHelperInit fd config byterate byterateMultiplyer tUpdate tNext = .ok s)
    (hsize : 1 ≤ config.fragSizeInt) (is : List NodeHappening)
    (his : Along (countedNode ic localNode)
      (fun s i => (nodeProgram ic localNode).Careful (2 ^ 16) s i
        ∧ SharedProgram.OnCalls (Defined ic localNode) s.state i) (Surrounded.start s.nm) is) :
    ∃ t outs, exec (countedNode ic localNode) (Surrounded.start s.nm) is = .ok (t, outs)
      ∧ (∀ msg, some (.sent (some msg)) ∈ outs → Legible ic s msg)
      ∧ ∃ (msgs : List NetMessage) (nm' : NetworkManager),
        netHelperFlush ic t.state.program.outqueue.length { s with nm := t.state.program }
            = .ok (some ({ s with nm := nm' }, msgs.map (netHelperSendMsg ic s)))
          ∧ t.state.program.outqueue.map t.state.program.message = msgs.map some
          ∧ nm'.outqueue = [] ∧ ∀ msg ∈ msgs, Legible ic s msg := by
  obtain ⟨hnm, -⟩ := netHelperInit_eq_ok hinit hsize
  obtain ⟨t, outs, hexec, hplain, -⟩ := (nodeProgram_respects _).carries
    (s := Surrounded.start s.nm) (hnm ▸ networkManagerCreate_outqueueInv config)
    (hnm ▸ startedNode_counted ic localNode config) his (Q := fun nm answers =>
      exec (peerStep ic localNode) s.nm (Happening.calls is) = .ok (nm, answers))
    fun hdefined => by
      obtain ⟨nm, answers, hrun⟩ := exec_of_defined hdefined
      exact ⟨nm, answers, hrun, hrun⟩
  obtain ⟨hsent, hflush⟩ := everything_legible hic hinit hsize hplain
  exact ⟨t, outs, hexec, fun msg hm => hsent msg (List.reduceOption_mem_iff.mpr hm), hflush⟩

end Legible

/-- A packet is cut in two, a fragment with a gap below it is received, and one message is sent: the
request for the gap.  The two fragments are left for the flush. -/
def packetAndGap : List NodeHappening :=
  [.other (.create localPeer), .other (.create ⟨[66], 6001, -1⟩),
    .call (.send ⟨[66], 6001, -1⟩ [1, 2, 3] 0 0),
    .call (.recv ⟨[66], 6001, some [0, 0, 0, 0, 2, 0, 1, 0, 0, 0, 1, 43], List.replicate 20 0,
      0, 0, 0, by decide⟩ (-2)),
    .call .transmit]

theorem everything_legible_counted_gap :
    ∃ s t outs, netHelperInit ⟨3, by decide⟩ twoByteFragments none none ⟨0, 0⟩ ⟨0, 0⟩ = .ok s
      ∧ exec (countedNode bigEndian localPeer) (Surrounded.start s.nm) packetAndGap = .ok (t, outs)
      ∧ (∀ msg, some (.sent (some msg)) ∈ outs → Legible bigEndian s msg)
      ∧ ∃ (msgs : List NetMessage) (nm' : NetworkManager),
        netHelperFlush bigEndian t.state.program.outqueue.length
            { s with nm := t.state.program }
            = .ok (some ({ s with nm := nm' }, msgs.map (netHelperSendMsg bigEndian s)))
          ∧ t.state.program.outqueue.map t.state.program.message = msgs.map some
          ∧ nm'.outqueue = [] ∧ ∀ msg ∈ msgs, Legible bigEndian s msg := by
  have hinit : netHelperInit ⟨3, by decide⟩ twoByteFragments none none ⟨0, 0⟩ ⟨0, 0⟩
      = .ok _ := if_pos (by decide)
  obtain ⟨t, outs, h⟩ := everything_legible_counted bigEndian_unsigned localPeer hinit (by decide)
    packetAndGap (by decide +kernel)
  exact ⟨_, t, outs, hinit, h⟩

end PeerStreamer
