import PeerStreamer.NetHelper.Isolation
import PeerStreamer.NetHelper.Outgoing
import PeerStreamer.NetHelper.WireFormat

/-!
# The sending buffer and the last flush

`net_helper_init` makes the sending buffer a hundred bytes longer than a fragment, and a message
that does not fit into it is dropped without a word.  It never comes to that: whatever a node has
received and sent, every message it takes off the queue to send it, and every message
`net_helper_deinit` finds there when it flushes the queue, is encoded, and read again by whoever
decodes the datagram (`everything_legible`).  Which socket it goes through is another matter, the
one of `Addressing`.

Behind this is `Sendable`: the fields of outgoing fragments fit theirs on the wire because the
counters they come from do, and those of requests because incoming packets have no more slots than
two bytes can announce.
-/

namespace PeerStreamer

/-! ## Setting up and flushing -/

/-- `net_helper_init` once the socket is bound: what the configuration says of the fragments and of
the shaper.  The length of the sending buffer is a sum of two `int`s, converted to `size_t`. -/
def netHelperInit (fd : Descriptor) (config : NetworkConfig)
    (byterate byterateMultiplyer : Option ℚ) (tUpdate tNext : Timeval) : Eval LocalNode :=
  if config.fragSizeInt + 100 ≤ INT_MAX then
    .ok { fd
          nm := networkManagerCreate config
          shaper := networkShaperCreate byterate byterateMultiplyer tUpdate tNext
          sendingBufferLen := ((config.fragSizeInt + 100) % 2 ^ 64).toNat }
  else .error .signedOverflow

variable (ic : IntCoding)

/-- The loop of `net_helper_deinit` with a message in hand, for at most `n` messages: the node and
what was handed to `sendto`, or `none` if `n` do not suffice. -/
def netHelperFlushLoop :
    (n : ℕ) → LocalNode → Option NetMessage → Eval (Option (LocalNode × List (Option Bytes)))
  | _, s, none => .ok (some (s, []))
  | 0, _, some _ => .ok none
  | n + 1, s, some msg => do
      let sent := netHelperSendMsg ic s msg
      let (nm, msg) ← networkManagerPopOutgoingNetMsg s.nm
      let rest ← netHelperFlushLoop n { s with nm } msg
      return rest.map fun (s, sents) => (s, sent :: sents)

/-- `net_helper_deinit` up to the point where the socket is closed. -/
def netHelperFlush (n : ℕ) (s : LocalNode) : Eval (Option (LocalNode × List (Option Bytes))) := do
  let (nm, msg) ← networkManagerPopOutgoingNetMsg s.nm
  netHelperFlushLoop ic n { s with nm } msg

/-- The message fits into the sending buffer, and whoever receives the datagram reads the message
in it. -/
def Legible (s : LocalNode) (msg : NetMessage) : Prop :=
  ∃ datagram, netHelperSendMsg ic s msg = some datagram
    ∧ ∀ dst src, netMsgDecode ic dst src datagram = .ok (some (msg.receivedAs src dst))

variable {ic}

lemma netHelperInit_eq_ok {fd : Descriptor} {config : NetworkConfig}
    {byterate byterateMultiplyer : Option ℚ} {tUpdate tNext : Timeval} {s : LocalNode}
    (h : netHelperInit fd config byterate byterateMultiplyer tUpdate tNext = .ok s)
    (hsize : 1 ≤ config.fragSizeInt) :
    s.nm = networkManagerCreate config
      ∧ s.sendingBufferLen = (networkManagerCreate config).fragSize + 100 := by
  rw [netHelperInit] at h
  split_ifs at h with hmax
  cases h
  refine ⟨rfl, ?_⟩
  have hfrag := networkManagerCreate_fragSize hsize
  have hint : INT_MAX < 2 ^ 64 := by decide
  have hmod : (config.fragSizeInt + 100) % 2 ^ 64 = config.fragSizeInt + 100 :=
    Int.emod_eq_of_lt (by omega) (by omega)
  change ((config.fragSizeInt + 100) % 2 ^ 64).toNat = _
  rw [hmod]
  omega

/-- A round of the loop sends the message in hand and goes on as the flush does from the start. -/
lemma netHelperFlushLoop_succ (n : ℕ) (s : LocalNode) (msg : NetMessage) :
    netHelperFlushLoop ic (n + 1) s (some msg) = do
      let rest ← netHelperFlush ic n s
      return rest.map fun (s', sents) => (s', netHelperSendMsg ic s msg :: sents) := by
  rw [netHelperFlushLoop, netHelperFlush]
  cases networkManagerPopOutgoingNetMsg s.nm with
  | error u => rfl
  | ok p => rfl

/-- **The flush** ends after as many messages as there are on the queue, and has handed out all of
them, in order. -/
theorem netHelperFlush_eq {q : MsgList} {s : LocalNode} (h : s.nm.OutqueueInv)
    (hq : s.nm.outqueue = q) {n : ℕ} (hn : q.length ≤ n) :
    ∃ (msgs : List NetMessage) (nm : NetworkManager),
      netHelperFlush ic n s = .ok (some ({ s with nm }, msgs.map (netHelperSendMsg ic s)))
      ∧ q.map s.nm.message = msgs.map some ∧ nm.outqueue = [] := by
  induction q generalizing s n with
  | nil =>
      refine ⟨[], s.nm, ?_, rfl, hq⟩
      rw [netHelperFlush, networkManagerPopOutgoingNetMsg, hq, Eval.ok_bind]
      cases n <;> rfl
  | cons el q ih =>
      cases n with
      | zero => simp at hn
      | succ n =>
          obtain ⟨nm₁, msg, hpop, hmsg, hinv, hq₁, hsame⟩ := h.popMessage hq
          -- the messages left are those there were
          obtain ⟨msgs, nm, hflush, hmsgs, hend⟩ :=
            ih (s := { s with nm := nm₁ }) hinv hq₁ (Nat.le_of_succ_le_succ hn)
          refine ⟨msg :: msgs, nm, ?_, ?_, hend⟩
          · rw [netHelperFlush, hpop, Eval.ok_bind]
            change netHelperFlushLoop ic (n + 1) { s with nm := nm₁ } (some msg) = _
            rw [netHelperFlushLoop_succ, hflush]
            rfl
          · rw [List.map_cons, List.map_cons, hmsg, ← hmsgs]
            congr 1
            exact List.map_congr_left fun el _ => (hsame el).symm

/-! ## What a call changes -/

section Steps

variable {nm nm' : NetworkManager} {op : NmOp} {a : NmAnswer}

/-- Only arriving fragments put requests on the queue. -/
lemma NetworkManager.OutqueueInv.request_of_step (h : nm.OutqueueInv)
    (hs : networkManagerStep nm op = .ok (nm', a)) {fr : FragRequest}
    (hfr : .request fr ∈ nm'.outqueue) :
    .request fr ∈ nm.outqueue ∨ ∃ f tSweep tCreate, op = .addFragment f tSweep tCreate
      ∧ .request fr ∈ arrivalRequests (nm.target f tSweep tCreate) f := by
  cases op with
  | enqueuePacket src dst data tSweep tCreate =>
      rcases networkManagerStep_enqueuePacket h.wf hs with ⟨-, rfl, -⟩ | ⟨-, -, -, rfl, -⟩
      · exact Or.inl hfr
      · rw [NetworkManager.enqueued, NetworkManager.put_outqueue, List.mem_append,
          (h.owns_endpointFor dst).sweptQueue_eq] at hfr
        rcases hfr with hfr | hfr
        · obtain ⟨j, -, he⟩ := (Endpoint.Owns.cut_named (nm.endpointFor dst) src data
            0).mem_elements.mp hfr
          cases he
        · exact Or.inl (List.mem_filter.mp hfr).1
  | popMsg =>
      simp only [networkManagerStep, Eval.bind_eq_ok] at hs
      obtain ⟨⟨nm₁, m⟩, hpop, he⟩ := hs
      obtain ⟨rfl, -⟩ : nm₁ = nm' ∧ NmAnswer.message m = a := by simpa using he
      obtain ⟨nm₂, m₂, hpop₂, -, hq⟩ := h.popMsg
      obtain ⟨rfl, -⟩ := ok_unique hpop hpop₂
      rw [hq] at hfr
      exact Or.inl (List.mem_of_mem_tail hfr)
  | enqueueFragment dst pid fid tSweep =>
      obtain rfl : (networkManagerEnqueueOutgoingFragment nm dst pid fid tSweep).1 = nm' := by
        cases hs
        rfl
      have hrefr : ∀ el, el ∈ (nm.refreshed dst tSweep).outqueue → el ∈ nm.outqueue :=
        fun el hm => by
          rw [h.refreshed_outqueue] at hm
          exact (List.mem_filter.mp hm).1
      left
      rcases networkManagerEnqueueOutgoingFragment_cases h dst pid fid tSweep with
        ⟨-, heq⟩ | ⟨e, fp, f, -, -, -, -, heq⟩
      · rw [heq] at hfr
        exact hrefr _ hfr
      · rw [heq] at hfr
        split_ifs at hfr
        · exact hrefr _ hfr
        · rcases List.mem_append.mp hfr with hfr | hfr
          · exact hrefr _ hfr
          · simp [fragmentListElement] at hfr
  | addFragment f tSweep tCreate =>
      rw [networkManagerStep, h.addFragment] at hs
      cases hs
      rw [NetworkManager.arrived_outqueue] at hfr
      rcases List.mem_append.mp hfr with hfr | hfr
      · exact Or.inr ⟨f, tSweep, tCreate, rfl, hfr⟩
      · exact Or.inl hfr
  | popPacket src pid size tSweep =>
      rw [networkManagerStep, h.popPacket] at hs
      cases hs
      rw [NetworkManager.popped_outqueue] at hfr
      exact Or.inl hfr

/-- An incoming packet was there before, or is the one an arriving fragment is written into. -/
lemma NetworkManager.OutqueueInv.incoming_of_step (h : nm.OutqueueInv)
    (hs : networkManagerStep nm op = .ok (nm', a)) {n : NodeID} {pid : ℕ} {fp : FragmentedPacket}
    (hl : (nm'.incomingFrom n).lookup pid = some fp) :
    (nm.incomingFrom n).lookup pid = some fp ∨ ∃ f tSweep tCreate,
      op = .addFragment f tSweep tCreate ∧ fp = (nm.target f tSweep tCreate).put f := by
  have hwf : (nm.incomingFrom n).Wf := (h.wf.endpointFor_wf n).incoming
  cases op with
  | enqueuePacket src dst data tSweep tCreate =>
      rcases networkManagerStep_enqueuePacket h.wf hs with ⟨-, rfl, -⟩ | ⟨-, -, -, rfl, -⟩
      · exact Or.inl hl
      · rw [h.wf.incomingFrom_enqueued] at hl
        exact Or.inl hl
  | popMsg =>
      simp only [networkManagerStep, Eval.bind_eq_ok] at hs
      obtain ⟨⟨nm₁, m⟩, hpop, he⟩ := hs
      obtain ⟨rfl, -⟩ : nm₁ = nm' ∧ NmAnswer.message m = a := by simpa using he
      rw [h.incomingFrom_popMsg hpop] at hl
      exact Or.inl hl
  | enqueueFragment dst pid' fid tSweep =>
      cases hs
      have hsame := h.incomingFrom_enqueueFragment dst pid' fid tSweep n
      exact Or.inl (hsame ▸ hl)
  | addFragment f tSweep tCreate =>
      rw [networkManagerStep, h.addFragment] at hs
      cases hs
      rw [h.wf.incomingFrom_arrived] at hl
      split_ifs at hl with hn
      · rw [hwf.lookup_arrived] at hl
        split_ifs at hl
        · refine Or.inr ⟨f, tSweep, tCreate, rfl, ?_⟩
          rw [NetworkManager.target_eq, h.wf.incomingFrom_congr hn]
          exact (Option.some.inj hl).symm
        · exact Or.inl (hwf.lookup_of_fresh hl)
      · exact Or.inl hl
  | popPacket src pid' size tSweep =>
      rw [networkManagerStep, h.popPacket] at hs
      cases hs
      cases he : nm.endpoint src with
      | none =>
          rw [NetworkManager.popped, he] at hl
          exact Or.inl hl
      | some e =>
          rw [h.wf.incomingFrom_popped he] at hl
          split_ifs at hl
          · rw [hwf.lookup_popped] at hl
            split_ifs at hl
            exact Or.inl (hwf.lookup_of_fresh hl)
          · exact Or.inl hl

end Steps

/-! ## The invariant -/

/-- The message fits the fields of the wire format and the sending buffer. -/
def NetMessage.Fits (fragSize : ℕ) (msg : NetMessage) : Prop :=
  msg.FitsWire ∧ msg.wireLength ≤ fragSize + 100

/-- Everything the manager may send fits. -/
structure Sendable (fragSize : ℕ) (nm : NetworkManager) : Prop where
  inv : nm.OutqueueInv
  outId : ∀ n, (nm.endpointFor n).outId < 2 ^ 16
  outgoing : nm.EveryOutgoing fun f => (NetMessage.fragment f).Fits fragSize
  incoming : ∀ n pid fp, (nm.incomingFrom n).lookup pid = some fp → fp.fragNum < 2 ^ 16
  requests : ∀ fr, .request fr ∈ nm.outqueue → (NetMessage.fragRequest fr).FitsWire
  fragSize : nm.fragSize = fragSize

lemma linkBlind_fits (fragSize : ℕ) : LinkBlind fun f => (NetMessage.fragment f).Fits fragSize :=
  fun _ _ h => h

lemma fits_request {fr : FragRequest} (h : (NetMessage.fragRequest fr).FitsWire) (fragSize : ℕ) :
    (NetMessage.fragRequest fr).Fits fragSize := by
  refine ⟨h, ?_⟩
  have hheader : FRAG_REQUEST_HEADER_LEN = 5 := rfl
  rw [NetMessage.wireLength]
  omega

/-- A message that fits is legible. -/
lemma NetMessage.Fits.legible {fragSize : ℕ} {msg : NetMessage} (h : msg.Fits fragSize)
    (hic : ic.Unsigned) {s : LocalNode} (hs : s.sendingBufferLen = fragSize + 100) :
    Legible ic s msg := by
  obtain ⟨datagram, hsend⟩ := Option.isSome_iff_exists.mp
    ((netMsgSend_isSome ic h.1 s.sendingBufferLen).mpr (hs ▸ h.2))
  refine ⟨datagram, hsend, fun dst src => ?_⟩
  have hdec := netMsgDecode_netMsgSend hic h.1 hsend [] dst src
  rwa [List.append_nil] at hdec

/-- The numbers of a fragment that has been decoded were two bytes each. -/
lemma netMsgDecode_small (hic : ic.Unsigned) {dst src : NodeID} {buff : Bytes} {f : Fragment}
    (hdec : netMsgDecode ic dst src buff = .ok (some (.fragment f))) :
    f.pid < 2 ^ 16 ∧ f.fragNum < 2 ^ 16 := by
  have hheader : FRAGMENT_HEADER_LEN = 11 := rfl
  have hd := decodable_of_netMsgDecode hdec
  rw [netMsgDecode_of_decodable hd, decodedMessage] at hdec
  rcases hd with ⟨hhead, hlen, -⟩ | ⟨hhead, -⟩
  · rw [if_pos hhead] at hdec
    cases hdec
    have htwo : ∀ n, n + 2 ≤ 11 → ((buff.drop n).take 2).length = 2 := fun n hn => by
      rw [List.length_take, List.length_drop]
      omega
    exact ⟨hic.int16_lt _ (htwo 1 (by decide)), hic.int16_lt _ (htwo 3 (by decide))⟩
  · rw [if_neg (by rw [hhead]; decide)] at hdec
    cases hdec

section Invariant

variable {fragSize : ℕ} {nm nm' : NetworkManager}

lemma networkManagerCreate_sendable (config : NetworkConfig) :
    Sendable (networkManagerCreate config).fragSize (networkManagerCreate config) where
  inv := networkManagerCreate_outqueueInv config
  fragSize := rfl
  outId n := by
    rw [NetworkManager.endpointFor_of_none (networkManagerCreate_endpoint config n)]
    exact Nat.two_pow_pos 16
  outgoing := networkManagerCreate_everyOutgoing config _
  incoming n pid fp hl := by
    rw [NetworkManager.incomingFrom,
      NetworkManager.endpointFor_of_none (networkManagerCreate_endpoint config n)] at hl
    simp [endpointCreate] at hl
  requests fr hfr := by simp at hfr

namespace Sendable

/-- Whatever is on the queue fits. -/
lemma message (h : Sendable fragSize nm) {el : QueueElem} (hm : el ∈ nm.outqueue)
    {msg : NetMessage} (hmsg : nm.message el = some msg) : msg.Fits fragSize := by
  cases el with
  | request r =>
      cases hmsg
      exact fits_request (h.requests r hm) fragSize
  | fragment dst pid i =>
      obtain ⟨f, hf, rfl⟩ := Option.map_eq_some_iff.mp hmsg
      exact linkBlind_fits fragSize f false (h.outgoing.slot hf)

/-- The pieces of a packet fit. -/
lemma cut (h : Sendable fragSize nm) (hsize : fragSize < 2 ^ 32) (src dst : NodeID) (data : Bytes) :
    ∀ f ∈ (nm.endpointFor dst).cut src data, (NetMessage.fragment f).Fits fragSize := by
  intro f hf
  obtain ⟨hpiece, -, hpid⟩ := cutFragments_pieceOf hf
  rw [(h.inv.wf.endpointFor_wf dst).fragSize, h.fragSize] at hpiece
  have hnum := hpiece.fragNum ▸ cutCount_lt data.length fragSize
  have hlen : f.payload.length ≤ fragSize := by
    rw [Fragment.payload, hpiece.data]
    exact length_cutPiece_le data fragSize f.id
  have hheader : FRAGMENT_HEADER_LEN = 11 := rfl
  refine ⟨⟨hpid ▸ h.outId dst, hnum, hpiece.id.trans hnum, by omega⟩, ?_⟩
  rw [NetMessage.wireLength]
  omega

/-- The packet an arriving fragment is written into has no more slots than two bytes can say. -/
lemma target (h : Sendable fragSize nm) {f : Fragment} (hf : f.fragNum < 2 ^ 16)
    (tSweep tCreate : ℤ) : (nm.target f tSweep tCreate).fragNum < 2 ^ 16 := by
  have hwf : (nm.incomingFrom f.fromNode).Wf := (h.inv.wf.endpointFor_wf f.fromNode).incoming
  rw [NetworkManager.target_eq, PacketBucket.target]
  cases hl : ((nm.incomingFrom f.fromNode).fresh tSweep).lookup f.pid with
  | none => simpa [fragmentedPacketEmpty, FragmentedPacket.fragNum] using hf
  | some fp => exact h.incoming f.fromNode f.pid fp (hwf.lookup_of_fresh hl)

/-- And so have the requests it causes. -/
lemma arrivalRequests (h : Sendable fragSize nm) {f : Fragment} (hpid : f.pid < 2 ^ 16)
    (hf : f.fragNum < 2 ^ 16) (tSweep tCreate : ℤ) {fr : FragRequest}
    (hfr : .request fr ∈ PeerStreamer.arrivalRequests (nm.target f tSweep tCreate) f) :
    (NetMessage.fragRequest fr).FitsWire := by
  obtain ⟨i, hi, he⟩ := List.mem_map.mp hfr
  cases he
  have hid : (nm.target f tSweep tCreate).packetId = f.pid :=
    (h.inv.wf.endpointFor_wf f.fromNode).incoming.target_packetId tSweep tCreate
  refine ⟨?_, ?_⟩
  · change (nm.target f tSweep tCreate).packetId < 2 ^ 16
    rwa [hid]
  · rw [missingIds] at hi
    split_ifs at hi
    · simp only [FragmentedPacket.requestIds, List.mem_reverse, List.mem_filter, List.mem_range,
        FragmentedPacket.put_fragNum] at hi
      exact hi.1.trans (h.target hf tSweep tCreate)
    · cases hi

/-- **One call** keeps the invariant, if the numbers of an arriving fragment are two bytes. -/
theorem step (h : Sendable fragSize nm) (hsize : fragSize < 2 ^ 32) {op : NmOp} {a : NmAnswer}
    (hs : networkManagerStep nm op = .ok (nm', a))
    (hop : ∀ f tSweep tCreate, op = .addFragment f tSweep tCreate →
      f.pid < 2 ^ 16 ∧ f.fragNum < 2 ^ 16) : Sendable fragSize nm' where
  inv := h.inv.step hs
  fragSize := (h.inv.fragSize_step hs).trans h.fragSize
  outId n := by
    rw [h.inv.outId_step hs]
    split_ifs
    · exact Nat.mod_lt _ (Nat.two_pow_pos 16)
    · exact h.outId n
  outgoing := (h.outgoing.step (linkBlind_fits fragSize) h.inv hs
    fun src dst data _ _ _ _ => h.cut hsize src dst data).1
  incoming n pid fp hl := by
    rcases h.inv.incoming_of_step hs hl with hl | ⟨f, tSweep, tCreate, heq, rfl⟩
    · exact h.incoming n pid fp hl
    · rw [FragmentedPacket.put_fragNum]
      exact h.target (hop f tSweep tCreate heq).2 tSweep tCreate
  requests fr hfr := by
    rcases h.inv.request_of_step hs hfr with hfr | ⟨f, tSweep, tCreate, heq, hfr⟩
    · exact h.requests fr hfr
    · obtain ⟨hpid, hf⟩ := hop f tSweep tCreate heq
      exact h.arrivalRequests hpid hf tSweep tCreate hfr

/-- Receiving keeps the invariant, whatever was received. -/
lemma recvFromPeerAs (h : Sendable fragSize nm) (hsize : fragSize < 2 ^ 32) (hic : ic.Unsigned)
    {localNode remote : NodeID} {r : Reception} {answer : ℤ × Bytes}
    (hok : recvFromPeerAs ic localNode remote nm r = .ok (nm', answer)) :
    Sendable fragSize nm' := by
  rcases recvFromPeerAs_cases hok with
    ⟨rfl, -⟩ | ⟨datagram, hr, hpos, ⟨f, hdec⟩ | ⟨fr, hdec⟩⟩
  · exact h
  · have hadd : networkManagerStep nm (.addFragment f r.tSweep r.tCreate)
        = .ok (nm.arrived f r.tSweep r.tCreate,
            .state (arrivalState (nm.target f r.tSweep r.tCreate) f)) := by
      rw [networkManagerStep, h.inv.addFragment]
    have harrived := h.step hsize hadd fun _ _ _ heq => by
      cases heq
      exact netMsgDecode_small hic hdec
    rw [recvFromPeerAs_of_fragment h.inv hr hpos hdec] at hok
    split_ifs at hok
    · cases hok
      obtain ⟨a, hpop⟩ : ∃ a, networkManagerStep (nm.arrived f r.tSweep r.tCreate)
          (.popPacket remote f.pid r.buffer.length r.tPop)
          = .ok ((nm.arrived f r.tSweep r.tCreate).popped remote f.pid r.tPop, a) :=
        ⟨_, by rw [networkManagerStep, harrived.inv.popPacket]⟩
      exact harrived.step hsize hpop fun _ _ _ heq => by cases heq
    · cases hok
      exact harrived
  · rw [recvFromPeerAs_of_request hr hpos hdec] at hok
    cases hok
    obtain ⟨a, hs⟩ : ∃ a, networkManagerStep nm (.enqueueFragment remote fr.pid fr.id r.tSweep)
        = .ok ((networkManagerEnqueueOutgoingFragment nm remote fr.pid fr.id r.tSweep).1, a) :=
      ⟨_, rfl⟩
    exact h.step hsize hs fun _ _ _ heq => by cases heq

/-- Sending keeps the invariant. -/
lemma sendToPeer (h : Sendable fragSize nm) (hsize : fragSize < 2 ^ 32) {localNode dst : NodeID}
    {data : Bytes} {tSweep tCreate n : ℤ}
    (hok : sendToPeer localNode nm dst data tSweep tCreate = .ok (nm', n)) :
    Sendable fragSize nm' := by
  rw [PeerStreamer.sendToPeer] at hok
  split_ifs at hok with hpos
  · simp only [Eval.bind_eq_ok, Eval.pure_eq_ok, Except.ok.injEq, Prod.mk.injEq] at hok
    obtain ⟨⟨nm₁, res⟩, hcall, rfl, -⟩ := hok
    have hs : networkManagerStep nm (.enqueuePacket localNode dst data tSweep tCreate)
        = .ok (nm₁, .code res) := by
      rw [networkManagerStep, hcall]
      rfl
    exact h.step hsize hs fun _ _ _ heq => by cases heq
  · cases hok
    exact h

/-- Taking a message off the queue keeps the invariant, and the message fits. -/
lemma popMsg (h : Sendable fragSize nm) (hsize : fragSize < 2 ^ 32) {m : Option NetMessage}
    (hok : networkManagerPopOutgoingNetMsg nm = .ok (nm', m)) :
    Sendable fragSize nm' ∧ ∀ msg, m = some msg → msg.Fits fragSize := by
  have hs : networkManagerStep nm .popMsg = .ok (nm', .message m) := by
    rw [networkManagerStep, hok]
    rfl
  refine ⟨h.step hsize hs (fun _ _ _ heq => by cases heq), ?_⟩
  rintro msg rfl
  cases hq : nm.outqueue with
  | nil =>
      rw [networkManagerPopOutgoingNetMsg, hq] at hok
      cases hok
  | cons el q =>
      obtain ⟨nm₁, msg₁, hpop, hmsg, -⟩ := h.inv.popMessage hq
      obtain ⟨-, heq⟩ := ok_unique hok hpop
      cases heq
      exact h.message (by rw [hq]; exact List.mem_cons_self) hmsg

/-- **One call of a node** keeps the invariant, and a message it takes off the queue fits. -/
theorem peerStep (h : Sendable fragSize nm) (hsize : fragSize < 2 ^ 32) (hic : ic.Unsigned)
    {localNode : NodeID} {call : PeerCall} {a : PeerAnswer}
    (hs : peerStep ic localNode nm call = .ok (nm', a)) :
    Sendable fragSize nm' ∧ ∀ msg, a = .sent (some msg) → msg.Fits fragSize := by
  cases call with
  | send dst data tSweep tCreate =>
      simp only [PeerStreamer.peerStep, Eval.bind_eq_ok, Eval.pure_eq_ok, Except.ok.injEq,
        Prod.mk.injEq] at hs
      obtain ⟨⟨nm₁, n⟩, hok, rfl, rfl⟩ := hs
      exact ⟨h.sendToPeer hsize hok, by simp⟩
  | recv r address =>
      simp only [PeerStreamer.peerStep, Eval.bind_eq_ok, Eval.pure_eq_ok, Except.ok.injEq,
        Prod.mk.injEq] at hs
      obtain ⟨⟨nm₁, n, buffer⟩, hok, rfl, rfl⟩ := hs
      exact ⟨h.recvFromPeerAs hsize hic hok, by simp⟩
  | transmit =>
      simp only [PeerStreamer.peerStep, Eval.bind_eq_ok, Eval.pure_eq_ok, Except.ok.injEq,
        Prod.mk.injEq] at hs
      obtain ⟨⟨nm₁, m⟩, hok, rfl, rfl⟩ := hs
      obtain ⟨hkeep, hfits⟩ := h.popMsg hsize hok
      exact ⟨hkeep, fun msg heq => hfits msg (by cases heq; rfl)⟩

end Sendable

end Invariant

/-! ## Every run -/

section Runs

variable {config : NetworkConfig} {localNode : NodeID} {calls : List PeerCall}
  {answers : List PeerAnswer} {nm : NetworkManager}

/-- **Every run of a node** keeps everything it may send within the limits. -/
theorem sendable_of_exec (hic : ic.Unsigned) (hsize : 1 ≤ config.fragSizeInt)
    (hexec : exec (peerStep ic localNode) (networkManagerCreate config) calls = .ok (nm, answers)) :
    Sendable (networkManagerCreate config).fragSize nm
      ∧ ∀ msg, .sent (some msg) ∈ answers → msg.Fits (networkManagerCreate config).fragSize := by
  have hlt : (networkManagerCreate config).fragSize < 2 ^ 32 :=
    (networkManagerCreate_fragSize_lt hsize).trans (by decide)
  refine exec_history (J := fun _ answers nm =>
    Sendable (networkManagerCreate config).fragSize nm
      ∧ ∀ msg, .sent (some msg) ∈ answers → msg.Fits (networkManagerCreate config).fragSize) hexec
    ⟨networkManagerCreate_sendable config, by simp⟩ ?_
  intro calls answers nm call a nm' ih hs
  obtain ⟨hkeep, hsent⟩ := ih.1.peerStep hlt hic hs
  refine ⟨hkeep, fun msg hm => ?_⟩
  rcases List.mem_append.mp hm with hm | hm
  · exact ih.2 msg hm
  · exact hsent msg (List.mem_singleton.mp hm).symm

/-- **Nothing is dropped for want of room.**  Every message a node takes off the queue in a run is
legible; and the flush at its end encodes what is left on the queue, in order, until the queue is
empty, all of it legible. -/
theorem everything_legible (hic : ic.Unsigned) {fd : Descriptor}
    {byterate byterateMultiplyer : Option ℚ} {tUpdate tNext : Timeval} {s : LocalNode}
    (hinit : netHelperInit fd config byterate byterateMultiplyer tUpdate tNext = .ok s)
    (hsize : 1 ≤ config.fragSizeInt)
    (hexec : exec (peerStep ic localNode) s.nm calls = .ok (nm, answers)) :
    (∀ msg, .sent (some msg) ∈ answers → Legible ic s msg)
      ∧ ∃ (msgs : List NetMessage) (nm' : NetworkManager),
        netHelperFlush ic nm.outqueue.length { s with nm }
            = .ok (some ({ s with nm := nm' }, msgs.map (netHelperSendMsg ic s)))
          ∧ nm.outqueue.map nm.message = msgs.map some ∧ nm'.outqueue = []
          ∧ ∀ msg ∈ msgs, Legible ic s msg := by
  obtain ⟨hnm, hlen⟩ := netHelperInit_eq_ok hinit hsize
  rw [hnm] at hexec
  obtain ⟨hkeep, hsent⟩ := sendable_of_exec hic hsize hexec
  obtain ⟨msgs, nm', hflush, hmsgs, hend⟩ :=
    netHelperFlush_eq (s := { s with nm }) hkeep.inv rfl le_rfl
  refine ⟨fun msg hm => (hsent msg hm).legible hic hlen, msgs, nm', hflush, hmsgs, hend,
    fun msg hm => ?_⟩
  -- each message is behind an element of the queue
  have hsome : some msg ∈ nm.outqueue.map nm.message := by
    rw [hmsgs]
    exact List.mem_map.mpr ⟨msg, hm, rfl⟩
  obtain ⟨el, hel, hmsg⟩ := List.mem_map.mp hsome
  exact (hkeep.message hel hmsg).legible hic hlen

end Runs

end PeerStreamer
