import PeerStreamer.Foundation.Gather
import PeerStreamer.NetHelper.CountedReceiving

/-!
# End-to-end reassembly

Any number of senders cut their packets into fragments, whose datagrams arrive at one receiver in
any order and with any repetitions.  What the receiver is for is said by `gather`: for every sender
and packet id it collects the ids of the fragments, and when they are complete it hands out the
packet and starts afresh.  `Refines` relates a network manager to that machine, every arrival keeps
it (`Refines.step`), and so the answers of a whole run are those of the machine (`reassembly`).

The senders are here with the counters of their nodes, the receiver is without.
-/

namespace PeerStreamer

/-! ## Senders and arrivals -/

/-- A sender, known to the receiver as `node`: a network manager with a fragment size, what has
happened to it so far and what its calls answered, with never `2 ^ 16` references to one node.  It
has sent the receiver at most `2 ^ 16` packets, so that their ids are distinct, and no packet needs
more fragments than a 16-bit number counts. -/
structure Sender (receiver : NodeID) where
  node : NodeID
  config : NetworkConfig
  happened : List ManagerHappening
  state : WithCounters (Surrounded NetworkManager NodeID) NodeID
  outs : List (Option NmAnswer)
  run : exec countedCall (startedManager config) happened = .ok (state, outs)
  careful : Along countedCall (managerProgram.Careful (2 ^ 16)) (startedManager config) happened
  fragSize_pos : 1 ≤ config.fragSizeInt
  distinct : sends receiver (Happening.calls happened) ≤ 2 ^ 16
  countable : ∀ data ∈ payloads receiver (Happening.calls happened),
    (data.length + (networkManagerCreate config).fragSize - 1)
      / (networkManagerCreate config).fragSize ≤ 65535

namespace Sender

variable {receiver : NodeID}

def fragSize (s : Sender receiver) : ℕ := (networkManagerCreate s.config).fragSize

/-- The calls made to the sender. -/
def ops (s : Sender receiver) : List NmOp := Happening.calls s.happened

/-- What they answered. -/
def answers (s : Sender receiver) : List NmAnswer := s.outs.reduceOption

/-- The packet sent to the receiver under an id. -/
def packet (s : Sender receiver) (pid : ℕ) : Bytes := (payloads receiver s.ops)[pid]?.getD []

/-- The number of fragments the packet is cut into: its length over the fragment size, rounded
up. -/
def pieces (s : Sender receiver) (pid : ℕ) : ℕ :=
  ((s.packet pid).length + s.fragSize - 1) / s.fragSize

/-- The fragment has been popped from the queue of the sender, for the receiver. -/
def Popped (s : Sender receiver) (f : Fragment) : Prop :=
  .message (some (.fragment f)) ∈ s.answers ∧ nodeidEqual f.toNode receiver

instance (s : Sender receiver) (f : Fragment) : Decidable (s.Popped f) :=
  inferInstanceAs (Decidable (_ ∧ _))

variable {s : Sender receiver} {f : Fragment}

lemma Popped.sentPiece (h : s.Popped f) : SentPiece (payloads receiver s.ops) s.fragSize f :=
  sentPiece_of_exec (SharedProgram.exec_program s.run) s.distinct h.1 h.2

/-- What is popped is a piece of the packet with its id. -/
lemma Popped.pieceOf (h : s.Popped f) : PieceOf (s.packet f.pid) s.fragSize f := by
  obtain ⟨data, hdata, hpiece⟩ := h.sentPiece
  rwa [packet, hdata]

lemma Popped.pieces_le (h : s.Popped f) : s.pieces f.pid ≤ 65535 := by
  obtain ⟨data, hdata, -⟩ := h.sentPiece
  rw [pieces, packet, hdata]
  exact s.countable data (List.mem_of_getElem? hdata)

lemma fragSize_pos' (s : Sender receiver) : 0 < s.fragSize :=
  (networkManagerCreate_served s.fragSize_pos).fragSize

/-- The packet is cut into as many fragments as it needs. -/
lemma Popped.cutCount_eq (h : s.Popped f) :
    cutCount (s.packet f.pid).length s.fragSize = s.pieces f.pid :=
  PeerStreamer.cutCount_eq s.fragSize_pos' h.pieces_le

/-- The datagram of what is popped is decoded into it. -/
lemma Popped.decode (h : s.Popped f) {ic : IntCoding} (hic : ic.Inverse (2 ^ 31))
    (remote : NodeID) :
    netMsgDecode ic receiver remote (fragmentDatagram ic s.fragSize f)
      = .ok (some (.fragment (f.received receiver remote))) :=
  h.sentPiece.decode hic (by rw [length_payloads]; exact s.distinct)
    (networkManagerCreate_fragSize_lt s.fragSize_pos) _ _

end Sender

variable {ι : Type} {receiver : NodeID}

/-- The arrival of a fragment some sender has popped, with a buffer that is larger than its packet
and the readings of the receiver's clock; `address` is where the receiver keeps the node it has made
of the sender's address. -/
structure Arrival (senders : ι → Sender receiver) where
  sender : ι
  address : ℤ
  fragment : Fragment
  popped : (senders sender).Popped fragment
  size : ℕ
  large : ((senders sender).packet fragment.pid).length < size
  tSweep : ℤ
  tCreate : ℤ
  tPop : ℤ

/-- The node the receiver has made. -/
def Arrival.remote {senders : ι → Sender receiver} (a : Arrival senders) : NodeID :=
  { (senders a.sender).node with fd := a.address }

lemma Arrival.remote_equal {senders : ι → Sender receiver} (a : Arrival senders) :
    nodeidEqual a.remote (senders a.sender).node := nodeidEqual_self (senders a.sender).node

/-- The fragment as it arrives. -/
def Arrival.received {senders : ι → Sender receiver} (a : Arrival senders) : Fragment :=
  a.fragment.received receiver a.remote

@[simp] lemma Arrival.received_fromNode {senders : ι → Sender receiver} (a : Arrival senders) :
    a.received.fromNode = a.remote := rfl

@[simp] lemma Arrival.received_pid {senders : ι → Sender receiver} (a : Arrival senders) :
    a.received.pid = a.fragment.pid := rfl

/-- One arrival at the receiver. -/
def receive (ic : IntCoding) (senders : ι → Sender receiver) (nm : NetworkManager)
    (a : Arrival senders) : Eval (NetworkManager × Option Receipt) :=
  receiveDatagram ic receiver a.remote nm
    (fragmentDatagram ic (senders a.sender).fragSize a.fragment) a.size a.tSweep a.tCreate a.tPop

/-- Neither of the sweeps the arrival may make drops a packet: none has reached its age. -/
def NoneExpires (senders : ι → Sender receiver) (nm : NetworkManager) (a : Arrival senders) :
    Prop :=
  (nm.endpointFor a.remote).incoming.swept a.tSweep = []
  ∧ ((networkManagerAddIncomingFragment nm a.received a.tSweep a.tCreate).1.endpointFor
      a.remote).incoming.swept a.tPop = []

instance (senders : ι → Sender receiver) (nm : NetworkManager) (a : Arrival senders) :
    Decidable (NoneExpires senders nm a) :=
  inferInstanceAs (Decidable (_ ∧ _))

/-! ## What the receiver is for -/

/-- The number of fragments of a packet, by sender and packet id. -/
def pieceCount (senders : ι → Sender receiver) (key : ι × ℕ) : ℕ := (senders key.1).pieces key.2

/-- The machine the receiver is compared with: the ids received are gathered by sender and packet
id, and the fragment that completes them hands out the packet. -/
def reassemble [DecidableEq ι] (senders : ι → Sender receiver) (g : Gathered (ι × ℕ))
    (a : Arrival senders) :
    Gathered (ι × ℕ) × Option Receipt :=
  let (g, complete) := gather (pieceCount senders) g (a.sender, a.fragment.pid)
    a.fragment.id
  let data := (senders a.sender).packet a.fragment.pid
  (g, some (if complete then ⟨.ready, some (0, data, data.length)⟩ else ⟨.loading, none⟩))

/-! ## Refinement -/

/-- The incoming buckets hold what the machine has gathered. -/
def Holds (senders : ι → Sender receiver) (nm : NetworkManager) (g : Gathered (ι × ℕ)) : Prop :=
  ∀ s pid, HasGathered ((senders s).packet pid) (senders s).fragSize (g (s, pid))
    ((nm.endpointFor (senders s).node).incoming.lookup pid)

/-- The network manager does what the machine does. -/
structure Refines (senders : ι → Sender receiver) (nm : NetworkManager) (g : Gathered (ι × ℕ)) :
    Prop where
  inv : nm.OutqueueInv
  unfinished : Unfinished (pieceCount senders) g
  holds : Holds senders nm g

lemma networkManagerCreate_refines (senders : ι → Sender receiver) (config : NetworkConfig) :
    Refines senders (networkManagerCreate config) fun _ => ∅ where
  inv := networkManagerCreate_outqueueInv config
  unfinished := unfinished_empty _
  holds s pid := by
    rw [NetworkManager.endpointFor_of_none (networkManagerCreate_endpoint config _)]
    rfl

section Refinement

variable {senders : ι → Sender receiver} {nm : NetworkManager} {g : Gathered (ι × ℕ)}

/-- Popping a complete packet answers with the packet that was sent. -/
lemma Holds.popAnswer (h : Holds senders nm g) (hwf : nm.Wf) {s : ι} {n : NodeID}
    (hn : nodeidEqual n (senders s).node) {e : Endpoint} (he : nm.endpoint n = some e)
    {f : Fragment} (hf : (senders s).Popped f)
    (hg : g (s, f.pid) = Finset.range ((senders s).pieces f.pid)) {t : ℤ}
    (hsweep : e.incoming.swept t = []) {size : ℕ}
    (hsize : ((senders s).packet f.pid).length < size) :
    nm.popAnswer n f.pid size t
      = (0, (senders s).packet f.pid, ((senders s).packet f.pid).length) := by
  have hold := h s f.pid
  rw [← hwf.incoming_congr hn, NetworkManager.endpointFor_of_some he, hg] at hold
  rw [NetworkManager.popAnswer, he]
  simp only [PacketBucket.popAnswer, PacketBucket.fresh, hsweep, PacketBucket.without_nil]
  cases hl : e.incoming.lookup f.pid with
  | none =>
      rw [hl] at hold
      have hid := hf.pieceOf.id
      rw [hf.pieceOf.fragNum, hf.cutCount_eq] at hid
      have hzero := Finset.range_eq_empty_iff.mp hold
      omega
  | some fp =>
      rw [hl] at hold
      have hnum : fp.fragNum = (senders s).pieces f.pid := hold.fragNum.trans hf.cutCount_eq
      have hcomplete : fp.Complete :=
        (hold.complete_iff (by rw [hnum])).mpr (by rw [hnum])
      have hcontents := hold.contents hcomplete (senders s).fragSize_pos' hf.pieces_le
      have hfits : fp.contents.length < size := by rwa [hcontents]
      have hdump := fragmentedPacketDumpData_fits hfits
      simp only [hdump, hcontents]

/-- An arrival, in one line. -/
lemma receive_eq (hinv : nm.OutqueueInv) {ic : IntCoding} (hic : ic.Inverse (2 ^ 31))
    (a : Arrival senders) :
    receive ic senders nm a
      = .ok (if arrivalState (nm.target a.received a.tSweep a.tCreate) a.received = .ready then
          ((nm.arrived a.received a.tSweep a.tCreate).popped a.remote a.fragment.pid a.tPop,
            some ⟨.ready, some ((nm.arrived a.received a.tSweep a.tCreate).popAnswer a.remote
              a.fragment.pid a.size a.tPop)⟩)
        else (nm.arrived a.received a.tSweep a.tCreate,
          some ⟨arrivalState (nm.target a.received a.tSweep a.tCreate) a.received, none⟩)) := by
  have hdecode : netMsgDecode ic receiver a.remote
      (fragmentDatagram ic (senders a.sender).fragSize a.fragment)
      = .ok (some (.fragment a.received)) := a.popped.decode hic _
  rw [receive, receiveDatagram, handleDatagram, hdecode]
  simp only [Eval.ok_bind, Eval.pure_eq_ok, hinv.addFragment]
  split_ifs with hs
  · simp only [hs, hinv.arrived.popPacket, Arrival.received_pid]
  · rfl

variable [DecidableEq ι]

/-- Writing a fragment gathers its id. -/
lemma Holds.arrived (h : Holds senders nm g) (hinv : nm.OutqueueInv)
    (hdist : ∀ s s', nodeidEqual (senders s).node (senders s').node → s = s')
    (a : Arrival senders)
    (hsweep : (nm.endpointFor a.remote).incoming.swept a.tSweep = []) :
    Holds senders (nm.arrived a.received a.tSweep a.tCreate)
      (Function.update g (a.sender, a.fragment.pid)
        (insert a.fragment.id (g (a.sender, a.fragment.pid)))) := by
  have hwf := (hinv.wf.endpointFor_wf a.remote).incoming
  have hfresh : (nm.endpointFor a.remote).incoming.fresh a.tSweep
      = (nm.endpointFor (senders a.sender).node).incoming := by
    rw [PacketBucket.fresh, hsweep, PacketBucket.without_nil, hinv.wf.incoming_congr a.remote_equal]
  intro s pid
  rw [hinv.wf.incoming_arrived, Arrival.received_fromNode]
  by_cases hs : nodeidEqual a.remote (senders s).node
  · obtain rfl := hdist _ _ (nodeidEqual_trans (nodeidEqual_symm a.remote_equal) hs)
    rw [if_pos hs, hwf.lookup_arrived a.received, hfresh,
      Arrival.received_pid]
    by_cases hpid : a.fragment.pid = pid
    · subst hpid
      rw [if_pos rfl, Function.update_self]
      refine (HasGathered.target ?_ ?_).put ?_
      · rw [hfresh]
        exact h a.sender a.fragment.pid
      · exact a.popped.pieceOf.received _ _
      · exact a.popped.pieceOf.received _ _
    · rw [if_neg hpid, Function.update_of_ne (by simpa using Ne.symm hpid)]
      exact h a.sender pid
  · have hne : (s, pid) ≠ (a.sender, a.fragment.pid) := by
      rintro ⟨⟩
      exact hs a.remote_equal
    rw [if_neg hs, Function.update_of_ne hne]
    exact h s pid

/-- A packet popped starts afresh. -/
lemma Holds.popped (h : Holds senders nm g) (hinv : nm.OutqueueInv)
    (hdist : ∀ s s', nodeidEqual (senders s).node (senders s').node → s = s') {s : ι} {n : NodeID}
    (hn : nodeidEqual n (senders s).node) {e : Endpoint} (he : nm.endpoint n = some e) {t : ℤ}
    (hsweep : e.incoming.swept t = []) (pid : ℕ) :
    Holds senders (nm.popped n pid t) (Function.update g (s, pid) ∅) := by
  have hwf := (hinv.wf.endpoint_wf he).incoming
  intro s' pid'
  rw [hinv.wf.incoming_popped he]
  by_cases hs : nodeidEqual n (senders s').node
  · obtain rfl := hdist _ _ (nodeidEqual_trans (nodeidEqual_symm hn) hs)
    rw [if_pos hs, hwf.lookup_popped, PacketBucket.fresh, hsweep, PacketBucket.without_nil]
    by_cases hpid : pid = pid'
    · subst hpid
      rw [if_pos rfl, Function.update_self]
      rfl
    · have hold := h s pid'
      rw [← hinv.wf.incoming_congr hn, NetworkManager.endpointFor_of_some he] at hold
      rwa [if_neg hpid, Function.update_of_ne (by simpa using Ne.symm hpid)]
  · have hne : (s', pid') ≠ (s, pid) := by
      rintro ⟨⟩
      exact hs hn
    rw [if_neg hs, Function.update_of_ne hne]
    exact h s' pid'

/-- **One arrival.**  The receiver answers as the machine does, and keeps refining it. -/
theorem Refines.step (h : Refines senders nm g) {ic : IntCoding} (hic : ic.Inverse (2 ^ 31))
    (hdist : ∀ s s', nodeidEqual (senders s).node (senders s').node → s = s')
    (a : Arrival senders) (hnone : NoneExpires senders nm a) :
    ∃ nm', receive ic senders nm a = .ok (nm', (reassemble senders g a).2)
      ∧ Refines senders nm' (reassemble senders g a).1 := by
  have hpiece : PieceOf ((senders a.sender).packet a.fragment.pid) (senders a.sender).fragSize
      a.received := a.popped.pieceOf.received _ _
  have hid : a.fragment.id < (senders a.sender).pieces a.fragment.pid := by
    rw [← a.popped.cutCount_eq, ← hpiece.fragNum]
    exact hpiece.id
  have hunfinished : Unfinished (pieceCount senders)
      (gather (pieceCount senders) g (a.sender, a.fragment.pid) a.fragment.id).1 :=
    h.unfinished.gather hid
  have hsub := (h.unfinished (a.sender, a.fragment.pid) (Nat.zero_lt_of_lt hid)).subset
  -- the state reported
  have hfresh : (nm.endpointFor a.remote).incoming.fresh a.tSweep
      = (nm.endpointFor (senders a.sender).node).incoming := by
    rw [PacketBucket.fresh, hnone.1, PacketBucket.without_nil,
      h.inv.wf.incoming_congr a.remote_equal]
  have htarget : (nm.target a.received a.tSweep a.tCreate).Gathers
      ((senders a.sender).packet a.fragment.pid) (senders a.sender).fragSize
      (g (a.sender, a.fragment.pid)) := by
    refine HasGathered.target ?_ hpiece
    rw [Arrival.received_fromNode, hfresh]
    exact h.holds a.sender a.fragment.pid
  have hstate : arrivalState (nm.target a.received a.tSweep a.tCreate) a.received
      = if insert a.fragment.id (g (a.sender, a.fragment.pid))
          = Finset.range (pieceCount senders (a.sender, a.fragment.pid))
        then .ready else .loading := by
    have hs := arrivalState_of_gathers htarget hpiece (by rwa [a.popped.cutCount_eq])
    rwa [a.popped.cutCount_eq] at hs
  have hinv : (nm.arrived a.received a.tSweep a.tCreate).OutqueueInv := h.inv.arrived
  have hholds := h.holds.arrived h.inv hdist a hnone.1
  have hpop := hnone.2
  rw [h.inv.addFragment] at hpop
  have hend : (nm.arrived a.received a.tSweep a.tCreate).endpoint a.remote
      = some ((nm.arrived a.received a.tSweep a.tCreate).endpointFor a.remote) :=
    h.inv.wf.endpoint_arrived_self a.received a.tSweep a.tCreate
  rw [receive_eq h.inv hic]
  by_cases hc : insert a.fragment.id (g (a.sender, a.fragment.pid))
      = Finset.range (pieceCount senders (a.sender, a.fragment.pid))
  · have hcomplete : gather (pieceCount senders) g (a.sender, a.fragment.pid) a.fragment.id
        = (Function.update g (a.sender, a.fragment.pid) ∅, true) := gather_complete hc
    have hanswer := hholds.popAnswer hinv.wf a.remote_equal hend a.popped
      ((Function.update_self _ _ g).trans hc) hpop a.large
    have hafresh := hholds.popped hinv hdist a.remote_equal hend hpop a.fragment.pid
    rw [Function.update_idem] at hafresh
    refine ⟨_, ?_, hinv.popped a.remote a.fragment.pid a.tPop, ?_, ?_⟩
    · rw [if_pos (hstate.trans (if_pos hc)), hanswer]
      simp only [reassemble, hcomplete, if_true]
    · simp only [reassemble]
      exact hunfinished
    · simpa only [reassemble, hcomplete] using hafresh
  · have hmore : gather (pieceCount senders) g (a.sender, a.fragment.pid) a.fragment.id
        = (Function.update g (a.sender, a.fragment.pid)
            (insert a.fragment.id (g (a.sender, a.fragment.pid))), false) :=
      gather_incomplete hc
    refine ⟨_, ?_, hinv, ?_, ?_⟩
    · rw [if_neg (by rw [hstate, if_neg hc]; decide), hstate, if_neg hc]
      simp only [reassemble, hmore, Bool.false_eq_true, if_false]
    · simp only [reassemble]
      exact hunfinished
    · simpa only [reassemble, hmore] using hholds

/-- **End-to-end reassembly.**  For any senders with different addresses, and any arrivals of
fragments they have popped, in any order and with any repetitions, none of them after a packet has
reached its age: every arrival is answered as by `reassemble` — ready, and with the packet that was
sent, when it completes the ids received since the packet was last popped, and loading otherwise. -/
theorem reassembly (ic : IntCoding) (hic : ic.Inverse (2 ^ 31)) (senders : ι → Sender receiver)
    (hdist : ∀ s s', nodeidEqual (senders s).node (senders s').node → s = s')
    (config : NetworkConfig) (arrivals : List (Arrival senders))
    (hnone : Along (receive ic senders) (NoneExpires senders) (networkManagerCreate config)
      arrivals) :
    ∃ nm, exec (receive ic senders) (networkManagerCreate config) arrivals
      = .ok (nm, outputs (reassemble senders) (fun _ => ∅) arrivals) := by
  obtain ⟨nm, hexec, -⟩ := exec_simulates (fun _ _ a h hn => h.step hic hdist a hn)
    (networkManagerCreate_refines senders config) hnone
  exact ⟨nm, hexec⟩

end Refinement

end PeerStreamer
