import PeerStreamer.NetHelper.Transfer

/-!
# The two sides of a transfer

What holds of the sender and of the receiver throughout a transfer, each on its own.  The fragments
of the sender are pieces of the packets with their ids (`SenderSide`), each of its calls can be made
while fewer than 65536 packets have been enqueued, and it moves fragments on and off the queue in a
way that can be counted.  The slots of the receiver hold pieces of the packets, what it knows to be
ready is complete, and it never asks for the last fragment of a packet (`ReceiverSide`): a request
names an empty slot below a filled one.
-/

namespace PeerStreamer

/-! ## The sender -/

/-- The packet id and position of the fragments on a queue. -/
def queuedIds (q : MsgList) : List (ℕ × ℕ) :=
  q.filterMap fun
    | .fragment _ pid i => some (pid, i)
    | .request _ => none

lemma queuedIds_append (q q' : MsgList) : queuedIds (q ++ q') = queuedIds q ++ queuedIds q' :=
  List.filterMap_append

/-- A call the sender of the transfer makes. -/
def NmOp.SenderCall (l : Link) : NmOp → Prop
  | .enqueuePacket src dst _ _ _ => src = l.senderNode ∧ dst = l.receiverNode
  | .popMsg => True
  | .enqueueFragment _ _ _ _ => True
  | _ => False

/-- The size of the fragments packets are cut into. -/
def Link.fragSize (l : Link) : ℕ := (networkManagerCreate l.senderConfig).fragSize

lemma Link.fragSize_pos (l : Link) : 0 < l.fragSize :=
  (networkManagerCreate_served l.senderFrags).fragSize

lemma Link.fragSize_lt (l : Link) : l.fragSize < 2 ^ 31 :=
  networkManagerCreate_fragSize_lt l.senderFrags

lemma fragment_goes {f : Fragment} {fromNode toNode : NodeID} :
    (NetMessage.fragment f).Goes fromNode toNode = true
      ↔ nodeidEqual f.fromNode fromNode ∧ nodeidEqual f.toNode toNode :=
  Bool.and_eq_true_iff

/-- The sender after the calls `ops`: all its fragments are pieces of the packets with their ids,
from the sender and for the receiver, and it has queued nothing else. -/
structure SenderSide (l : Link) (ops : List NmOp) (nm : NetworkManager) : Prop where
  served : Served ops nm
  pieces : SendsPieces l.receiverNode l.fragSize ops nm
  addressed : nm.EveryOutgoing fun f =>
    (NetMessage.fragment f).Goes l.senderNode l.receiverNode = true
  fragments : ∀ r, QueueElem.request r ∉ nm.outqueue
  sends_le : ∀ n, sends n ops ≤ (payloads l.receiverNode ops).length

section Sender

variable {l : Link} {ops : List NmOp} {nm nm' : NetworkManager} {op : NmOp} {a : NmAnswer}

lemma networkManagerCreate_senderSide (l : Link) :
    SenderSide l [] (networkManagerCreate l.senderConfig) where
  served := networkManagerCreate_served l.senderFrags
  pieces := networkManagerCreate_sendsPieces l.receiverNode l.senderConfig
  addressed := networkManagerCreate_everyOutgoing _ _
  fragments r := by simp
  sends_le n := by simp [sends]

/-- The operations of the sender put no requests on its queue. -/
lemma QueueStep.no_request (h : QueueStep nm nm' a op) (hop : op.SenderCall l)
    (hnone : ∀ r, QueueElem.request r ∉ nm.outqueue) :
    ∀ r, QueueElem.request r ∉ nm'.outqueue := by
  intro r hr
  cases op with
  | enqueuePacket src dst data tSweep tCreate =>
      rw [QueueStep] at h
      rw [h] at hr
      rcases List.mem_append.mp hr with hr | hr
      · split_ifs at hr
        · simp at hr
        · simp [fragmentListElement] at hr
      · exact hnone r (List.mem_of_mem_filter hr)
  | popMsg =>
      rw [QueueStep] at h
      rw [h] at hr
      exact hnone r (List.mem_of_mem_tail hr)
  | enqueueFragment dst pid fid tSweep =>
      obtain ⟨hq, hre⟩ := h
      have hnone' : QueueElem.request r ∉ (nm.refreshed dst tSweep).outqueue := by
        rw [hq]
        exact fun hm => hnone r (List.mem_of_mem_filter hm)
      by_cases ha : a = .code 0
      · obtain ⟨f, hf, -⟩ := hre.appended.mp ha
        rw [hre.queue₀ f ha hf] at hr
        simp only [List.mem_append, List.mem_singleton, fragmentListElement, reduceCtorEq,
          or_false] at hr
        exact hnone' hr
      · rw [hre.queue₁ ha] at hr
        exact hnone' hr
  | addFragment f tSweep tCreate => exact hop.elim
  | popPacket src pid size tSweep => exact hop.elim

/-- **One call of the sender** can be made while fewer than 65536 packets have been enqueued, and
pops only pieces of them. -/
theorem SenderSide.step (h : SenderSide l ops nm) (hop : op.SenderCall l)
    (hlt : (payloads l.receiverNode (ops ++ [op])).length < 65536) :
    ∃ nm' a, networkManagerStep nm op = .ok (nm', a) ∧ SenderSide l (ops ++ [op]) nm'
      ∧ QueueStep nm nm' a op
      ∧ ∀ f, a = .message (some (.fragment f)) →
        SentPiece (payloads l.receiverNode (ops ++ [op])) l.fragSize f
          ∧ (NetMessage.fragment f).Goes l.senderNode l.receiverNode = true := by
  have hsends : ∀ n, sends n (ops ++ [op]) ≤ (payloads l.receiverNode (ops ++ [op])).length := by
    intro n
    have hle := h.sends_le n
    rw [payloads_append, sends_append, sends_singleton, List.length_append]
    cases op with
    | enqueuePacket src dst data tSweep tCreate =>
        obtain ⟨-, rfl⟩ : src = l.senderNode ∧ dst = l.receiverNode := hop
        by_cases hdata : 0 < data.length
        · have := Bool.toNat_le (nodeidEqual l.receiverNode n)
          simp [NmOp.sendsTo, payloads, NmOp.payloadTo, hdata] at hle ⊢
          omega
        · simp [NmOp.sendsTo, hdata]
          omega
    | _ => simpa [NmOp.sendsTo] using Nat.le_add_right_of_le hle
  obtain ⟨nm', a, hs, hserved, hq⟩ := h.served.step op fun n => (hsends n).trans_lt hlt
  obtain ⟨hpieces, hpop⟩ := h.pieces.step ((hsends _).trans (by omega)) hs
  have hcut : ∀ src dst data tSweep tCreate, op = .enqueuePacket src dst data tSweep tCreate →
      0 < data.length → ∀ f ∈ (nm.endpointFor dst).cut src data,
        (NetMessage.fragment f).Goes l.senderNode l.receiverNode = true := by
    rintro src dst data tSweep tCreate rfl - f hf
    obtain ⟨rfl, rfl⟩ : src = l.senderNode ∧ dst = l.receiverNode := hop
    obtain ⟨i, -, rfl⟩ := List.mem_map.mp hf
    rw [fragment_goes]
    exact ⟨nodeidEqual_self _, h.served.inv.wf.endpointFor_node _⟩
  obtain ⟨haddr, hto⟩ := h.addressed.step (fun _ _ h => h) h.served.inv hs hcut
  exact ⟨nm', a, hs, ⟨hserved, hpieces, haddr, hq.no_request hop h.fragments, hsends⟩,
    hq, fun f hf => ⟨hpop f hf (fragment_goes.mp (hto f hf)).2, hto f hf⟩⟩

/-! ### Its queue -/

lemma queuedIds_cut (e : Endpoint) (src : NodeID) (data : Bytes) :
    queuedIds ((e.cut src data).map fragmentListElement)
      = (List.range (cutCount data.length e.outgoing.fragSize)).map fun i => (e.outId, i) := by
  rw [Endpoint.cut, cutFragments, List.map_map, queuedIds, List.filterMap_map]
  exact List.filterMap_eq_map_iff_forall_eq_some.mpr fun i _ => rfl

lemma count_queuedIds_filter_le (q : MsgList) (p : QueueElem → Bool) (x : ℕ × ℕ) :
    (queuedIds (q.filter p)).count x ≤ (queuedIds q).count x :=
  (List.filter_sublist.filterMap _).count_le x

/-- A packet enqueued adds its fragments once each. -/
lemma SenderSide.count_enqueue (h : SenderSide l ops nm) {src : NodeID} {data : Bytes}
    {tSweep tCreate : ℤ}
    (hq : QueueStep nm nm' a (.enqueuePacket src l.receiverNode data tSweep tCreate))
    (x : ℕ × ℕ) :
    (queuedIds nm'.outqueue).count x
      ≤ (queuedIds nm.outqueue).count x
        + if data ≠ [] ∧ x.1 = (payloads l.receiverNode ops).length then 1 else 0 := by
  have hid : (nm.endpointFor l.receiverNode).outId = (payloads l.receiverNode ops).length := by
    rw [h.served.counted.outId, length_payloads]
  rw [QueueStep] at hq
  rw [hq, queuedIds_append, List.count_append, Nat.add_comm]
  refine Nat.add_le_add (count_queuedIds_filter_le _ _ _) ?_
  by_cases hdata : data = []
  · rw [if_pos hdata, queuedIds, List.filterMap_nil, List.count_nil]
    exact Nat.zero_le _
  · rw [if_neg hdata, queuedIds_cut, hid]
    have hnodup : ((List.range (cutCount data.length
        (nm.endpointFor l.receiverNode).outgoing.fragSize)).map
        fun i => ((payloads l.receiverNode ops).length, i)).Nodup :=
      List.nodup_range.map fun i j hij => (Prod.mk.inj hij).2
    split_ifs with hx
    · exact List.nodup_iff_count_le_one.mp hnodup x
    · refine (List.count_eq_zero.mpr fun hm => ?_).le
      obtain ⟨i, -, rfl⟩ := List.mem_map.mp hm
      exact hx ⟨hdata, rfl⟩

/-- A message popped takes its fragment off the queue. -/
lemma SenderSide.popMsg_ids (h : SenderSide l ops nm) {m : Option NetMessage}
    (hpop : networkManagerPopOutgoingNetMsg nm = .ok (nm', m)) :
    (m = none ∧ nm'.outqueue = nm.outqueue)
    ∨ ∃ f, m = some (.fragment f)
      ∧ queuedIds nm.outqueue = (f.pid, f.id) :: queuedIds nm'.outqueue := by
  cases hq : nm.outqueue with
  | nil =>
      rw [networkManagerPopOutgoingNetMsg, hq] at hpop
      cases hpop
      exact Or.inl ⟨rfl, hq⟩
  | cons el q =>
      cases el with
      | request r => exact absurd (by rw [hq]; exact List.mem_cons_self) (h.fragments r)
      | fragment d pid i =>
          obtain ⟨e, fp, f, he, -, hl, hf, hpop', -⟩ := h.served.inv.pop_fragment hq
          have hel := ((h.served.inv.owns d e he).named pid fp hl).element hf
          rw [fragmentListElement, QueueElem.fragment.injEq] at hel
          rw [hpop'] at hpop
          cases hpop
          refine Or.inr ⟨_, rfl, ?_⟩
          rw [hel.2.1, hel.2.2]
          rfl

/-- A retransmission adds the fragment asked for, if anything. -/
lemma count_enqueueFragment (hinv : nm.OutqueueInv) {dst : NodeID} {pid fid : ℕ} {tSweep : ℤ}
    (hq : QueueStep nm nm' a (.enqueueFragment dst pid fid tSweep)) (x : ℕ × ℕ) :
    (queuedIds nm'.outqueue).count x
      ≤ (queuedIds nm.outqueue).count x + if x = (pid, fid) then 1 else 0 := by
  obtain ⟨hfilter, hre⟩ := hq
  have hold := count_queuedIds_filter_le nm.outqueue (nm.refreshed dst tSweep).holds x
  rw [← hfilter] at hold
  by_cases ha : a = .code 0
  · obtain ⟨f, hf, -⟩ := hre.appended.mp ha
    obtain ⟨e, fp, he, hl, hi⟩ := NetworkManager.slot_eq_some.mp hf
    have hel := (((hinv.refreshed dst tSweep).owns dst e he).named pid fp hl).element hi
    rw [hre.queue₀ f ha hf, hel, queuedIds_append, List.count_append]
    have hone : (queuedIds [.fragment e.node pid fid]).count x
        = if x = (pid, fid) then 1 else 0 := by
      simp [queuedIds, List.count_singleton, eq_comm (a := x)]
    omega
  · rw [hre.queue₁ ha]
    omega

end Sender

/-! ## The receiver -/

/-- The last slot of a packet is never asked for. -/
lemma succ_lt_of_mem_missingIds {fp : FragmentedPacket} {f : Fragment} (hf : f.data ≠ none) {i : ℕ}
    (hi : i ∈ missingIds fp f) : i + 1 < fp.fragNum := by
  rw [missingIds] at hi
  split_ifs at hi with hid
  · simp only [FragmentedPacket.requestIds, List.mem_reverse, List.mem_filter, List.mem_range,
      FragmentedPacket.put_fragNum, decide_eq_true_eq] at hi
    obtain ⟨hlt, hempty, hreq⟩ := hi
    have hne : i ≠ f.id := by
      rintro rfl
      rw [FragmentedPacket.put_slotData _ _ _ hid, if_pos rfl] at hempty
      exact hf hempty
    rcases hreq with rfl | ⟨m, hm, him, -⟩
    · omega
    · rw [FragmentedPacket.put_fragNum] at hm
      omega
  · simp at hi

/-- The receiver holds data in a slot of a packet from `src`. -/
def NetworkManager.holdsSlot (nm : NetworkManager) (src : NodeID) (x : ℕ × ℕ) : Bool :=
  (((nm.endpointFor src).incoming.lookup x.1).bind (·.slotData x.2)).isSome

/-- A fragment with this packet id and position may be asked for: it is not the last one. -/
def Askable (packets : List Bytes) (fragSize pid id : ℕ) : Prop :=
  ∃ data, packets[pid]? = some data ∧ id + 1 < cutCount data.length fragSize

lemma Askable.append {packets : List Bytes} {fragSize pid id : ℕ}
    (h : Askable packets fragSize pid id) (more : List Bytes) :
    Askable (packets ++ more) fragSize pid id := by
  obtain ⟨data, hdata, hlt⟩ := h
  exact ⟨data, getElem?_packets_append hdata more, hlt⟩

/-- The receiver when `packets` have been enqueued: its slots hold pieces of them, it asks for none
of the last ones, and a packet it knows to be ready is complete. -/
structure ReceiverSide (l : Link) (packets : List Bytes) (nm : NetworkManager) (ready : List ℕ) :
    Prop where
  inv : nm.OutqueueInv
  stored : ∀ pid fp, (nm.endpointFor l.senderNode).incoming.lookup pid = some fp →
    ∃ data ids, packets[pid]? = some data ∧ fp.Gathers data l.fragSize ids
  requests : ∀ el ∈ nm.outqueue, ∃ fr, el = .request fr ∧ Askable packets l.fragSize fr.pid fr.id
  ready : ∀ pid ∈ ready, ∀ fp, (nm.endpointFor l.senderNode).incoming.lookup pid = some fp →
    fp.Complete

section Receiver

variable {l : Link} {packets : List Bytes} {nm nm' : NetworkManager} {ready : List ℕ}
  {f : Fragment} {tSweep tCreate : ℤ}

lemma networkManagerCreate_receiverSide (l : Link) (packets : List Bytes) :
    ReceiverSide l packets (networkManagerCreate l.receiverConfig) [] where
  inv := networkManagerCreate_outqueueInv _
  stored pid fp hl := by
    rw [NetworkManager.endpointFor_of_none (networkManagerCreate_endpoint _ _)] at hl
    simp [endpointCreate] at hl
  requests el hm := by simp at hm
  ready pid hp := by simp at hp

lemma ReceiverSide.append (h : ReceiverSide l packets nm ready) (more : List Bytes) :
    ReceiverSide l (packets ++ more) nm ready where
  inv := h.inv
  stored pid fp hl := by
    obtain ⟨data, ids, hdata, hg⟩ := h.stored pid fp hl
    exact ⟨data, ids, getElem?_packets_append hdata more, hg⟩
  requests el hm := by
    obtain ⟨fr, rfl, hask⟩ := h.requests el hm
    exact ⟨fr, rfl, hask.append more⟩
  ready := h.ready

/-- The packet the fragment is written into has gathered pieces of the same payload. -/
lemma ReceiverSide.target (h : ReceiverSide l packets nm ready) {data : Bytes}
    (hdata : packets[f.pid]? = some data) (hf : PieceOf data l.fragSize f)
    (hfrom : f.fromNode = l.senderNode) (tSweep tCreate : ℤ) :
    ∃ ids, (nm.target f tSweep tCreate).Gathers data l.fragSize ids := by
  have hwf := (h.inv.wf.endpointFor_wf l.senderNode).incoming
  rw [NetworkManager.target, hfrom]
  cases hl : ((nm.endpointFor l.senderNode).incoming.fresh tSweep).lookup f.pid with
  | none => exact ⟨∅, HasGathered.target (by rw [hl]; rfl) hf⟩
  | some fp =>
      obtain ⟨data', ids, hdata', hg⟩ := h.stored f.pid fp (hwf.lookup_of_fresh hl)
      obtain rfl := Option.some.inj (hdata.symm.trans hdata')
      exact ⟨ids, HasGathered.target (by rw [hl]; exact hg) hf⟩

/-- A piece arrives. -/
theorem ReceiverSide.arrived (h : ReceiverSide l packets nm ready)
    (hf : SentPiece packets l.fragSize f) (hfrom : f.fromNode = l.senderNode)
    (tSweep tCreate : ℤ) :
    ReceiverSide l packets (nm.arrived f tSweep tCreate)
      (if arrivalState (nm.target f tSweep tCreate) f = .ready then
        f.pid :: ready.filter (· ≠ f.pid) else ready.filter (· ≠ f.pid)) := by
  obtain ⟨data, hdata, hpiece⟩ := hf
  have hwf := (h.inv.wf.endpointFor_wf l.senderNode).incoming
  obtain ⟨ids, htarget⟩ := h.target hdata hpiece hfrom tSweep tCreate
  have hlook : ∀ pid, ((nm.arrived f tSweep tCreate).endpointFor l.senderNode).incoming.lookup pid
      = if f.pid = pid then some ((nm.target f tSweep tCreate).put f)
        else ((nm.endpointFor l.senderNode).incoming.fresh tSweep).lookup pid := fun pid => by
    rw [h.inv.wf.incoming_arrived, hfrom, if_pos (nodeidEqual_self _), hwf.lookup_arrived,
      NetworkManager.target, hfrom]
  refine ⟨h.inv.arrived, fun pid fp hl => ?_, fun el hm => ?_, fun pid hp fp hl => ?_⟩
  · rw [hlook] at hl
    split_ifs at hl with hpid
    · obtain rfl := Option.some.inj hl
      exact ⟨data, _, hpid ▸ hdata, htarget.put hpiece⟩
    · exact h.stored pid fp (hwf.lookup_of_fresh hl)
  · rw [NetworkManager.arrived_outqueue] at hm
    rcases List.mem_append.mp hm with hm | hm
    · obtain ⟨i, hi, rfl⟩ := List.mem_map.mp hm
      have hlt := succ_lt_of_mem_missingIds (by rw [hpiece.data]; exact Option.some_ne_none _) hi
      refine ⟨_, rfl, data, ?_, htarget.fragNum ▸ hlt⟩
      have hpid : (nm.target f tSweep tCreate).packetId = f.pid := by
        rw [NetworkManager.target, hfrom]
        exact hwf.target_packetId tSweep tCreate
      rw [fragRequestCreate, hpid]
      exact hdata
    · exact h.requests el hm
  · rw [hlook] at hl
    by_cases hpid : f.pid = pid
    · subst hpid
      rw [if_pos rfl] at hl
      obtain rfl := Option.some.inj hl
      by_cases hs : arrivalState (nm.target f tSweep tCreate) f = .ready
      · rw [arrivalState] at hs
        split_ifs at hs with _ hc
        exact hc
      · simp [if_neg hs] at hp
    · rw [if_neg hpid] at hl
      refine h.ready pid ?_ fp (hwf.lookup_of_fresh hl)
      split_ifs at hp
      · simpa [Ne.symm hpid] using hp
      · simpa [Ne.symm hpid] using hp

/-- A slot filled by an arrival was filled before, or is the one that arrived. -/
lemma NetworkManager.Wf.holdsSlot_arrived (h : nm.Wf) {x : ℕ × ℕ}
    (hx : (nm.arrived f tSweep tCreate).holdsSlot f.fromNode x = true) :
    nm.holdsSlot f.fromNode x = true ∨ x = (f.pid, f.id) := by
  have hwf := (h.endpointFor_wf f.fromNode).incoming
  obtain ⟨pid, i⟩ := x
  rw [NetworkManager.holdsSlot, h.incoming_arrived, if_pos (nodeidEqual_self _),
    hwf.lookup_arrived] at hx
  split_ifs at hx with hpid
  · subst hpid
    by_cases hi : i = f.id
    · exact Or.inr (by rw [hi])
    · left
      rw [Option.bind_some] at hx
      have hslot : (((nm.endpointFor f.fromNode).incoming.target f tSweep tCreate).put f).slotData i
          = ((nm.endpointFor f.fromNode).incoming.target f tSweep tCreate).slotData i := by
        by_cases hlt : f.id < ((nm.endpointFor f.fromNode).incoming.target f tSweep tCreate).fragNum
        · rw [FragmentedPacket.put_slotData _ _ _ hlt, if_neg hi]
        · rw [FragmentedPacket.put_of_ge (Nat.le_of_not_lt hlt)]
      rw [hslot, PacketBucket.target] at hx
      cases hl : ((nm.endpointFor f.fromNode).incoming.fresh tSweep).lookup f.pid with
      | none =>
          rw [hl] at hx
          simp only [Option.getD_none] at hx
          rw [FragmentedPacket.fragmentedPacketEmpty_slotData] at hx
          cases hx
      | some fp =>
          rw [hl] at hx
          rw [NetworkManager.holdsSlot, hwf.lookup_of_fresh hl]
          exact hx
  · left
    cases hl : ((nm.endpointFor f.fromNode).incoming.fresh tSweep).lookup pid with
    | none =>
        rw [hl] at hx
        cases hx
    | some fp =>
        rw [hl] at hx
        rw [NetworkManager.holdsSlot, hwf.lookup_of_fresh hl]
        exact hx

/-- Popping a packet removes it from the bucket of its node, if there is one. -/
lemma NetworkManager.Wf.lookup_popped (h : nm.Wf) (src : NodeID) (pid : ℕ) (t : ℤ) (pid' : ℕ) :
    ((nm.popped src pid t).endpointFor src).incoming.lookup pid'
      = if pid = pid' then none else ((nm.endpointFor src).incoming.fresh t).lookup pid' := by
  have hwf := (h.endpointFor_wf src).incoming
  cases he : nm.endpoint src with
  | none =>
      have hempty : (nm.endpointFor src).incoming.lookup pid' = none := by
        rw [endpointFor_of_none he]
        rfl
      have hfresh : ((nm.endpointFor src).incoming.fresh t).lookup pid' = none := by
        cases hl : ((nm.endpointFor src).incoming.fresh t).lookup pid' with
        | none => rfl
        | some fp => rw [hwf.lookup_of_fresh hl] at hempty; cases hempty
      have hsame : nm.popped src pid t = nm := by rw [popped, he]
      rw [hsame, hempty, hfresh, ite_self]
  | some e =>
      rw [endpointFor_of_some he] at hwf ⊢
      rw [h.incoming_popped he, if_pos (nodeidEqual_self _), hwf.lookup_popped]

/-- A packet is popped, or found to have been dropped. -/
theorem ReceiverSide.popped (h : ReceiverSide l packets nm ready) (pid : ℕ) (t : ℤ) :
    ReceiverSide l packets (nm.popped l.senderNode pid t) (ready.filter (· ≠ pid)) := by
  have hwf := (h.inv.wf.endpointFor_wf l.senderNode).incoming
  refine ⟨h.inv.popped _ _ _, fun pid' fp hl => ?_, fun el hm => ?_, fun pid' hp fp hl => ?_⟩
  · rw [h.inv.wf.lookup_popped] at hl
    split_ifs at hl
    exact h.stored pid' fp (hwf.lookup_of_fresh hl)
  · rw [NetworkManager.popped_outqueue] at hm
    exact h.requests el hm
  · rw [h.inv.wf.lookup_popped] at hl
    split_ifs at hl
    exact h.ready pid' (List.mem_of_mem_filter hp) fp (hwf.lookup_of_fresh hl)

/-- A slot filled after a pop was filled before, and is not of the packet popped. -/
lemma NetworkManager.Wf.holdsSlot_popped (h : nm.Wf) {src : NodeID} {pid : ℕ} {t : ℤ}
    {x : ℕ × ℕ} (hx : (nm.popped src pid t).holdsSlot src x = true) :
    pid ≠ x.1 ∧ nm.holdsSlot src x = true := by
  rw [holdsSlot, h.lookup_popped] at hx
  split_ifs at hx with hpid
  · cases hx
  · refine ⟨hpid, ?_⟩
    cases hl : ((nm.endpointFor src).incoming.fresh t).lookup x.1 with
    | none =>
        rw [hl] at hx
        cases hx
    | some fp =>
        rw [hl] at hx
        rw [holdsSlot, (h.endpointFor_wf src).incoming.lookup_of_fresh hl]
        exact hx

/-- **What popping a ready packet answers**: the packet is gone, or all its slots are filled and it
is the one that was sent. -/
theorem ReceiverSide.popAnswer (h : ReceiverSide l packets nm ready) {pid : ℕ} (hpid : pid ∈ ready)
    {size : ℕ} (t : ℤ)
    (hpackets : ∀ data ∈ packets, (data.length + l.fragSize - 1) / l.fragSize ≤ 65535
      ∧ data.length < size) :
    nm.popAnswer l.senderNode pid size t = (-2, [], size)
    ∨ ∃ data, packets[pid]? = some data
      ∧ nm.popAnswer l.senderNode pid size t = (0, data, data.length)
      ∧ ∀ i < cutCount data.length l.fragSize, nm.holdsSlot l.senderNode (pid, i) = true := by
  have hwf := (h.inv.wf.endpointFor_wf l.senderNode).incoming
  rw [NetworkManager.popAnswer]
  cases he : nm.endpoint l.senderNode with
  | none => exact Or.inl rfl
  | some e =>
      rw [NetworkManager.endpointFor_of_some he] at hwf
      simp only [PacketBucket.popAnswer]
      cases hl : (e.incoming.fresh t).lookup pid with
      | none => exact Or.inl rfl
      | some fp =>
          have hlook : (nm.endpointFor l.senderNode).incoming.lookup pid = some fp := by
            rw [NetworkManager.endpointFor_of_some he]
            exact hwf.lookup_of_fresh hl
          obtain ⟨data, ids, hdata, hg⟩ := h.stored pid fp hlook
          obtain ⟨hcount, hlt⟩ := hpackets data (List.mem_of_getElem? hdata)
          have hc := h.ready pid hpid fp hlook
          have hcontents := hg.contents hc l.fragSize_pos hcount
          have hfits : fp.contents.length < size := by rwa [hcontents]
          have hdump := fragmentedPacketDumpData_fits hfits
          refine Or.inr ⟨data, hdata, ?_, fun i hi => ?_⟩
          · simp only [hdump, hcontents]
          · rw [NetworkManager.holdsSlot, hlook, Option.bind_some]
            rw [← hg.fragNum] at hi
            exact Option.isSome_iff_ne_none.mpr (FragmentedPacket.complete_iff.mp hc i hi)

/-- A request is popped from the queue of the receiver. -/
theorem ReceiverSide.popMsg (h : ReceiverSide l packets nm ready) :
    ∃ nm' m, networkManagerPopOutgoingNetMsg nm = .ok (nm', m)
      ∧ ReceiverSide l packets nm' ready ∧ nm'.holdsSlot = nm.holdsSlot
      ∧ ∀ msg, m = some msg → ∃ fr, msg = .fragRequest fr
          ∧ Askable packets l.fragSize fr.pid fr.id := by
  cases hq : nm.outqueue with
  | nil =>
      refine ⟨nm, none, by rw [networkManagerPopOutgoingNetMsg, hq], h, rfl, ?_⟩
      intro msg hm
      cases hm
  | cons el q =>
      obtain ⟨fr, rfl, hask⟩ := h.requests el (by rw [hq]; exact List.mem_cons_self)
      refine ⟨{ nm with outqueue := q }, some (.fragRequest { fr with linked := false }),
        by rw [networkManagerPopOutgoingNetMsg, hq], ⟨h.inv.pop_request hq, h.stored, ?_, h.ready⟩,
        rfl, ?_⟩
      · intro el hm
        exact h.requests el (by rw [hq]; exact List.mem_cons_of_mem _ hm)
      · rintro msg ⟨⟩
        exact ⟨_, rfl, hask⟩

end Receiver

end PeerStreamer
