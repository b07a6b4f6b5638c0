import PeerStreamer.Foundation.Run
import PeerStreamer.NetHelper.Incoming

/-!
# Runs of the network manager

`NmOp` is a call to one of the operations of `network_manager.c` with the clock readings it makes,
and a run is an `exec` of `networkManagerStep` from a fresh manager.

The invariant of a run is `Served ops nm`: the outgoing queue is accounted for, the next packet id
of every node is the number of packets sent to it so far, and the ids in use are below it.  As long
as fewer than 65536 packets go to each node the 16-bit counter cannot come round to an id in use,
so no run gets stuck.
-/

namespace PeerStreamer

/-! ## Operations -/

/-- A call to the network manager. -/
inductive NmOp
  | enqueuePacket (src dst : NodeID) (data : Bytes) (tSweep tCreate : ℤ)
  | popMsg
  | enqueueFragment (dst : NodeID) (pid fid : ℕ) (tSweep : ℤ)
  | addFragment (f : Fragment) (tSweep tCreate : ℤ)
  | popPacket (src : NodeID) (pid size : ℕ) (tSweep : ℤ)

/-- What a call answers. -/
inductive NmAnswer
  | code (res : ℤ)
  | message (m : Option NetMessage)
  | state (res : PacketState)
  | packet (res : ℤ) (bytes : Bytes) (size : ℕ)
  deriving DecidableEq

/-- One call. -/
def networkManagerStep (nm : NetworkManager) : NmOp → Eval (NetworkManager × NmAnswer)
  | .enqueuePacket src dst data tSweep tCreate => do
      let (nm, res) ← networkManagerEnqueueOutgoingPacket nm src dst data tSweep tCreate
      return (nm, .code res)
  | .popMsg => do
      let (nm, m) ← networkManagerPopOutgoingNetMsg nm
      return (nm, .message m)
  | .enqueueFragment dst pid fid tSweep =>
      let (nm, res) := networkManagerEnqueueOutgoingFragment nm dst pid fid tSweep
      .ok (nm, .code res)
  | .addFragment f tSweep tCreate =>
      let (nm, res) := networkManagerAddIncomingFragment nm f tSweep tCreate
      .ok (nm, .state res)
  | .popPacket src pid size tSweep =>
      let (nm, res, bytes, size) := networkManagerPopIncomingPacket nm src pid size tSweep
      .ok (nm, .packet res bytes size)

/-- The operation sends a packet to `n`. -/
def NmOp.sendsTo (n : NodeID) : NmOp → Bool
  | .enqueuePacket _ dst data _ _ => nodeidEqual dst n && decide (0 < data.length)
  | _ => false

/-- How many packets the operations send to `n`. -/
def sends (n : NodeID) (ops : List NmOp) : ℕ := ops.countP (NmOp.sendsTo n)

lemma sends_append (n : NodeID) (ops ops' : List NmOp) :
    sends n (ops ++ ops') = sends n ops + sends n ops' := List.countP_append

lemma sends_singleton (n : NodeID) (op : NmOp) : sends n [op] = (op.sendsTo n).toNat := by
  cases h : op.sendsTo n <;> simp [sends, h]

/-- Equal nodes have been sent the same packets. -/
lemma sends_congr {n n' : NodeID} (h : nodeidEqual n n') (ops : List NmOp) :
    sends n ops = sends n' ops := by
  refine List.countP_congr fun op _ => ?_
  cases op with
  | enqueuePacket src dst data tSweep tCreate =>
      rw [NmOp.sendsTo, NmOp.sendsTo, nodeidEqual_comm dst n, nodeidEqual_comm dst n',
        nodeidEqual_congr_left h]
  | _ => rfl

/-! ## Packet ids -/

/-- The next id of every node is the number of packets sent to it, and the ids in use are below. -/
structure NetworkManager.Counted (nm : NetworkManager) (sent : NodeID → ℕ) : Prop where
  outId : ∀ n, (nm.endpointFor n).outId = sent n
  below : ∀ n pid fp, (nm.endpointFor n).outgoing.lookup pid = some fp →
    pid < (nm.endpointFor n).outId

namespace NetworkManager

variable {nm : NetworkManager} {node n : NodeID} {e : Endpoint} {q : MsgList} {sent : NodeID → ℕ}

lemma Wf.endpointFor_put (h : nm.Wf) (he : nodeidEqual e.node node) :
    (nm.put node e q).endpointFor n
      = if nodeidEqual node n then e else nm.endpointFor n := by
  rw [endpointFor, endpointFor, h.endpoint_put he, put_fragSize, put_maxPktAge]
  split_ifs <;> rfl

/-- Equal nodes get the same endpoint, up to the node an absent one would be created for. -/
lemma Wf.endpointFor_congr (h : nm.Wf) (hn : nodeidEqual node n) :
    (nm.endpointFor node).outId = (nm.endpointFor n).outId
      ∧ (nm.endpointFor node).outgoing = (nm.endpointFor n).outgoing := by
  rw [endpointFor, endpointFor, h.endpoint_congr hn]
  cases nm.endpoint n <;> exact ⟨rfl, rfl⟩

lemma networkManagerCreate_counted (config : NetworkConfig) :
    (networkManagerCreate config).Counted fun _ => 0 where
  outId n := rfl
  below n pid fp hl := by
    rw [endpointFor_of_none (networkManagerCreate_endpoint config n)] at hl
    simp [endpointCreate] at hl

/-- A store that keeps the id counter and adds no packet keeps the count. -/
lemma Counted.put (h : nm.Counted sent) (hwf : nm.Wf) (hnode : nodeidEqual e.node node)
    (hid : e.outId = (nm.endpointFor node).outId)
    (hsub : ∀ pid fp, e.outgoing.lookup pid = some fp →
      ∃ fp', (nm.endpointFor node).outgoing.lookup pid = some fp') :
    (nm.put node e q).Counted sent := by
  refine ⟨fun n => ?_, fun n pid fp hl => ?_⟩
  · rw [hwf.endpointFor_put hnode]
    split_ifs with hn
    · rw [hid, (hwf.endpointFor_congr hn).1]
      exact h.outId n
    · exact h.outId n
  · rw [hwf.endpointFor_put hnode] at hl ⊢
    split_ifs at hl ⊢ with hn
    · obtain ⟨fp', hl'⟩ := hsub pid fp hl
      rw [hid]
      exact h.below node pid fp' hl'
    · exact h.below n pid fp hl

lemma Counted.link (h : nm.Counted sent) (hwf : nm.Wf) (he : nm.endpoint node = some e)
    {out : PacketBucket} (hout : out.Wf)
    (hsub : ∀ pid fp, out.lookup pid = some fp → ∃ fp', e.outgoing.lookup pid = some fp')
    (fp : FragmentedPacket) (id : ℕ) (b : Bool) :
    (nm.link { e with outgoing := out } fp id b q).Counted sent := by
  have hnode := hwf.nodeidEqual_of_endpoint he
  rw [NetworkManager.link, ← put_of_some he]
  refine h.put hwf hnode ?_ fun pid fp' hl => ?_
  · rw [endpointFor_of_some he]
  · rw [endpointFor_of_some he]
    simp only [hout.lookup_store] at hl
    split_ifs at hl
    · obtain ⟨fp'', hl', -⟩ := Option.map_eq_some_iff.mp hl
      exact hsub pid fp'' hl'
    · exact hsub pid fp' hl

lemma Counted.refreshed (h : nm.Counted sent) (hwf : nm.Wf) (dst : NodeID) (t : ℤ) :
    (nm.refreshed dst t).Counted sent := by
  cases he : nm.endpoint dst with
  | none => rwa [NetworkManager.refreshed, he]
  | some e =>
      have hnode := hwf.nodeidEqual_of_endpoint he
      rw [refreshed_of_some he]
      refine h.put hwf hnode ?_ fun p fp hl => ⟨fp, ?_⟩
      · rw [endpointFor_of_some he]
        rfl
      · rw [endpointFor_of_some he]
        exact (hwf.endpoint_wf he).outgoing.lookup_of_fresh hl

lemma Counted.arrived (h : nm.Counted sent) (hwf : nm.Wf) (f : Fragment) (tSweep tCreate : ℤ) :
    (nm.arrived f tSweep tCreate).Counted sent :=
  h.put hwf (hwf.endpointFor_node f.fromNode) rfl fun _ fp hl => ⟨fp, hl⟩

lemma Counted.popped (h : nm.Counted sent) (hwf : nm.Wf) (src : NodeID) (pid : ℕ) (t : ℤ) :
    (nm.popped src pid t).Counted sent := by
  cases he : nm.endpoint src with
  | none => rwa [NetworkManager.popped, he]
  | some e =>
      have hnode := hwf.nodeidEqual_of_endpoint he
      rw [NetworkManager.popped, he]
      refine h.put hwf hnode ?_ fun p fp hl => ⟨fp, ?_⟩
      · rw [endpointFor_of_some he]
      · rwa [endpointFor_of_some he]

end NetworkManager

/-! ## The invariant of a run -/

/-- The queue is accounted for and the packets are counted. -/
structure Served (ops : List NmOp) (nm : NetworkManager) : Prop where
  inv : nm.OutqueueInv
  counted : nm.Counted fun n => sends n ops
  fragSize : 0 < nm.fragSize

section Steps

variable {ops : List NmOp} {nm : NetworkManager}

lemma Served.idFree (h : Served ops nm) (dst : NodeID) (t : ℤ) : nm.IdFree dst t := by
  rw [NetworkManager.IdFree]
  cases hl : ((nm.endpointFor dst).outgoing.fresh t).lookup (nm.endpointFor dst).outId with
  | none => rfl
  | some fp =>
      have hwf := h.inv.wf.endpointFor_wf dst
      exact absurd (h.counted.below dst _ fp (hwf.outgoing.lookup_of_fresh hl)) (lt_irrefl _)

/-- Operations that send nothing leave the counts as they are. -/
lemma Served.of_silent {op : NmOp} {nm' : NetworkManager} (h : Served ops nm)
    (hop : ∀ n, op.sendsTo n = false) (hinv : nm'.OutqueueInv)
    (hcounted : nm'.Counted fun n => sends n ops) (hsize : nm'.fragSize = nm.fragSize) :
    Served (ops ++ [op]) nm' := by
  refine ⟨hinv, ?_, hsize ▸ h.fragSize⟩
  have hsame : (fun n => sends n (ops ++ [op])) = fun n => sends n ops := by
    funext n
    rw [sends_append, sends_singleton, hop n]
    rfl
  rwa [hsame]

/-- A packet takes the next id of its node. -/
lemma Served.enqueued (h : Served ops nm) {src dst : NodeID} {data : Bytes} {tSweep tCreate : ℤ}
    (hdata : 0 < data.length)
    (hsends : ∀ n, sends n (ops ++ [.enqueuePacket src dst data tSweep tCreate]) < 65536) :
    Served (ops ++ [.enqueuePacket src dst data tSweep tCreate])
      (nm.enqueued src dst data tSweep tCreate) := by
  have hfree := h.idFree dst tSweep
  have hwf := h.inv.wf.endpointFor_wf dst
  have hnode : nodeidEqual ((nm.endpointFor dst).enqueued src data tSweep tCreate).node dst :=
    h.inv.wf.endpointFor_node dst
  have hcount : ∀ n, sends n (ops ++ [.enqueuePacket src dst data tSweep tCreate])
      = sends n ops + (nodeidEqual dst n).toNat := fun n => by
    rw [sends_append, sends_singleton]
    simp [NmOp.sendsTo, hdata]
  refine ⟨h.inv.enqueued hfree, ⟨fun n => ?_, fun n pid fp hl => ?_⟩, ?_⟩
  · have hlt := hsends n
    rw [hcount] at hlt ⊢
    rw [NetworkManager.enqueued, h.inv.wf.endpointFor_put hnode]
    split_ifs with hn
    · have hid : (nm.endpointFor dst).outId = sends n ops := by
        rw [(h.inv.wf.endpointFor_congr hn).1]
        exact h.counted.outId n
      rw [hn, Bool.toNat_true] at hlt ⊢
      rw [Endpoint.enqueued_outId (by rwa [hid]), hid]
    · rw [Bool.eq_false_of_not_eq_true hn]
      exact h.counted.outId n
  · have hlt := hsends dst
    rw [hcount, nodeidEqual_self, Bool.toNat_true, ← h.counted.outId dst] at hlt
    rw [NetworkManager.enqueued, h.inv.wf.endpointFor_put hnode] at hl ⊢
    split_ifs at hl ⊢ with hn
    · rw [Endpoint.enqueued_lookup hwf.outgoing hfree] at hl
      rw [Endpoint.enqueued_outId hlt]
      split_ifs at hl with hp
      · omega
      · have := h.counted.below dst pid fp (hwf.outgoing.lookup_of_fresh hl)
        omega
    · exact h.counted.below n pid fp hl
  · rw [NetworkManager.enqueued, NetworkManager.put_fragSize]
    exact h.fragSize

/-- Enqueueing in cases: an empty payload changes nothing, any other needs a fragment size and a
free id. -/
lemma networkManagerStep_enqueuePacket (h : nm.Wf) {src dst : NodeID} {data : Bytes}
    {tSweep tCreate : ℤ} {nm' : NetworkManager} {a : NmAnswer}
    (hs : networkManagerStep nm (.enqueuePacket src dst data tSweep tCreate) = .ok (nm', a)) :
    (data = [] ∧ nm' = nm ∧ a = .code (-1))
    ∨ (0 < data.length ∧ 0 < nm.fragSize ∧ nm.IdFree dst tSweep
      ∧ nm' = nm.enqueued src dst data tSweep tCreate ∧ a = .code 0) := by
  simp only [networkManagerStep, Eval.bind_eq_ok] at hs
  obtain ⟨⟨nm₁, res⟩, hs, he⟩ := hs
  obtain ⟨rfl, rfl⟩ : nm₁ = nm' ∧ NmAnswer.code res = a := by simpa using he
  by_cases hdata : 0 < data.length
  · by_cases hgood : 0 < nm.fragSize ∧ nm.IdFree dst tSweep
    · rw [networkManagerEnqueueOutgoingPacket_eq h src tCreate hdata hgood.1 hgood.2,
        Except.ok.injEq, Prod.mk.injEq] at hs
      exact Or.inr ⟨hdata, hgood.1, hgood.2, hs.1.symm, by rw [hs.2]⟩
    · obtain ⟨u, hu⟩ := networkManagerEnqueueOutgoingPacket_error h src tCreate hdata hgood
      rw [hu] at hs
      cases hs
  · rw [networkManagerEnqueueOutgoingPacket, if_neg hdata] at hs
    cases hs
    exact Or.inl ⟨List.eq_nil_of_length_eq_zero (by omega), rfl, rfl⟩

/-- Whatever operation succeeds, it keeps the queue accounted for. -/
theorem NetworkManager.OutqueueInv.step (h : nm.OutqueueInv) {op : NmOp} {nm' : NetworkManager}
    {a : NmAnswer} (hs : networkManagerStep nm op = .ok (nm', a)) : nm'.OutqueueInv := by
  cases op with
  | enqueuePacket src dst data tSweep tCreate =>
      rcases networkManagerStep_enqueuePacket h.wf hs with ⟨-, rfl, -⟩ | ⟨-, -, hfree, rfl, -⟩
      · exact h
      · exact h.enqueued hfree
  | popMsg =>
      obtain ⟨nm₁, m, hpop, hinv, -⟩ := h.popMsg
      rw [networkManagerStep, hpop] at hs
      cases hs
      exact hinv
  | enqueueFragment dst pid fid tSweep =>
      cases hs
      exact h.enqueueFragment dst pid fid tSweep
  | addFragment f tSweep tCreate =>
      rw [networkManagerStep, h.addFragment] at hs
      cases hs
      exact h.arrived
  | popPacket src pid size tSweep =>
      rw [networkManagerStep, h.popPacket] at hs
      cases hs
      exact h.popped src pid tSweep

/-- **Every network manager that is reached accounts for its queue.** -/
theorem outqueueInv_of_exec {config : NetworkConfig} {answers : List NmAnswer}
    (hexec : exec networkManagerStep (networkManagerCreate config) ops = .ok (nm, answers)) :
    nm.OutqueueInv :=
  exec_history (J := fun _ _ nm => nm.OutqueueInv) hexec (networkManagerCreate_outqueueInv config)
    fun _ _ _ _ _ _ h hs => h.step hs

end Steps

/-! ## The queue seen from outside -/

/-- The stored fragment with this destination, packet id and position. -/
def NetworkManager.slot (nm : NetworkManager) (dst : NodeID) (pid i : ℕ) : Option Fragment :=
  (nm.queued dst pid i).map fun r => r.2.2

/-- The manager still stores what the element refers to. -/
def NetworkManager.holds (nm : NetworkManager) : QueueElem → Bool
  | .fragment dst pid i => (nm.slot dst pid i).isSome
  | .request _ => true

/-- Nothing is queued twice, everything queued is stored, and a link is non-NULL exactly while its
fragment is queued. -/
structure NetworkManager.QueueConsistent (nm : NetworkManager) : Prop where
  once : ∀ dst pid i, nm.outqueue.count (.fragment dst pid i) ≤ 1
  stored : ∀ el ∈ nm.outqueue, nm.holds el
  linked : ∀ dst pid i f, nm.slot dst pid i = some f →
    (f.linked = true ↔ fragmentListElement f ∈ nm.outqueue)
  incoming : ∀ src e pid fp, nm.endpoint src = some e → e.incoming.lookup pid = some fp →
    fp.Unlinked

/-- What `network_manager_enqueue_outgoing_fragment` promises, from the manager `nm₁` left by the
sweep: 0 when the fragment is stored and not queued, 1 when it is queued, -2 otherwise; and it is
put at the end of the queue in the first case only. -/
structure Retransmitted (nm₁ nm' : NetworkManager) (dst : NodeID) (pid fid : ℕ) (a : NmAnswer) :
    Prop where
  appended : a = .code 0 ↔ ∃ f, nm₁.slot dst pid fid = some f
    ∧ fragmentListElement f ∉ nm₁.outqueue
  present : a = .code 1 ↔ ∃ f, nm₁.slot dst pid fid = some f ∧ fragmentListElement f ∈ nm₁.outqueue
  absent : a = .code (-2) ↔ nm₁.slot dst pid fid = none
  queue₀ : ∀ f, a = .code 0 → nm₁.slot dst pid fid = some f →
    nm'.outqueue = nm₁.outqueue ++ [fragmentListElement f]
  queue₁ : a ≠ .code 0 → nm'.outqueue = nm₁.outqueue

/-- What each operation does to the queue: it adds elements at one end, and what it drops is what
the manager no longer stores. -/
def QueueStep (nm nm' : NetworkManager) (a : NmAnswer) : NmOp → Prop
  | .enqueuePacket src dst data _ _ =>
      nm'.outqueue
        = (if data = [] then [] else ((nm.endpointFor dst).cut src data).map fragmentListElement)
          ++ nm.outqueue.filter nm'.holds
  | .popMsg => nm'.outqueue = nm.outqueue.tail
  | .enqueueFragment dst pid fid tSweep =>
      (nm.refreshed dst tSweep).outqueue = nm.outqueue.filter (nm.refreshed dst tSweep).holds
        ∧ Retransmitted (nm.refreshed dst tSweep) nm' dst pid fid a
  | .addFragment _ _ _ =>
      ∃ requests : List FragRequest, nm'.outqueue = requests.map .request ++ nm.outqueue
  | .popPacket _ _ _ _ => nm'.outqueue = nm.outqueue

namespace NetworkManager

variable {nm : NetworkManager} {dst : NodeID} {pid i : ℕ}

lemma slot_eq_some {f : Fragment} :
    nm.slot dst pid i = some f ↔ ∃ e fp, nm.endpoint dst = some e
      ∧ e.outgoing.lookup pid = some fp ∧ fp.frags[i]? = some f := by
  rw [slot, queued]
  cases nm.endpoint dst with
  | none => simp
  | some e =>
      cases hl : e.outgoing.lookup pid with
      | none => simp [hl]
      | some fp => simp [hl]

lemma OutqueueInv.holds (h : nm.OutqueueInv) : ∀ el ∈ nm.outqueue, nm.holds el := by
  intro el hm
  cases el with
  | request r => rfl
  | fragment d pid i =>
      obtain ⟨e, fp, f, -, -, -, -, hq⟩ := h.queued hm
      simp [NetworkManager.holds, slot, hq]

/-- The link of a stored fragment tells whether it is queued. -/
lemma OutqueueInv.linked_iff (h : nm.OutqueueInv) {f : Fragment}
    (hf : nm.slot dst pid i = some f) :
    f.linked = true ↔ fragmentListElement f ∈ nm.outqueue := by
  obtain ⟨e, fp, he, hl, hi⟩ := slot_eq_some.mp hf
  have hown := h.owns dst e he
  have hcount := hown.linked pid fp hl i f hi
  rw [(hown.named pid fp hl).element hi, ← List.count_pos_iff, hcount]
  cases f.linked <;> simp

/-- **The queue is consistent.** -/
theorem OutqueueInv.consistent (h : nm.OutqueueInv) : nm.QueueConsistent where
  once dst pid i := by
    by_cases hm : QueueElem.fragment dst pid i ∈ nm.outqueue
    · obtain ⟨e, fp, f, he, hd, hl, hf, -⟩ := h.queued hm
      rw [hd, (h.owns dst e he).linked pid fp hl i f hf]
      exact Bool.toNat_le _
    · rw [List.count_eq_zero.mpr hm]
      omega
  stored := h.holds
  linked dst pid i f hf := h.linked_iff hf
  incoming src e pid fp he hl := (h.owns src e he).unlinked pid fp hl

/-- A sweep whose packets are gone afterwards drops exactly what is no longer stored. -/
lemma OutqueueInv.sweptQueue_eq_filter (h : nm.OutqueueInv) {nm' : NetworkManager} {t : ℤ}
    {e : Endpoint} (he : nm.endpointFor dst = e) (hinv : nm'.OutqueueInv)
    (hsub : ∀ el ∈ e.sweptQueue t nm.outqueue, el ∈ nm'.outqueue)
    (hgone : ∀ pid ∈ e.outgoing.swept t, ∀ i, nm'.slot e.node pid i = none) :
    e.sweptQueue t nm.outqueue = nm.outqueue.filter nm'.holds := by
  have hown := he ▸ h.owns_endpointFor dst
  rw [hown.sweptQueue_eq] at hsub ⊢
  refine List.filter_congr fun el hm => ?_
  by_cases ho : el ∈ e.outgoing.owned (e.outgoing.swept t)
  · obtain ⟨pid, hp, fp, -, i, -, rfl⟩ := hown.mem_owned.mp ho
    simp [ho, NetworkManager.holds, hgone pid hp i]
  · have hin := hinv.holds el (hsub el (List.mem_filter.mpr ⟨hm, by simpa using ho⟩))
    simp [ho, hin]

/-- After a sweep the packets it dropped have no slots. -/
lemma OutqueueInv.refreshed_outqueue (h : nm.OutqueueInv) (dst : NodeID) (t : ℤ) :
    (nm.refreshed dst t).outqueue = nm.outqueue.filter (nm.refreshed dst t).holds := by
  cases he : nm.endpoint dst with
  | none =>
      rw [NetworkManager.refreshed, he]
      exact (List.filter_eq_self.mpr h.holds).symm
  | some e =>
      have hq : (nm.refreshed dst t).outqueue = e.sweptQueue t nm.outqueue := by
        rw [refreshed_of_some he]
        rfl
      have hinv := h.refreshed dst t
      have hwf := (h.wf.endpoint_wf he).outgoing
      have hnode : (nm.refreshed dst t).endpoint e.node = some (e.refreshed t) := by
        rw [hinv.wf.endpoint_congr (h.wf.nodeidEqual_of_endpoint he),
          h.wf.refreshed_endpoint he]
      rw [hq]
      refine h.sweptQueue_eq_filter (endpointFor_of_some he) hinv (by simp [hq]) fun pid hp i => ?_
      rw [slot, NetworkManager.queued, hnode]
      simp only [Endpoint.refreshed, hwf.lookup_fresh_of_swept hp, Option.map_none]

/-- **What `network_manager_enqueue_outgoing_fragment` returns.** -/
theorem OutqueueInv.retransmitted (h : nm.OutqueueInv) (dst : NodeID) (pid fid : ℕ) (t : ℤ) :
    Retransmitted (nm.refreshed dst t) (networkManagerEnqueueOutgoingFragment nm dst pid fid t).1
      dst pid fid (.code (networkManagerEnqueueOutgoingFragment nm dst pid fid t).2) := by
  have hinv := h.refreshed dst t
  rcases networkManagerEnqueueOutgoingFragment_cases h dst pid fid t with
    ⟨hq, heq⟩ | ⟨e, fp, f, he, hl, hf, hq, heq⟩
  · have hs : (nm.refreshed dst t).slot dst pid fid = none := by rw [slot, hq]; rfl
    rw [heq]
    constructor <;> simp [hs]
  · have hs : (nm.refreshed dst t).slot dst pid fid = some f := by rw [slot, hq]; rfl
    have hlink := hinv.linked_iff hs
    rw [heq]
    by_cases hb : f.linked = true
    · have hm := hlink.mp hb
      rw [if_pos hb]
      constructor <;> simp [hs, hm]
    · have hm := mt hlink.mpr hb
      rw [if_neg hb]
      constructor
      · simpa [hs] using hm
      · simpa [hs] using hm
      · simp [hs]
      · intro f' _ hf'
        rw [hs, Option.some.injEq] at hf'
        rw [← hf']
        rfl
      · simp

end NetworkManager

/-! ## Every run -/

section Runs

variable {ops : List NmOp} {nm : NetworkManager}

lemma Served.outqueue_filter (h : Served ops nm) : nm.outqueue.filter nm.holds = nm.outqueue :=
  List.filter_eq_self.mpr h.inv.holds

/-- A payload that is cut is put on the queue, in front of what the sweep has left of it. -/
lemma Served.step_enqueuePacket (h : Served ops nm) {src dst : NodeID} {data : Bytes}
    {tSweep tCreate : ℤ} (hdata : 0 < data.length)
    (hsends : ∀ n, sends n (ops ++ [.enqueuePacket src dst data tSweep tCreate]) < 65536) :
    ∃ nm' a, networkManagerStep nm (.enqueuePacket src dst data tSweep tCreate) = .ok (nm', a)
      ∧ Served (ops ++ [.enqueuePacket src dst data tSweep tCreate]) nm'
      ∧ QueueStep nm nm' a (.enqueuePacket src dst data tSweep tCreate) := by
  have hfree := h.idFree dst tSweep
  have hwf := h.inv.wf.endpointFor_wf dst
  have hstep := networkManagerEnqueueOutgoingPacket_eq h.inv.wf src tCreate hdata h.fragSize
    hfree
  have hinv : (nm.enqueued src dst data tSweep tCreate).OutqueueInv := h.inv.enqueued hfree
  have hnode : (nm.enqueued src dst data tSweep tCreate).endpoint (nm.endpointFor dst).node
      = some ((nm.endpointFor dst).enqueued src data tSweep tCreate) := by
    rw [h.inv.wf.endpoint_enqueued, if_pos (nodeidEqual_symm (h.inv.wf.endpointFor_node dst))]
  have hswept : (nm.endpointFor dst).sweptQueue tSweep nm.outqueue
      = nm.outqueue.filter (nm.enqueued src dst data tSweep tCreate).holds := by
    refine h.inv.sweptQueue_eq_filter rfl hinv (fun el hm => List.mem_append_right _ hm)
      fun pid hp i => ?_
    -- a packet that was stored has an id below the new one
    obtain ⟨fp, hl⟩ := hwf.outgoing.lookup_of_swept hp
    have hlt := h.counted.below dst pid fp hl
    have hgone : ((nm.endpointFor dst).enqueued src data tSweep tCreate).outgoing.lookup pid
        = none := by
      rw [Endpoint.enqueued_lookup hwf.outgoing hfree, if_neg (by omega),
        hwf.outgoing.lookup_fresh_of_swept hp]
    rw [NetworkManager.slot, NetworkManager.queued, hnode]
    simp only [hgone, Option.map_none]
  refine ⟨_, .code 0, by rw [networkManagerStep, hstep]; rfl, h.enqueued hdata hsends, ?_⟩
  rw [QueueStep, if_neg (List.length_pos_iff.mp hdata)]
  exact congrArg _ hswept

/-- An empty payload is refused. -/
lemma Served.step_enqueueEmpty (h : Served ops nm) {src dst : NodeID} {tSweep tCreate : ℤ} :
    ∃ nm' a, networkManagerStep nm (.enqueuePacket src dst [] tSweep tCreate) = .ok (nm', a)
      ∧ Served (ops ++ [.enqueuePacket src dst [] tSweep tCreate]) nm'
      ∧ QueueStep nm nm' a (.enqueuePacket src dst [] tSweep tCreate) := by
  refine ⟨nm, .code (-1), rfl,
    h.of_silent (fun n => by simp [NmOp.sendsTo]) h.inv h.counted rfl, ?_⟩
  rw [QueueStep, if_pos rfl, h.outqueue_filter]
  rfl

lemma Served.step_popMsg (h : Served ops nm) :
    ∃ nm' a, networkManagerStep nm .popMsg = .ok (nm', a) ∧ Served (ops ++ [.popMsg]) nm'
      ∧ QueueStep nm nm' a .popMsg := by
  rw [networkManagerStep]
  simp only [QueueStep]
  cases hq : nm.outqueue with
  | nil =>
      refine ⟨nm, .message none, ?_, h.of_silent (fun _ => rfl) h.inv h.counted rfl, hq⟩
      rw [networkManagerPopOutgoingNetMsg, hq]
      rfl
  | cons el q =>
      cases el with
      | request r =>
          refine ⟨{ nm with outqueue := q },
            .message (some (.fragRequest { r with linked := false })), ?_,
            h.of_silent (fun _ => rfl) (h.inv.pop_request hq)
              ⟨h.counted.outId, h.counted.below⟩ rfl, rfl⟩
          rw [networkManagerPopOutgoingNetMsg, hq]
          rfl
      | fragment d pid i =>
          obtain ⟨e, fp, f, he, -, -, -, hpop, hinv⟩ := h.inv.pop_fragment hq
          exact ⟨_, _, by rw [hpop]; rfl, h.of_silent (fun _ => rfl) hinv
            (h.counted.link h.inv.wf he (h.inv.wf.endpoint_wf he).outgoing
              (fun pid fp hl => ⟨fp, hl⟩) fp i false) rfl, rfl⟩

lemma Served.enqueueFragment (h : Served ops nm) (dst : NodeID) (pid fid : ℕ) (t : ℤ) :
    Served (ops ++ [.enqueueFragment dst pid fid t])
      (networkManagerEnqueueOutgoingFragment nm dst pid fid t).1 := by
  have hinv := h.inv.enqueueFragment dst pid fid t
  have hrefr := h.counted.refreshed h.inv.wf dst t
  have hsize : (nm.refreshed dst t).fragSize = nm.fragSize := NetworkManager.refreshed_fragSize
  rcases networkManagerEnqueueOutgoingFragment_cases h.inv dst pid fid t with
    ⟨-, heq⟩ | ⟨e, fp, f, he, -, -, -, heq⟩
  · rw [heq] at hinv ⊢
    exact h.of_silent (fun _ => rfl) hinv hrefr hsize
  · rw [heq] at hinv ⊢
    split_ifs at hinv ⊢
    · exact h.of_silent (fun _ => rfl) hinv hrefr hsize
    · have hwf := (h.inv.wf.endpoint_wf he).outgoing
      exact h.of_silent (fun _ => rfl) hinv (h.counted.link h.inv.wf he (hwf.fresh t)
        (fun pid fp hl => ⟨fp, hwf.lookup_of_fresh hl⟩) fp fid true) rfl

/-- **One step of a run** can always be taken, keeps the invariant and does to the queue what
`QueueStep` says. -/
theorem Served.step (h : Served ops nm) (op : NmOp)
    (hsends : ∀ n, sends n (ops ++ [op]) < 65536) :
    ∃ nm' a, networkManagerStep nm op = .ok (nm', a) ∧ Served (ops ++ [op]) nm'
      ∧ QueueStep nm nm' a op := by
  cases op with
  | enqueuePacket src dst data tSweep tCreate =>
      cases data with
      | nil => exact h.step_enqueueEmpty
      | cons b data => exact h.step_enqueuePacket (by simp) hsends
  | popMsg => exact h.step_popMsg
  | enqueueFragment dst pid fid tSweep =>
      exact ⟨_, _, rfl, h.enqueueFragment dst pid fid tSweep,
        h.inv.refreshed_outqueue dst tSweep, h.inv.retransmitted dst pid fid tSweep⟩
  | addFragment f tSweep tCreate =>
      refine ⟨_, _, by rw [networkManagerStep, h.inv.addFragment],
        h.of_silent (fun _ => rfl) h.inv.arrived (h.counted.arrived h.inv.wf f _ _)
          NetworkManager.arrived_fragSize,
        (missingIds (nm.target f tSweep tCreate) f).map fun i =>
          fragRequestCreate f.fromNode f.toNode (nm.target f tSweep tCreate).packetId i true, ?_⟩
      rw [NetworkManager.arrived_outqueue, arrivalRequests, List.map_map]
      rfl
  | popPacket src pid size tSweep =>
      exact ⟨_, _, by rw [networkManagerStep, h.inv.popPacket],
        h.of_silent (fun _ => rfl) (h.inv.popped src pid tSweep)
          (h.counted.popped h.inv.wf src pid tSweep) (NetworkManager.popped_fragSize src pid),
        NetworkManager.popped_outqueue src pid⟩

/-- The fragment size of a manager is the configured one, when that is positive. -/
lemma networkManagerCreate_fragSize {config : NetworkConfig} (hsize : 1 ≤ config.fragSizeInt) :
    ((networkManagerCreate config).fragSize : ℤ) = config.fragSizeInt := by
  have hle : config.fragSizeInt ≤ INT_MAX := (config.fragSize.getD DEFAULT_FRAG_SIZE).2.2
  have hmax : INT_MAX < 2 ^ 64 := by decide
  simp only [networkManagerCreate]
  rw [Int.emod_eq_of_lt (by omega) (by omega)]
  omega

lemma networkManagerCreate_fragSize_lt {config : NetworkConfig} (hsize : 1 ≤ config.fragSizeInt) :
    (networkManagerCreate config).fragSize < 2 ^ 31 := by
  have heq := networkManagerCreate_fragSize hsize
  have hle : config.fragSizeInt ≤ INT_MAX := (config.fragSize.getD DEFAULT_FRAG_SIZE).2.2
  have hmax : INT_MAX < 2 ^ 31 := by decide
  omega

lemma networkManagerCreate_served {config : NetworkConfig} (hsize : 1 ≤ config.fragSizeInt) :
    Served [] (networkManagerCreate config) where
  inv := networkManagerCreate_outqueueInv config
  counted := NetworkManager.networkManagerCreate_counted config
  fragSize := by
    have heq := networkManagerCreate_fragSize hsize
    omega

/-- **A run never gets stuck** while fewer than 65536 packets go to each node. -/
theorem networkManager_run {config : NetworkConfig} (hsize : 1 ≤ config.fragSizeInt)
    {ops : List NmOp} (hsends : ∀ n, sends n ops < 65536) :
    ∃ nm answers, exec networkManagerStep (networkManagerCreate config) ops = .ok (nm, answers)
      ∧ Served ops nm := by
  refine exec_total (J := fun ops _ nm => Served ops nm) (networkManagerCreate_served hsize)
    fun pre op post _ nm hops h => ?_
  have hpre : ∀ n, sends n (pre ++ [op]) < 65536 := fun n => by
    have := hsends n
    rw [hops, List.append_cons, sends_append] at this
    omega
  obtain ⟨nm', a, hs, hserved, -⟩ := h.step op hpre
  exact ⟨nm', a, hs, hserved⟩

/-- **The outgoing queue through every run.**  After any operations on a fresh network manager, and
for any operation `op` after them: the manager is reached, `op` can be taken, the queue is
consistent before and after it, and `op` does to the queue what `QueueStep` says. -/
theorem outqueue_invariant (config : NetworkConfig) (hsize : 1 ≤ config.fragSizeInt)
    (ops : List NmOp) (op : NmOp) (hsends : ∀ n, sends n (ops ++ [op]) < 65536) :
    ∃ nm answers nm' a,
      exec networkManagerStep (networkManagerCreate config) ops = .ok (nm, answers)
      ∧ networkManagerStep nm op = .ok (nm', a)
      ∧ nm.QueueConsistent ∧ nm'.QueueConsistent ∧ QueueStep nm nm' a op := by
  have hops : ∀ n, sends n ops < 65536 := fun n => by
    have := hsends n
    rw [sends_append] at this
    omega
  obtain ⟨nm, answers, hexec, h⟩ := networkManager_run hsize hops
  obtain ⟨nm', a, hs, h', hq⟩ := h.step op hsends
  exact ⟨nm, answers, nm', a, hexec, hs, h.inv.consistent, h'.inv.consistent, hq⟩

end Runs

end PeerStreamer
