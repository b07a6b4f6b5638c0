import PeerStreamer.NetHelper.Ownership

/-!
# The outgoing queue

The queue holds fragments owned by the outgoing buckets and requests it owns itself.
`NetworkManager.OutqueueInv` says that every endpoint accounts for what is queued for its node,
and that nothing is queued for an unknown node.  Each operation keeps it, and the step lemmas
below also say what the operation makes of the queue.
-/

namespace PeerStreamer

/-! ## The invariant -/

/-- Every element of the queue is accounted for by an endpoint. -/
structure NetworkManager.OutqueueInv (nm : NetworkManager) : Prop where
  wf : nm.Wf
  owns : ∀ n e, nm.endpoint n = some e → e.Owns nm.outqueue
  known : ∀ dst pid i, QueueElem.fragment dst pid i ∈ nm.outqueue → ∃ e, nm.endpoint dst = some e

lemma networkManagerCreate_outqueueInv (config : NetworkConfig) :
    (networkManagerCreate config).OutqueueInv where
  wf := networkManagerCreate_wf config
  owns n e he := by simp at he
  known dst pid i hm := by simp at hm

lemma SameElsewhere.refl (node : NodeID) (q : MsgList) : SameElsewhere node q q :=
  fun _ _ _ _ => rfl

lemma SameElsewhere.trans {node : NodeID} {q q' q'' : MsgList} (h : SameElsewhere node q q')
    (h' : SameElsewhere node q' q'') : SameElsewhere node q q'' :=
  fun dst pid i hd => (h' dst pid i hd).trans (h dst pid i hd)

/-- Elements for `node` only, put in front of a queue or behind it, change nothing elsewhere. -/
lemma SameElsewhere.append {node : NodeID} (front q back : MsgList)
    (hf : ∀ dst pid i, QueueElem.fragment dst pid i ∈ front → nodeidEqual node dst)
    (hb : ∀ dst pid i, QueueElem.fragment dst pid i ∈ back → nodeidEqual node dst) :
    SameElsewhere node q (front ++ q ++ back) := by
  intro dst pid i hd
  have h₁ : front.count (.fragment dst pid i) = 0 :=
    List.count_eq_zero.mpr fun hm => by simp [hf _ _ _ hm] at hd
  have h₂ : back.count (.fragment dst pid i) = 0 :=
    List.count_eq_zero.mpr fun hm => by simp [hb _ _ _ hm] at hd
  rw [List.count_append, List.count_append, h₁, h₂]
  omega

namespace NetworkManager

variable {nm : NetworkManager} {node dst : NodeID} {e : Endpoint} {q : MsgList}

lemma OutqueueInv.owns_endpointFor (h : nm.OutqueueInv) (node : NodeID) :
    (nm.endpointFor node).Owns nm.outqueue := by
  cases he : nm.endpoint node with
  | some e =>
      rw [endpointFor_of_some he]
      exact h.owns node e he
  | none =>
      rw [endpointFor_of_none he]
      refine Endpoint.Owns.create _ _ fun dst pid i hm => ?_
      by_contra hn
      obtain ⟨e, he'⟩ := h.known dst pid i hm
      rw [← h.wf.endpoint_congr (Bool.eq_true_of_not_eq_false hn), he] at he'
      cases he'

/-- **The invariant is local.**  A store to one endpoint keeps it when the new endpoint accounts
for the new queue, and the queue has changed for its node only. -/
theorem OutqueueInv.put (h : nm.OutqueueInv) (hnode : e.node = (nm.endpointFor node).node)
    (hwf : e.Wf nm.fragSize nm.maxPktAge) (hown : e.Owns q)
    (hother : SameElsewhere e.node nm.outqueue q) : (nm.put node e q).OutqueueInv := by
  have hen : nodeidEqual e.node node := hnode ▸ h.wf.endpointFor_node node
  refine ⟨h.wf.put hwf, fun n e' he' => ?_, fun dst pid i hm => ?_⟩
  · rw [h.wf.endpoint_put hen] at he'
    split_ifs at he' with hn
    · obtain rfl := Option.some.inj he'
      exact hown
    · refine (h.owns n e' he').congr fun dst pid i hd => hother dst pid i ?_
      -- an endpoint other than the stored one has another node
      by_contra hed
      have hed' := Bool.eq_true_of_not_eq_false hed
      exact hn (nodeidEqual_trans (nodeidEqual_symm hen) (nodeidEqual_trans hed'
        (nodeidEqual_trans (nodeidEqual_symm hd) (h.wf.nodeidEqual_of_endpoint he'))))
  · rw [h.wf.endpoint_put hen]
    split_ifs with hn
    · exact ⟨e, rfl⟩
    · refine h.known dst pid i ?_
      rw [put_outqueue] at hm
      rw [← List.count_pos_iff, ← hother dst pid i ?_, List.count_pos_iff]
      · exact hm
      · rw [nodeidEqual_congr_left hen]
        exact Bool.eq_false_of_not_eq_true hn

end NetworkManager

/-! ## Sending -/

section Sending

variable {nm : NetworkManager} {src dst : NodeID} {data : Bytes} {tSweep tCreate : ℤ}

/-- The next packet to `dst` finds its id free after the sweep. -/
def NetworkManager.IdFree (nm : NetworkManager) (dst : NodeID) (tSweep : ℤ) : Prop :=
  ((nm.endpointFor dst).outgoing.fresh tSweep).lookup (nm.endpointFor dst).outId = none

instance (nm : NetworkManager) (dst : NodeID) (tSweep : ℤ) : Decidable (nm.IdFree dst tSweep) :=
  inferInstanceAs (Decidable (_ = _))

/-- The manager after a packet to `dst` has been cut, stored and queued. -/
def NetworkManager.enqueued (nm : NetworkManager) (src dst : NodeID) (data : Bytes)
    (tSweep tCreate : ℤ) : NetworkManager :=
  nm.put dst ((nm.endpointFor dst).enqueued src data tSweep tCreate)
    (((nm.endpointFor dst).cut src data).map fragmentListElement
      ++ (nm.endpointFor dst).sweptQueue tSweep nm.outqueue)

lemma Endpoint.enqueued_wf {e : Endpoint} {fragSize maxPktAge : ℕ} (h : e.Wf fragSize maxPktAge)
    (hfree : (e.outgoing.fresh tSweep).lookup e.outId = none) :
    (e.enqueued src data tSweep tCreate).Wf fragSize maxPktAge :=
  ⟨h.incoming, (h.outgoing.fresh tSweep).insert hfree, h.fragSize, h.inAge, h.outAge⟩

lemma Endpoint.cut_elements_node (e : Endpoint) (src : NodeID) (data : Bytes) {d : NodeID}
    {pid i : ℕ}
    (hm : QueueElem.fragment d pid i ∈ (e.cut src data).map fragmentListElement) :
    nodeidEqual e.node d := by
  obtain ⟨j, -, he⟩ := (Endpoint.Owns.cut_named e src data 0).mem_elements.mp hm
  cases he
  exact nodeidEqual_self _

/-- Enqueueing a packet keeps the invariant. -/
theorem NetworkManager.OutqueueInv.enqueued (h : nm.OutqueueInv) (hfree : nm.IdFree dst tSweep) :
    (nm.enqueued src dst data tSweep tCreate).OutqueueInv := by
  have hwf := h.wf.endpointFor_wf dst
  have hown := h.owns_endpointFor dst
  refine h.put rfl (Endpoint.enqueued_wf hwf hfree) (hown.enqueued hwf.outgoing hfree) ?_
  refine (hown.sweptQueue_elsewhere tSweep).trans ?_
  have happ := SameElsewhere.append (((nm.endpointFor dst).cut src data).map fragmentListElement)
    ((nm.endpointFor dst).sweptQueue tSweep nm.outqueue) []
    (fun d pid i hm => (nm.endpointFor dst).cut_elements_node src data hm)
    (fun d pid i hm => absurd hm List.not_mem_nil)
  rwa [List.append_nil] at happ

lemma NetworkManager.Wf.endpoint_enqueued (h : nm.Wf) (n : NodeID) :
    (nm.enqueued src dst data tSweep tCreate).endpoint n
      = if nodeidEqual dst n then some ((nm.endpointFor dst).enqueued src data tSweep tCreate)
        else nm.endpoint n :=
  h.endpoint_put (e := (nm.endpointFor dst).enqueued src data tSweep tCreate)
    (h.endpointFor_node dst)

/-- The first element of the queue is found behind its link. -/
lemma NetworkManager.OutqueueInv.queued (h : nm.OutqueueInv) {d : NodeID} {pid i : ℕ}
    (hm : QueueElem.fragment d pid i ∈ nm.outqueue) :
    ∃ e fp f, nm.endpoint d = some e ∧ d = e.node ∧ e.outgoing.lookup pid = some fp
      ∧ fp.frags[i]? = some f ∧ nm.queued d pid i = some (e, fp, f) := by
  obtain ⟨e, he⟩ := h.known d pid i hm
  obtain ⟨hd, fp, hl, hi⟩ := (h.owns d e he).stored d pid i hm (h.wf.nodeidEqual_of_endpoint he)
  refine ⟨e, fp, fp.frags[i], he, hd, hl, List.getElem?_eq_getElem hi, ?_⟩
  simp only [NetworkManager.queued, he, hl, List.getElem?_eq_getElem hi, Option.map_some]

/-- Setting the link of one stored fragment, together with its place on the queue. -/
lemma NetworkManager.OutqueueInv.link (h : nm.OutqueueInv) {e : Endpoint} {fp : FragmentedPacket}
    {pid id : ℕ} {b : Bool} {q : MsgList} (he : nm.endpoint dst = some e)
    (hl : e.outgoing.lookup pid = some fp) (hid : id < fp.frags.length)
    (hcount : q.count (.fragment e.node pid id) = b.toNat)
    (hother : ∀ d p i, ¬ (d = e.node ∧ p = pid ∧ i = id) →
      q.count (.fragment d p i) = nm.outqueue.count (.fragment d p i)) :
    (nm.link e fp id b q).OutqueueInv := by
  have hwf := h.wf.endpoint_wf he
  rw [NetworkManager.link, ← NetworkManager.put_of_some he]
  refine h.put (by rw [NetworkManager.endpointFor_of_some he])
    ⟨hwf.incoming, hwf.outgoing.store, hwf.fragSize, hwf.inAge, hwf.outAge⟩
    ((h.owns dst e he).relink hwf.outgoing q hl hid hcount hother) fun d p i hd => ?_
  refine hother d p i fun hc => ?_
  rw [hc.1, nodeidEqual_self] at hd
  exact absurd hd (by decide)

/-- A fragment popped from the queue is the stored one, with its link cleared in both places. -/
lemma NetworkManager.OutqueueInv.pop_fragment (h : nm.OutqueueInv) {d : NodeID} {pid i : ℕ}
    {q : MsgList} (hq : nm.outqueue = .fragment d pid i :: q) :
    ∃ e fp f, nm.endpoint d = some e ∧ d = e.node ∧ e.outgoing.lookup pid = some fp
      ∧ fp.frags[i]? = some f
      ∧ networkManagerPopOutgoingNetMsg nm
          = .ok (nm.link e fp i false q, some (.fragment { f with linked := false }))
      ∧ (nm.link e fp i false q).OutqueueInv := by
  obtain ⟨e, fp, f, he, hd, hl, hf, hqd⟩ := h.queued (by rw [hq]; exact List.mem_cons_self)
  have hlinked := (h.owns d e he).linked pid fp hl i f hf
  rw [hq, ← hd, List.count_cons_self] at hlinked
  refine ⟨e, fp, f, he, hd, hl, hf, ?_, h.link he hl (List.getElem?_eq_some_iff.mp hf).1 ?_ ?_⟩
  · rw [networkManagerPopOutgoingNetMsg, hq]
    simp only [hqd]
  · have := Bool.toNat_le f.linked
    rw [← hd, Bool.toNat_false]
    omega
  · intro d' p' i' hne
    rw [hq, List.count_cons_of_ne]
    rintro he'
    cases he'
    exact hne ⟨hd, rfl, rfl⟩

lemma NetworkManager.OutqueueInv.pop_request (h : nm.OutqueueInv) {r : FragRequest} {q : MsgList}
    (hq : nm.outqueue = .request r :: q) : ({ nm with outqueue := q }).OutqueueInv := by
  refine ⟨⟨h.wf.sorted, h.wf.wf⟩, fun n e he => ?_, fun d pid i hm => ?_⟩
  · refine (h.owns n e he).congr fun d pid i _ => ?_
    rw [hq, List.count_cons_of_ne (by simp)]
  · exact h.known d pid i (by rw [hq]; exact List.mem_cons_of_mem _ hm)

/-- **Popping a message** takes the first element off the queue, follows a link that is valid, and
keeps the invariant. -/
theorem NetworkManager.OutqueueInv.popMsg (h : nm.OutqueueInv) :
    ∃ nm' m, networkManagerPopOutgoingNetMsg nm = .ok (nm', m) ∧ nm'.OutqueueInv
      ∧ nm'.outqueue = nm.outqueue.tail := by
  cases hq : nm.outqueue with
  | nil => exact ⟨nm, none, by rw [networkManagerPopOutgoingNetMsg, hq], h, by rw [hq]; rfl⟩
  | cons el q =>
      cases el with
      | request r =>
          exact ⟨_, _, by rw [networkManagerPopOutgoingNetMsg, hq], h.pop_request hq, rfl⟩
      | fragment d pid i =>
          obtain ⟨e, fp, f, -, -, -, -, hpop, hinv⟩ := h.pop_fragment hq
          exact ⟨_, _, hpop, hinv, rfl⟩

end Sending

/-! ## When enqueueing a packet succeeds -/

/-- Storing a packet needs a fragment size and a free id; without them the source follows a NULL
pointer, or returns the list it has freed. -/
lemma packetBucketAddPacket_error {pb : PacketBucket} (h : pb.Wf) (src dst : NodeID) {pid : ℕ}
    {data : Bytes} {tSweep : ℤ} (tCreate : ℤ) (q : MsgList) (hdata : 0 < data.length)
    (hbad : ¬ (0 < pb.fragSize ∧ (pb.fresh tSweep).lookup pid = none)) :
    ∃ u, packetBucketAddPacket pb src dst pid data tSweep tCreate q = .error u := by
  rw [packetBucketAddPacket, if_pos hdata, packetBucketPeriodicRefresh_eq h]
  by_cases hsize : 0 < pb.fragSize
  · have hl : (pb.fresh tSweep).lookup pid ≠ none := fun hn => hbad ⟨hsize, hn⟩
    obtain ⟨fp, hl⟩ := Option.ne_none_iff_exists'.mp hl
    have hfind := (h.fresh tSweep).find_eq_lookup
      ⟨pid, tCreate, cutFragments src dst pid data pb.fragSize⟩
    rw [hl] at hfind
    refine ⟨.useAfterFree, ?_⟩
    have hcut : fragmentedPacketCreate pid src dst data (pb.without (pb.swept tSweep)).fragSize
        tCreate [] = (some ⟨pid, tCreate, cutFragments src dst pid data pb.fragSize⟩,
          (cutFragments src dst pid data pb.fragSize).map fragmentListElement) := by
      rw [fragmentedPacketCreate, if_pos ⟨hdata, hsize⟩]
      rfl
    simp only [hcut]
    simp only [PacketBucket.fresh] at hfind
    simp only [hfind]
  · refine ⟨.nullDereference, ?_⟩
    have hcut : fragmentedPacketCreate pid src dst data (pb.without (pb.swept tSweep)).fragSize
        tCreate [] = (none, []) := by
      rw [fragmentedPacketCreate, if_neg fun hc => hsize hc.2]
    simp only [hcut]

lemma networkManagerEnqueueOutgoingPacket_error {nm : NetworkManager} (h : nm.Wf)
    (src : NodeID) {dst : NodeID} {data : Bytes} {tSweep : ℤ} (tCreate : ℤ)
    (hdata : 0 < data.length) (hbad : ¬ (0 < nm.fragSize ∧ nm.IdFree dst tSweep)) :
    ∃ u, networkManagerEnqueueOutgoingPacket nm src dst data tSweep tCreate = .error u := by
  have hwf := h.endpointFor_wf dst
  obtain ⟨u, hu⟩ := packetBucketAddPacket_error hwf.outgoing src (nm.endpointFor dst).node
    tCreate nm.outqueue hdata
    (by rw [hwf.fragSize]; exact hbad)
  refine ⟨u, ?_⟩
  have hobt : nm.obtainEndpoint dst = ((nm.obtainEndpoint dst).1, nm.endpointFor dst) := by
    rw [← NetworkManager.obtainEndpoint_snd]
  rw [networkManagerEnqueueOutgoingPacket, if_pos hdata, hobt]
  simp only [endpointEnqueueOutgoingPacket, if_pos hdata, NetworkManager.obtainEndpoint_outqueue,
    hu, Eval.error_bind]

/-! ## Retransmitting -/

section Retransmitting

variable {nm : NetworkManager} {dst : NodeID} {pid fid : ℕ} {t : ℤ}

/-- The manager after the outgoing bucket of `dst` has been swept. -/
def NetworkManager.refreshed (nm : NetworkManager) (dst : NodeID) (t : ℤ) : NetworkManager :=
  match nm.endpoint dst with
  | none => nm
  | some e => nm.put dst (e.refreshed t) (e.sweptQueue t nm.outqueue)

lemma Endpoint.refreshed_wf {e : Endpoint} {fragSize maxPktAge : ℕ}
    (h : e.Wf fragSize maxPktAge) (t : ℤ) : (e.refreshed t).Wf fragSize maxPktAge :=
  ⟨h.incoming, h.outgoing.fresh t, h.fragSize, h.inAge, h.outAge⟩

lemma NetworkManager.OutqueueInv.refreshed (h : nm.OutqueueInv) (dst : NodeID) (t : ℤ) :
    (nm.refreshed dst t).OutqueueInv := by
  rw [NetworkManager.refreshed]
  cases he : nm.endpoint dst with
  | none => exact h
  | some e =>
      have hwf := h.wf.endpoint_wf he
      have hown := h.owns dst e he
      exact h.put (by rw [NetworkManager.endpointFor_of_some he]; rfl)
        (Endpoint.refreshed_wf hwf t) (hown.sweep hwf.outgoing t) (hown.sweptQueue_elsewhere t)

lemma NetworkManager.refreshed_of_some {e : Endpoint} (he : nm.endpoint dst = some e) :
    nm.refreshed dst t = nm.put dst (e.refreshed t) (e.sweptQueue t nm.outqueue) := by
  rw [NetworkManager.refreshed, he]

@[simp] lemma NetworkManager.refreshed_fragSize :
    (nm.refreshed dst t).fragSize = nm.fragSize := by
  rw [NetworkManager.refreshed]
  cases nm.endpoint dst <;> simp

lemma NetworkManager.Wf.refreshed_endpoint (h : nm.Wf) {e : Endpoint}
    (he : nm.endpoint dst = some e) : (nm.refreshed dst t).endpoint dst = some (e.refreshed t) := by
  have hen := h.nodeidEqual_of_endpoint he
  rw [NetworkManager.refreshed_of_some he, h.endpoint_put (e := e.refreshed t) hen,
    if_pos (nodeidEqual_self _)]

/-- `network_manager_enqueue_outgoing_fragment` in cases: after the sweep the fragment is not
stored, or it is and its link says whether it is queued. -/
lemma networkManagerEnqueueOutgoingFragment_cases (h : nm.OutqueueInv) (dst : NodeID)
    (pid fid : ℕ) (t : ℤ) :
    ((nm.refreshed dst t).queued dst pid fid = none
      ∧ networkManagerEnqueueOutgoingFragment nm dst pid fid t = (nm.refreshed dst t, -2))
    ∨ ∃ e fp f, nm.endpoint dst = some e ∧ (e.refreshed t).outgoing.lookup pid = some fp
      ∧ fp.frags[fid]? = some f
      ∧ (nm.refreshed dst t).queued dst pid fid = some (e.refreshed t, fp, f)
      ∧ networkManagerEnqueueOutgoingFragment nm dst pid fid t
        = if f.linked then (nm.refreshed dst t, 1)
          else (nm.link (e.refreshed t) fp fid true
            ((nm.refreshed dst t).outqueue ++ [fragmentListElement f]), 0) := by
  cases he : nm.endpoint dst with
  | none =>
      left
      simp only [NetworkManager.refreshed, NetworkManager.queued,
        networkManagerEnqueueOutgoingFragment, he, and_self]
  | some e =>
      have hwf := h.wf.endpoint_wf he
      have hstore : nm.store (e.refreshed t) (e.sweptQueue t nm.outqueue) = nm.refreshed dst t := by
        rw [NetworkManager.refreshed_of_some he, NetworkManager.put_of_some he]
      have hend := h.wf.refreshed_endpoint (t := t) he
      have hget : endpointGetOutgoingFragment e pid fid nm.outqueue t
          = (e.refreshed t, e.sweptQueue t nm.outqueue,
             ((e.refreshed t).outgoing.lookup pid).bind (·.frags[fid]?)) := by
        rw [endpointGetOutgoingFragment, packetBucketGetFragment_eq hwf.outgoing]
        rfl
      rw [networkManagerEnqueueOutgoingFragment, he]
      simp only [hget, NetworkManager.queued, hend, hstore]
      cases hl : (e.refreshed t).outgoing.lookup pid with
      | none => exact Or.inl ⟨rfl, rfl⟩
      | some fp =>
          cases hf : fp.frags[fid]? with
          | none => exact Or.inl ⟨by simp [hf], by simp [hf]⟩
          | some f =>
              refine Or.inr ⟨e, fp, f, rfl, hl, hf, by simp [hf], ?_⟩
              simp only [Option.bind_some, hf, NetworkManager.refreshed_of_some he,
                NetworkManager.put_outqueue]

/-- **Retransmitting a fragment keeps the invariant**, and the queue it leaves is the swept one,
with the fragment behind it when the answer is 0. -/
theorem NetworkManager.OutqueueInv.enqueueFragment (h : nm.OutqueueInv) (dst : NodeID)
    (pid fid : ℕ) (t : ℤ) :
    (networkManagerEnqueueOutgoingFragment nm dst pid fid t).1.OutqueueInv := by
  rcases networkManagerEnqueueOutgoingFragment_cases h dst pid fid t with
    ⟨-, heq⟩ | ⟨e, fp, f, he, hl, hf, hq, heq⟩
  · rw [heq]
    exact h.refreshed dst t
  · rw [heq]
    split_ifs with hlink
    · exact h.refreshed dst t
    · have hwf := Endpoint.refreshed_wf (h.wf.endpoint_wf he) t
      have hown := (h.refreshed dst t).owns dst _ (h.wf.refreshed_endpoint he)
      have hel : fragmentListElement f = .fragment e.node pid fid :=
        (hown.named pid fp hl).element hf
      have hcount := hown.linked pid fp hl fid f hf
      rw [Bool.eq_false_of_not_eq_true hlink] at hcount
      have hown' := hown.relink hwf.outgoing (b := true)
        ((nm.refreshed dst t).outqueue ++ [fragmentListElement f]) hl
        (List.getElem?_eq_some_iff.mp hf).1
        (by
          rw [List.count_append, hcount, hel, List.count_singleton]
          simp [Endpoint.refreshed])
        (fun d p i hne => by
          rw [List.count_append, hel, List.count_singleton, if_neg, Nat.add_zero]
          simp only [beq_iff_eq, QueueElem.fragment.injEq]
          rintro ⟨rfl, rfl, rfl⟩
          exact hne ⟨rfl, rfl, rfl⟩)
      rw [NetworkManager.link, ← NetworkManager.put_of_some he]
      refine h.put (by rw [NetworkManager.endpointFor_of_some he]; rfl)
        ⟨hwf.incoming, hwf.outgoing.store, hwf.fragSize, hwf.inAge, hwf.outAge⟩ hown' ?_
      have hswept : SameElsewhere e.node nm.outqueue (nm.refreshed dst t).outqueue := by
        rw [NetworkManager.refreshed, he]
        exact (h.owns dst e he).sweptQueue_elsewhere t
      refine hswept.trans ?_
      have happ := SameElsewhere.append [] (nm.refreshed dst t).outqueue [fragmentListElement f]
        (fun d p i hm => absurd hm List.not_mem_nil)
        (fun d p i hm => by
          rw [hel, List.mem_singleton] at hm
          cases hm
          exact nodeidEqual_self _)
      rwa [List.nil_append] at happ

end Retransmitting

end PeerStreamer
