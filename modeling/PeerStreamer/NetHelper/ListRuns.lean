import PeerStreamer.NetHelper.ListMemory

/-!
# The lists of the network manager in memory

The queue and the buckets are lists of values in the other files, and a fragment has a flag that
says whether it is linked.  In memory they are circular lists of list heads, and what is on no list
has NULL links.  `listUses nm u` is what every list head of a network manager is used for, so that
`Laid m (nm.listUses u)` says that memory holds these lists; `lists_in_memory` proves that every run
makes its calls to `list.h` without following a pointer that is NULL or no longer valid, and that
memory holds the lists in the end.
-/

namespace PeerStreamer

/-! ## The nodes on the queue -/

/-- The requests on a queue. -/
def QueueElem.isRequest : QueueElem → Bool
  | .request _ => true
  | .fragment .. => false

/-- There is a number for every request on the queue, and none is used twice. -/
structure ListUse.Fits (u : ListUse) (q : MsgList) : Prop where
  length : u.queued.length = q.countP QueueElem.isRequest
  nodup : u.queued.Nodup
  below : ∀ k ∈ u.queued, k < u.made

section QueueNodes

variable {q : MsgList} {ks : List ℕ}

/-- What is taken off the queue are fragments. -/
lemma queueNodes_filter {p : QueueElem → Bool} {p' : ListNode → Bool}
    (hslot : ∀ n pid id, p (.fragment n pid id) = p' (.slot .outgoing n pid id))
    (hreq : ∀ r, p (.request r) = true) (hnode : ∀ k, p' (.request k) = true) :
    queueNodes (q.filter p) ks = (queueNodes q ks).filter p' := by
  induction q generalizing ks with
  | nil => rfl
  | cons el q ih =>
      cases el with
      | fragment n pid id =>
          rw [queueNodes, List.filter_cons, List.filter_cons, hslot, ← ih]
          split_ifs <;> rfl
      | request r =>
          rw [List.filter_cons_of_pos (hreq r)]
          cases ks with
          | nil => exact ih
          | cons k ks => rw [queueNodes, queueNodes, List.filter_cons_of_pos (hnode k), ih]

lemma queueNodes_append_fragment (n : NodeID) (pid id : ℕ) :
    queueNodes (q ++ [.fragment n pid id]) ks = queueNodes q ks ++ [.slot .outgoing n pid id] := by
  induction q generalizing ks with
  | nil => rfl
  | cons el q ih =>
      cases el with
      | fragment n pid id => rw [List.cons_append, queueNodes, queueNodes, ih, List.cons_append]
      | request r =>
          cases ks with
          | nil => exact ih
          | cons k ks => rw [List.cons_append, queueNodes, queueNodes, ih, List.cons_append]

lemma queueNodes_fragments_append (n : NodeID) (pid : ℕ) (is : List ℕ) :
    queueNodes (is.map (.fragment n pid) ++ q) ks
      = is.map (.slot .outgoing n pid) ++ queueNodes q ks := by
  induction is with
  | nil => rfl
  | cons i is ih => rw [List.map_cons, List.cons_append, queueNodes, ih, List.map_cons,
      List.cons_append]

lemma queueNodes_requests_append {rs : List FragRequest} {new : List ℕ}
    (hlen : new.length = rs.length) :
    queueNodes (rs.map .request ++ q) (new ++ ks) = new.map .request ++ queueNodes q ks := by
  induction rs generalizing new with
  | nil =>
      obtain rfl := List.length_eq_zero_iff.mp hlen
      rfl
  | cons r rs ih =>
      cases new with
      | nil => cases hlen
      | cons k new =>
          rw [List.map_cons, List.cons_append, List.cons_append, queueNodes,
            ih (Nat.succ.inj hlen), List.map_cons, List.cons_append]

end QueueNodes

/-! ## What the list heads are used for -/

namespace NetworkManager

/-- The bucket that is stored for a node. -/
def bucketAt (nm : NetworkManager) (d : Direction) (n : NodeID) : Option PacketBucket :=
  ((nm.endpoint n).filter (·.node = n)).map (·.bucket d)

/-- What every list head of a network manager is used for.  A request that has been popped stays
allocated. -/
def listUses (nm : NetworkManager) (u : ListUse) : NodeUses ListNode
  | .outqueue => .head (queueNodes nm.outqueue u.queued)
  | .fresh => .absent
  | .packets d n =>
      (nm.bucketAt d n).elim .absent fun pb => .head (pb.packetList.map (.packet d n))
  | .packet d n pid => (nm.bucketAt d n).elim .absent fun pb => pb.packetUse d n pid
  | .slot d n pid i => (nm.bucketAt d n).elim .absent fun pb => pb.slotUse pid i
  | .request k =>
      if k ∈ u.queued then .on .outqueue else if k < u.made then .off else .absent

variable {nm : NetworkManager} {u u' : ListUse} {dst : NodeID} {e e' : Endpoint} {d : Direction}
  {q : MsgList}

lemma Wf.bucketAt_node (h : nm.Wf) (he : nm.endpoint dst = some e) (d : Direction) :
    nm.bucketAt d e.node = some (e.bucket d) := by
  rw [bucketAt, h.endpoint_congr (h.nodeidEqual_of_endpoint he), he]
  simp

/-- A store changes the buckets of one node. -/
lemma Wf.bucketAt_store (h : nm.Wf) (he : nm.endpoint dst = some e) (hnode : e'.node = e.node)
    (n : NodeID) : (nm.store e' q).bucketAt d n
      = if n = e.node then some (e'.bucket d) else nm.bucketAt d n := by
  have hen : nodeidEqual e'.node dst := hnode ▸ h.nodeidEqual_of_endpoint he
  rw [bucketAt, ← put_of_some he, h.endpoint_put hen]
  by_cases hn : n = e.node
  · subst hn
    have hdst : nodeidEqual dst e.node := nodeidEqual_symm (h.nodeidEqual_of_endpoint he)
    simp [hdst, hnode]
  · rw [if_neg hn, bucketAt]
    split_ifs with hdst
    · rw [← h.endpoint_congr hdst, he]
      simp [Option.filter, hnode, Ne.symm hn]
    · rfl

/-- The list heads of a bucket are used as it says. -/
lemma Wf.listUses_eq (h : nm.Wf) (he : nm.endpoint dst = some e) (d : Direction) (u : ListUse) :
    nm.listUses u = (nm.listUses u).withBucket d e.node (e.bucket d)
      (queueNodes nm.outqueue u.queued) :=
  eq_withBucket rfl (by simp [listUses, h.bucketAt_node he])
    (fun pid => by simp [listUses, h.bucketAt_node he])
    (fun pid i => by simp [listUses, h.bucketAt_node he]) fun _ _ _ => rfl

/-- **A store** to one bucket, with the queue as it is then. -/
lemma Wf.listUses_store (h : nm.Wf) (he : nm.endpoint dst = some e) (e' : Endpoint)
    (hnode : e'.node = e.node) (hother : ∀ d', d' ≠ d → e'.bucket d' = e.bucket d')
    (q : MsgList) (u : ListUse) :
    (nm.store e' q).listUses u = (nm.listUses u).withBucket d e.node (e'.bucket d)
      (queueNodes q u.queued) := by
  -- another bucket is as it was, be it of the same node or not
  have hsame : ∀ d' n, ¬ (d' = d ∧ n = e.node) →
      (nm.store e' q).bucketAt d' n = nm.bucketAt d' n := fun d' n hne => by
    rw [h.bucketAt_store he hnode]
    split_ifs with hn
    · subst hn
      rw [h.bucketAt_node he, hother d' fun hd => hne ⟨hd, rfl⟩]
    · rfl
  have hnew : (nm.store e' q).bucketAt d e.node = some (e'.bucket d) := by
    rw [h.bucketAt_store he hnode, if_pos rfl]
  refine eq_withBucket rfl ?_ (fun pid => ?_) (fun pid i => ?_) fun x hq hx => ?_
  · simp [listUses, hnew]
  · simp [listUses, hnew]
  · simp [listUses, hnew]
  · cases x with
    | outqueue => exact absurd rfl hq
    | packets d' n => simp only [listUses, hsame d' n hx]
    | packet d' n pid => simp only [listUses, hsame d' n hx]
    | slot d' n pid i => simp only [listUses, hsame d' n hx]
    | _ => rfl

lemma Wf.listUses_incoming (h : nm.Wf) (he : nm.endpoint dst = some e) (pb : PacketBucket)
    (q : MsgList) (u : ListUse) : (nm.store { e with incoming := pb } q).listUses u
      = (nm.listUses u).withBucket .incoming e.node pb (queueNodes q u.queued) :=
  h.listUses_store (d := .incoming) he { e with incoming := pb } rfl
    (fun d' hd => by cases d' <;> [exact absurd rfl hd; rfl]) q u

lemma Wf.listUses_outgoing (h : nm.Wf) (he : nm.endpoint dst = some e) (pb : PacketBucket)
    (outId : ℕ) (q : MsgList) (u : ListUse) :
    (nm.store { e with outgoing := pb, outId } q).listUses u
      = (nm.listUses u).withBucket .outgoing e.node pb (queueNodes q u.queued) :=
  h.listUses_store (d := .outgoing) he { e with outgoing := pb, outId } rfl
    (fun d' hd => by cases d' <;> [rfl; exact absurd rfl hd]) q u

/-- The buckets of an endpoint that is created are empty. -/
lemma Wf.bucketAt_obtainEndpoint (h : nm.Wf) (he : nm.endpoint dst = none) (n : NodeID) :
    (nm.obtainEndpoint dst).1.bucketAt d n
      = if n = dst then some (packetBucketCreate nm.fragSize nm.maxPktAge)
        else nm.bucketAt d n := by
  rw [bucketAt, h.endpoint_obtainEndpoint, endpointFor_of_none he]
  by_cases hn : n = dst
  · subst hn
    cases d <;> simp [nodeidEqual_self, endpointCreate, Endpoint.bucket]
  · rw [if_neg hn, bucketAt]
    split_ifs with hdst
    · rw [← h.endpoint_congr hdst, he]
      simp [Option.filter, endpointCreate, Ne.symm hn]
    · rfl

/-- **`endpoint_create`**: two new lists, if the node has no endpoint yet. -/
lemma Wf.does_obtainEndpoint (h : nm.Wf) (dst : NodeID) (u : ListUse) :
    Does (nm.listUses u) (nm.obtainEndpointCalls dst) ((nm.obtainEndpoint dst).1.listUses u) := by
  rw [obtainEndpointCalls]
  cases he : nm.endpoint dst with
  | some e =>
      rw [obtainEndpoint_of_some he]
      exact .nil
  | none =>
      have hnone : ∀ d, nm.bucketAt d dst = none := fun d => by rw [bucketAt, he]; rfl
      have hbucket := fun (d : Direction) n => h.bucketAt_obtainEndpoint (d := d) he n
      have hqueue : (nm.obtainEndpoint dst).1.outqueue = nm.outqueue := obtainEndpoint_outqueue
      refine (((Does.malloc ?_).cons (Does.init ?_ ?_)).append
        ((Does.malloc ?_).cons (Does.init ?_ ?_))).to (funext fun x => ?_)
      · simp [listUses, hnone]
      · simp [NodeUses.setAll, NodeUse.Loose]
      · simp [NodeUses.setAll]
      · simp [NodeUses.setAll, listUses, hnone]
      · simp [NodeUses.setAll, NodeUse.Loose]
      · simp [NodeUses.setAll]
      · cases x with
        | outqueue => simp [NodeUses.setAll, listUses, hqueue]
        | packets d n =>
            by_cases hn : n = dst
            · cases d <;> simp [NodeUses.setAll, listUses, hbucket, hn, packetBucketCreate]
            · simp [NodeUses.setAll, listUses, hbucket, hn]
        | packet d n pid =>
            by_cases hn : n = dst
            · simp [NodeUses.setAll, listUses, hbucket, hn, hnone, PacketBucket.packetUse]
            · simp [NodeUses.setAll, listUses, hbucket, hn]
        | slot d n pid i =>
            by_cases hn : n = dst
            · simp [NodeUses.setAll, listUses, hbucket, hn, hnone, PacketBucket.slotUse]
            · simp [NodeUses.setAll, listUses, hbucket, hn]
        | _ => simp [NodeUses.setAll, listUses]

/-- An endpoint that has been asked for is there. -/
lemma Wf.obtainEndpoint_endpoint (h : nm.Wf) (dst : NodeID) :
    (nm.obtainEndpoint dst).1.endpoint dst = some (nm.endpointFor dst) := by
  rw [h.endpoint_obtainEndpoint, if_pos (nodeidEqual_self dst)]

end NetworkManager

/-! ## One fragment -/

section Relink

variable {S : NodeUses ListNode} {d : Direction} {n : NodeID} {pb : PacketBucket}
  {fp : FragmentedPacket} {f : Fragment} {pid i : ℕ}

/-- What the list head of a fragment is used for follows its link. -/
lemma slotUse_relink (h : pb.Wf) (hl : pb.lookup pid = some fp) (hf : fp.frags[i]? = some f)
    (b : Bool) (p j : ℕ) : (pb.store (fp.relink i b)).slotUse p j
      = if p = pid ∧ j = i then (if b then .on .outqueue else .off) else pb.slotUse p j := by
  have hid := h.packetId_of_lookup hl
  by_cases hp : pid = p
  · subst hp
    by_cases hj : i = j
    · subst hj
      simp [PacketBucket.slotUse, h.lookup_store, hid, hl, FragmentedPacket.relink, hf]
    · simp [PacketBucket.slotUse, h.lookup_store, hid, hl, FragmentedPacket.relink, hj, Ne.symm hj]
  · simp [PacketBucket.slotUse, h.lookup_store, hid, hp, Ne.symm hp]

lemma packetUse_store (h : pb.Wf) (pid : ℕ) :
    (pb.store fp).packetUse d n pid = pb.packetUse d n pid := by
  simp only [PacketBucket.packetUse, h.lookup_store]
  split_ifs <;> simp_all

/-- A fragment is put on the queue or taken off it. -/
lemma withBucket_relink (h : pb.Wf) (hl : pb.lookup pid = some fp) (hf : fp.frags[i]? = some f)
    (b : Bool) {qs qs' : List ListNode} :
    (S.withBucket d n pb qs).relist .outqueue qs' [.slot d n pid i]
        (if b then .on .outqueue else .off)
      = S.withBucket d n (pb.store (fp.relink i b)) qs' := by
  refine eq_withBucket NodeUses.relist_head ?_ (fun p => ?_) (fun p j => ?_) fun x hq hx => ?_
  · rw [NodeUses.relist_of_notMem (by simp) (by simp), withBucket_packets]
    rfl
  · rw [NodeUses.relist_of_notMem (by simp) (by simp), withBucket_packet, packetUse_store h]
  · rw [slotUse_relink h hl hf]
    by_cases hs : p = pid ∧ j = i
    · simp [NodeUses.relist, hs]
    · simp [NodeUses.relist, hs]
  · have hne : x ∉ [ListNode.slot d n pid i] := fun hm =>
      hx (List.mem_singleton.mp hm ▸ ⟨rfl, rfl⟩)
    rw [NodeUses.relist_of_notMem hne hq, withBucket_of_not hq hx]

end Relink

/-! ## One operation -/

lemma ListUse.Fits.congr {u : ListUse} {q q' : MsgList} (h : u.Fits q)
    (hcount : q'.countP QueueElem.isRequest = q.countP QueueElem.isRequest) : u.Fits q' :=
  ⟨h.length.trans hcount.symm, h.nodup, h.below⟩

/-- New requests, which get the next numbers, are put in front of the queue. -/
def ListUse.add (u : ListUse) (c : ℕ) : ListUse :=
  ⟨List.range' u.made c ++ u.queued, u.made + c⟩

lemma ListUse.Fits.add {u : ListUse} {q : MsgList} (h : u.Fits q) (rs : List FragRequest) :
    (u.add rs.length).Fits (rs.map .request ++ q) where
  length := by
    have hall : (rs.map QueueElem.request).countP QueueElem.isRequest = rs.length := by
      rw [List.countP_map]
      exact List.countP_eq_length.mpr fun _ _ => rfl
    rw [ListUse.add, List.length_append, List.length_range', List.countP_append, hall, h.length]
  nodup := by
    refine List.nodup_append.mpr ⟨List.nodup_range', h.nodup, fun k hk k' hk' => ?_⟩
    have hlt := h.below k' hk'
    rw [List.mem_range'_1] at hk
    omega
  below k hk := by
    rcases List.mem_append.mp hk with hk | hk
    · exact (List.mem_range'_1.mp hk).2
    · exact Nat.lt_add_right _ (h.below k hk)

section Sweep

variable {e : Endpoint} {q : MsgList}

lemma PacketBucket.Wf.mem_slotNodes {pb : PacketBucket} (h : pb.Wf) {d : Direction} {n : NodeID}
    {dead : List ℕ} {x : ListNode} : x ∈ pb.slotNodes d n dead
      ↔ ∃ pid ∈ dead, ∃ fp, pb.lookup pid = some fp ∧ ∃ i < fp.fragNum, x = .slot d n pid i := by
  simp only [PacketBucket.slotNodes, List.mem_flatMap]
  refine exists_congr fun pid => and_congr_right fun _ => ?_
  cases hl : pb.lookup pid with
  | none => simp
  | some fp => simp [FragmentedPacket.mem_slots, h.packetId_of_lookup hl]

/-- The sweep takes the same off the queue in memory. -/
lemma Endpoint.Owns.queueNodes_sweptQueue (h : e.Owns q) (hwf : e.outgoing.Wf) (t : ℤ)
    (ks : List ℕ) : queueNodes (e.sweptQueue t q) ks = (queueNodes q ks).filter
      (· ∉ e.outgoing.slotNodes .outgoing e.node (e.outgoing.swept t)) := by
  rw [h.sweptQueue_eq]
  refine queueNodes_filter (fun n pid id => ?_) (fun r => ?_) fun k => ?_
  · refine decide_eq_decide.mpr (not_congr ?_)
    rw [h.mem_owned, hwf.mem_slotNodes]
    simp [FragmentedPacket.fragNum]
  · refine decide_eq_true fun hm => ?_
    obtain ⟨pid, -, fp, -, i, -, he⟩ := h.mem_owned.mp hm
    cases he
  · refine decide_eq_true fun hm => ?_
    obtain ⟨pid, -, fp, -, i, -, he⟩ := hwf.mem_slotNodes.mp hm
    cases he

lemma Endpoint.Owns.countP_sweptQueue (h : e.Owns q) (t : ℤ) :
    (e.sweptQueue t q).countP QueueElem.isRequest = q.countP QueueElem.isRequest := by
  rw [h.sweptQueue_eq, List.countP_filter]
  refine List.countP_congr fun el _ => ?_
  cases el with
  | fragment n pid i => simp [QueueElem.isRequest]
  | request r =>
      have hno : QueueElem.request r ∉ e.outgoing.owned (e.outgoing.swept t) := fun hm => by
        obtain ⟨pid, -, fp, -, i, -, he⟩ := h.mem_owned.mp hm
        cases he
      simp [QueueElem.isRequest, hno]

end Sweep

namespace NetworkManager

variable {nm nm' : NetworkManager} {u : ListUse} {a : NmAnswer} {dst : NodeID} {e : Endpoint}

/-- An operation makes its calls, and memory is in order after them. -/
structure ListStep (nm : NetworkManager) (u : ListUse) (op : NmOp) (nm' : NetworkManager) : Prop
    where
  does : Does (nm.listUses u) (nm.listCalls u op) (nm'.listUses (nm.listUse u op))
  fits : (nm.listUse u op).Fits nm'.outqueue

/-- The first message of the queue. -/
lemma OutqueueInv.listStep_popMsg (h : nm.OutqueueInv) (hu : u.Fits nm.outqueue)
    (hs : networkManagerStep nm .popMsg = .ok (nm', a)) : nm.ListStep u .popMsg nm' := by
  have hpop : Does (nm.listUses u) [(.pop .outqueue, _)] _ :=
    Does.pop (l := queueNodes nm.outqueue u.queued) rfl
  cases hq : nm.outqueue with
  | nil =>
      rw [networkManagerStep, networkManagerPopOutgoingNetMsg, hq] at hs
      cases hs
      rw [hq] at hpop
      have huse : nm.listUse u .popMsg = u := by rw [listUse, hq]
      refine ⟨?_, by rwa [huse]⟩
      rw [listCalls, huse, hq]
      refine hpop.to (funext fun x => ?_)
      by_cases hx : x = .outqueue
      · simp [NodeUses.relist, hx, listUses, hq, queueNodes]
      · simp [NodeUses.relist, hx, queueNodes]
  | cons el q =>
      cases el with
      | request r =>
          obtain ⟨k, ks, hks⟩ : ∃ k ks, u.queued = k :: ks := by
            refine List.exists_cons_of_length_pos ?_
            rw [hu.length, hq, List.countP_cons_of_pos rfl]
            exact Nat.succ_pos _
          have hnd := hks ▸ hu.nodup
          rw [networkManagerStep, networkManagerPopOutgoingNetMsg, hq] at hs
          cases hs
          have huse : nm.listUse u .popMsg = { u with queued := ks } := by
            rw [listUse, hq, hks]
            rfl
          refine ⟨?_, ?_⟩
          · rw [listCalls, huse, hq, hks]
            rw [hq, hks] at hpop
            refine hpop.to (funext fun x => ?_)
            cases x with
            | outqueue => simp [NodeUses.relist, listUses, queueNodes]
            | request k' =>
                have hk := (List.nodup_cons.mp hnd).1
                have hbelow := hu.below k (hks ▸ List.mem_cons_self)
                by_cases hkk : k' = k
                · simp [NodeUses.relist, listUses, queueNodes, hkk, hk, hbelow]
                · simp [NodeUses.relist, listUses, queueNodes, hkk, hks]
            | _ => simp [NodeUses.relist, listUses, queueNodes, bucketAt, endpoint]
          · rw [huse]
            refine ⟨?_, (List.nodup_cons.mp hnd).2, fun k' hk' => ?_⟩
            · have hlen := hu.length
              rw [hks, hq, List.countP_cons_of_pos rfl] at hlen
              exact Nat.succ.inj hlen
            · exact hu.below k' (hks ▸ List.mem_cons_of_mem k hk')
      | fragment n pid i =>
          obtain ⟨e, fp, f, he, rfl, hl, hf, hpopped, -⟩ := h.pop_fragment hq
          rw [networkManagerStep, hpopped] at hs
          cases hs
          have huse : nm.listUse u .popMsg = u := by rw [listUse, hq]
          refine ⟨?_, ?_⟩
          · rw [listCalls, huse, hq]
            rw [hq] at hpop
            refine hpop.to ?_
            rw [NetworkManager.link, h.wf.listUses_outgoing he, ← withBucket_relink
              (h.wf.endpoint_wf he).outgoing hl hf, ← hq]
            nth_rewrite 1 [h.wf.listUses_eq he .outgoing]
            rw [hq]
            rfl
          · rw [huse]
            refine hu.congr ?_
            rw [hq]
            rfl

/-- The list heads after a sweep of the packets sent to a node. -/
lemma OutqueueInv.listUses_refreshed (h : nm.OutqueueInv) (he : nm.endpoint dst = some e) (t : ℤ)
    (u : ListUse) : (nm.refreshed dst t).listUses u
      = (nm.listUses u).withBucket .outgoing e.node (e.outgoing.fresh t)
        (queueNodes (nm.refreshed dst t).outqueue u.queued) := by
  rw [refreshed_of_some he, put_of_some he]
  exact h.wf.listUses_outgoing he _ _ _ _

lemma OutqueueInv.does_refreshed (h : nm.OutqueueInv) (he : nm.endpoint dst = some e) (t : ℤ)
    (u : ListUse) : Does (nm.listUses u)
      (packetBucketPeriodicRefreshCalls .outgoing e.node e.outgoing t)
      ((nm.refreshed dst t).listUses u) := by
  rw [h.listUses_refreshed he, refreshed_of_some he, put_outqueue,
    (h.owns dst e he).queueNodes_sweptQueue (h.wf.endpoint_wf he).outgoing]
  nth_rewrite 1 [h.wf.listUses_eq he .outgoing]
  exact does_periodicRefresh (h.wf.endpoint_wf he).outgoing t

/-- `list_element_notadded` answers what the flag of the fragment says. -/
lemma does_notadded {S : NodeUses ListNode} {f : Fragment} {x : ListNode}
    (hx : S x = if f.linked then .on .outqueue else .off) :
    Does S [(.notadded x, .flag !f.linked)] S := by
  have hanswer : (!f.linked) = decide (S x = .off) := by
    rw [hx]
    cases f.linked <;> rfl
  rw [hanswer]
  refine Does.notadded (h := .outqueue) ?_
  rw [hx]
  cases f.linked <;> simp

/-- The elements of a packet, in order. -/
lemma elements_eq {fp : FragmentedPacket} {n : NodeID} {pid : ℕ} (h : fp.Named n pid) :
    fp.frags.map fragmentListElement = (List.range fp.fragNum).map (.fragment n pid) := by
  refine List.ext_getElem (by simp [FragmentedPacket.fragNum]) fun j hj _ => ?_
  rw [List.length_map] at hj
  rw [List.getElem_map, List.getElem_map, List.getElem_range,
    h.element (List.getElem?_eq_getElem hj)]

/-- **A packet is cut and queued.** -/
lemma OutqueueInv.listStep_enqueuePacket (h : nm.OutqueueInv) (hu : u.Fits nm.outqueue)
    {src : NodeID} {data : Bytes} {tSweep tCreate : ℤ} (hdata : 0 < data.length)
    (hfree : nm.IdFree dst tSweep) :
    nm.ListStep u (.enqueuePacket src dst data tSweep tCreate)
      (nm.enqueued src dst data tSweep tCreate) := by
  have hwf := h.wf.endpointFor_wf dst
  have hown := h.owns_endpointFor dst
  have hobt := h.wf.obtainEndpoint_endpoint dst
  have hqueue : (nm.obtainEndpoint dst).1.outqueue = nm.outqueue := obtainEndpoint_outqueue
  have huse := (h.wf.obtainEndpoint dst).listUses_eq hobt .outgoing u
  rw [hqueue] at huse
  refine ⟨?_, hu.congr ?_⟩
  · rw [listCalls, if_pos hdata]
    have hobtain := h.wf.does_obtainEndpoint dst u
    rw [NetworkManager.IdFree] at hfree
    rw [NetworkManager.enqueued, NetworkManager.put, Endpoint.enqueued,
      (h.wf.obtainEndpoint dst).listUses_outgoing hobt]
    generalize nm.endpointFor dst = e at *
    generalize hfp : (⟨e.outId, tCreate, e.cut src data⟩ : FragmentedPacket) = fp
    have hfrags : fp.frags = e.cut src data := hfp ▸ rfl
    have hid : fp.packetId = e.outId := hfp ▸ rfl
    have hnamed : fp.Named e.node fp.packetId := hfp ▸ Endpoint.Owns.cut_named e src data tCreate
    have hadd := Does.of_eq huse (does_addPacket hwf.outgoing (hid.symm ▸ hfree)
      (hfrags.symm ▸ Endpoint.Owns.cut_linked e src data) rfl)
    rw [List.append_assoc, hfp]
    refine hobtain.append (hadd.to ?_)
    rw [← hfrags, elements_eq hnamed, queueNodes_fragments_append,
      hown.queueNodes_sweptQueue hwf.outgoing]
    rfl
  · rw [NetworkManager.enqueued, put_outqueue, List.countP_append, hown.countP_sweptQueue]
    simp [fragmentListElement, QueueElem.isRequest]

/-- The fragment that is asked for again. -/
lemma OutqueueInv.listStep_enqueueFragment (h : nm.OutqueueInv) (hu : u.Fits nm.outqueue)
    (dst : NodeID) (pid fid : ℕ) (t : ℤ) :
    nm.ListStep u (.enqueueFragment dst pid fid t)
      (networkManagerEnqueueOutgoingFragment nm dst pid fid t).1 := by
  have hsame : nm.listUse u (.enqueueFragment dst pid fid t) = u := rfl
  cases he : nm.endpoint dst with
  | none =>
      have hnm : (networkManagerEnqueueOutgoingFragment nm dst pid fid t).1 = nm := by
        rw [networkManagerEnqueueOutgoingFragment, he]
      rw [hnm]
      refine ⟨?_, hu⟩
      rw [listCalls, he]
      exact .nil
  | some e =>
      have hwf := h.wf.endpoint_wf he
      have hown := h.owns dst e he
      have hswept := h.does_refreshed he t u
      have hget : (packetBucketGetFragment e.outgoing pid fid [] t).2.2
          = ((e.outgoing.fresh t).lookup pid).bind (·.frags[fid]?) := by
        rw [packetBucketGetFragment_eq hwf.outgoing]
      have hfits : u.Fits (nm.refreshed dst t).outqueue := by
        rw [refreshed_of_some he, put_outqueue]
        exact hu.congr (hown.countP_sweptQueue t)
      rcases networkManagerEnqueueOutgoingFragment_cases h dst pid fid t with
        ⟨hnone, heq⟩ | ⟨e', fp, f, he', hl, hf, -, heq⟩
      · have hno : ((e.outgoing.fresh t).lookup pid).bind (·.frags[fid]?) = none := by
          rw [NetworkManager.queued, h.wf.refreshed_endpoint he] at hnone
          cases hl : (e.outgoing.fresh t).lookup pid with
          | none => rfl
          | some fp =>
              simp only [show (e.refreshed t).outgoing.lookup pid = some fp from hl] at hnone
              simpa using hnone
        rw [heq]
        refine ⟨?_, hfits⟩
        rw [listCalls, he]
        simp only [hget, hno, List.append_nil]
        exact hswept
      · obtain rfl := Option.some.inj (he.symm.trans he')
        have hl : (e.outgoing.fresh t).lookup pid = some fp := hl
        have huse : (nm.refreshed dst t).listUses u (.slot .outgoing e.node pid fid)
            = if f.linked then .on .outqueue else .off := by
          rw [h.listUses_refreshed he, withBucket_slot, PacketBucket.slotUse]
          simp only [hl, Option.bind_some, hf]
        have hnotadded := does_notadded huse
        rw [heq]
        cases hlink : f.linked with
        | true =>
            refine ⟨?_, hfits⟩
            rw [listCalls, he]
            simp only [hget, hl, hf, Option.bind_some, hlink, if_true]
            rw [hlink] at hnotadded
            exact hswept.append hnotadded
        | false =>
            have hel : fragmentListElement f = .fragment e.node pid fid :=
              (hown.named pid fp (hwf.outgoing.lookup_of_fresh hl)).element hf
            rw [if_neg Bool.false_ne_true, hel]
            refine ⟨?_, hfits.congr ?_⟩
            · rw [listCalls, he, hsame]
              simp only [hget, hl, hf, Option.bind_some, hlink]
              rw [hlink] at hnotadded huse
              have hadd := Does.addTail (S := (nm.refreshed dst t).listUses u) (h := .outqueue)
                (l := queueNodes (nm.refreshed dst t).outqueue u.queued) rfl
                (Or.inr (Or.inr (Or.inl huse))) (by simp [huse]) (by simp)
              refine hswept.append (hnotadded.cons (hadd.to ?_))
              rw [NetworkManager.link, Endpoint.refreshed, h.wf.listUses_outgoing he,
                queueNodes_append_fragment, ← withBucket_relink (hwf.outgoing.fresh t) hl hf,
                h.listUses_refreshed he]
              rfl
            · simp [NetworkManager.link, NetworkManager.store, QueueElem.isRequest]

/-- The requests that an arriving fragment causes. -/
lemma OutqueueInv.newRequests_eq (h : nm.OutqueueInv) (u : ListUse) (f : Fragment)
    (tSweep tCreate : ℤ) : nm.newRequests u f tSweep tCreate
      = List.range' u.made (missingIds (nm.target f tSweep tCreate) f).length := by
  have hin : (nm.endpointFor f.fromNode).incoming.Unlinked :=
    (h.owns_endpointFor f.fromNode).unlinked
  rw [newRequests, hin.addFragment (h.wf.endpointFor_wf f.fromNode).incoming]
  simp [arrivalRequests, target]

/-- Nothing is allocated for the requests that are still to come. -/
lemma listUses_of_made_le (hu : ∀ k ∈ u.queued, k < u.made) {k : ℕ} (hk : u.made ≤ k) :
    nm.listUses u (.request k) = .absent := by
  have hq : k ∉ u.queued := fun hm => absurd (hu k hm) (not_lt.mpr hk)
  simp only [listUses, hq, not_lt.mpr hk, if_false]

/-- New requests are on the queue, and nothing else changes. -/
lemma listUses_add (u : ListUse) (c : ℕ) {x : ListNode} (hx : x ≠ .outqueue) :
    (nm.listUses u).setAll ((List.range' u.made c).map .request) (.on .outqueue) x
      = nm.listUses (u.add c) x := by
  cases x with
  | outqueue => exact absurd rfl hx
  | request k =>
      by_cases hk : u.made ≤ k ∧ k < u.made + c
      · simp [NodeUses.setAll, listUses, ListUse.add, hk]
      · by_cases hq : k ∈ u.queued
        · simp [NodeUses.setAll, listUses, ListUse.add, hk, hq]
        · by_cases hm : k < u.made
          · simp [NodeUses.setAll, listUses, ListUse.add, hq, hm, Nat.lt_add_right c hm]
          · have hlt : ¬ k < u.made + c := fun hlt => hk ⟨not_lt.mp hm, hlt⟩
            simp [NodeUses.setAll, listUses, ListUse.add, hq, hm, hlt]
  | _ => simp [NodeUses.setAll, listUses]

/-- **A fragment arrives**, and what is missing is asked for. -/
lemma OutqueueInv.listStep_addFragment (h : nm.OutqueueInv) (hu : u.Fits nm.outqueue)
    (f : Fragment) (tSweep tCreate : ℤ) :
    nm.ListStep u (.addFragment f tSweep tCreate) (nm.arrived f tSweep tCreate) := by
  have hwf := h.wf.endpointFor_wf f.fromNode
  have hin : (nm.endpointFor f.fromNode).incoming.Unlinked :=
    (h.owns_endpointFor f.fromNode).unlinked
  have hobt := h.wf.obtainEndpoint_endpoint f.fromNode
  have hqueue : (nm.obtainEndpoint f.fromNode).1.outqueue = nm.outqueue := obtainEndpoint_outqueue
  have huse := (h.wf.obtainEndpoint f.fromNode).listUses_eq hobt .incoming u
  rw [hqueue] at huse
  have hks := h.newRequests_eq u f tSweep tCreate
  -- the requests by themselves
  obtain ⟨rs, hrs, hlen⟩ : ∃ rs : List FragRequest,
      arrivalRequests (nm.target f tSweep tCreate) f = rs.map .request
        ∧ (missingIds (nm.target f tSweep tCreate) f).length = rs.length :=
    ⟨(missingIds (nm.target f tSweep tCreate) f).map fun i => fragRequestCreate f.fromNode
      f.toNode (nm.target f tSweep tCreate).packetId i true,
      by rw [arrivalRequests, List.map_map]; rfl, by rw [List.length_map]⟩
  have hempty : ((nm.endpointFor f.fromNode).incoming.target f tSweep tCreate).fragNum ≤ f.id →
      List.range' u.made rs.length = [] := fun hf => by
    have hmissing : missingIds (nm.target f tSweep tCreate) f = [] := if_neg (not_lt.mpr hf)
    rw [← hlen, hmissing]
    rfl
  have hadd := Does.of_eq huse (does_addFragment hwf.incoming hin rfl List.nodup_range'
    (fun k hk => listUses_of_made_le hu.below (List.mem_range'_1.mp hk).1) hempty)
  have hadded : nm.listUse u (.addFragment f tSweep tCreate) = u.add rs.length := by
    rw [listUse, hks, hlen, ListUse.add, List.length_range']
  refine ⟨?_, ?_⟩
  · rw [listCalls, hadded, hks, hlen, NetworkManager.arrived, NetworkManager.put,
      (h.wf.obtainEndpoint f.fromNode).listUses_incoming hobt]
    simp only [List.append_assoc]
    simp only [List.append_assoc] at hadd
    refine (h.wf.does_obtainEndpoint f.fromNode u).append (hadd.to ?_)
    rw [hrs, ListUse.add, queueNodes_requests_append (List.length_range' ..)]
    exact withBucket_left fun x hx => listUses_add u rs.length hx
  · rw [hadded, arrived_outqueue, hrs]
    exact hu.add rs

/-- A packet is handed over. -/
lemma OutqueueInv.listStep_popPacket (h : nm.OutqueueInv) (hu : u.Fits nm.outqueue)
    (src : NodeID) (pid size : ℕ) (t : ℤ) :
    nm.ListStep u (.popPacket src pid size t) (nm.popped src pid t) := by
  refine ⟨?_, ?_⟩
  · rw [listCalls, NetworkManager.popped]
    cases he : nm.endpoint src with
    | none => exact .nil
    | some e =>
        have hin : e.incoming.Unlinked := (h.owns src e he).unlinked
        simp only [put_of_some he]
        rw [h.wf.listUses_incoming he]
        exact .of_eq (h.wf.listUses_eq he .incoming u)
          (does_popPacket (h.wf.endpoint_wf he).incoming hin pid t)
  · rw [popped_outqueue]
    exact hu

/-- Whatever operation succeeds, its calls do too. -/
theorem OutqueueInv.listStep (h : nm.OutqueueInv) (hu : u.Fits nm.outqueue) {op : NmOp}
    (hs : networkManagerStep nm op = .ok (nm', a)) : nm.ListStep u op nm' := by
  cases op with
  | enqueuePacket src dst data tSweep tCreate =>
      rcases networkManagerStep_enqueuePacket h.wf hs with
        ⟨rfl, rfl, -⟩ | ⟨hdata, -, hfree, rfl, -⟩
      · exact ⟨.nil, hu⟩
      · exact h.listStep_enqueuePacket hu hdata hfree
  | popMsg => exact h.listStep_popMsg hu hs
  | enqueueFragment dst pid fid t =>
      cases hs
      exact h.listStep_enqueueFragment hu dst pid fid t
  | addFragment f tSweep tCreate =>
      rw [networkManagerStep, h.addFragment] at hs
      cases hs
      exact h.listStep_addFragment hu f tSweep tCreate
  | popPacket src pid size t =>
      rw [networkManagerStep, h.popPacket] at hs
      cases hs
      exact h.listStep_popPacket hu src pid size t

/-! ## Whole runs -/

/-- A run makes its calls. -/
lemma OutqueueInv.does_run {ops : List NmOp} {answers : List NmAnswer} (h : nm.OutqueueInv)
    (hu : u.Fits nm.outqueue) (hexec : exec networkManagerStep nm ops = .ok (nm', answers)) :
    Does (nm.listUses u) (nm.runCalls u ops) (nm'.listUses (nm.runUse u ops))
      ∧ (nm.runUse u ops).Fits nm'.outqueue := by
  induction ops generalizing nm u answers with
  | nil =>
      cases hexec
      exact ⟨.nil, hu⟩
  | cons op ops ih =>
      obtain ⟨nm₁, a, bs, hs, hrest, rfl⟩ := exec_cons_eq_ok.mp hexec
      have hstep := h.listStep hu hs
      obtain ⟨hdoes, hfits⟩ := ih (h.step hs) hstep.fits hrest
      rw [runCalls, runUse, hs]
      exact ⟨hstep.does.append hdoes, hfits⟩

/-- A new network manager has an empty queue. -/
lemma does_create (config : NetworkConfig) :
    Does (fun _ => .absent) [plain (.malloc [.outqueue]), plain (.init .outqueue)]
      ((networkManagerCreate config).listUses ⟨[], 0⟩) := by
  refine ((Does.malloc fun _ _ => rfl).cons (Does.init ?_ ?_)).to (funext fun x => ?_)
  · simp [NodeUses.setAll, NodeUse.Loose]
  · simp [NodeUses.setAll]
  · cases x with
    | outqueue => simp [listUses, queueNodes]
    | _ => simp [NodeUses.setAll, listUses, bucketAt]

end NetworkManager

/-- The lists at the end of a run, from memory in which nothing is allocated. -/
lemma does_lifetime {config : NetworkConfig} {ops : List NmOp} {nm : NetworkManager}
    {answers : List NmAnswer}
    (hexec : exec networkManagerStep (networkManagerCreate config) ops = .ok (nm, answers)) :
    Does (fun _ => .absent) (NetworkManager.lifetimeCalls config ops)
        (nm.listUses (NetworkManager.lifetimeUse config ops))
      ∧ (NetworkManager.lifetimeUse config ops).Fits nm.outqueue := by
  have hfits : (⟨[], 0⟩ : ListUse).Fits (networkManagerCreate config).outqueue :=
    ⟨rfl, List.nodup_nil, by simp⟩
  obtain ⟨hdoes, hfits'⟩ := (networkManagerCreate_outqueueInv config).does_run hfits hexec
  exact ⟨(NetworkManager.does_create config).append hdoes, hfits'⟩

/-- Memory in which nothing is allocated. -/
lemma laid_absent {m : LinkMemory ListNode} (hm : ∀ x, m.live x = false) :
    Laid m (fun _ => .absent) :=
  ⟨by simp [hm], by simp, by simp, by simp, by simp, by simp⟩

/-- **The lists of the network manager are in memory what they are in the model.**  Whatever is done
with a new network manager, all the calls to `list.h` that this makes can be made, with nothing
allocated before them: no pointer that is followed is NULL or refers to what has been freed, and
what is read is what the code goes on with.  Afterwards the queue and the list of every bucket are
circular lists of the right nodes in the right order, the nodes on no list have NULL links, and
exactly the list heads that are in use are allocated. -/
theorem lists_in_memory {config : NetworkConfig} {ops : List NmOp} {nm : NetworkManager}
    {answers : List NmAnswer}
    (hexec : exec networkManagerStep (networkManagerCreate config) ops = .ok (nm, answers))
    {m : LinkMemory ListNode} (hm : ∀ x, m.live x = false) :
    ∃ m', Performs m (NetworkManager.lifetimeCalls config ops) m'
      ∧ Laid m' (nm.listUses (NetworkManager.lifetimeUse config ops))
      ∧ (NetworkManager.lifetimeUse config ops).Fits nm.outqueue := by
  obtain ⟨hdoes, hfits⟩ := does_lifetime hexec
  obtain ⟨m', hperforms, hlaid⟩ := hdoes m (laid_absent hm)
  exact ⟨m', hperforms, hlaid, hfits⟩

end PeerStreamer
