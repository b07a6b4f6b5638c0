import PeerStreamer.NetHelper.ListRuns

/-!
# What is left of a network manager

`network_manager_destroy` destroys the endpoints, with them every packet and its fragments, and then
what is left on the outgoing queue as requests.  The fragments of a packet are taken off the queue
when it is destroyed, so that nothing else is left there; the packets themselves are freed while
they are on the list of their bucket, which is not followed any more.

A request that has been taken off the queue to be sent is not freed by anyone.
-/

namespace PeerStreamer

/-! ## Buckets -/

section Bucket

variable {S : NodeUses ListNode} {d : Direction} {n : NodeID} {pb : PacketBucket}
  {fp : FragmentedPacket} {qs : List ListNode}

/-- The bucket is still there, but its list is not followed any more. -/
def NodeUses.unlisted (S : NodeUses ListNode) (d : Direction) (n : NodeID) (pb : PacketBucket)
    (qs : List ListNode) : NodeUses ListNode :=
  (S.withBucket d n pb qs).setAll (.packets d n :: pb.packetList.map (.packet d n)) .raw

@[simp] lemma unlisted_outqueue : S.unlisted d n pb qs .outqueue = .head qs := by
  simp [NodeUses.unlisted, NodeUses.setAll]

@[simp] lemma unlisted_packets : S.unlisted d n pb qs (.packets d n) = .raw := by
  simp [NodeUses.unlisted, NodeUses.setAll]

lemma unlisted_packet (h : pb.Wf) (pid : ℕ) :
    S.unlisted d n pb qs (.packet d n pid) = if (pb.lookup pid).isSome then .raw else .absent := by
  simp only [NodeUses.unlisted, NodeUses.setAll, withBucket_packet, PacketBucket.packetUse]
  by_cases hl : (pb.lookup pid).isSome <;> simp [h.listed, hl]

@[simp] lemma unlisted_slot (pid i : ℕ) :
    S.unlisted d n pb qs (.slot d n pid i) = pb.slotUse pid i := by
  simp [NodeUses.unlisted, NodeUses.setAll]

lemma unlisted_of_not {x : ListNode} (hq : x ≠ .outqueue) (hx : ¬ x.ofBucket d n) :
    S.unlisted d n pb qs x = S x := by
  have hpackets : x ≠ .packets d n := fun he => hx (he ▸ ⟨rfl, rfl⟩)
  have hpacket : ∀ pid, .packet d n pid ≠ x := fun pid he => hx (he ▸ ⟨rfl, rfl⟩)
  simp [NodeUses.unlisted, NodeUses.setAll, hpackets, hpacket, withBucket_of_not hq hx]

lemma eq_unlisted {T : NodeUses ListNode} (h : pb.Wf) (hq : T .outqueue = .head qs)
    (hpackets : T (.packets d n) = .raw)
    (hpacket : ∀ pid, T (.packet d n pid) = if (pb.lookup pid).isSome then .raw else .absent)
    (hslot : ∀ pid i, T (.slot d n pid i) = pb.slotUse pid i)
    (hrest : ∀ x, x ≠ .outqueue → ¬ x.ofBucket d n → T x = S x) : T = S.unlisted d n pb qs := by
  funext x
  by_cases hx : x.ofBucket d n
  · cases x with
    | packets d' n' => obtain ⟨rfl, rfl⟩ := hx; rw [hpackets, unlisted_packets]
    | packet d' n' pid => obtain ⟨rfl, rfl⟩ := hx; rw [hpacket, unlisted_packet h]
    | slot d' n' pid i => obtain ⟨rfl, rfl⟩ := hx; rw [hslot, unlisted_slot]
    | _ => exact hx.elim
  · by_cases hout : x = .outqueue
    · rw [hout, hq, unlisted_outqueue]
    · rw [hrest x hout hx, unlisted_of_not hout hx]

/-- `fragmented_packet_destroy` of a packet in such a bucket. -/
lemma does_destroyUnlisted (h : pb.Wf) (hl : pb.lookup fp.packetId = some fp) :
    Does (S.unlisted d n pb qs) (fragmentedPacketDestroyCalls d n fp)
      (S.unlisted d n (pb.remove fp) (qs.filter (· ∉ fp.slots d n))) := by
  refine ((Does.delAll unlisted_outqueue ?_).append ((Does.free ?_).cons (Does.free ?_))).to
    (eq_unlisted h.remove ?_ ?_ (fun pid => ?_) (fun pid i => ?_) fun x hq hx => ?_)
  · intro x hx
    obtain ⟨i, hi, rfl⟩ := FragmentedPacket.mem_slots.mp hx
    rw [unlisted_slot]
    exact pb.slotUse_cases hl (List.getElem?_eq_getElem hi)
  · intro x hx
    obtain ⟨i, hi, rfl⟩ := FragmentedPacket.mem_slots.mp hx
    rw [NodeUses.relist_of_mem hx (by simp)]
    exact ⟨Or.inr (Or.inr (Or.inl rfl)), by simp⟩
  · intro x hx
    rw [List.mem_singleton.mp hx]
    simp [NodeUses.setAll, NodeUses.relist, FragmentedPacket.mem_slots, unlisted_packet h, hl,
      NodeUse.Loose]
  · simp [NodeUses.setAll, FragmentedPacket.mem_slots]
  · simp [NodeUses.setAll, NodeUses.relist, FragmentedPacket.mem_slots]
  · by_cases hp : pid = fp.packetId
    · simp [NodeUses.setAll, h.lookup_remove, hp]
    · simp [NodeUses.setAll, NodeUses.relist, FragmentedPacket.mem_slots, unlisted_packet h,
        h.lookup_remove, hp, Ne.symm hp]
  · by_cases hp : pid = fp.packetId
    · subst hp
      by_cases hi : i < fp.fragNum
      · simp [NodeUses.setAll, FragmentedPacket.mem_slots, PacketBucket.slotUse, h.lookup_remove,
          hi]
      · have hnone : fp.frags[i]? = none := List.getElem?_eq_none (not_lt.mp hi)
        simp [NodeUses.setAll, NodeUses.relist, FragmentedPacket.mem_slots, PacketBucket.slotUse,
          h.lookup_remove, hi, hl, hnone]
    · simp [NodeUses.setAll, NodeUses.relist, FragmentedPacket.mem_slots, PacketBucket.slotUse,
        h.lookup_remove, hp, Ne.symm hp]
  · have hslots : x ∉ fp.slots d n := fun hm => hx (FragmentedPacket.ofBucket_of_mem_slots hm)
    have hpacket : x ≠ .packet d n fp.packetId := fun he => hx (he ▸ ⟨rfl, rfl⟩)
    simp [NodeUses.setAll, NodeUses.relist, hslots, hpacket, hq, unlisted_of_not hq hx]

/-- The packets of a bucket are destroyed one after the other. -/
lemma does_destroyPackets {fps : List FragmentedPacket} (h : pb.Wf)
    (hfps : ∀ fp ∈ fps, pb.lookup fp.packetId = some fp)
    (hnd : (fps.map FragmentedPacket.packetId).Nodup) :
    Does (S.unlisted d n pb qs) (fps.flatMap (fragmentedPacketDestroyCalls d n))
      (S.unlisted d n (pb.without (fps.map FragmentedPacket.packetId))
        (qs.filter (· ∉ fps.flatMap (·.slots d n)))) := by
  induction fps generalizing pb qs with
  | nil => exact Does.nil.to (by simp)
  | cons fp fps ih =>
      obtain ⟨hnot, hnd⟩ := List.nodup_cons.mp hnd
      have hrest := @ih (pb.remove fp) (qs.filter (· ∉ fp.slots d n)) h.remove
        (fun fp' hfp' => by
          have hne : fp.packetId ≠ fp'.packetId := fun he =>
            hnot (he ▸ List.mem_map_of_mem hfp')
          rw [h.lookup_remove, if_neg hne]
          exact hfps fp' (List.mem_cons_of_mem fp hfp')) hnd
      refine (does_destroyUnlisted h (hfps fp List.mem_cons_self)).append (hrest.to ?_)
      rw [h.remove_without, List.filter_filter]
      congr 1
      refine List.filter_congr fun x _ => ?_
      simp [Bool.and_comm]

/-- The bucket is no longer there. -/
def NodeUses.withoutBucket (S : NodeUses ListNode) (d : Direction) (n : NodeID)
    (qs : List ListNode) : NodeUses ListNode := fun x =>
  if x = .outqueue then .head qs else if x.ofBucket d n then .absent else S x

/-- What a bucket has on the queue are fragments of packets that are stored. -/
lemma slot_of_on_outqueue (h : pb.Wf) {x : ListNode} (hx : x.ofBucket d n)
    (hon : S.withBucket d n pb qs x = .on .outqueue) :
    ∃ pid fp, pb.lookup pid = some fp ∧ x ∈ fp.slots d n := by
  cases x with
  | packets d' n' =>
      obtain ⟨rfl, rfl⟩ := hx
      rw [withBucket_packets] at hon
      cases hon
  | packet d' n' pid =>
      obtain ⟨rfl, rfl⟩ := hx
      rw [withBucket_packet, PacketBucket.packetUse] at hon
      split_ifs at hon
      cases hon
  | slot d' n' pid i =>
      obtain ⟨rfl, rfl⟩ := hx
      rw [withBucket_slot, PacketBucket.slotUse] at hon
      cases hl : pb.lookup pid with
      | none => simp [hl] at hon
      | some fp =>
          cases hf : fp.frags[i]? with
          | none => simp [hl, hf] at hon
          | some f =>
              refine ⟨pid, fp, hl, FragmentedPacket.mem_slots.mpr ⟨i, ?_, ?_⟩⟩
              · exact (List.getElem?_eq_some_iff.mp hf).1
              · rw [h.packetId_of_lookup hl]
  | _ => exact hx.elim

/-- **`packet_bucket_destroy`** frees the bucket and takes its fragments off the queue. -/
lemma does_bucketDestroy (h : pb.Wf) :
    Does (S.withBucket d n pb qs) (packetBucketDestroyCalls d n pb)
      (S.withoutBucket d n (qs.filter (¬ ·.ofBucket d n))) := .of_laid fun m hm => by
  have hfps : ∀ fp ∈ pb.packetSet.elements.reverse, pb.lookup fp.packetId = some fp :=
    fun fp hfp => h.lookup_eq_some.mpr ⟨List.mem_reverse.mp hfp, rfl⟩
  have hnd : (pb.packetSet.elements.reverse.map FragmentedPacket.packetId).Nodup := by
    rw [List.map_reverse, List.nodup_reverse]
    refine List.pairwise_map.mpr (h.sorted.imp fun {fp fp'} hlt he => ?_)
    rw [packetCmp_eq_zero.mpr he] at hlt
    exact absurd hlt (lt_irrefl 0)
  have hnone : ∀ pid, (pb.without (pb.packetSet.elements.reverse.map
      FragmentedPacket.packetId)).lookup pid = none := fun pid => by
    rw [h.lookup_without]
    split_ifs with hp
    · rfl
    · refine Option.eq_none_iff_forall_ne_some.mpr fun fp hl => hp ?_
      obtain ⟨hmem, hid⟩ := h.lookup_eq_some.mp hl
      exact List.mem_map.mpr ⟨fp, List.mem_reverse.mpr hmem, hid⟩
  -- what is on the queue of this bucket are fragments of packets that are stored
  have hqueue : qs.filter (· ∉ pb.packetSet.elements.reverse.flatMap (·.slots d n))
      = qs.filter (¬ ·.ofBucket d n) := by
    refine List.filter_congr fun x hx => decide_eq_decide.mpr (not_congr ⟨fun hmem => ?_, ?_⟩)
    · obtain ⟨fp, -, hslot⟩ := List.mem_flatMap.mp hmem
      exact FragmentedPacket.ofBucket_of_mem_slots hslot
    · intro hof
      have hon := (hm.mem .outqueue qs withBucket_outqueue x).mp hx
      obtain ⟨pid, fp, hl, hslot⟩ := slot_of_on_outqueue h hof hon
      exact List.mem_flatMap.mpr ⟨fp, List.mem_reverse.mpr (h.lookup_eq_some.mp hl).1, hslot⟩
  have hunlist : Does (S.withBucket d n pb qs) [] (S.unlisted d n pb qs) :=
    Does.forget withBucket_packets
  refine (hunlist.append ((does_destroyPackets h hfps hnd).append (Does.free ?_))).to
    (funext fun x => ?_)
  · simp [NodeUse.Loose]
  · rw [hqueue, NodeUses.withoutBucket]
    by_cases hof : x.ofBucket d n
    · cases x with
      | packets d' n' =>
          obtain ⟨rfl, rfl⟩ := hof
          simp [NodeUses.setAll, ListNode.ofBucket]
      | packet d' n' pid =>
          obtain ⟨rfl, rfl⟩ := hof
          simp [-List.map_reverse, NodeUses.setAll, ListNode.ofBucket,
            unlisted_packet (h.without_wf _), hnone]
      | slot d' n' pid i =>
          obtain ⟨rfl, rfl⟩ := hof
          simp [-List.map_reverse, NodeUses.setAll, ListNode.ofBucket, PacketBucket.slotUse, hnone]
      | _ => exact hof.elim
    · have hpackets : x ≠ .packets d n := fun he => hof (he ▸ ⟨rfl, rfl⟩)
      by_cases hq : x = .outqueue
      · simp [NodeUses.setAll, hq]
      · simp [NodeUses.setAll, hpackets, hq, hof, unlisted_of_not hq hof]

end Bucket

/-! ## Endpoints -/

/-- The node of the endpoint a list head belongs to. -/
def ListNode.owner : ListNode → Option NodeID
  | .packets _ n | .packet _ n _ | .slot _ n _ _ => some n
  | .outqueue | .fresh | .request _ => none

/-- The endpoints of the nodes `dead` are no longer there. -/
def NodeUses.withoutNodes (S : NodeUses ListNode) (dead : List NodeID) (qs : List ListNode) :
    NodeUses ListNode := fun x =>
  if x = .outqueue then .head qs else if x.owner ∈ dead.map some then .absent else S x

lemma ListNode.owner_of_ofBucket {x : ListNode} {d : Direction} {n : NodeID}
    (hx : x.ofBucket d n) : x.owner = some n := by
  cases x with
  | packets d' n' | packet d' n' pid | slot d' n' pid i => obtain ⟨rfl, rfl⟩ := hx; rfl
  | _ => exact hx.elim

/-- A list head of an endpoint belongs to one of its buckets. -/
lemma ListNode.owner_eq_some {x : ListNode} {n : NodeID} :
    x.owner = some n ↔ x.ofBucket .incoming n ∨ x.ofBucket .outgoing n := by
  cases x with
  | packets d n' | packet d n' pid | slot d n' pid i =>
      cases d <;> simp [ListNode.owner, ListNode.ofBucket]
  | _ => simp [ListNode.owner, ListNode.ofBucket]

namespace NetworkManager

variable {nm : NetworkManager} {u : ListUse} {e : Endpoint} {dead : List NodeID}
  {qs : List ListNode}

/-- The list heads of an endpoint that is still there. -/
lemma Wf.withoutNodes_eq (h : nm.Wf) {dst : NodeID} (he : nm.endpoint dst = some e)
    (hdead : e.node ∉ dead) (d : Direction) :
    (nm.listUses u).withoutNodes dead qs
      = ((nm.listUses u).withoutNodes dead qs).withBucket d e.node (e.bucket d) qs := by
  have huse := h.listUses_eq he d u
  have hthere : ∀ x : ListNode, x.ofBucket d e.node →
      (nm.listUses u).withoutNodes dead qs x = nm.listUses u x := fun x hx => by
    have hown := ListNode.owner_of_ofBucket hx
    have hq : x ≠ .outqueue := by rintro rfl; exact hx.elim
    simp [NodeUses.withoutNodes, hown, hq, hdead]
  refine eq_withBucket ?_ ?_ (fun pid => ?_) (fun pid i => ?_) fun x hq hx => rfl
  · simp [NodeUses.withoutNodes]
  · rw [hthere (.packets d e.node) ⟨rfl, rfl⟩, huse, withBucket_packets]
  · rw [hthere (.packet d e.node pid) ⟨rfl, rfl⟩, huse, withBucket_packet]
  · rw [hthere (.slot d e.node pid i) ⟨rfl, rfl⟩, huse, withBucket_slot]

/-- The outgoing bucket is as it was when the incoming one is gone. -/
lemma withoutBucket_eq {S : NodeUses ListNode} {n : NodeID} {pb : PacketBucket}
    (hS : S = S.withBucket .outgoing n pb qs) (qs' : List ListNode) :
    S.withoutBucket .incoming n qs'
      = (S.withoutBucket .incoming n qs').withBucket .outgoing n pb qs' := by
  have hthere : ∀ x : ListNode, x.ofBucket .outgoing n →
      S.withoutBucket .incoming n qs' x = S.withBucket .outgoing n pb qs x := fun x hx => by
    rw [← hS]
    cases x with
    | packets d' n' | packet d' n' pid | slot d' n' pid i =>
        obtain ⟨rfl, rfl⟩ := hx
        simp [NodeUses.withoutBucket, ListNode.ofBucket]
    | _ => exact hx.elim
  refine eq_withBucket ?_ ?_ (fun pid => ?_) (fun pid i => ?_) fun x hq hx => rfl
  · simp [NodeUses.withoutBucket]
  · rw [hthere (.packets .outgoing n) ⟨rfl, rfl⟩, withBucket_packets]
  · rw [hthere (.packet .outgoing n pid) ⟨rfl, rfl⟩, withBucket_packet]
  · rw [hthere (.slot .outgoing n pid i) ⟨rfl, rfl⟩, withBucket_slot]

/-- **`endpoint_destroy`** -/
lemma Wf.does_endpointDestroy (h : nm.Wf) {dst : NodeID} (he : nm.endpoint dst = some e)
    (hdead : e.node ∉ dead) :
    Does ((nm.listUses u).withoutNodes dead qs) (endpointDestroyCalls e)
      ((nm.listUses u).withoutNodes (e.node :: dead) (qs.filter (·.owner ≠ some e.node))) := by
  have hwf := h.endpoint_wf he
  have hin : Does ((nm.listUses u).withoutNodes dead qs) _ _ :=
    .of_eq (h.withoutNodes_eq he hdead .incoming) (does_bucketDestroy hwf.incoming)
  have hboth := hin.append (.of_eq (withoutBucket_eq (h.withoutNodes_eq he hdead .outgoing) _)
    (does_bucketDestroy hwf.outgoing))
  refine hboth.to (funext fun x => ?_)
  by_cases hq : x = .outqueue
  · rw [hq, NodeUses.withoutBucket, NodeUses.withoutNodes, if_pos rfl, if_pos rfl,
      List.filter_filter]
    congr 1
    refine List.filter_congr fun y _ => ?_
    rw [Bool.eq_iff_iff]
    simp [ListNode.owner_eq_some, and_comm]
  · simp only [NodeUses.withoutBucket, NodeUses.withoutNodes, hq, if_false, List.map_cons,
      List.mem_cons, ListNode.owner_eq_some]
    split_ifs <;> grind

/-- The endpoints are destroyed one after the other. -/
lemma Wf.does_endpointsDestroy (h : nm.Wf) {es : List Endpoint}
    (hes : ∀ e ∈ es, nm.endpoint e.node = some e) (hnd : (es.map Endpoint.node).Nodup)
    (hdead : ∀ e ∈ es, e.node ∉ dead) :
    Does ((nm.listUses u).withoutNodes dead qs) (es.flatMap endpointDestroyCalls)
      ((nm.listUses u).withoutNodes ((es.map Endpoint.node).reverse ++ dead)
        (qs.filter (·.owner ∉ (es.map Endpoint.node).map some))) := by
  induction es generalizing dead qs with
  | nil => exact Does.nil.to (by simp)
  | cons e es ih =>
      obtain ⟨hnot, hnd⟩ := List.nodup_cons.mp hnd
      have hrest := @ih (e.node :: dead) (qs.filter (·.owner ≠ some e.node))
        (fun e' he' => hes e' (List.mem_cons_of_mem e he')) hnd fun e' he' hm => by
          rcases List.mem_cons.mp hm with hm | hm
          · exact hnot (hm ▸ List.mem_map_of_mem he')
          · exact hdead e' (List.mem_cons_of_mem e he') hm
      refine (h.does_endpointDestroy (hes e List.mem_cons_self)
        (hdead e List.mem_cons_self)).append (hrest.to ?_)
      rw [List.filter_filter, List.map_cons, List.reverse_cons, List.append_assoc]
      congr 1
      refine List.filter_congr fun x _ => ?_
      rw [Bool.eq_iff_iff]
      simp [and_comm]

/-- What belongs to an endpoint is allocated only while that is stored. -/
lemma Wf.listUses_owner (h : nm.Wf) {x : ListNode} {n : NodeID} (hx : x.owner = some n)
    (halloc : nm.listUses u x ≠ .absent) : n ∈ nm.endpoints.elements.map Endpoint.node := by
  have hat : ∀ d, nm.bucketAt d n ≠ none → n ∈ nm.endpoints.elements.map Endpoint.node :=
    fun d hb => by
      obtain ⟨pb, hpb⟩ := Option.ne_none_iff_exists'.mp hb
      obtain ⟨e, he, -⟩ := Option.map_eq_some_iff.mp hpb
      obtain ⟨he, hnode⟩ := Option.filter_eq_some_iff.mp he
      exact List.mem_map.mpr ⟨e, (h.endpoint_eq_some.mp he).1, by simpa using hnode⟩
  cases x with
  | packets d n' | packet d n' pid | slot d n' pid i =>
      cases hx
      refine hat d fun hb => halloc ?_
      simp [listUses, hb]
  | _ => cases hx

lemma Wf.withoutNodes_owner (h : nm.Wf) {x : ListNode} {n : NodeID} (hx : x.owner = some n) :
    (nm.listUses u).withoutNodes (nm.endpoints.elements.map Endpoint.node) qs x = .absent := by
  have hq : x ≠ .outqueue := by rintro rfl; cases hx
  by_cases hn : n ∈ nm.endpoints.elements.map Endpoint.node
  · have hmem : some n ∈ (nm.endpoints.elements.map Endpoint.node).map some :=
      List.mem_map_of_mem hn
    rw [NodeUses.withoutNodes, if_neg hq, hx, if_pos hmem]
  · have hnot : some n ∉ (nm.endpoints.elements.map Endpoint.node).map some := by simpa using hn
    rw [NodeUses.withoutNodes, if_neg hq, hx, if_neg hnot]
    by_contra halloc
    exact hn (h.listUses_owner hx halloc)

/-- The queue without the fragments. -/
lemma queueNodes_filter_owner {q : MsgList} {ks : List ℕ}
    (hlen : ks.length = q.countP QueueElem.isRequest) :
    (queueNodes q ks).filter (·.owner = none) = ks.map .request := by
  induction q generalizing ks with
  | nil => rw [List.length_eq_zero_iff.mp hlen]; rfl
  | cons el q ih =>
      cases el with
      | fragment n pid i =>
          rw [List.countP_cons_of_neg (by simp [QueueElem.isRequest])] at hlen
          rw [queueNodes, List.filter_cons_of_neg (by simp [ListNode.owner]), ih hlen]
      | request r =>
          rw [List.countP_cons_of_pos rfl] at hlen
          cases ks with
          | nil => cases hlen
          | cons k ks =>
              rw [queueNodes, List.filter_cons_of_pos (by simp [ListNode.owner]),
                ih (Nat.succ.inj hlen), List.map_cons]

/-- **Only requests are left on the queue** when the endpoints are gone. -/
lemma OutqueueInv.does_endpointsDestroy (h : nm.OutqueueInv) (hu : u.Fits nm.outqueue) :
    Does (nm.listUses u) (nm.endpoints.elements.reverse.flatMap endpointDestroyCalls)
      ((nm.listUses u).withoutNodes (nm.endpoints.elements.map Endpoint.node)
        (u.queued.map .request)) := .of_laid fun m hm => by
  have hes : ∀ e ∈ nm.endpoints.elements.reverse, nm.endpoint e.node = some e := fun e he =>
    h.wf.endpoint_eq_some.mpr ⟨List.mem_reverse.mp he, nodeidEqual_self _⟩
  have hnd : (nm.endpoints.elements.reverse.map Endpoint.node).Nodup := by
    rw [List.map_reverse, List.nodup_reverse]
    refine List.pairwise_map.mpr (h.wf.sorted.imp fun {e e'} hlt he => ?_)
    rw [endpointCmp_eq_zero.mpr (he ▸ nodeidEqual_self _)] at hlt
    exact absurd hlt (lt_irrefl 0)
  have hstart : nm.listUses u
      = (nm.listUses u).withoutNodes [] (queueNodes nm.outqueue u.queued) := by
    funext x
    by_cases hx : x = .outqueue <;> simp [NodeUses.withoutNodes, hx, listUses]
  have hqueue : (queueNodes nm.outqueue u.queued).filter
      (·.owner ∉ (nm.endpoints.elements.reverse.map Endpoint.node).map some)
      = u.queued.map .request := by
    rw [← queueNodes_filter_owner hu.length]
    refine List.filter_congr fun x hx => decide_eq_decide.mpr ⟨fun hnot => ?_, fun hnone => ?_⟩
    · have hon := (hm.mem .outqueue _ rfl x).mp hx
      by_contra hown
      obtain ⟨n, hn⟩ := Option.ne_none_iff_exists'.mp hown
      have hmem := h.wf.listUses_owner (u := u) hn (by simp [hon])
      refine hnot (hn ▸ ?_)
      simpa using hmem
    · simp [hnone]
  refine Does.of_eq hstart ((h.wf.does_endpointsDestroy hes hnd (fun _ _ => by simp)).to ?_)
  rw [hqueue, List.append_nil, List.map_reverse, List.reverse_reverse]

end NetworkManager

/-! ## The rest of the queue -/

section Requests

variable {S : NodeUses ListNode} {ks : List ℕ}

lemma map_headD_eq_queuePosition (ks : List ℕ) :
    (ks.map ListNode.request).headD .outqueue = NetworkManager.queuePosition ks := by
  cases ks <;> rfl

/-- From where one is on the queue to the next request. -/
lemma does_readsQueue (hq : S .outqueue = .head (ks.map .request)) :
    Does S [reads (NetworkManager.queuePosition ks) (NetworkManager.queuePosition ks.tail)] S := by
  cases ks with
  | nil => exact Does.next_head hq
  | cons k ks =>
      have hnext : Does S [(.next (.request k), _)] S := Does.next (l := []) hq
      rwa [map_headD_eq_queuePosition] at hnext

/-- The requests on the queue are destroyed. -/
lemma does_requestsDestroy (hq : S .outqueue = .head (ks.map .request)) (hnd : ks.Nodup) :
    Does S (NetworkManager.requestDestroyCalls ks)
      (S.relist .outqueue [] (ks.map .request) .absent) := by
  induction ks generalizing S with
  | nil =>
      refine Does.nil.to (funext fun x => ?_)
      by_cases hx : x = .outqueue <;> simp [NodeUses.relist, hx, hq]
  | cons k ks ih =>
      obtain ⟨hk, hnd⟩ := List.nodup_cons.mp hnd
      have hfilter : ((k :: ks).map ListNode.request).filter (· ≠ .request k)
          = ks.map .request := by
        rw [List.map_cons, List.filter_cons_of_neg (by simp)]
        refine List.filter_eq_self.mpr fun x hx => ?_
        obtain ⟨k', hk', rfl⟩ := List.mem_map.mp hx
        have hne : k' ≠ k := by
          rintro rfl
          exact hk hk'
        simpa using hne
      have hone : Does S [plain (.del (.request k)), plain (.free [.request k])]
          (S.relist .outqueue (ks.map .request) [.request k] .absent) := by
        refine ((Does.del hq List.mem_cons_self).cons (Does.free ?_)).to (funext fun x => ?_)
        · intro x hx
          rw [NodeUses.relist_of_mem hx (by rw [List.mem_singleton.mp hx]; simp)]
          exact ⟨Or.inr (Or.inr (Or.inl rfl)), by simp⟩
        · rw [hfilter]
          by_cases hx : x = .request k <;> simp [NodeUses.relist, NodeUses.setAll, hx]
      have hrest := ih (S := S.relist .outqueue (ks.map .request) [.request k] .absent)
        NodeUses.relist_head hnd
      rw [relist_relist] at hrest
      exact hone.append ((does_readsQueue NodeUses.relist_head).cons hrest)

end Requests

/-- **`network_manager_destroy`**, when the requests `u.queued` are on the queue. -/
lemma NetworkManager.OutqueueInv.does_destroy {nm : NetworkManager} {u : ListUse}
    (h : nm.OutqueueInv) (hu : u.Fits nm.outqueue) :
    Does (nm.listUses u) (nm.destroyCalls u.queued) fun x => match x with
      | .request k => if k ∈ u.queued then .absent else if k < u.made then .off else .absent
      | _ => .absent := by
  have hq : (nm.listUses u).withoutNodes (nm.endpoints.elements.map Endpoint.node)
      (u.queued.map .request) .outqueue = .head (u.queued.map .request) := if_pos rfl
  have hfirst := Does.next_head hq
  rw [map_headD_eq_queuePosition] at hfirst
  refine ((((h.does_endpointsDestroy hu).append (hfirst.cons (does_readsQueue hq))).append
    (does_requestsDestroy hq hu.nodup)).append (Does.free ?_)).to (funext fun x => ?_)
  · simp [NodeUse.Loose]
  · cases x with
    | request k =>
        by_cases hk : k ∈ u.queued
        · simp [NodeUses.setAll, NodeUses.relist, hk]
        · simp [NodeUses.setAll, NodeUses.relist, NodeUses.withoutNodes, ListNode.owner,
            NetworkManager.listUses, hk]
    | packets d n | packet d n pid | slot d n pid i =>
        simpa [NodeUses.setAll, NodeUses.relist] using h.wf.withoutNodes_owner rfl
    | _ => simp [NodeUses.setAll, NodeUses.relist, NodeUses.withoutNodes, ListNode.owner,
        NetworkManager.listUses]

/-! ## The requests that are handed out -/

/-- The answer hands out a request, to be sent. -/
def NmAnswer.isRequest : NmAnswer → Bool
  | .message (some (.fragRequest _)) => true
  | _ => false

namespace NetworkManager

variable {nm nm' : NetworkManager} {u : ListUse}

/-- Every request that is created stays on the queue or is handed out. -/
lemma OutqueueInv.listUse_made (h : nm.OutqueueInv) (hu : u.Fits nm.outqueue) {op : NmOp}
    {a : NmAnswer} (hs : networkManagerStep nm op = .ok (nm', a)) :
    (nm.listUse u op).made + u.queued.length
      = u.made + (nm.listUse u op).queued.length + a.isRequest.toNat := by
  cases op with
  | enqueuePacket src dst data tSweep tCreate =>
      rcases networkManagerStep_enqueuePacket h.wf hs with ⟨-, -, rfl⟩ | ⟨-, -, -, -, rfl⟩ <;> rfl
  | popMsg =>
      cases hq : nm.outqueue with
      | nil =>
          rw [networkManagerStep, networkManagerPopOutgoingNetMsg, hq] at hs
          cases hs
          rw [listUse, hq]
          rfl
      | cons el q =>
          cases el with
          | request r =>
              have hlen := hu.length
              rw [hq, List.countP_cons_of_pos rfl] at hlen
              rw [networkManagerStep, networkManagerPopOutgoingNetMsg, hq] at hs
              cases hs
              rw [listUse, hq]
              simp only [List.length_tail, NmAnswer.isRequest, Bool.toNat_true]
              omega
          | fragment n pid i =>
              obtain ⟨e, fp, f, -, -, -, -, hpopped, -⟩ := h.pop_fragment hq
              rw [networkManagerStep, hpopped] at hs
              cases hs
              rw [listUse, hq]
              rfl
  | enqueueFragment dst pid fid t => cases hs; rfl
  | addFragment f tSweep tCreate =>
      cases hs
      simp only [listUse, List.length_append, NmAnswer.isRequest, Bool.toNat_false]
      omega
  | popPacket src pid size t => cases hs; rfl

lemma OutqueueInv.runUse_made {ops : List NmOp} {answers : List NmAnswer} (h : nm.OutqueueInv)
    (hu : u.Fits nm.outqueue) (hexec : exec networkManagerStep nm ops = .ok (nm', answers)) :
    (nm.runUse u ops).made + u.queued.length
      = u.made + (nm.runUse u ops).queued.length + answers.countP NmAnswer.isRequest := by
  induction ops generalizing nm u answers with
  | nil => cases hexec; rfl
  | cons op ops ih =>
      obtain ⟨nm₁, a, bs, hs, hrest, rfl⟩ := exec_cons_eq_ok.mp hexec
      have hstep := h.listUse_made hu hs
      have hrun := ih (h.step hs) (h.listStep hu hs).fits hrest
      rw [runUse, hs, List.countP_cons]
      simp only
      split_ifs with ha
      · simp only [ha, Bool.toNat_true] at hstep
        omega
      · simp only [ha, Bool.toNat_false] at hstep
        omega

end NetworkManager

/-- The numbers that are not on the queue. -/
lemma ListUse.Fits.length_left {u : ListUse} {q : MsgList} (h : u.Fits q) :
    ((List.range u.made).filter (· ∉ u.queued)).length + u.queued.length = u.made := by
  have hperm : ((List.range u.made).filter (· ∈ u.queued)).Perm u.queued := by
    refine (List.perm_ext_iff_of_nodup (List.nodup_range.filter _) h.nodup).mpr fun k => ?_
    simp only [List.mem_filter, List.mem_range, decide_eq_true_eq, and_iff_right_iff_imp]
    exact h.below k
  have hsplit := (List.range u.made).length_eq_length_filter_add fun k => decide (k ∈ u.queued)
  rw [List.length_range, hperm.length_eq] at hsplit
  simp only [decide_not]
  omega

/-- **Only the requests that have been handed out are left.**  Whatever is done with a network
manager before `network_manager_destroy`, its calls can all be made; when it walks the queue to
destroy what it takes for requests, only requests are there.  What stays allocated is one request
for each that was popped to be sent. -/
theorem destroy_leaves {config : NetworkConfig} {ops : List NmOp} {nm : NetworkManager}
    {answers : List NmAnswer}
    (hexec : exec networkManagerStep (networkManagerCreate config) ops = .ok (nm, answers))
    {m : LinkMemory ListNode} (hm : ∀ x, m.live x = false) :
    ∃ m', ∃ left : List ℕ,
      Performs m (NetworkManager.lifetimeCalls config ops
        ++ nm.destroyCalls (NetworkManager.lifetimeUse config ops).queued) m'
      ∧ (∀ x, m'.live x = true ↔ ∃ k ∈ left, x = .request k)
      ∧ left.Nodup ∧ left.length = answers.countP NmAnswer.isRequest := by
  have hinv := outqueueInv_of_exec hexec
  obtain ⟨hdoes, hfits⟩ := does_lifetime hexec
  obtain ⟨m', hperforms, hlaid⟩ := (hdoes.append (hinv.does_destroy hfits)) m (laid_absent hm)
  refine ⟨m', (List.range (NetworkManager.lifetimeUse config ops).made).filter
    (· ∉ (NetworkManager.lifetimeUse config ops).queued), hperforms, fun x => ?_,
    List.nodup_range.filter _, ?_⟩
  · rw [hlaid.live]
    cases x with
    | request k =>
        simp only [List.mem_filter, List.mem_range, decide_eq_true_eq, ListNode.request.injEq,
          exists_eq_right']
        split_ifs <;> simp_all
    | _ => simp
  · have hmade := (networkManagerCreate_outqueueInv config).runUse_made
      (u := ⟨[], 0⟩) ⟨rfl, List.nodup_nil, by simp⟩ hexec
    have hleft := hfits.length_left
    simp only [NetworkManager.lifetimeUse, List.length_nil] at hmade hleft ⊢
    omega

end PeerStreamer
