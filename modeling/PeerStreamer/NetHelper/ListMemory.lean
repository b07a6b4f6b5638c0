import PeerStreamer.NetHelper.ListCalls

/-!
# The list heads of a bucket in memory

`NodeUses.withBucket` says what the list heads of a bucket are used for: its packets are on its
list, and their fragments are on the outgoing queue or cleared, as their links say.  The calls of
every operation of `packet_bucket.c` lead from the use for the bucket before to that for the bucket
after it, with the queue as the operation leaves it.
-/

namespace PeerStreamer

/-! ## What the nodes are used for -/

/-- What the list head of a fragment is used for: nothing if the packet is not stored, else it is on
the outgoing queue or not, as its link says. -/
def PacketBucket.slotUse (pb : PacketBucket) (pid i : ℕ) : NodeUse ListNode :=
  match (pb.lookup pid).bind (·.frags[i]?) with
  | none => .absent
  | some f => if f.linked then .on .outqueue else .off

/-- What the list head of a packet is used for. -/
def PacketBucket.packetUse (pb : PacketBucket) (d : Direction) (n : NodeID) (pid : ℕ) :
    NodeUse ListNode :=
  if (pb.lookup pid).isSome then .on (.packets d n) else .absent

/-- The bucket for the node is `pb`, and `qs` is on the outgoing queue. -/
def NodeUses.withBucket (S : NodeUses ListNode) (d : Direction) (n : NodeID) (pb : PacketBucket)
    (qs : List ListNode) : NodeUses ListNode
  | .outqueue => .head qs
  | .packets d' n' =>
      if d' = d ∧ n' = n then .head (pb.packetList.map (.packet d n)) else S (.packets d' n')
  | .packet d' n' pid =>
      if d' = d ∧ n' = n then pb.packetUse d n pid else S (.packet d' n' pid)
  | .slot d' n' pid i => if d' = d ∧ n' = n then pb.slotUse pid i else S (.slot d' n' pid i)
  | x => S x

/-- The list of what is new is `l`. -/
def NodeUses.withFresh (S : NodeUses ListNode) (l : List ListNode) : NodeUses ListNode :=
  Function.update S .fresh (.head l)

/-- The node belongs to the bucket for `n`. -/
def ListNode.ofBucket (d : Direction) (n : NodeID) : ListNode → Prop
  | .packets d' n' => d' = d ∧ n' = n
  | .packet d' n' _ => d' = d ∧ n' = n
  | .slot d' n' _ _ => d' = d ∧ n' = n
  | _ => False

instance (d : Direction) (n : NodeID) : (x : ListNode) → Decidable (x.ofBucket d n)
  | .outqueue | .fresh | .request _ => isFalse id
  | .packets .. | .packet .. | .slot .. => inferInstanceAs (Decidable (_ ∧ _))

/-! ## One bucket -/

section Bucket

variable {S T : NodeUses ListNode} {d : Direction} {n : NodeID} {pb : PacketBucket}
  {qs : List ListNode}

@[simp] lemma withBucket_outqueue : S.withBucket d n pb qs .outqueue = .head qs := rfl

@[simp] lemma withBucket_packets :
    S.withBucket d n pb qs (.packets d n) = .head (pb.packetList.map (.packet d n)) :=
  if_pos ⟨rfl, rfl⟩

@[simp] lemma withBucket_packet (pid : ℕ) :
    S.withBucket d n pb qs (.packet d n pid) = pb.packetUse d n pid := if_pos ⟨rfl, rfl⟩

@[simp] lemma withBucket_slot (pid i : ℕ) :
    S.withBucket d n pb qs (.slot d n pid i) = pb.slotUse pid i := if_pos ⟨rfl, rfl⟩

/-- Everything else is left alone. -/
lemma withBucket_of_not {x : ListNode} (hq : x ≠ .outqueue) (hx : ¬ x.ofBucket d n) :
    S.withBucket d n pb qs x = S x := by
  cases x with
  | outqueue => exact absurd rfl hq
  | packets d' n' => exact if_neg hx
  | packet d' n' pid => exact if_neg hx
  | slot d' n' pid i => exact if_neg hx
  | _ => rfl

/-- What has to be known of a use of memory that comes from a bucket. -/
lemma eq_withBucket (hq : T .outqueue = .head qs)
    (hpackets : T (.packets d n) = .head (pb.packetList.map (.packet d n)))
    (hpacket : ∀ pid, T (.packet d n pid) = pb.packetUse d n pid)
    (hslot : ∀ pid i, T (.slot d n pid i) = pb.slotUse pid i)
    (hrest : ∀ x, x ≠ .outqueue → ¬ x.ofBucket d n → T x = S x) : T = S.withBucket d n pb qs := by
  funext x
  by_cases hx : x.ofBucket d n
  · cases x with
    | packets d' n' => obtain ⟨rfl, rfl⟩ := hx; rw [hpackets, withBucket_packets]
    | packet d' n' pid => obtain ⟨rfl, rfl⟩ := hx; rw [hpacket, withBucket_packet]
    | slot d' n' pid i => obtain ⟨rfl, rfl⟩ := hx; rw [hslot, withBucket_slot]
    | _ => exact hx.elim
  · by_cases hout : x = .outqueue
    · rw [hout, hq, withBucket_outqueue]
    · rw [hrest x hout hx, withBucket_of_not hout hx]

/-- Only what is not of the bucket matters besides it. -/
lemma withBucket_left (hST : ∀ x, x ≠ .outqueue → S x = T x) :
    S.withBucket d n pb qs = T.withBucket d n pb qs :=
  eq_withBucket rfl withBucket_packets withBucket_packet withBucket_slot fun x hq hx => by
    rw [withBucket_of_not hq hx, hST x hq]

end Bucket

/-! ## Packets -/

section Packets

variable {S : NodeUses ListNode} {d : Direction} {n : NodeID} {pb : PacketBucket}
  {fp : FragmentedPacket} {qs : List ListNode}

lemma FragmentedPacket.mem_slots {x : ListNode} :
    x ∈ fp.slots d n ↔ ∃ i < fp.fragNum, x = .slot d n fp.packetId i := by
  simp [FragmentedPacket.slots, eq_comm]

lemma FragmentedPacket.ofBucket_of_mem_slots {x : ListNode} (hx : x ∈ fp.slots d n) :
    x.ofBucket d n := by
  obtain ⟨i, -, rfl⟩ := mem_slots.mp hx
  exact ⟨rfl, rfl⟩

lemma FragmentedPacket.slots_nodup : (fp.slots d n).Nodup :=
  List.nodup_range.map fun a b hab => by injection hab

/-- A fragment that is stored is on the queue or on no list. -/
lemma PacketBucket.slotUse_cases {pid i : ℕ} {f : Fragment}
    (hl : pb.lookup pid = some fp) (hf : fp.frags[i]? = some f) :
    pb.slotUse pid i = .off ∨ pb.slotUse pid i = .on .outqueue := by
  simp only [PacketBucket.slotUse, hl, Option.bind_some, hf]
  cases f.linked
  · exact Or.inl rfl
  · exact Or.inr rfl

/-- What is left of a bucket when a packet and its fragments are gone. -/
lemma withBucket_remove (h : pb.Wf) (hl : pb.lookup fp.packetId = some fp) :
    ((((S.withBucket d n pb qs).relist (.packets d n)
        ((pb.packetList.map (.packet d n)).filter (· ≠ .packet d n fp.packetId))
        [.packet d n fp.packetId] .off).relist .outqueue (qs.filter (· ∉ fp.slots d n))
        (fp.slots d n) .off).setAll (fp.slots d n) .absent).setAll [.packet d n fp.packetId] .absent
      = S.withBucket d n (pb.remove fp) (qs.filter (· ∉ fp.slots d n)) := by
  have hlist : (pb.packetList.map (ListNode.packet d n)).filter (· ≠ .packet d n fp.packetId)
      = (pb.remove fp).packetList.map (.packet d n) := by
    rw [PacketBucket.remove, h.nodup.erase_eq_filter, List.filter_map]
    congr 1
    refine List.filter_congr fun pid _ => ?_
    by_cases hp : pid = fp.packetId <;> simp [hp]
  rw [hlist]
  refine eq_withBucket ?_ ?_ (fun pid => ?_) (fun pid i => ?_) fun x hq hx => ?_
  · simp [NodeUses.setAll, FragmentedPacket.mem_slots]
  · simp [NodeUses.setAll, NodeUses.relist, FragmentedPacket.mem_slots]
  · by_cases hp : pid = fp.packetId
    · simp [NodeUses.setAll, PacketBucket.packetUse, h.lookup_remove, hp]
    · simp [NodeUses.setAll, NodeUses.relist, FragmentedPacket.mem_slots,
        PacketBucket.packetUse, h.lookup_remove, hp, Ne.symm hp]
  · by_cases hp : pid = fp.packetId
    · subst hp
      by_cases hi : i < fp.fragNum
      · simp [NodeUses.setAll, FragmentedPacket.mem_slots, PacketBucket.slotUse, h.lookup_remove,
          hi]
      · have hnone : fp.frags[i]? = none := List.getElem?_eq_none (not_lt.mp hi)
        simp [NodeUses.setAll, NodeUses.relist, FragmentedPacket.mem_slots, PacketBucket.slotUse,
          h.lookup_remove, hi, hl, hnone]
    · simp [NodeUses.setAll, NodeUses.relist, FragmentedPacket.mem_slots, PacketBucket.slotUse,
        h.lookup_remove, hp, Ne.symm hp]
  · have hslots : x ∉ fp.slots d n := fun hm => hx (FragmentedPacket.ofBucket_of_mem_slots hm)
    have hpacket : x ≠ .packet d n fp.packetId := fun he => hx (he ▸ ⟨rfl, rfl⟩)
    have hpackets : x ≠ .packets d n := fun he => hx (he ▸ ⟨rfl, rfl⟩)
    simp [NodeUses.setAll, NodeUses.relist, hslots, hpacket, hpackets, hq, withBucket_of_not hq hx]

/-- **`packet_bucket_destroy_packet`** takes a packet off its list and its fragments off the queue,
and gives back their memory. -/
lemma does_destroyPacket (h : pb.Wf) (hl : pb.lookup fp.packetId = some fp) :
    Does (S.withBucket d n pb qs) (packetBucketDestroyPacketCalls d n fp)
      (S.withBucket d n (pb.remove fp) (qs.filter (· ∉ fp.slots d n))) := by
  have hmem : ListNode.packet d n fp.packetId ∈ pb.packetList.map (.packet d n) :=
    List.mem_map_of_mem ((h.listed fp.packetId).mpr (by rw [hl]; rfl))
  rw [← withBucket_remove h hl]
  refine (Does.del withBucket_packets hmem).cons ((Does.delAll (h := .outqueue) ?_ ?_).append
    ((Does.free ?_).cons (Does.free ?_)))
  · simp [NodeUses.relist, NodeUses.withBucket]
  · intro x hx
    obtain ⟨i, hi, rfl⟩ := FragmentedPacket.mem_slots.mp hx
    have hcases := pb.slotUse_cases hl (List.getElem?_eq_getElem hi)
    simpa [NodeUses.relist, NodeUses.withBucket] using hcases
  · intro x hx
    obtain ⟨i, hi, rfl⟩ := FragmentedPacket.mem_slots.mp hx
    rw [NodeUses.relist_of_mem hx (by simp)]
    exact ⟨Or.inr (Or.inr (Or.inl rfl)), by simp⟩
  · intro x hx
    rw [List.mem_singleton.mp hx]
    have hoff : ListNode.packet d n fp.packetId ∉ fp.slots d n := by
      simp [FragmentedPacket.mem_slots]
    rw [NodeUses.setAll, if_neg hoff, NodeUses.relist_of_notMem hoff (by simp),
      NodeUses.relist_of_mem (List.mem_singleton_self _) (by simp)]
    exact ⟨Or.inr (Or.inr (Or.inl rfl)), by simp⟩

end Packets

/-! ## The sweep -/

section Sweep

variable {S : NodeUses ListNode} {d : Direction} {n : NodeID} {pb : PacketBucket}
  {fp : FragmentedPacket} {qs : List ListNode}

lemma map_headD_eq_listPosition (l : List ℕ) :
    (l.map (ListNode.packet d n)).headD (.packets d n) = listPosition d n l := by
  cases l <;> rfl

/-- From the packets `l` that are still to come, the next step leads to those behind the first of
them; from the head, it leads to the first of all. -/
lemma does_reads {before l : List ℕ}
    (hlist : S (.packets d n) = .head ((before ++ l).map (.packet d n))) :
    Does S [reads (listPosition d n l)
      (if l = [] then listPosition d n before else listPosition d n l.tail)] S := by
  cases l with
  | nil =>
      rw [List.append_nil] at hlist
      have hnext := Does.next_head hlist
      rwa [map_headD_eq_listPosition] at hnext
  | cons p rest =>
      rw [List.map_append, List.map_cons] at hlist
      have hnext := Does.next hlist
      rwa [map_headD_eq_listPosition] at hnext

/-- The same at the beginning of the list. -/
lemma does_reads_first {l : List ℕ} (hlist : S (.packets d n) = .head (l.map (.packet d n))) :
    Does S [reads (listPosition d n l) (listPosition d n l.tail)] S := by
  have hread := does_reads (List.nil_append l ▸ hlist)
  cases l <;> exact hread

/-- The list heads of the fragments of the packets `dead`. -/
def PacketBucket.slotNodes (pb : PacketBucket) (d : Direction) (n : NodeID) (dead : List ℕ) :
    List ListNode :=
  dead.flatMap fun pid => (pb.lookup pid).elim [] (·.slots d n)

/-- The first packet has reached its age: it is dropped, and what the sweep of the rest drops. -/
lemma PacketBucket.Wf.swept_cons (h : pb.Wf) {pos : ℕ} {tmp : List ℕ} {now : ℤ}
    (hlist : pb.packetList = pos :: tmp) (hl : pb.lookup pos = some fp)
    (hage : now - fp.creationTimestamp ≥ pb.maxPktAge) :
    (pb.remove fp).packetList = tmp ∧ pb.swept now = fp.packetId :: (pb.remove fp).swept now
      ∧ (pb.remove fp).slotNodes d n ((pb.remove fp).swept now)
        = pb.slotNodes d n ((pb.remove fp).swept now) := by
  have hid := h.packetId_of_lookup hl
  have hnd : pos ∉ tmp := (List.nodup_cons.mp (hlist ▸ h.nodup)).1
  have hrem : (pb.remove fp).packetList = tmp := by simp [PacketBucket.remove, hlist, hid]
  have hother : ∀ p ∈ tmp, fp.packetId ≠ p := fun p hp => by
    rw [hid]
    rintro rfl
    exact hnd hp
  have htake : (pb.remove fp).swept now = tmp.takeWhile (pb.expired now) := by
    rw [PacketBucket.swept, hrem]
    exact takeWhile_congr_mem fun p hp => PacketBucket.expired_remove h now (hother p hp)
  have hexp : pb.expired now pos = true := by simp [PacketBucket.expired, hl, hage]
  refine ⟨hrem, ?_, List.flatMap_congr fun p hp => ?_⟩
  · rw [htake, PacketBucket.swept, hlist, List.takeWhile_cons_of_pos hexp, hid]
  · rw [htake] at hp
    rw [h.lookup_remove, if_neg (hother p (List.takeWhile_subset _ hp))]

/-- The loop of `packet_bucket_periodic_refresh`. -/
lemma does_refreshLoop (h : pb.Wf) (now : ℤ) :
    Does (S.withBucket d n pb qs) (packetBucketRefreshLoopCalls d n now pb.packetList pb)
      (S.withBucket d n (pb.fresh now)
        (qs.filter (· ∉ pb.slotNodes d n (pb.swept now)))) := by
  generalize hlist : pb.packetList = l
  induction l generalizing pb qs with
  | nil =>
      have hswept : pb.swept now = [] := by simp [PacketBucket.swept, hlist]
      simp only [packetBucketRefreshLoopCalls, PacketBucket.fresh, hswept,
        PacketBucket.without_nil, PacketBucket.slotNodes, List.flatMap_nil, List.not_mem_nil,
        not_false_eq_true, decide_true, List.filter_true]
      exact .nil
  | cons pos tmp ih =>
      obtain ⟨fp, hl⟩ := Option.isSome_iff_exists.mp ((h.listed pos).mp (by simp [hlist]))
      have hid := h.packetId_of_lookup hl
      simp only [packetBucketRefreshLoopCalls, hl]
      split_ifs with hage
      · obtain ⟨hrem, hswept, hnodes⟩ := h.swept_cons (d := d) (n := n) hlist hl hage
        have hfresh : (pb.remove fp).fresh now = pb.fresh now := by
          rw [PacketBucket.fresh, PacketBucket.fresh, h.remove_without, hswept]
        have hfilter : (qs.filter (· ∉ fp.slots d n)).filter
            (· ∉ (pb.remove fp).slotNodes d n ((pb.remove fp).swept now))
            = qs.filter (· ∉ pb.slotNodes d n (pb.swept now)) := by
          rw [List.filter_filter, hswept, hnodes]
          refine List.filter_congr fun x _ => ?_
          simp [PacketBucket.slotNodes, hid, hl, Bool.and_comm]
        have hrest := @ih (pb.remove fp) (qs.filter (· ∉ fp.slots d n)) h.remove hrem
        rw [hfresh, hfilter] at hrest
        refine (does_destroyPacket h (hid.symm ▸ hl)).append (Does.cons ?_ hrest)
        exact does_reads_first (by rw [withBucket_packets, hrem])
      · have hexp : pb.expired now pos = false := by
          simpa [PacketBucket.expired, hl] using hage
        have hswept : pb.swept now = [] := by simp [PacketBucket.swept, hlist, hexp]
        simp only [PacketBucket.fresh, hswept, PacketBucket.without_nil, PacketBucket.slotNodes,
          List.flatMap_nil, List.not_mem_nil, not_false_eq_true, decide_true, List.filter_true]
        have hhead : S.withBucket d n pb qs (.packets d n)
            = .head (([pos] ++ tmp).map (.packet d n)) := by rw [withBucket_packets, hlist]; rfl
        have hread := does_reads hhead
        cases tmp <;> exact hread

/-- **`packet_bucket_periodic_refresh`** takes the fragments of what it drops off the queue. -/
lemma does_periodicRefresh (h : pb.Wf) (now : ℤ) :
    Does (S.withBucket d n pb qs) (packetBucketPeriodicRefreshCalls d n pb now)
      (S.withBucket d n (pb.fresh now)
        (qs.filter (· ∉ pb.slotNodes d n (pb.swept now)))) := by
  have hfirst : Does (S.withBucket d n pb qs) [(.next (.packets d n), .node (some _))] _ :=
    Does.next_head withBucket_packets
  rw [map_headD_eq_listPosition] at hfirst
  exact (hfirst.cons (does_reads_first withBucket_packets)).append (does_refreshLoop h now)

end Sweep

/-! ## New packets -/

section NewPackets

variable {S : NodeUses ListNode} {d : Direction} {n : NodeID} {pb : PacketBucket}
  {fp : FragmentedPacket} {qs : List ListNode}

/-- Nothing of a packet that is not stored is allocated. -/
lemma packetUse_of_none {pid : ℕ} (hfree : pb.lookup pid = none) :
    pb.packetUse d n pid = .absent := by
  simp [PacketBucket.packetUse, hfree]

lemma slotUse_of_none {pid i : ℕ} (hfree : pb.lookup pid = none) :
    pb.slotUse pid i = .absent := by
  simp [PacketBucket.slotUse, hfree]

/-- What the list heads of a new packet are used for. -/
lemma slotUse_insert (h : pb.Wf) (hfree : pb.lookup fp.packetId = none) {b : Bool}
    (hlinked : ∀ f ∈ fp.frags, f.linked = b) (pid i : ℕ) :
    (pb.insert fp).slotUse pid i
      = if pid = fp.packetId ∧ i < fp.fragNum then (if b then .on .outqueue else .off)
        else pb.slotUse pid i := by
  by_cases hp : pid = fp.packetId
  · subst hp
    by_cases hi : i < fp.fragNum
    · have hb : fp.frags[i].linked = b := hlinked _ (List.getElem_mem hi)
      simp [PacketBucket.slotUse, h.lookup_insert hfree, List.getElem?_eq_getElem hi, hi, hb]
    · have hnone : fp.frags[i]? = none := List.getElem?_eq_none (not_lt.mp hi)
      simp [PacketBucket.slotUse, h.lookup_insert hfree, hfree, hi, hnone]
  · simp [PacketBucket.slotUse, h.lookup_insert hfree, hp, Ne.symm hp]

lemma packetUse_insert (h : pb.Wf) (hfree : pb.lookup fp.packetId = none) (pid : ℕ) :
    (pb.insert fp).packetUse d n pid
      = if pid = fp.packetId then .on (.packets d n) else pb.packetUse d n pid := by
  by_cases hp : pid = fp.packetId
  · simp [PacketBucket.packetUse, h.lookup_insert hfree, hp]
  · simp [PacketBucket.packetUse, h.lookup_insert hfree, hp, Ne.symm hp]

/-- A packet that arrives gets a list head for each of its fragments, none of them on a list. -/
lemma does_insert_unlinked (h : pb.Wf) (hfree : pb.lookup fp.packetId = none)
    (hlinked : fp.Unlinked) :
    Does (S.withBucket d n pb qs)
      (fragmentedPacketEmptyCalls d n fp ++ [plain (.addTail (.packet d n fp.packetId)
        (.packets d n))])
      (S.withBucket d n (pb.insert fp) qs) := by
  have hslot : ∀ x ∈ fp.slots d n, x ≠ .packet d n fp.packetId ∧ S.withBucket d n pb qs x = .absent
      := fun x hx => by
    obtain ⟨i, -, rfl⟩ := FragmentedPacket.mem_slots.mp hx
    exact ⟨by simp, by rw [withBucket_slot, slotUse_of_none hfree]⟩
  refine Does.to (((Does.malloc ?_).cons ((Does.init ?_ ?_).cons (Does.malloc ?_))).append
    (Does.memsetAll ?_) |>.append (Does.addTail (l := pb.packetList.map (.packet d n)) ?_ ?_ ?_ ?_))
    (eq_withBucket ?_ ?_ (fun pid => ?_) (fun pid i => ?_) fun x hq hx => ?_)
  · intro x hx
    rw [List.mem_singleton.mp hx, withBucket_packet, packetUse_of_none hfree]
  · simp [NodeUses.setAll, NodeUse.Loose]
  · simp [NodeUses.setAll]
  · intro x hx
    obtain ⟨hne, habs⟩ := hslot x hx
    simp [NodeUses.setAll, hne, habs]
  · intro x hx
    simp [NodeUses.setAll, hx, NodeUse.Loose]
  · simp [NodeUses.setAll, FragmentedPacket.mem_slots]
  · simp [NodeUses.setAll, FragmentedPacket.mem_slots, NodeUse.Loose]
  · simp [NodeUses.setAll, FragmentedPacket.mem_slots]
  · simp
  · simp [NodeUses.setAll, NodeUses.relist, FragmentedPacket.mem_slots]
  · simp [PacketBucket.insert]
  · rw [packetUse_insert h hfree]
    by_cases hp : pid = fp.packetId
    · simp [NodeUses.relist, hp]
    · simp [NodeUses.setAll, NodeUses.relist, FragmentedPacket.mem_slots, hp]
  · rw [slotUse_insert h hfree hlinked]
    by_cases hp : pid = fp.packetId ∧ i < fp.fragNum
    · simp [NodeUses.setAll, NodeUses.relist, FragmentedPacket.mem_slots, hp]
    · have hslots : ¬ ∃ j < fp.fragNum, pid = fp.packetId ∧ i = j := by grind
      simp [NodeUses.setAll, NodeUses.relist, FragmentedPacket.mem_slots, hp, hslots]
  · have hslots : x ∉ fp.slots d n := fun hm => hx (FragmentedPacket.ofBucket_of_mem_slots hm)
    have hpacket : x ≠ .packet d n fp.packetId := fun he => hx (he ▸ ⟨rfl, rfl⟩)
    have hpackets : x ≠ .packets d n := fun he => hx (he ▸ ⟨rfl, rfl⟩)
    simp [NodeUses.setAll, NodeUses.relist, hslots, hpacket, hpackets, withBucket_of_not hq hx]

/-- The list of what is new is made. -/
lemma does_fresh (hS : S .fresh = .absent) : Does (S.withBucket d n pb qs)
    [plain (.malloc [.fresh]), plain (.init .fresh)]
      ((S.withFresh []).withBucket d n pb qs) := by
  have hfresh : ∀ x, x ≠ .outqueue → ¬ x.ofBucket d n → x ≠ .fresh →
      S.withBucket d n pb qs x = (S.withFresh []) x := fun x hq hx hf => by
    rw [withBucket_of_not hq hx, NodeUses.withFresh, Function.update_of_ne hf]
  refine ((Does.malloc ?_).cons (Does.init ?_ ?_)).to
    (eq_withBucket ?_ ?_ (fun pid => ?_) (fun pid i => ?_) fun x hq hx => ?_)
  · intro x hx
    rw [List.mem_singleton.mp hx, withBucket_of_not (by simp) id, hS]
  · simp [NodeUses.setAll, NodeUse.Loose]
  · simp [NodeUses.setAll]
  · simp [NodeUses.setAll]
  · simp [NodeUses.setAll]
  · simp [NodeUses.setAll]
  · simp [NodeUses.setAll]
  · by_cases hf : x = .fresh
    · simp [hf, NodeUses.withFresh]
    · simp [NodeUses.setAll, hf, hfresh x hq hx hf]

/-- **A packet that is sent**: the fragments are put on a new list, which is put in front of the
queue and given back. -/
lemma does_insert_linked (h : pb.Wf) (hfree : pb.lookup fp.packetId = none)
    (hlinked : ∀ f ∈ fp.frags, f.linked = true) (hS : S .fresh = .absent) :
    Does ((S.withFresh []).withBucket d n pb qs)
      (fragmentedPacketCreateCalls d n fp .fresh ++ [plain (.addTail (.packet d n fp.packetId)
        (.packets d n))] ++ [plain (.splice .fresh .outqueue), plain (.free [.fresh])])
      (S.withBucket d n (pb.insert fp) (fp.slots d n ++ qs)) := by
  have hfresh : (S.withFresh []).withBucket d n pb qs .fresh = .head [] := by
    rw [withBucket_of_not (by simp) id, NodeUses.withFresh, Function.update_self]
  refine .of_laid fun m hm => ?_
  have hon : ∀ x, (S.withFresh []).withBucket d n pb qs x ≠ .on .fresh := fun x hx =>
    List.not_mem_nil ((hm.mem .fresh [] hfresh x).mpr hx)
  have hslot : ∀ x ∈ fp.slots d n, x ≠ .packet d n fp.packetId
      ∧ (S.withFresh []).withBucket d n pb qs x = .absent := fun x hx => by
    obtain ⟨i, -, rfl⟩ := FragmentedPacket.mem_slots.mp hx
    exact ⟨by simp, by rw [withBucket_slot, slotUse_of_none hfree]⟩
  refine Does.to (((Does.malloc ?_).cons ((Does.init ?_ ?_).cons (Does.malloc ?_))).append
    (Does.addAll (l := []) ?_ FragmentedPacket.slots_nodup ?_) |>.append
      (Does.addTail (l := pb.packetList.map (.packet d n)) ?_ ?_ ?_ ?_) |>.append
      ((Does.splice (a := fp.slots d n) (b := qs) ?_ ?_ ?_).cons (Does.free ?_)))
    (eq_withBucket ?_ ?_ (fun pid => ?_) (fun pid i => ?_) fun x hq hx => ?_)
  · intro x hx
    rw [List.mem_singleton.mp hx, withBucket_packet, packetUse_of_none hfree]
  · simp [NodeUses.setAll, NodeUse.Loose]
  · simp [NodeUses.setAll]
  · intro x hx
    obtain ⟨hne, habs⟩ := hslot x hx
    simp [NodeUses.setAll, hne, habs]
  · simp [NodeUses.setAll, FragmentedPacket.mem_slots, hfresh]
  · intro x hx
    have hne : x ≠ .fresh := by
      rintro rfl
      simp [FragmentedPacket.mem_slots] at hx
    simp [NodeUses.setAll, hx, NodeUse.Loose, hne]
  · simp [NodeUses.setAll, NodeUses.relist, FragmentedPacket.mem_slots]
  · simp [NodeUses.setAll, NodeUses.relist, FragmentedPacket.mem_slots, NodeUse.Loose]
  · simp [NodeUses.setAll, NodeUses.relist, FragmentedPacket.mem_slots]
  · simp
  · simp [NodeUses.relist]
  · simp [NodeUses.setAll, NodeUses.relist, FragmentedPacket.mem_slots]
  · simp
  · simp [NodeUses.splice, NodeUse.Loose]
  · simp [NodeUses.setAll, NodeUses.splice]
  · simp [NodeUses.setAll, NodeUses.splice, NodeUses.relist, PacketBucket.insert]
  · rw [packetUse_insert h hfree]
    by_cases hp : pid = fp.packetId
    · simp [NodeUses.setAll, NodeUses.splice, NodeUses.relist, hp]
    · have hon := withBucket_packet pid ▸ hon (.packet d n pid)
      simp [NodeUses.setAll, NodeUses.splice, NodeUses.relist, FragmentedPacket.mem_slots, hp, hon]
  · rw [slotUse_insert h hfree hlinked]
    by_cases hp : pid = fp.packetId ∧ i < fp.fragNum
    · simp [NodeUses.setAll, NodeUses.splice, NodeUses.relist, FragmentedPacket.mem_slots, hp]
    · have hslots : ¬ ∃ j < fp.fragNum, pid = fp.packetId ∧ i = j := by grind
      have hon := withBucket_slot pid i ▸ hon (.slot d n pid i)
      simp [NodeUses.setAll, NodeUses.splice, NodeUses.relist, FragmentedPacket.mem_slots, hp,
        hslots, hon]
  · have hslots : x ∉ fp.slots d n := fun hm => hx (FragmentedPacket.ofBucket_of_mem_slots hm)
    have hpacket : x ≠ .packet d n fp.packetId := fun he => hx (he ▸ ⟨rfl, rfl⟩)
    have hpackets : x ≠ .packets d n := fun he => hx (he ▸ ⟨rfl, rfl⟩)
    by_cases hf : x = .fresh
    · simp [NodeUses.setAll, hf, hS]
    · have hon := hon x
      rw [withBucket_of_not hq hx, NodeUses.withFresh, Function.update_of_ne hf] at hon
      simp [NodeUses.setAll, NodeUses.splice, NodeUses.relist, hslots, hpacket, hpackets, hf, hq,
        withBucket_of_not hq hx, NodeUses.withFresh, hon]

/-- **`packet_bucket_add_packet`**, with the fragments put on the queue. -/
lemma does_addPacket {tSweep : ℤ} (h : pb.Wf)
    (hfree : (pb.fresh tSweep).lookup fp.packetId = none)
    (hlinked : ∀ f ∈ fp.frags, f.linked = true) (hS : S .fresh = .absent) :
    Does (S.withBucket d n pb qs)
      (packetBucketAddPacketCalls d n pb fp tSweep
        ++ [plain (.splice .fresh .outqueue), plain (.free [.fresh])])
      (S.withBucket d n ((pb.fresh tSweep).insert fp)
        (fp.slots d n ++ qs.filter (· ∉ pb.slotNodes d n (pb.swept tSweep)))) := by
  have hsweep : Does ((S.withFresh []).withBucket d n pb qs) _ _ := does_periodicRefresh h tSweep
  have hall := (does_fresh hS).append
    (hsweep.append (does_insert_linked (h.fresh tSweep) hfree hlinked hS))
  simpa only [packetBucketAddPacketCalls, List.append_assoc, List.cons_append, List.nil_append]
    using hall

end NewPackets

/-! ## Arriving fragments -/

section Arriving

variable {S : NodeUses ListNode} {d : Direction} {n : NodeID} {pb pb' : PacketBucket}
  {fp : FragmentedPacket} {f : Fragment} {qs : List ListNode}

/-- Where nothing is linked, every list head of a fragment is off. -/
lemma PacketBucket.Unlinked.slotUse (hu : pb.Unlinked) {pid i : ℕ} (hl : pb.lookup pid = some fp)
    (hi : i < fp.fragNum) : pb.slotUse pid i = .off := by
  have hoff : fp.frags[i].linked = false := hu pid fp hl _ (List.getElem_mem hi)
  simp [PacketBucket.slotUse, hl, List.getElem?_eq_getElem hi, hoff]

/-- What is not linked is not on the queue. -/
lemma filter_notMem_of_unlinked {m : LinkMemory ListNode} (hm : Laid m (S.withBucket d n pb qs))
    (h : pb.Wf) (hu : pb.Unlinked) {xs : List ListNode}
    (hxs : ∀ x ∈ xs, ∃ pid fp, pb.lookup pid = some fp ∧ x ∈ fp.slots d n) :
    qs.filter (· ∉ xs) = qs := by
  refine List.filter_eq_self.mpr fun x hx => decide_eq_true fun hmem => ?_
  obtain ⟨pid, fp, hl, hslot⟩ := hxs x hmem
  obtain ⟨i, hi, rfl⟩ := FragmentedPacket.mem_slots.mp hslot
  have hoff : S.withBucket d n pb qs (.slot d n fp.packetId i) = .off := by
    rw [withBucket_slot, hu.slotUse ((h.packetId_of_lookup hl).symm ▸ hl) hi]
  exact hm.notMem_of_loose withBucket_outqueue (Or.inr (Or.inr (Or.inl hoff))) hx

lemma does_periodicRefresh_unlinked (h : pb.Wf) (hu : pb.Unlinked) (now : ℤ) :
    Does (S.withBucket d n pb qs) (packetBucketPeriodicRefreshCalls d n pb now)
      (S.withBucket d n (pb.fresh now) qs) := .of_laid fun m hm => by
  have hfilter : qs.filter (· ∉ pb.slotNodes d n (pb.swept now)) = qs :=
    filter_notMem_of_unlinked hm h hu fun x hx => by
      obtain ⟨pid, hp, hx⟩ := List.mem_flatMap.mp hx
      obtain ⟨fp, hl⟩ := h.lookup_of_swept hp
      rw [hl] at hx
      exact ⟨pid, fp, hl, hx⟩
  exact (does_periodicRefresh h now).to (by rw [hfilter])

lemma does_destroyPacket_unlinked (h : pb.Wf) (hu : pb.Unlinked)
    (hl : pb.lookup fp.packetId = some fp) :
    Does (S.withBucket d n pb qs) (packetBucketDestroyPacketCalls d n fp)
      (S.withBucket d n (pb.remove fp) qs) := .of_laid fun m hm => by
  have hfilter : qs.filter (· ∉ fp.slots d n) = qs :=
    filter_notMem_of_unlinked hm h hu fun x hx => ⟨fp.packetId, fp, hl, hx⟩
  exact (does_destroyPacket h hl).to (by rw [hfilter])

/-- **`packet_bucket_pop_packet`** where nothing is linked. -/
lemma does_popPacket (h : pb.Wf) (hu : pb.Unlinked) (pid : ℕ) (tSweep : ℤ) :
    Does (S.withBucket d n pb qs) (packetBucketPopPacketCalls d n pb pid tSweep)
      (S.withBucket d n (pb.popped pid tSweep) qs) := by
  have hfresh : (packetBucketPeriodicRefresh pb [] tSweep).1 = pb.fresh tSweep := by
    rw [packetBucketPeriodicRefresh_eq h]
    rfl
  have hu' : (pb.fresh tSweep).Unlinked := fun pid fp hl => hu pid fp (h.lookup_of_fresh hl)
  refine (does_periodicRefresh_unlinked h hu tSweep).append ?_
  rw [hfresh, PacketBucket.popped]
  cases hl : (pb.fresh tSweep).lookup pid with
  | none => exact .nil
  | some fp =>
      have hid := (h.fresh tSweep).packetId_of_lookup hl
      exact does_destroyPacket_unlinked (h.fresh tSweep) hu' (hid.symm ▸ hl)

/-- Buckets with the same list heads, put to the same use. -/
lemma withBucket_congr (hlist : pb'.packetList = pb.packetList)
    (hpacket : ∀ pid, pb'.packetUse d n pid = pb.packetUse d n pid)
    (hslot : ∀ pid i, pb'.slotUse pid i = pb.slotUse pid i) :
    S.withBucket d n pb' qs = S.withBucket d n pb qs :=
  eq_withBucket rfl (by rw [withBucket_packets, hlist])
    (fun pid => by rw [withBucket_packet, hpacket]) (fun pid i => by rw [withBucket_slot, hslot])
    fun _ hq hx => withBucket_of_not hq hx

/-- A packet that is written to keeps its list heads, if they are put to the same use. -/
lemma withBucket_store (h : pb.Wf) {fp' : FragmentedPacket} (hl : pb.lookup fp.packetId = some fp)
    (hid : fp'.packetId = fp.packetId)
    (hlinked : ∀ i : ℕ, fp'.frags[i]?.map (fun g => g.linked)
      = fp.frags[i]?.map (fun g => g.linked)) :
    S.withBucket d n (pb.store fp') qs = S.withBucket d n pb qs := by
  refine withBucket_congr rfl (fun pid => ?_) fun pid i => ?_
  · simp only [PacketBucket.packetUse, h.lookup_store, hid]
    split_ifs <;> simp_all
  · by_cases hp : fp.packetId = pid
    · subst hp
      have hi := hlinked i
      simp only [PacketBucket.slotUse, h.lookup_store, hid, if_true, hl, Option.map_some,
        Option.bind_some]
      cases hf : fp.frags[i]? <;> cases hf' : fp'.frags[i]? <;> simp_all
    · simp [PacketBucket.slotUse, h.lookup_store, hid, hp]

/-- A fragment that is written is on no list, as the one it replaces. -/
lemma FragmentedPacket.Unlinked.put_linked (hu : fp.Unlinked) (f : Fragment) (i : ℕ) :
    (fp.put f).frags[i]?.map (fun g => g.linked) = fp.frags[i]?.map (fun g => g.linked) := by
  have hoff : ∀ (fp : FragmentedPacket), fp.Unlinked →
      fp.frags[i]?.map (fun g => g.linked) = if i < fp.fragNum then some false else none :=
    fun fp hu => by
      split_ifs with hi
      · rw [List.getElem?_eq_getElem hi, Option.map_some, hu _ (List.getElem_mem hi)]
      · rw [List.getElem?_eq_none (not_lt.mp hi), Option.map_none]
  rw [hoff _ (hu.put f), hoff _ hu, FragmentedPacket.put_fragNum]

/-- The list head of the fragment that is overwritten is cleared again. -/
lemma does_write (hu : pb.Unlinked) (hl : pb.lookup f.pid = some fp)
    (hi : f.id < fp.fragNum) :
    Does (S.withBucket d n pb qs)
      [plain (.del (.slot d n f.pid f.id)), plain (.memset (.slot d n f.pid f.id))]
      (S.withBucket d n pb qs) := by
  have hoff : S.withBucket d n pb qs (.slot d n f.pid f.id) = .off := by
    rw [withBucket_slot, hu.slotUse hl hi]
  refine (Does.del_off hoff).cons (Does.to (Does.memset ?_ ?_) ?_)
  · exact Or.inr (Or.inr (Or.inl hoff))
  · simp [hoff]
  · rw [← hoff, Function.update_eq_self]

/-- New requests are put on the list of what is new. -/
lemma does_fragRequestCreate {T : NodeUses ListNode} {l : List ListNode} {ks : List ℕ}
    (hfresh : T .fresh = .head l) (hnd : ks.Nodup)
    (habs : ∀ k ∈ ks, T (.request k) = .absent) :
    Does T (fragRequestCreateCalls ks .fresh)
      (T.relist .fresh (l ++ ks.map .request) (ks.map .request) (.on .fresh)) := by
  induction ks generalizing T l with
  | nil =>
      refine Does.nil.to ?_
      funext x
      by_cases hx : x = .fresh <;> simp [NodeUses.relist, hx, hfresh]
  | cons k ks ih =>
      obtain ⟨hk, hnd⟩ := List.nodup_cons.mp hnd
      have hone : Does T [plain (.malloc [.request k]), plain (.addTail (.request k) .fresh)]
          (T.relist .fresh (l ++ [.request k]) [.request k] (.on .fresh)) := by
        refine ((Does.malloc ?_).cons (Does.addTail (l := l) ?_ ?_ ?_ ?_)).to ?_
        · intro x hx
          rw [List.mem_singleton.mp hx]
          exact habs k List.mem_cons_self
        · simp [NodeUses.setAll, hfresh]
        · simp [NodeUses.setAll, NodeUse.Loose]
        · simp [NodeUses.setAll]
        · simp
        · funext x
          by_cases hx : x = .request k <;> simp [NodeUses.relist, NodeUses.setAll, hx]
      have hrest := @ih (T.relist .fresh (l ++ [.request k]) [.request k] (.on .fresh)) _
        NodeUses.relist_head hnd fun k' hk' => by
          have hne : k' ≠ k := by
            rintro rfl
            exact hk hk'
          rw [NodeUses.relist_of_notMem (by simpa using hne) (by simp)]
          exact habs k' (List.mem_cons_of_mem k hk')
      rw [relist_relist, List.append_assoc] at hrest
      exact hone.append hrest

/-- The list of what is new is put in front of the queue and given back. -/
lemma does_newRequests {ks : List ℕ} (hS : S .fresh = .absent) (hnd : ks.Nodup)
    (habs : ∀ k ∈ ks, S (.request k) = .absent) :
    Does ((S.withFresh []).withBucket d n pb qs)
      (fragRequestCreateCalls ks .fresh ++ [plain (.splice .fresh .outqueue),
        plain (.free [.fresh])])
      ((S.setAll (ks.map .request) (.on .outqueue)).withBucket d n pb
        (ks.map .request ++ qs)) := by
  have hfresh : (S.withFresh []).withBucket d n pb qs .fresh = .head [] := by
    rw [withBucket_of_not (by simp) id, NodeUses.withFresh, Function.update_self]
  refine .of_laid fun m hm => ?_
  have hon : ∀ x, (S.withFresh []).withBucket d n pb qs x ≠ .on .fresh := fun x hx =>
    List.not_mem_nil ((hm.mem .fresh [] hfresh x).mpr hx)
  refine ((does_fragRequestCreate hfresh hnd ?_).append
    ((Does.splice (a := ks.map .request) (b := qs) ?_ ?_ ?_).cons (Does.free ?_))).to
    (eq_withBucket ?_ ?_ (fun pid => ?_) (fun pid i => ?_) fun x hq hx => ?_)
  · intro k hk
    rw [withBucket_of_not (by simp) id, NodeUses.withFresh, Function.update_of_ne (by simp)]
    exact habs k hk
  · simp
  · simp [NodeUses.relist]
  · simp
  · simp [NodeUses.splice, NodeUse.Loose]
  · simp [NodeUses.setAll, NodeUses.splice]
  · simp [NodeUses.setAll, NodeUses.splice, NodeUses.relist]
  · have hon := withBucket_packet pid ▸ hon (.packet d n pid)
    simp [NodeUses.setAll, NodeUses.splice, NodeUses.relist, hon]
  · have hon := withBucket_slot pid i ▸ hon (.slot d n pid i)
    simp [NodeUses.setAll, NodeUses.splice, NodeUses.relist, hon]
  · by_cases hf : x = .fresh
    · simp [NodeUses.setAll, hf, hS]
    · have hon := hon x
      rw [withBucket_of_not hq hx, NodeUses.withFresh, Function.update_of_ne hf] at hon
      by_cases hk : x ∈ ks.map .request
      · simp [NodeUses.setAll, NodeUses.splice, NodeUses.relist, hk, hf, hq]
      · simp [NodeUses.setAll, NodeUses.splice, NodeUses.relist, hk, hf, hq,
          withBucket_of_not hq hx, NodeUses.withFresh, hon]

/-- The packet of an arriving fragment is there after the sweep, or it is created. -/
lemma does_obtainPacket {tSweep tCreate : ℤ} (h : pb.Wf) (hu : pb.Unlinked) :
    Does (S.withBucket d n pb qs) (packetBucketObtainCalls d n pb f tSweep tCreate)
      (S.withBucket d n (pb.obtain f tSweep tCreate) qs) := by
  have hfresh : (packetBucketPeriodicRefresh pb [] tSweep).1 = pb.fresh tSweep := by
    rw [packetBucketPeriodicRefresh_eq h]
    rfl
  have hid := h.target_packetId (f := f) tSweep tCreate
  refine (does_periodicRefresh_unlinked h hu tSweep).append ?_
  rw [hfresh, PacketBucket.obtain]
  cases hf : (pb.fresh tSweep).lookup f.pid with
  | some fp => exact .nil
  | none =>
      have hinsert : Does (S.withBucket d n (pb.fresh tSweep) qs) _ _ :=
        does_insert_unlinked (h.fresh tSweep) (by rw [hid, hf]) (hu.target h)
      rwa [hid] at hinsert

/-- **`packet_bucket_add_fragment`**, with the requests it causes put on the queue. -/
lemma does_addFragment {ks : List ℕ} {tSweep tCreate : ℤ} (h : pb.Wf) (hu : pb.Unlinked)
    (hS : S .fresh = .absent) (hnd : ks.Nodup) (habs : ∀ k ∈ ks, S (.request k) = .absent)
    (hks : (pb.target f tSweep tCreate).fragNum ≤ f.id → ks = []) :
    Does (S.withBucket d n pb qs)
      ([plain (.malloc [.fresh]), plain (.init .fresh)]
        ++ packetBucketAddFragmentCalls d n pb f tSweep tCreate ks
        ++ [plain (.splice .fresh .outqueue), plain (.free [.fresh])])
      ((S.setAll (ks.map .request) (.on .outqueue)).withBucket d n (pb.arrived f tSweep tCreate)
        (ks.map .request ++ qs)) := by
  have hid := h.target_packetId (f := f) tSweep tCreate
  have hwf := h.obtain (f := f) tSweep tCreate
  have hl : (pb.obtain f tSweep tCreate).lookup f.pid = some (pb.target f tSweep tCreate) := by
    rw [h.lookup_obtain, if_pos rfl]
  have hu' : (pb.obtain f tSweep tCreate).Unlinked := fun pid fp hp => by
    rw [h.lookup_obtain] at hp
    split_ifs at hp
    · obtain rfl := Option.some.inj hp
      exact hu.target h
    · exact hu pid fp (h.lookup_of_fresh hp)
  have hl' : (pb.obtain f tSweep tCreate).lookup (pb.target f tSweep tCreate).packetId
      = some (pb.target f tSweep tCreate) := by rw [hid, hl]
  have harrived : ∀ (S : NodeUses ListNode) qs,
      S.withBucket d n (pb.arrived f tSweep tCreate) qs
        = S.withBucket d n (pb.obtain f tSweep tCreate) qs := fun S qs =>
    withBucket_store hwf hl' rfl fun i => (hu.target h).put_linked f i
  rw [harrived, packetBucketAddFragmentCalls, List.append_assoc, List.append_assoc]
  refine (does_fresh hS).append ((does_obtainPacket h hu).append ?_)
  split_ifs with hi
  · rw [List.append_assoc]
    exact (does_write hu' hl hi).append (does_newRequests hS hnd habs)
  · obtain rfl := hks (not_lt.mp hi)
    exact does_newRequests hS hnd habs

end Arriving

end PeerStreamer
