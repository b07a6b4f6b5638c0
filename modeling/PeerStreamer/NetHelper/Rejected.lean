import PeerStreamer.NetHelper.Age
import PeerStreamer.NetHelper.PacketSlots

/-!
# Fragments that are rejected

A fragment whose id is not below the number of fragments of its packet is rejected.  The packet is
looked up, and created from the header of the fragment if it is not there, before the id is
compared, so that the rejected fragment leaves no trace exactly when its packet was there already
(`rejected_no_trace_iff`).
-/

namespace PeerStreamer

/-! ## Adding a fragment, whatever is on the lists -/

section Adding

variable {pb : PacketBucket} {f : Fragment} {tSweep tCreate t t' : ℤ}

lemma fragmentedPacketWriteFragment_fields (fp : FragmentedPacket) (f : Fragment)
    (requests q : MsgList) :
    (fragmentedPacketWriteFragment fp f requests q).1 = fp.put f
      ∧ (fragmentedPacketWriteFragment fp f requests q).2.1 = arrivalState fp f
      ∧ (fragmentedPacketWriteFragment fp f requests q).2.2.1
          = requests ++ arrivalRequests fp f := by
  by_cases hf : f.id < fp.fragNum
  · rw [fragmentedPacketWriteFragment_of_lt hf, arrivalState, arrivalRequests, missingIds,
      if_pos hf, if_pos hf]
    exact ⟨rfl, rfl, rfl⟩
  · rw [fragmentedPacketWriteFragment_of_ge (Nat.le_of_not_lt hf), arrivalState, arrivalRequests,
      missingIds, if_neg hf, if_neg hf, FragmentedPacket.put_of_ge (Nat.le_of_not_lt hf)]
    exact ⟨rfl, rfl, (List.append_nil requests).symm⟩

/-- `packet_bucket_add_fragment`, apart from the list the slots may be linked into. -/
lemma packetBucketAddFragment_fields (h : pb.Wf) (f : Fragment) (requests q : MsgList)
    (tSweep tCreate : ℤ) :
    (packetBucketAddFragment pb f requests q tSweep tCreate).1 = pb.arrived f tSweep tCreate
      ∧ (packetBucketAddFragment pb f requests q tSweep tCreate).2.1
          = arrivalState (pb.target f tSweep tCreate) f
      ∧ (packetBucketAddFragment pb f requests q tSweep tCreate).2.2.1
          = requests ++ arrivalRequests (pb.target f tSweep tCreate) f := by
  obtain ⟨hput, hstate, hreq⟩ := fragmentedPacketWriteFragment_fields
    (pb.target f tSweep tCreate) f requests (pb.unlink (pb.swept tSweep) q)
  rw [packetBucketAddFragment_eq h]
  refine ⟨?_, hstate, hreq⟩
  rw [PacketBucket.arrived, ← hput]

lemma arrivalState_eq_error {fp : FragmentedPacket} :
    arrivalState fp f = .error ↔ fp.fragNum ≤ f.id := by
  rw [arrivalState]
  split_ifs with hid hc
  · simpa using hid
  · simpa using hid
  · simpa using hid

namespace PacketBucket

/-- Storing the packet that is there changes nothing. -/
lemma Wf.store_self (h : pb.Wf) {fp : FragmentedPacket} (hl : pb.lookup fp.packetId = some fp) :
    pb.store fp = pb := by
  have hsame : ∀ x ∈ pb.packetSet.elements, (if packetCmp x fp = 0 then fp else x) = x := by
    intro x hx
    split_ifs with hcmp
    · have hlx := h.lookup_eq_some.mpr ⟨hx, packetCmp_eq_zero.mp hcmp⟩
      exact Option.some.inj (hl.symm.trans hlx)
    · rfl
  rw [PacketBucket.store, ordSetWrite, List.map_congr_left hsame, List.map_id']

/-- What has expired stays so. -/
lemma expired_mono (ht : tSweep ≤ t) {pid : ℕ} (he : pb.expired tSweep pid = true) :
    pb.expired t pid = true := by
  rw [expired] at he ⊢
  cases hl : pb.lookup pid with
  | none => rw [hl] at he; exact he
  | some fp =>
      simp only [hl, Option.any_some, decide_eq_true_eq] at he ⊢
      omega

/-- Two sweeps, one after the other, drop what the second alone would have dropped. -/
lemma Wf.swept_fresh (h : pb.Wf) (ht : tSweep ≤ t) :
    pb.swept t = pb.swept tSweep ++ (pb.fresh tSweep).swept t := by
  have hdrop : (pb.fresh tSweep).packetList = pb.packetList.dropWhile (pb.expired tSweep) := by
    have hsplit := List.takeWhile_append_dropWhile (p := pb.expired tSweep) (l := pb.packetList)
    have hnodup : (pb.swept tSweep ++ pb.packetList.dropWhile (pb.expired tSweep)).Nodup :=
      hsplit.symm ▸ h.nodup
    change pb.packetList.filter (· ∉ pb.swept tSweep) = _
    conv_lhs => rw [← hsplit]
    rw [List.filter_append, List.filter_eq_nil_iff.mpr, List.nil_append, List.filter_eq_self]
    · intro p hp
      simpa using fun hs => List.disjoint_of_nodup_append hnodup hs hp
    · intro p hp
      rw [decide_eq_true_eq, not_not]
      exact hp
  have hexp : ∀ p ∈ (pb.fresh tSweep).packetList, (pb.fresh tSweep).expired t p = pb.expired t p :=
    fun p hp => by
      obtain ⟨fp, hl⟩ := Option.isSome_iff_exists.mp (((h.fresh tSweep).listed p).mp hp)
      rw [expired, expired, hl, h.lookup_of_fresh hl, fresh_maxPktAge]
  rw [swept, swept, swept, takeWhile_congr_mem hexp, hdrop]
  conv_lhs =>
    rw [← List.takeWhile_append_dropWhile (p := pb.expired tSweep) (l := pb.packetList)]
  exact List.takeWhile_append_of_pos fun p hp => expired_mono ht (List.mem_takeWhile_imp hp)

lemma without_without (dead dead' : List ℕ) :
    (pb.without dead).without dead' = pb.without (dead ++ dead') := by
  have hmem : ∀ x : ℕ, decide (x ∉ dead ++ dead') = (decide (x ∉ dead') && decide (x ∉ dead)) :=
    fun x => by simp only [List.mem_append, not_or, Bool.decide_and, Bool.and_comm]
  simp only [PacketBucket.without, List.filter_filter, hmem]

lemma Wf.fresh_fresh (h : pb.Wf) (ht : tSweep ≤ t) : (pb.fresh tSweep).fresh t = pb.fresh t := by
  have hswept := congrArg pb.without (h.swept_fresh ht)
  rw [← without_without] at hswept
  exact hswept.symm

/-- The fragments of the packets dropped by two sweeps are unlinked one after the other. -/
lemma Wf.unlink_unlink (h : pb.Wf) (ht : tSweep ≤ t) (q : MsgList) :
    (pb.fresh tSweep).unlink ((pb.fresh tSweep).swept t) (pb.unlink (pb.swept tSweep) q)
      = pb.unlink (pb.swept t) q := by
  rw [h.swept_fresh ht, unlink, unlink, unlink, List.foldl_append]
  refine List.foldl_ext _ _ _ fun q' p hp => ?_
  obtain ⟨fp, hl⟩ := (h.fresh tSweep).lookup_of_swept hp
  rw [hl, h.lookup_of_fresh hl]

/-- A fragment that arrives after a sweep finds what it would have found before it. -/
lemma Wf.addFragment_fresh (h : pb.Wf) (ht : tSweep ≤ t) (g : Fragment) (requests q : MsgList) :
    packetBucketAddFragment (pb.fresh tSweep) g requests (pb.unlink (pb.swept tSweep) q) t t'
      = packetBucketAddFragment pb g requests q t t' := by
  rw [packetBucketAddFragment, packetBucketAddFragment,
    packetBucketPeriodicRefresh_eq (h.fresh tSweep), packetBucketPeriodicRefresh_eq h,
    h.unlink_unlink ht]
  have hfresh : (pb.fresh tSweep).without ((pb.fresh tSweep).swept t) = pb.without (pb.swept t) :=
    h.fresh_fresh ht
  rw [hfresh]

/-- A rejected fragment whose packet is there: only the sweep is left of the call. -/
lemma Wf.addFragment_rejected (h : pb.Wf) (hknown : (pb.fresh tSweep).lookup f.pid ≠ none)
    (hrej : arrivalState (pb.target f tSweep tCreate) f = .error) (requests q : MsgList) :
    packetBucketAddFragment pb f requests q tSweep tCreate
      = (pb.fresh tSweep, .error, requests, pb.unlink (pb.swept tSweep) q) := by
  obtain ⟨fp, hl⟩ := Option.ne_none_iff_exists'.mp hknown
  have htarget : pb.target f tSweep tCreate = fp := by
    rw [target, hl]
    rfl
  have hobtain : pb.obtain f tSweep tCreate = pb.fresh tSweep := by
    rw [PacketBucket.obtain, hl]
  rw [htarget, arrivalState_eq_error] at hrej
  rw [packetBucketAddFragment_eq h, htarget, hobtain, fragmentedPacketWriteFragment_of_ge hrej]
  have hself : (pb.fresh tSweep).lookup fp.packetId = some fp := by
    rw [(h.fresh tSweep).packetId_of_lookup hl, hl]
  exact Prod.ext ((h.fresh tSweep).store_self hself) rfl

end PacketBucket

end Adding

/-! ## The trace of a rejected fragment -/

/-- The fragment leaves no trace: the bucket is the one its sweep leaves, no request is made, and
every fragment that arrives later is treated as if this one had never arrived. -/
structure NoTrace (pb : PacketBucket) (f : Fragment) (requests q : MsgList) (tSweep tCreate : ℤ) :
    Prop where
  stored : (packetBucketAddFragment pb f requests q tSweep tCreate).1
    = (packetBucketPeriodicRefresh pb q tSweep).1
  nothingRequested : (packetBucketAddFragment pb f requests q tSweep tCreate).2.2.1 = requests
  later : ∀ (g : Fragment) (requests' : MsgList) (t t' : ℤ), tSweep ≤ t →
    packetBucketAddFragment (packetBucketAddFragment pb f requests q tSweep tCreate).1 g requests'
        (packetBucketAddFragment pb f requests q tSweep tCreate).2.2.2 t t'
      = packetBucketAddFragment pb g requests' q t t'

/-- **When a rejected fragment leaves no trace**: when its packet is in the bucket, and is not
dropped by the sweep. -/
theorem rejected_no_trace_iff (pb : PacketBucket) (hwf : pb.Wf) (f : Fragment)
    (requests q : MsgList) (tSweep tCreate : ℤ)
    (hrej : (packetBucketAddFragment pb f requests q tSweep tCreate).2.1 = .error) :
    NoTrace pb f requests q tSweep tCreate ↔ (pb.fresh tSweep).lookup f.pid ≠ none := by
  have hsweep := packetBucketPeriodicRefresh_eq hwf q tSweep
  obtain ⟨hbucket, hstate, -⟩ := packetBucketAddFragment_fields hwf f requests q tSweep tCreate
  rw [hstate] at hrej
  constructor
  · intro h hnone
    -- the packet made from the header is there, and the sweep alone does not make it
    have hlook := hwf.lookup_arrived f tSweep tCreate f.pid
    rw [if_pos rfl, ← hbucket, h.stored, hsweep] at hlook
    exact absurd (hnone.symm.trans hlook) (by simp)
  · intro hknown
    have hadd := hwf.addFragment_rejected hknown hrej requests q
    refine ⟨?_, ?_, fun g requests' t t' ht => ?_⟩
    · rw [hadd, hsweep]
      rfl
    · rw [hadd]
    · rw [hadd]
      exact hwf.addFragment_fresh ht g requests' q

/-- A bucket with the packet `7` of three fragments, one of them received. -/
def bucketOfThree : PacketBucket :=
  (packetBucketAddFragment (packetBucketCreate 1024 10) (byteFragment 0 1) [] [] 0 0).1

lemma bucketOfThree_wf : bucketOfThree.Wf := by
  rw [bucketOfThree, (packetBucketAddFragment_fields (PacketBucket.create_wf 1024 10) _ _ _ _ _).1]
  exact (PacketBucket.create_wf 1024 10).arrived _ 0 0

/-- The fragment `5` of the packet of three. -/
theorem rejected_no_trace_known :
    NoTrace bucketOfThree (byteFragment 5 1) [] [] 3 3
      ↔ (bucketOfThree.fresh 3).lookup (byteFragment 5 1).pid ≠ none :=
  rejected_no_trace_iff bucketOfThree bucketOfThree_wf (byteFragment 5 1) [] [] 3 3 (by decide)

/-- A header announces no fragments, and the only fragment of the packet itself is then rejected:
the packet that was made from the header has no slot for it. -/
theorem not_rejected_no_trace :
    ¬∀ (pb : PacketBucket) (f : Fragment) (requests q : MsgList) (tSweep tCreate : ℤ), pb.Wf →
      (packetBucketAddFragment pb f requests q tSweep tCreate).2.1 = .error →
      NoTrace pb f requests q tSweep tCreate := by
  intro h
  have htrace := h (packetBucketCreate 1024 10) { byteFragment 0 1 with fragNum := 0 } [] [] 0 0
    (PacketBucket.create_wf 1024 10) (by decide)
  have hlater := htrace.later { byteFragment 0 1 with fragNum := 1 } [] 3 3 (by decide)
  have hanswer := congrArg (fun r => r.2.1) hlater
  exact absurd hanswer (by decide)

end PeerStreamer
