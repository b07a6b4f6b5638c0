import PeerStreamer.NetHelper.Incoming

/-!
# Buckets ordered by age

The sweep stops at the first packet that is young enough, so that it drops *all* packets that have
reached the limit only because the list is ordered by creation time.  `PacketBucket.Aged` is that
order; the operations keep it as long as the clock does not go back, and
`PacketBucket.Wf.mem_swept_iff` is what it buys: a sweep drops exactly the packets whose age has
reached `max_pkt_age`.
-/

namespace PeerStreamer

namespace PacketBucket

variable {pb : PacketBucket} {now t : ℤ} {pid : ℕ} {fp : FragmentedPacket} {f : Fragment}

/-- The list is ordered by creation time, and nothing in it was created after `now`. -/
structure Aged (pb : PacketBucket) (now : ℤ) : Prop where
  sorted : pb.packetList.Pairwise fun p p' => ∀ fp fp', pb.lookup p = some fp →
    pb.lookup p' = some fp' → fp.creationTimestamp ≤ fp'.creationTimestamp
  past : ∀ pid fp, pb.lookup pid = some fp → fp.creationTimestamp ≤ now

lemma Aged.mono (h : pb.Aged now) (ht : now ≤ t) : pb.Aged t :=
  ⟨h.sorted, fun pid fp hl => (h.past pid fp hl).trans ht⟩

/-- A bucket with fewer packets in the same order. -/
lemma Aged.sublist (h : pb.Aged now) {pb' : PacketBucket}
    (hl : pb'.packetList.Sublist pb.packetList)
    (hlook : ∀ pid fp, pb'.lookup pid = some fp → pb.lookup pid = some fp) : pb'.Aged now where
  sorted := (h.sorted.sublist hl).imp fun hp fp fp' h₁ h₂ =>
    hp fp fp' (hlook _ _ h₁) (hlook _ _ h₂)
  past pid fp hp := h.past pid fp (hlook pid fp hp)

lemma Aged.fresh (h : pb.Aged now) (hwf : pb.Wf) (t : ℤ) : (pb.fresh t).Aged now :=
  h.sublist List.filter_sublist fun _ _ => hwf.lookup_of_fresh

/-- A packet created now goes to the end of the list. -/
lemma Aged.insert (h : pb.Aged now) (hwf : pb.Wf) (hnew : pb.lookup fp.packetId = none)
    (hfp : now ≤ fp.creationTimestamp) : (pb.insert fp).Aged fp.creationTimestamp := by
  have hlisted : ∀ p ∈ pb.packetList, fp.packetId ≠ p := fun p hp he => by
    rw [hwf.listed, ← he, hnew] at hp
    cases hp
  refine ⟨List.pairwise_append.mpr ⟨h.sorted.imp_of_mem fun {p p'} hp hp' hs => ?_,
    List.pairwise_singleton _ _, fun p hp p' hp' => ?_⟩, fun p fp' hl => ?_⟩
  · rw [hwf.lookup_insert hnew, hwf.lookup_insert hnew, if_neg (hlisted p hp),
      if_neg (hlisted p' hp')]
    exact hs
  · obtain rfl := List.mem_singleton.mp hp'
    rw [hwf.lookup_insert hnew, hwf.lookup_insert hnew, if_neg (hlisted p hp), if_pos rfl]
    rintro fp₁ fp₂ h₁ h₂
    obtain rfl := Option.some.inj h₂
    exact (h.past p fp₁ h₁).trans hfp
  · rw [hwf.lookup_insert hnew] at hl
    split_ifs at hl
    · obtain rfl := Option.some.inj hl
      exact le_rfl
    · exact (h.past p fp' hl).trans hfp

/-- A write leaves the creation times alone. -/
lemma Aged.store (h : pb.Aged now) (hwf : pb.Wf)
    (hfp : ∀ fp', pb.lookup fp.packetId = some fp' →
      fp.creationTimestamp = fp'.creationTimestamp) : (pb.store fp).Aged now := by
  have hlook : ∀ p fp', (pb.store fp).lookup p = some fp' →
      ∃ fp'', pb.lookup p = some fp'' ∧ fp'.creationTimestamp = fp''.creationTimestamp := by
    intro p fp' hl
    rw [hwf.lookup_store] at hl
    split_ifs at hl with hp
    · obtain ⟨fp'', hl', rfl⟩ := Option.map_eq_some_iff.mp hl
      exact ⟨fp'', hl', hfp fp'' (hp ▸ hl')⟩
    · exact ⟨fp', hl, rfl⟩
  refine ⟨h.sorted.imp fun hs fp₁ fp₂ h₁ h₂ => ?_, fun p fp' hl => ?_⟩
  · obtain ⟨fp₁', h₁', he₁⟩ := hlook _ _ h₁
    obtain ⟨fp₂', h₂', he₂⟩ := hlook _ _ h₂
    rw [he₁, he₂]
    exact hs fp₁' fp₂' h₁' h₂'
  · obtain ⟨fp'', hl', he⟩ := hlook _ _ hl
    rw [he]
    exact h.past p fp'' hl'

lemma Aged.arrived (h : pb.Aged now) (hwf : pb.Wf) {tSweep tCreate : ℤ} (ht : now ≤ tCreate) :
    (pb.arrived f tSweep tCreate).Aged tCreate := by
  have hobtain : (pb.obtain f tSweep tCreate).Aged tCreate := by
    rw [PacketBucket.obtain]
    split
    · exact (h.fresh hwf tSweep).mono ht
    next hl =>
      have htgt : pb.target f tSweep tCreate
          = fragmentedPacketEmpty f.pid f.fromNode f.toNode f.fragNum tCreate := by
        rw [PacketBucket.target, hl]
        rfl
      rw [htgt]
      exact (h.fresh hwf tSweep).insert (hwf.fresh tSweep) hl ht
  refine hobtain.store (hwf.obtain tSweep tCreate) fun fp' hl => ?_
  rw [hwf.lookup_obtain, FragmentedPacket.put_packetId, hwf.target_packetId, if_pos rfl] at hl
  obtain rfl := Option.some.inj hl
  rfl

/-- **What a sweep drops**, in a bucket ordered by age: the packets that have reached the limit. -/
theorem Wf.mem_swept_iff (hwf : pb.Wf) (h : pb.Aged now) (t : ℤ) :
    pid ∈ pb.swept t ↔ ∃ fp, pb.lookup pid = some fp
      ∧ pb.maxPktAge ≤ t - fp.creationTimestamp := by
  have hexp : pb.expired t pid = true ↔ ∃ fp, pb.lookup pid = some fp
      ∧ pb.maxPktAge ≤ t - fp.creationTimestamp := by
    rw [expired]
    cases pb.lookup pid <;> simp
  rw [← hexp]
  refine ⟨fun hm => List.mem_takeWhile_imp hm, fun he => ?_⟩
  obtain ⟨fp, hl, -⟩ := hexp.mp he
  have hmem : pid ∈ pb.packetList := (hwf.listed pid).mpr (by rw [hl]; rfl)
  -- every packet in front of an expired one is at least as old
  obtain ⟨pre, post, hsplit⟩ := List.append_of_mem hmem
  have hpre : ∀ p ∈ pre, pb.expired t p = true := by
    intro p hp
    have hp' : p ∈ pb.packetList := by
      rw [hsplit]
      exact List.mem_append_left _ hp
    obtain ⟨fp', hl'⟩ := Option.isSome_iff_exists.mp ((hwf.listed p).mp hp')
    have hle : fp'.creationTimestamp ≤ fp.creationTimestamp := by
      have hs := h.sorted
      rw [hsplit] at hs
      exact (List.pairwise_append.mp hs).2.2 p hp pid List.mem_cons_self fp' fp hl' hl
    simp only [expired, hl, hl', Option.any_some, decide_eq_true_eq] at he ⊢
    omega
  rw [swept, hsplit, List.takeWhile_append_of_pos hpre, List.takeWhile_cons_of_pos he]
  exact List.mem_append_right _ List.mem_cons_self

end PacketBucket

end PeerStreamer
