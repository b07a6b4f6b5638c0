import PeerStreamer.NetHelper.Age
import PeerStreamer.NetHelper.Receive

/-!
# What `recv_from_peer` hands out

When an arriving fragment completes its packet, `recv_from_peer` pops the packet into the caller's
buffer and returns the size `network_manager_pop_incoming_packet` reports — without looking at its
return code.  A packet dropped between the two calls then counts as `buffer_size` bytes, and one
that does not fit as the bytes that were copied before the copy stopped.

`recvFromPeer_integrity_iff` says exactly when the value returned can be trusted.
-/

namespace PeerStreamer

section Integrity

variable {ic : IntCoding} {localNode : NodeID} {nm : NetworkManager} {r : Reception}
  {datagram : Bytes}

/-- The contents of the buffer once `recvfrom` has delivered a datagram. -/
def Reception.filled (r : Reception) (datagram : Bytes) : Bytes :=
  datagram ++ r.buffer.drop datagram.length

lemma Reception.length_filled (hr : r.received = some datagram) :
    (r.filled datagram).length = r.buffer.length := by
  have := r.fits datagram hr
  rw [filled, List.length_append, List.length_drop]
  omega

/-- The packet of an arriving fragment, with the fragment written into it. -/
def NetworkManager.packetOf (nm : NetworkManager) (r : Reception) (f : Fragment) :
    FragmentedPacket :=
  (nm.target f r.tSweep r.tCreate).put f

/-- The fragment completes its packet. -/
def NetworkManager.Completes (nm : NetworkManager) (r : Reception) (f : Fragment) : Prop :=
  arrivalState (nm.target f r.tSweep r.tCreate) f = .ready

/-- The sweep made before the packet is popped drops it. -/
def NetworkManager.DroppedAtPop (nm : NetworkManager) (r : Reception) (f : Fragment) : Prop :=
  f.pid ∈ ((nm.endpointFor f.fromNode).incoming.arrived f r.tSweep r.tCreate).swept r.tPop

instance (nm : NetworkManager) (r : Reception) (f : Fragment) : Decidable (nm.Completes r f) :=
  inferInstanceAs (Decidable (_ = _))

instance (nm : NetworkManager) (r : Reception) (f : Fragment) : Decidable (nm.DroppedAtPop r f) :=
  inferInstanceAs (Decidable (_ ∈ _))

/-- In a bucket ordered by age, the packet is dropped at the pop when it has reached its age by
then. -/
theorem NetworkManager.Wf.droppedAtPop_iff (h : nm.Wf) {f : Fragment}
    (hage : (nm.endpointFor f.fromNode).incoming.Aged r.tSweep) (hclock : r.tSweep ≤ r.tCreate) :
    nm.DroppedAtPop r f ↔ nm.maxPktAge
      ≤ r.tPop - (nm.target f r.tSweep r.tCreate).creationTimestamp := by
  have hwf := (h.endpointFor_wf f.fromNode)
  rw [DroppedAtPop, (hwf.incoming.arrived f _ _).mem_swept_iff (hage.arrived hwf.incoming hclock),
    hwf.incoming.lookup_arrived, if_pos rfl, PacketBucket.arrived_maxPktAge, hwf.inAge]
  simp [NetworkManager.target]

lemma NetworkManager.Completes.complete {f : Fragment} (h : nm.Completes r f) :
    (nm.packetOf r f).Complete := by
  rw [Completes, arrivalState] at h
  split_ifs at h with _ hc
  exact hc

/-- `recv_from_peer` on a fragment. -/
lemma recvFromPeer_fragment (localNode : NodeID) (h : nm.OutqueueInv)
    (hr : r.received = some datagram) (hd : Decodable ic datagram)
    (htype : datagram.head? = some NET_FRAGMENT) {f : Fragment}
    (hf : f = decodedFragment ic localNode r.remote datagram) :
    recvFromPeer ic localNode nm r
      = .ok (if nm.Completes r f then
          let a := nm.arrived f r.tSweep r.tCreate
          let p := a.popAnswer r.remote f.pid r.buffer.length r.tPop
          (a.popped r.remote f.pid r.tPop, p.2.2,
            p.2.1 ++ (r.filled datagram).drop p.2.1.length)
        else (nm.arrived f r.tSweep r.tCreate, 0, r.filled datagram)) := by
  have hne : 0 < datagram.length := by
    cases datagram with
    | nil => simp at htype
    | cons b datagram => simp
  have hlen := r.length_filled hr
  rw [recvFromPeer, recvFromPeerAs, hr]
  simp only [gt_iff_lt, hne, if_true, netMsgDecode_of_decodable hd, Eval.ok_bind, decodedMessage,
    if_true, htype, ← hf, h.addFragment]
  by_cases hs : nm.Completes r f
  · rw [if_pos hs, if_pos (show arrivalState _ f = .ready from hs)]
    simp only [h.arrived.popPacket, Eval.pure_eq_ok]
    rw [← Reception.filled, hlen]
  · rw [if_neg hs, if_neg (show ¬ arrivalState _ f = .ready from hs)]
    rfl

/-- What popping the packet of the fragment answers. -/
lemma popAnswer_arrived (h : nm.OutqueueInv) {f : Fragment} (hfrom : f.fromNode = r.remote)
    (size : ℕ) :
    (nm.arrived f r.tSweep r.tCreate).popAnswer r.remote f.pid size r.tPop
      = if nm.DroppedAtPop r f then (-2, [], size)
        else ((fragmentedPacketDumpData (nm.packetOf r f) size).1,
          (fragmentedPacketDumpData (nm.packetOf r f) size).2,
          (fragmentedPacketDumpData (nm.packetOf r f) size).2.length) := by
  have hwf := h.wf.endpointFor_wf f.fromNode
  have hin := hwf.incoming.arrived f r.tSweep r.tCreate
  have hend : (nm.arrived f r.tSweep r.tCreate).endpoint r.remote
      = some { nm.endpointFor f.fromNode with
          incoming := (nm.endpointFor f.fromNode).incoming.arrived f r.tSweep r.tCreate } := by
    rw [h.wf.endpoint_arrived, if_pos (by rw [hfrom]; exact nodeidEqual_self _)]
  have hlook := hwf.incoming.lookup_arrived f r.tSweep r.tCreate f.pid
  rw [if_pos rfl] at hlook
  rw [NetworkManager.popAnswer, hend]
  simp only [PacketBucket.popAnswer, PacketBucket.fresh, hin.lookup_without]
  by_cases hdrop : nm.DroppedAtPop r f
  · have hmem : f.pid ∈ PacketBucket.swept _ r.tPop := hdrop
    rw [if_pos hdrop, if_pos hmem]
  · have hmem : f.pid ∉ PacketBucket.swept _ r.tPop := hdrop
    rw [if_neg hdrop, if_neg hmem, hlook]
    rfl

/-- What integrity asks of one reception of a fragment: a positive return value is the length of
the fragment's packet, all of whose fragments have been received, and the packet is what the buffer
starts with; and there is no positive return value when the packet is complete but cannot be handed
out, having been dropped or being larger than the buffer. -/
structure IntegralReception (ic : IntCoding) (localNode : NodeID) (nm : NetworkManager)
    (r : Reception) (f : Fragment) : Prop where
  whole : ∀ nm' n buffer, recvFromPeer ic localNode nm r = .ok (nm', n, buffer) → 0 < n →
    (nm.packetOf r f).Complete ∧ n = (nm.packetOf r f).contents.length
      ∧ buffer.take n.toNat = (nm.packetOf r f).contents
  refused : ∀ nm' n buffer, recvFromPeer ic localNode nm r = .ok (nm', n, buffer) →
    nm.Completes r f →
    nm.DroppedAtPop r f ∨ r.buffer.length < (nm.packetOf r f).contents.length → n ≤ 0

/-- Integrity is about the one outcome of the call. -/
lemma integralReception_iff {f : Fragment} {nm' : NetworkManager} {n : ℤ} {buffer : Bytes}
    (hrecv : recvFromPeer ic localNode nm r = .ok (nm', n, buffer)) :
    IntegralReception ic localNode nm r f
      ↔ (0 < n → (nm.packetOf r f).Complete ∧ n = (nm.packetOf r f).contents.length
          ∧ buffer.take n.toNat = (nm.packetOf r f).contents)
        ∧ (nm.Completes r f →
          nm.DroppedAtPop r f ∨ r.buffer.length < (nm.packetOf r f).contents.length → n ≤ 0) := by
  refine ⟨fun h => ⟨h.whole _ _ _ hrecv, h.refused _ _ _ hrecv⟩, fun ⟨hwhole, hrefused⟩ => ⟨?_, ?_⟩⟩
  · intro nm₁ n₁ buffer₁ hok
    rw [hrecv, Except.ok.injEq, Prod.mk.injEq, Prod.mk.injEq] at hok
    obtain ⟨-, rfl, rfl⟩ := hok
    exact hwhole
  · intro nm₁ n₁ buffer₁ hok
    rw [hrecv, Except.ok.injEq, Prod.mk.injEq, Prod.mk.injEq] at hok
    obtain ⟨-, rfl, -⟩ := hok
    exact hrefused

/-- The value returned can be trusted: the fragment does not complete its packet, or the packet is
not dropped at the pop and is either smaller than the buffer or not copied at all. -/
def NetworkManager.HandsOut (nm : NetworkManager) (r : Reception) (f : Fragment) : Prop :=
  nm.Completes r f → ¬ nm.DroppedAtPop r f
    ∧ ((nm.packetOf r f).contents.length < r.buffer.length
      ∨ (nm.packetOf r f).Blocked r.buffer.length)

/-- **When the return value of `recv_from_peer` can be trusted.**  For every state of the network
manager in which the queue is accounted for, every fragment datagram, every buffer and all readings
of the clock. -/
theorem recvFromPeer_integrity_iff (ic : IntCoding) (localNode : NodeID) (nm : NetworkManager)
    (h : nm.OutqueueInv) (r : Reception) (datagram : Bytes) (hr : r.received = some datagram)
    (hd : Decodable ic datagram) (htype : datagram.head? = some NET_FRAGMENT) :
    IntegralReception ic localNode nm r (decodedFragment ic localNode r.remote datagram)
      ↔ nm.HandsOut r (decodedFragment ic localNode r.remote datagram) := by
  set f := decodedFragment ic localNode r.remote datagram with hf
  have hfrom : f.fromNode = r.remote := rfl
  have hsize : 0 < r.buffer.length := by
    have := r.fits datagram hr
    cases datagram with
    | nil => simp at htype
    | cons b datagram =>
        rw [List.length_cons] at this
        omega
  have hrecv := recvFromPeer_fragment localNode h hr hd htype hf
  by_cases hready : nm.Completes r f
  · rw [if_pos hready] at hrecv
    simp only [popAnswer_arrived h hfrom] at hrecv
    rw [integralReception_iff hrecv, NetworkManager.HandsOut]
    simp only [hready, true_imp_iff]
    by_cases hdrop : nm.DroppedAtPop r f
    · -- the buffer size is returned for a packet that is gone
      simp only [if_pos hdrop]
      refine iff_of_false (fun hint => ?_) fun hcond => hcond.1 hdrop
      exact absurd (hint.2 (Or.inl hdrop)) (not_le.mpr (Nat.cast_pos.mpr hsize))
    · simp only [if_neg hdrop]
      by_cases hfits : (nm.packetOf r f).contents.length < r.buffer.length
      · rw [fragmentedPacketDumpData_fits hfits]
        refine iff_of_true ⟨fun _ => ⟨hready.complete, rfl, ?_⟩, fun hbad => ?_⟩
          ⟨hdrop, Or.inl hfits⟩
        · rw [Int.toNat_natCast, List.take_left']
          rfl
        · rcases hbad with hbad | hbad
          · exact absurd hbad hdrop
          · omega
      · obtain ⟨bytes, hdump, hlt, hblocked⟩ :=
          fragmentedPacketDumpData_large hsize (Nat.le_of_not_lt hfits)
        rw [hdump]
        simp only [hdrop, not_false_eq_true, hfits, true_and, false_or, ← hblocked]
        constructor
        · rintro ⟨hwhole, -⟩
          -- a positive value would be the length of only a part of the packet
          by_contra hne
          have hpos : 0 < bytes.length := List.length_pos_iff.mpr hne
          have hlen := (hwhole (by exact_mod_cast hpos)).2.1
          omega
        · rintro rfl
          simp
  · rw [if_neg hready] at hrecv
    rw [integralReception_iff hrecv]
    exact iff_of_true ⟨fun hn => absurd hn (lt_irrefl _), fun hr => absurd hr hready⟩
      fun hr => absurd hr hready

/-- A packet of one fragment, received whole into a larger buffer. -/
theorem recvFromPeer_integrity_iff_whole :
    IntegralReception bigEndian ⟨[65], 6000, 3⟩ (networkManagerCreate ⟨none, none⟩)
      ⟨[66], 6001, some [0, 0, 0, 0, 1, 0, 0, 0, 0, 0, 1, 42], List.replicate 20 0, 0, 0, 3,
        by decide⟩
      (decodedFragment bigEndian ⟨[65], 6000, 3⟩ (emptyNode [66] 6001)
        [0, 0, 0, 0, 1, 0, 0, 0, 0, 0, 1, 42]) :=
  (recvFromPeer_integrity_iff _ _ _ (networkManagerCreate_outqueueInv _) _ _ rfl (by decide)
    (by decide)).mpr fun _ => ⟨by decide, Or.inl (by decide)⟩

/-- The same packet, popped four seconds after it was completed: the size of the buffer is returned
for a packet that has been dropped. -/
theorem not_recvFromPeer_integrity :
    ¬ ∀ (ic : IntCoding) (localNode : NodeID) (nm : NetworkManager) (r : Reception)
      (datagram : Bytes), ic.Inverse (2 ^ 32) → nm.OutqueueInv → r.received = some datagram →
      Decodable ic datagram → datagram.head? = some NET_FRAGMENT →
      r.tSweep ≤ r.tCreate → r.tCreate ≤ r.tPop →
      IntegralReception ic localNode nm r (decodedFragment ic localNode r.remote datagram) := by
  intro h
  have hint := h bigEndian ⟨[65], 6000, 3⟩ (networkManagerCreate ⟨none, none⟩)
    ⟨[66], 6001, some [0, 0, 0, 0, 1, 0, 0, 0, 0, 0, 1, 42], List.replicate 20 0, 0, 0, 4,
      by decide⟩ [0, 0, 0, 0, 1, 0, 0, 0, 0, 0, 1, 42] bigEndian_inverse
    (networkManagerCreate_outqueueInv _) rfl (by decide) (by decide) (by decide) (by decide)
  obtain ⟨⟨nm', n, buffer⟩, hok⟩ := recvFromPeer_of_decodable ⟨[65], 6000, 3⟩
    (networkManagerCreate ⟨none, none⟩)
    (r := ⟨[66], 6001, some [0, 0, 0, 0, 1, 0, 0, 0, 0, 0, 1, 42], List.replicate 20 0, 0, 0, 4,
      by decide⟩) rfl (by decide) (show Decodable bigEndian _ by decide)
  have hn : (recvFromPeer bigEndian ⟨[65], 6000, 3⟩ (networkManagerCreate ⟨none, none⟩)
      ⟨[66], 6001, some [0, 0, 0, 0, 1, 0, 0, 0, 0, 0, 1, 42], List.replicate 20 0, 0, 0, 4,
        by decide⟩).map (fun res => res.2.1) = .ok 20 := by decide
  rw [hok, Except.map, Except.ok.injEq] at hn
  have hle := hint.refused nm' n buffer hok (by decide) (Or.inl (by decide))
  have hn' : n = 20 := hn
  omega

end Integrity

end PeerStreamer
