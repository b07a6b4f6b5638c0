import PeerStreamer.NetHelper.Outqueue

/-!
# Arriving fragments

What `network_manager_add_incoming_fragment` and `network_manager_pop_incoming_packet` do, in one
line each.  An arriving fragment is written into its *target* — the packet stored under its id if
that survives the sweep, a new one otherwise — and the answer and the requests it causes depend on
the target alone (`arrivalState`, `arrivalRequests`).  The slots of incoming packets are linked
nowhere, so neither operation takes anything off the outgoing queue.
-/

namespace PeerStreamer

/-! ## Writing a fragment -/

/-- What writing `f` into `fp` answers. -/
def arrivalState (fp : FragmentedPacket) (f : Fragment) : PacketState :=
  if f.id < fp.fragNum then if (fp.put f).Complete then .ready else .loading else .error

/-- The ids of the fragments that writing `f` into `fp` asks for. -/
def missingIds (fp : FragmentedPacket) (f : Fragment) : List ℕ :=
  if f.id < fp.fragNum then (fp.put f).requestIds else []

/-- The requests that writing `f` into `fp` puts on the queue. -/
def arrivalRequests (fp : FragmentedPacket) (f : Fragment) : MsgList :=
  (missingIds fp f).map fun i =>
    .request (fragRequestCreate f.fromNode f.toNode fp.packetId i true)

/-- A write beyond the last slot changes nothing. -/
lemma FragmentedPacket.put_of_ge {fp : FragmentedPacket} {f : Fragment} (hf : fp.fragNum ≤ f.id) :
    fp.put f = fp := by
  rw [put, List.set_eq_of_length_le hf]

lemma fragmentedPacketWriteFragment_eq {fp : FragmentedPacket} {f : Fragment}
    (hu : fp.Unlinked) (q : MsgList) :
    fragmentedPacketWriteFragment fp f [] q
      = (fp.put f, arrivalState fp f, arrivalRequests fp f, q) := by
  by_cases hf : f.id < fp.fragNum
  · have hdeinit : fragmentDeinit fp.frags[f.id] q = q := by
      rw [fragmentDeinit, hu _ (List.getElem_mem hf)]
      exact if_neg Bool.false_ne_true
    rw [fragmentedPacketWriteFragment_of_lt hf, hdeinit, arrivalState, arrivalRequests, missingIds,
      if_pos hf, if_pos hf, List.nil_append]
  · rw [fragmentedPacketWriteFragment_of_ge (Nat.le_of_not_lt hf), arrivalState, arrivalRequests,
      missingIds, if_neg hf, if_neg hf, FragmentedPacket.put_of_ge (Nat.le_of_not_lt hf)]
    rfl

lemma FragmentedPacket.Unlinked.put {fp : FragmentedPacket} (h : fp.Unlinked) (f : Fragment) :
    (fp.put f).Unlinked := by
  intro g hg
  rcases List.mem_or_eq_of_mem_set hg with hg | rfl
  · exact h g hg
  · rfl

lemma fragmentedPacketEmpty_unlinked (pid : ℕ) (fromNode toNode : NodeID) (numFrags : ℕ)
    (now : ℤ) : (fragmentedPacketEmpty pid fromNode toNode numFrags now).Unlinked := by
  intro g hg
  obtain ⟨i, -, rfl⟩ := List.mem_map.mp hg
  rfl

/-- No packet of the bucket has a slot that is linked into a list. -/
def PacketBucket.Unlinked (pb : PacketBucket) : Prop :=
  ∀ pid fp, pb.lookup pid = some fp → fp.Unlinked

namespace PacketBucket

variable {pb : PacketBucket} {f : Fragment} {tSweep tCreate : ℤ}

/-- The bucket with the fragment written into its target. -/
def arrived (pb : PacketBucket) (f : Fragment) (tSweep tCreate : ℤ) : PacketBucket :=
  (pb.obtain f tSweep tCreate).store ((pb.target f tSweep tCreate).put f)

lemma Unlinked.target (hu : pb.Unlinked) (h : pb.Wf) : (pb.target f tSweep tCreate).Unlinked := by
  rw [PacketBucket.target]
  cases hl : (pb.fresh tSweep).lookup f.pid with
  | none => exact fragmentedPacketEmpty_unlinked _ _ _ _ _
  | some fp => exact hu f.pid fp (h.lookup_of_fresh hl)

@[simp] lemma arrived_maxPktAge : (pb.arrived f tSweep tCreate).maxPktAge = pb.maxPktAge := by
  rw [arrived, store_maxPktAge, PacketBucket.obtain]
  split <;> rfl

lemma Wf.arrived (h : pb.Wf) (f : Fragment) (tSweep tCreate : ℤ) :
    (pb.arrived f tSweep tCreate).Wf := (h.obtain tSweep tCreate).store

/-- After an arrival the packet of the fragment is the target with the fragment written, and the
others are as the sweep left them. -/
lemma Wf.lookup_arrived (h : pb.Wf) (f : Fragment) (tSweep tCreate : ℤ) (pid : ℕ) :
    (pb.arrived f tSweep tCreate).lookup pid
      = if f.pid = pid then some ((pb.target f tSweep tCreate).put f)
        else (pb.fresh tSweep).lookup pid := by
  rw [PacketBucket.arrived, (h.obtain tSweep tCreate).lookup_store, h.lookup_obtain,
    FragmentedPacket.put_packetId, h.target_packetId]
  split_ifs <;> rfl

lemma Unlinked.arrived (hu : pb.Unlinked) (h : pb.Wf) :
    (pb.arrived f tSweep tCreate).Unlinked := by
  intro pid fp hl
  rw [h.lookup_arrived] at hl
  split_ifs at hl
  · obtain rfl := Option.some.inj hl
    exact (hu.target h).put f
  · exact hu pid fp (h.lookup_of_fresh hl)

/-- `packet_bucket_add_fragment` on a bucket whose slots are linked nowhere. -/
lemma Unlinked.addFragment (hu : pb.Unlinked) (h : pb.Wf) (q : MsgList) :
    packetBucketAddFragment pb f [] q tSweep tCreate
      = (pb.arrived f tSweep tCreate, arrivalState (pb.target f tSweep tCreate) f,
         arrivalRequests (pb.target f tSweep tCreate) f, q) := by
  rw [packetBucketAddFragment_eq h, unlink_unlinked hu,
    fragmentedPacketWriteFragment_eq (hu.target h)]
  rfl

/-- The bucket after a packet has been popped, whether or not it was there. -/
def popped (pb : PacketBucket) (pid : ℕ) (tSweep : ℤ) : PacketBucket :=
  match (pb.fresh tSweep).lookup pid with
  | none => pb.fresh tSweep
  | some fp => (pb.fresh tSweep).remove fp

/-- What popping a packet answers: the return code, the bytes written and the size. -/
def popAnswer (pb : PacketBucket) (pid size : ℕ) (tSweep : ℤ) : ℤ × Bytes × ℕ :=
  match (pb.fresh tSweep).lookup pid with
  | none => (-2, [], size)
  | some fp => ((fragmentedPacketDumpData fp size).1, (fragmentedPacketDumpData fp size).2,
      (fragmentedPacketDumpData fp size).2.length)

@[simp] lemma popped_maxPktAge (pid : ℕ) (tSweep : ℤ) :
    (pb.popped pid tSweep).maxPktAge = pb.maxPktAge := by
  rw [popped]
  split <;> rfl

lemma Wf.popped (h : pb.Wf) (pid : ℕ) (tSweep : ℤ) : (pb.popped pid tSweep).Wf := by
  rw [PacketBucket.popped]
  split
  · exact h.fresh tSweep
  · exact (h.fresh tSweep).remove

/-- After a pop the packet is gone and the others are as the sweep left them. -/
lemma Wf.lookup_popped (h : pb.Wf) (pid : ℕ) (tSweep : ℤ) (pid' : ℕ) :
    (pb.popped pid tSweep).lookup pid'
      = if pid = pid' then none else (pb.fresh tSweep).lookup pid' := by
  rw [PacketBucket.popped]
  split
  next hl =>
    split_ifs with hp
    · rw [← hp, hl]
    · rfl
  next fp hl => rw [(h.fresh tSweep).lookup_remove, (h.fresh tSweep).packetId_of_lookup hl]

lemma Unlinked.popped (hu : pb.Unlinked) (h : pb.Wf) (pid : ℕ) (tSweep : ℤ) :
    (pb.popped pid tSweep).Unlinked := by
  intro pid' fp hl
  rw [h.lookup_popped] at hl
  split_ifs at hl
  exact hu pid' fp (h.lookup_of_fresh hl)

/-- `packet_bucket_pop_packet` on a bucket whose slots are linked nowhere. -/
lemma Unlinked.popPacket (hu : pb.Unlinked) (h : pb.Wf) (pid size : ℕ) (q : MsgList)
    (tSweep : ℤ) :
    packetBucketPopPacket pb pid size q tSweep
      = (pb.popped pid tSweep, q, pb.popAnswer pid size tSweep) := by
  rw [PacketBucket.popped, PacketBucket.popAnswer]
  cases hl : (pb.fresh tSweep).lookup pid with
  | none => rw [packetBucketPopPacket_none h hl, unlink_unlinked hu]
  | some fp =>
      rw [packetBucketPopPacket_some h hl, unlink_unlinked hu,
        fragmentedPacketDestroy_unlinked (hu pid fp (h.lookup_of_fresh hl))]

end PacketBucket

/-! ## The network manager -/

namespace NetworkManager

variable {nm : NetworkManager} {f : Fragment} {tSweep tCreate : ℤ}

/-- The packet an arriving fragment is written into. -/
def target (nm : NetworkManager) (f : Fragment) (tSweep tCreate : ℤ) : FragmentedPacket :=
  (nm.endpointFor f.fromNode).incoming.target f tSweep tCreate

/-- The manager after the arrival of a fragment. -/
def arrived (nm : NetworkManager) (f : Fragment) (tSweep tCreate : ℤ) : NetworkManager :=
  let e := nm.endpointFor f.fromNode
  nm.put f.fromNode { e with incoming := e.incoming.arrived f tSweep tCreate }
    (arrivalRequests (nm.target f tSweep tCreate) f ++ nm.outqueue)

/-- The manager after a packet has been popped. -/
def popped (nm : NetworkManager) (src : NodeID) (pid : ℕ) (tSweep : ℤ) : NetworkManager :=
  match nm.endpoint src with
  | none => nm
  | some e => nm.put src { e with incoming := e.incoming.popped pid tSweep } nm.outqueue

/-- An arrival changes the incoming bucket of the sender's endpoint. -/
lemma Wf.endpoint_arrived (h : nm.Wf) (n : NodeID) :
    (nm.arrived f tSweep tCreate).endpoint n
      = if nodeidEqual f.fromNode n then some { nm.endpointFor f.fromNode with
          incoming := (nm.endpointFor f.fromNode).incoming.arrived f tSweep tCreate }
        else nm.endpoint n :=
  h.endpoint_put (e := { nm.endpointFor f.fromNode with incoming := _ })
    (h.endpointFor_node f.fromNode)

/-- What popping a packet answers. -/
def popAnswer (nm : NetworkManager) (src : NodeID) (pid size : ℕ) (tSweep : ℤ) : ℤ × Bytes × ℕ :=
  match nm.endpoint src with
  | none => (-2, [], size)
  | some e => e.incoming.popAnswer pid size tSweep

/-- **The arrival of a fragment**, in one line. -/
theorem OutqueueInv.addFragment (h : nm.OutqueueInv) (f : Fragment) (tSweep tCreate : ℤ) :
    networkManagerAddIncomingFragment nm f tSweep tCreate
      = (nm.arrived f tSweep tCreate, arrivalState (nm.target f tSweep tCreate) f) := by
  have hu : (nm.endpointFor f.fromNode).incoming.Unlinked :=
    (h.owns_endpointFor f.fromNode).unlinked
  rw [networkManagerAddIncomingFragment_eq]
  simp only [hu.addFragment (h.wf.endpointFor_wf f.fromNode).incoming]
  rfl

/-- **Popping a packet**, in one line. -/
theorem OutqueueInv.popPacket (h : nm.OutqueueInv) (src : NodeID) (pid size : ℕ) (tSweep : ℤ) :
    networkManagerPopIncomingPacket nm src pid size tSweep
      = (nm.popped src pid tSweep, nm.popAnswer src pid size tSweep) := by
  cases he : nm.endpoint src with
  | none => simp only [networkManagerPopIncomingPacket, popped, popAnswer, he]
  | some e =>
      have hu : e.incoming.Unlinked := (h.owns src e he).unlinked
      rw [networkManagerPopIncomingPacket_some he]
      simp only [hu.popPacket (h.wf.endpoint_wf he).incoming, popped, popAnswer, he]

/-- Requests are no fragments, so an arrival keeps the invariant. -/
theorem OutqueueInv.arrived (h : nm.OutqueueInv) : (nm.arrived f tSweep tCreate).OutqueueInv := by
  have hwf := h.wf.endpointFor_wf f.fromNode
  have hown := h.owns_endpointFor f.fromNode
  have hcount : ∀ dst pid i, (arrivalRequests (nm.target f tSweep tCreate) f
      ++ nm.outqueue).count (.fragment dst pid i) = nm.outqueue.count (.fragment dst pid i) := by
    intro dst pid i
    have hnone : QueueElem.fragment dst pid i
        ∉ arrivalRequests (nm.target f tSweep tCreate) f := fun hm => by
      obtain ⟨j, -, he⟩ := List.mem_map.mp hm
      cases he
    rw [List.count_append, List.count_eq_zero.mpr hnone, Nat.zero_add]
  have hu : (nm.endpointFor f.fromNode).incoming.Unlinked := hown.unlinked
  exact h.put rfl ⟨hwf.incoming.arrived _ _ _, hwf.outgoing, hwf.fragSize,
      PacketBucket.arrived_maxPktAge.trans hwf.inAge, hwf.outAge⟩
    ((hown.incoming (hu.arrived hwf.incoming)).congr fun dst pid i _ => hcount dst pid i)
    fun dst pid i _ => hcount dst pid i

theorem OutqueueInv.popped (h : nm.OutqueueInv) (src : NodeID) (pid : ℕ) (tSweep : ℤ) :
    (nm.popped src pid tSweep).OutqueueInv := by
  rw [NetworkManager.popped]
  cases he : nm.endpoint src with
  | none => exact h
  | some e =>
      have hwf := h.wf.endpoint_wf he
      have hown := h.owns src e he
      have hu : e.incoming.Unlinked := hown.unlinked
      exact h.put (by rw [endpointFor_of_some he])
        ⟨hwf.incoming.popped pid tSweep, hwf.outgoing, hwf.fragSize,
          (PacketBucket.popped_maxPktAge pid tSweep).trans hwf.inAge, hwf.outAge⟩
        (hown.incoming (hu.popped hwf.incoming pid tSweep)) (SameElsewhere.refl _ _)

@[simp] lemma arrived_outqueue : (nm.arrived f tSweep tCreate).outqueue
    = arrivalRequests (nm.target f tSweep tCreate) f ++ nm.outqueue := rfl

@[simp] lemma arrived_fragSize : (nm.arrived f tSweep tCreate).fragSize = nm.fragSize :=
  put_fragSize

@[simp] lemma popped_fragSize (src : NodeID) (pid : ℕ) :
    (nm.popped src pid tSweep).fragSize = nm.fragSize := by
  rw [popped]
  cases nm.endpoint src <;> simp

@[simp] lemma popped_outqueue (src : NodeID) (pid : ℕ) :
    (nm.popped src pid tSweep).outqueue = nm.outqueue := by
  rw [popped]
  cases nm.endpoint src <;> rfl

end NetworkManager

end PeerStreamer
