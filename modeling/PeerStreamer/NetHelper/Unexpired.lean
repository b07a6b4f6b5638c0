import PeerStreamer.NetHelper.AtMostOnce

/-!
# While nothing expires

A sweep that comes early enough drops nothing (`PacketBucket.Wf.fresh_of_since`), so that until then
the operations do to the stored packets and to the queue what they are meant to do: packets are
added, and only one that is popped is removed.
-/

namespace PeerStreamer

/-! ## The packets sent -/

/-- The number of fragments of a packet, and when it was made. -/
def FragmentedPacket.shape (fp : FragmentedPacket) : ℕ × ℤ := (fp.fragNum, fp.creationTimestamp)

lemma FragmentedPacket.relink_shape (fp : FragmentedPacket) (i : ℕ) (b : Bool) :
    (fp.relink i b).shape = fp.shape := by
  simp [shape, relink, fragNum]

/-- The shape of the packet `pid` sent to `n`, if it is stored. -/
def NetworkManager.sentShape (nm : NetworkManager) (n : NodeID) (pid : ℕ) : Option (ℕ × ℤ) :=
  ((nm.endpointFor n).outgoing.lookup pid).map FragmentedPacket.shape

namespace NetworkManager

section Sent

variable {nm nm' : NetworkManager} {dst : NodeID} {e : Endpoint} {q : MsgList} {pid i : ℕ}
  {t₀ t : ℤ}

lemma Wf.sentShape_put (h : nm.Wf) (hnode : nodeidEqual e.node dst)
    (hsame : ∀ p, (e.outgoing.lookup p).map FragmentedPacket.shape = nm.sentShape dst p) :
    (nm.put dst e q).sentShape = nm.sentShape := by
  funext n p
  rw [sentShape, h.endpointFor_put hnode]
  split_ifs with hn
  · rw [hsame, sentShape, (h.endpointFor_congr hn).2, ← sentShape]
  · rfl

/-- Setting a link changes no shape. -/
lemma Wf.sentShape_link (h : nm.Wf) (he : nm.endpoint dst = some e) {fp : FragmentedPacket}
    (hl : e.outgoing.lookup pid = some fp) (b : Bool) :
    (nm.link e fp i b q).sentShape = nm.sentShape := by
  have hout := (h.endpoint_wf he).outgoing
  have hnode := h.nodeidEqual_of_endpoint he
  rw [link, ← put_of_some he]
  refine h.sentShape_put hnode fun p => ?_
  have hpid : fp.packetId = pid := hout.packetId_of_lookup hl
  have hsame : (fp.relink i b).packetId = pid := hpid
  simp only [hout.lookup_store, sentShape, endpointFor_of_some he, hsame]
  split_ifs with hp
  · subst hp
    rw [hl, Option.map_some, Option.map_some, Option.map_some, fp.relink_shape]
  · rfl

/-- Popping a message changes no shape. -/
lemma OutqueueInv.sentShape_popMsg (h : nm.OutqueueInv) {m : Option NetMessage}
    (hpop : networkManagerPopOutgoingNetMsg nm = .ok (nm', m)) :
    nm'.sentShape = nm.sentShape ∧ nm'.maxPktAge = nm.maxPktAge := by
  cases hq : nm.outqueue with
  | nil =>
      rw [networkManagerPopOutgoingNetMsg, hq] at hpop
      cases hpop
      exact ⟨rfl, rfl⟩
  | cons el q =>
      cases el with
      | request r =>
          rw [networkManagerPopOutgoingNetMsg, hq] at hpop
          cases hpop
          exact ⟨rfl, rfl⟩
      | fragment d p i =>
          obtain ⟨e, fp, f, he, -, hl, -, hpop', -⟩ := h.pop_fragment hq
          rw [hpop'] at hpop
          cases hpop
          exact ⟨h.wf.sentShape_link he hl false, rfl⟩

variable (hs : (nm.endpointFor dst).outgoing.Since t₀) (ht : t < t₀ + nm.maxPktAge)

include hs ht

lemma Wf.refreshed_of_since (h : nm.Wf) (he : nm.endpoint dst = some e) :
    e.refreshed t = e ∧ e.sweptQueue t q = q := by
  rw [endpointFor_of_some he] at hs
  rw [← (h.endpoint_wf he).outAge] at ht
  rw [Endpoint.refreshed, Endpoint.sweptQueue, hs.fresh ht, hs.swept ht]
  exact ⟨rfl, rfl⟩

lemma OutqueueInv.refreshed_same (h : nm.OutqueueInv) :
    (nm.refreshed dst t).sentShape = nm.sentShape
      ∧ (nm.refreshed dst t).maxPktAge = nm.maxPktAge
      ∧ (nm.refreshed dst t).outqueue = nm.outqueue := by
  cases he : nm.endpoint dst with
  | none =>
      rw [NetworkManager.refreshed, he]
      exact ⟨rfl, rfl, rfl⟩
  | some e =>
      have hnode := h.wf.nodeidEqual_of_endpoint he
      obtain ⟨hsame, hqueue⟩ := h.wf.refreshed_of_since (q := nm.outqueue) hs ht he
      rw [refreshed_of_some he, hsame, hqueue]
      refine ⟨h.wf.sentShape_put hnode fun p => ?_, put_maxPktAge, rfl⟩
      rw [sentShape, endpointFor_of_some he]

/-- **A retransmission** changes nothing that is stored, and queues the fragment asked for unless it
is queued already. -/
lemma OutqueueInv.enqueueFragment_of_since (h : nm.OutqueueInv) {x : ℕ × ℤ}
    (hx : nm.sentShape dst pid = some x) (hi : i < x.1) :
    (networkManagerEnqueueOutgoingFragment nm dst pid i t).1.sentShape = nm.sentShape
      ∧ (networkManagerEnqueueOutgoingFragment nm dst pid i t).1.maxPktAge = nm.maxPktAge
      ∧ ((networkManagerEnqueueOutgoingFragment nm dst pid i t).1.outqueue = nm.outqueue
          ∧ .fragment (nm.endpointFor dst).node pid i ∈ nm.outqueue
        ∨ (networkManagerEnqueueOutgoingFragment nm dst pid i t).1.outqueue
          = nm.outqueue ++ [.fragment (nm.endpointFor dst).node pid i]) := by
  obtain ⟨hshape, hage, hsweep⟩ := h.refreshed_same hs ht
  rcases networkManagerEnqueueOutgoingFragment_cases h dst pid i t with
    ⟨hnone, -⟩ | ⟨e, fp, f, he, hl, hf, -, heq⟩
  · -- what is stored is found
    obtain ⟨fp, hl, rfl⟩ := Option.map_eq_some_iff.mp hx
    cases he : nm.endpoint dst with
    | none =>
        rw [endpointFor_of_none he] at hl
        simp [endpointCreate] at hl
    | some e =>
        obtain ⟨hsame, -⟩ := h.wf.refreshed_of_since (q := nm.outqueue) hs ht he
        rw [endpointFor_of_some he] at hl
        rw [NetworkManager.queued, h.wf.refreshed_endpoint he, hsame] at hnone
        simp only [hl, Option.map_eq_none_iff, List.getElem?_eq_none_iff] at hnone
        exact absurd hi (not_lt.mpr hnone)
  · obtain ⟨hsame, -⟩ := h.wf.refreshed_of_since (q := nm.outqueue) hs ht he
    rw [hsame] at hl heq
    have hown := h.owns dst e he
    have hel : fragmentListElement f = .fragment e.node pid i := (hown.named pid fp hl).element hf
    rw [heq, endpointFor_of_some he]
    split_ifs with hlinked
    · have hcount := hown.linked pid fp hl i f hf
      rw [hlinked, Bool.toNat_true] at hcount
      exact ⟨hshape, hage, Or.inl ⟨hsweep, List.count_pos_iff.mp (by omega)⟩⟩
    · refine ⟨h.wf.sentShape_link he hl true, rfl, Or.inr ?_⟩
      rw [← hel, ← hsweep]
      rfl

/-- **A packet** gets the next id and is queued as a whole. -/
lemma OutqueueInv.enqueued_of_since (h : nm.OutqueueInv) (src : NodeID) (data : Bytes)
    (tCreate : ℤ) (hfree : nm.IdFree dst t) :
    (∀ p, (nm.enqueued src dst data t tCreate).sentShape dst p
        = if (nm.endpointFor dst).outId = p then
            some (cutCount data.length (nm.endpointFor dst).outgoing.fragSize, tCreate)
          else nm.sentShape dst p)
      ∧ (nm.enqueued src dst data t tCreate).maxPktAge = nm.maxPktAge
      ∧ (nm.enqueued src dst data t tCreate).outqueue
        = ((nm.endpointFor dst).cut src data).map fragmentListElement ++ nm.outqueue := by
  have hwf := h.wf.endpointFor_wf dst
  have hage : t < t₀ + (nm.endpointFor dst).outgoing.maxPktAge := by rwa [hwf.outAge]
  refine ⟨fun p => ?_, put_maxPktAge, ?_⟩
  · rw [NetworkManager.enqueued, sentShape, h.wf.endpointFor_put
      (e := (nm.endpointFor dst).enqueued src data t tCreate) (h.wf.endpointFor_node dst),
      if_pos (nodeidEqual_self _), Endpoint.enqueued_lookup hwf.outgoing hfree, hs.fresh hage]
    split_ifs
    · simp [FragmentedPacket.shape, FragmentedPacket.fragNum, Endpoint.cut, cutFragments]
    · rfl
  · rw [NetworkManager.enqueued, put_outqueue, Endpoint.sweptQueue, hs.swept hage]
    rfl

end Sent

/-! ## The packets received -/

section Received

variable {nm : NetworkManager} {f : Fragment} {t₀ tSweep : ℤ} (tCreate : ℤ)
  (hs : (nm.endpointFor f.fromNode).incoming.Since t₀) (ht : tSweep < t₀ + nm.maxPktAge)

include hs ht

/-- After an arrival everything else is as it was. -/
lemma Wf.lookup_arrived_of_since (h : nm.Wf) (pid : ℕ) :
    ((nm.arrived f tSweep tCreate).endpointFor f.fromNode).incoming.lookup pid
      = if f.pid = pid then some ((nm.target f tSweep tCreate).put f)
        else (nm.endpointFor f.fromNode).incoming.lookup pid := by
  have hwf := h.endpointFor_wf f.fromNode
  rw [h.incoming_arrived, if_pos (nodeidEqual_self _), hwf.incoming.lookup_arrived,
    hs.fresh (by rwa [hwf.inAge]), NetworkManager.target]

lemma Wf.target_of_since (h : nm.Wf) :
    nm.target f tSweep tCreate = ((nm.endpointFor f.fromNode).incoming.lookup f.pid).getD
      (fragmentedPacketEmpty f.pid f.fromNode f.toNode f.fragNum tCreate) := by
  have hwf := h.endpointFor_wf f.fromNode
  rw [NetworkManager.target, PacketBucket.target, hs.fresh (by rwa [hwf.inAge])]

/-- The slots of the packet that a fragment has arrived for. -/
lemma Wf.holdsSlot_arrived_self (h : nm.Wf) (i : ℕ) :
    (nm.arrived f tSweep tCreate).holdsSlot f.fromNode (f.pid, i)
      = (((nm.target f tSweep tCreate).put f).slotData i).isSome := by
  rw [holdsSlot, h.lookup_arrived_of_since tCreate hs ht, if_pos rfl, Option.bind_some]

/-- The slots held after an arrival. -/
lemma Wf.holdsSlot_arrived_of_since (h : nm.Wf) (hdata : f.data ≠ none)
    (hid : f.id < (nm.target f tSweep tCreate).fragNum) :
    (nm.arrived f tSweep tCreate).holdsSlot f.fromNode
      = Function.update (nm.holdsSlot f.fromNode) (f.pid, f.id) true := by
  funext ⟨pid, i⟩
  rw [holdsSlot, h.lookup_arrived_of_since tCreate hs ht]
  dsimp only
  by_cases hpid : f.pid = pid
  · subst hpid
    rw [if_pos rfl, Option.bind_some, FragmentedPacket.put_slotData _ _ _ hid]
    by_cases hi : i = f.id
    · rw [if_pos hi, hi, Function.update_self]
      exact Option.isSome_iff_ne_none.mpr hdata
    · rw [if_neg hi, Function.update_of_ne (by simp [hi]), holdsSlot,
        h.target_of_since tCreate hs ht]
      cases (nm.endpointFor f.fromNode).incoming.lookup f.pid with
      | none => simp [FragmentedPacket.fragmentedPacketEmpty_slotData]
      | some fp => rfl
  · rw [if_neg hpid, Function.update_of_ne (by simp [Ne.symm hpid]), holdsSlot]

/-- The bucket stays as young as it is. -/
lemma Wf.since_arrived (h : nm.Wf) (hc : t₀ ≤ tCreate) :
    ((nm.arrived f tSweep tCreate).endpointFor f.fromNode).incoming.Since t₀ := by
  intro pid fp hl
  rw [h.lookup_arrived_of_since tCreate hs ht] at hl
  split_ifs at hl with hpid
  · obtain rfl := Option.some.inj hl
    rw [FragmentedPacket.put_creationTimestamp, h.target_of_since tCreate hs ht]
    cases hl' : (nm.endpointFor f.fromNode).incoming.lookup f.pid with
    | none => exact hc
    | some fp => exact hs _ fp hl'
  · exact hs pid fp hl

end Received

lemma popped_maxPktAge {nm : NetworkManager} (src : NodeID) (pid : ℕ) (t : ℤ) :
    (nm.popped src pid t).maxPktAge = nm.maxPktAge := by
  rw [NetworkManager.popped]
  cases nm.endpoint src with
  | none => rfl
  | some e => exact put_maxPktAge

/-- After a pop everything else is as it was. -/
lemma Wf.lookup_popped_of_since {nm : NetworkManager} {t₀ t : ℤ} {src : NodeID} (h : nm.Wf)
    (hs : (nm.endpointFor src).incoming.Since t₀) (ht : t < t₀ + nm.maxPktAge) (pid pid' : ℕ) :
    ((nm.popped src pid t).endpointFor src).incoming.lookup pid'
      = if pid = pid' then none else (nm.endpointFor src).incoming.lookup pid' := by
  rw [h.lookup_popped, hs.fresh (by rwa [(h.endpointFor_wf src).inAge])]

end NetworkManager

end PeerStreamer
